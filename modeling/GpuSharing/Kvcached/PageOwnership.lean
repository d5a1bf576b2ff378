import GpuSharing.Kvcached.PageAccounting

namespace GpuSharing.Kvcached.System

open Transition PageAllocator

/-- A growth that needs new ids finds no reclaimed page to reuse first. -/
def GrowsCleanly (c : PageAllocatorConfig) (s : System) : Act → Prop
  | .resize m => m.tdiv c.pageSize ≤ s.pa.highWater ∨ s.pa.reclaimedPageList = []
  | _ => True

instance (c : PageAllocatorConfig) : ∀ s act, Decidable (GrowsCleanly c s act)
  | s, .resize m =>
    inferInstanceAs (Decidable (m.tdiv c.pageSize ≤ s.pa.highWater ∨ s.pa.reclaimedPageList = []))
  | _, .allocPage | _, .wake | _, .freePage _ | _, .freePages _ | _, .trim
  | _, .resetFreePageOrder | _, .startPrealloc | _, .mapReturns _ | _, .unmapReturns _
  | _, .relock | _, .workerGrab _ | _, .workerMapReturns _ | _, .workerRelock => .isTrue trivial

/-- No id is in two places, and all of them lie below the high-water mark. -/
structure Owned (s : System) : Prop where
  once : ∀ q, s.places.count q ≤ 1
  below : ∀ q : Int, q ∈ s.places → 0 ≤ q ∧ q < s.pa.highWater
  counted : s.Counted

theorem count_range_le (a b q : Int) : (Int.range a b).count q ≤ 1 :=
  List.nodup_iff_count_le_one.mp (nodup_intRange a b) q

theorem highWater_nonneg {s : System} (h : s.Counted) : 0 ≤ s.pa.highWater := by
  have hfree := numFreePages_nonneg h
  have hinuse := h.inuse
  simp only [getNumInusePages, inuseCount] at hinuse
  simp only [highWater]
  omega

/-- A clean growth invents ids from the high-water mark on. -/
theorem freshIds_clean {s : System} {c : PageAllocatorConfig} {m : Int}
    (hg : GrowsCleanly c s (.resize m)) {q : Int}
    (hq : q ∈ s.pa.freshIds (m.tdiv c.pageSize)) : s.pa.highWater ≤ q := by
  rcases hg with hle | hnil
  · rw [freshIds_nil _ _ hle] at hq
    cases hq
  · unfold freshIds at hq
    split_ifs at hq
    · cases hq
    · rw [Int.mem_range_iff] at hq
      simp only [highWater, hnil, List.length_nil]
      omega

theorem freshIds_lt {a : PageAllocator} {n q : Int} (hq : q ∈ a.freshIds n) :
    a.numTotalPages ≤ q ∧ q < a.highWater + (a.freshIds n).length := by
  unfold freshIds at hq ⊢
  split_ifs at hq ⊢
  · cases hq
  · rw [Int.mem_range_iff] at hq
    simp only [Int.range, List.length_map, List.length_range, highWater]
    omega

theorem init_owned (c : PageAllocatorConfig) : (init c).Owned := by
  have h := c.numPages_nonneg
  have hp : (init c).places = Int.range 0 c.numPages := by
    simp [places, init, PageAllocator.init, lists]
  refine ⟨fun q => ?_, fun q hq => ?_, init_counted c⟩
  · rw [hp]
    exact count_range_le _ _ q
  · rw [hp, Int.mem_range_iff] at hq
    simpa [init, PageAllocator.init, highWater] using hq

theorem step_owned {c : PageAllocatorConfig} {s t : System} {act : Act} (hs : s.Owned)
    (hg : GrowsCleanly c s act) (h : step c s act = some t) : t.Owned := by
  obtain ⟨fresh, lost, hc, hfresh, -⟩ := step_conserves hs.counted.pending h
  have hnonneg := highWater_nonneg hs.counted
  have hnew : ∀ q : Int, q ∈ fresh → s.pa.highWater ≤ q ∧ q < s.pa.highWater + fresh.length := by
    rcases hfresh with rfl | ⟨m, rfl, rfl⟩
    · simp
    · exact fun q hq => ⟨freshIds_clean hg hq, (freshIds_lt hq).2⟩
  have hone : ∀ q, fresh.count q ≤ 1 := by
    rcases hfresh with rfl | ⟨m, rfl, rfl⟩
    · simp
    · intro q
      unfold freshIds
      split_ifs
      · simp
      · exact count_range_le _ _ q
  refine ⟨fun q => ?_, fun q hq => ?_, step_counted hs.counted h⟩
  · have hq := hc.count q
    have hold := hs.once q
    have hfq := hone q
    by_cases hm : q ∈ fresh
    · have hnot : s.places.count q = 0 := by
        rw [List.count_eq_zero]
        intro hin
        have := (hs.below q hin).2
        have := (hnew q hm).1
        omega
      omega
    · rw [List.count_eq_zero.mpr hm] at hq
      omega
  · have hq' := hc.count q
    have hpos := List.count_pos_iff.mpr hq
    rw [hc.highWater]
    by_cases hm : q ∈ fresh
    · have := hnew q hm
      omega
    · rw [List.count_eq_zero.mpr hm] at hq'
      have hin : q ∈ s.places := List.count_pos_iff.mp (by omega)
      have := hs.below q hin
      omega

theorem run_owned {c : PageAllocatorConfig} {acts : List Act} {s : System}
    (hrun : run (step c) (init c) acts = some s)
    (hg : Along (step c) (GrowsCleanly c) (init c) acts) : s.Owned :=
  run_invariant_along (fun _ _ _ => step_owned) (init_owned c) hg hrun

/-- Free, reserved, reclaimed, handed-out and in-flight pages are pairwise distinct after every
run whose growths are clean. -/
theorem places_nodup (c : PageAllocatorConfig) (acts : List Act) (s : System)
    (hrun : run (step c) (init c) acts = some s)
    (hg : Along (step c) (GrowsCleanly c) (init c) acts) : s.places.Nodup :=
  List.nodup_iff_count_le_one.mpr (run_owned hrun hg).once

/-- Four pages; three are reclaimed and the regrowth reuses all of them. -/
def regrowthConfig : PageAllocatorConfig where
  numLayers := 1
  memSizePerLayer := 4
  pageSize := 1

def cleanRegrowth : List Act := [.allocPage, .mapReturns true, .relock, .resize 1, .resize 4,
  .allocPage, .mapReturns true, .relock]

theorem places_nodup_regrowth :
    ((run (step regrowthConfig) (init regrowthConfig) cleanRegrowth).get (by decide)).places.Nodup :=
  places_nodup regrowthConfig cleanRegrowth _ (Option.some_get _).symm (by decide)

/-- Shrinking two pages to one and then growing to three invents page 1 a second time. -/
def duplicateConfig : PageAllocatorConfig where
  numLayers := 1
  memSizePerLayer := 2
  pageSize := 1
  enablePagePrealloc := false

def shrinkThenGrow : List Act := [.resize 1, .resize 3, .allocPage, .mapReturns true, .relock,
  .allocPage, .mapReturns true, .relock, .allocPage, .mapReturns true, .relock]

theorem shrinkThenGrow_duplicates :
    ∃ s, run (step duplicateConfig) (init duplicateConfig) shrinkThenGrow = some s ∧
      s.handedOut = [1, 1, 0] ∧ ¬s.places.Nodup := by
  refine ⟨(run (step duplicateConfig) (init duplicateConfig) shrinkThenGrow).get (by decide),
    (Option.some_get _).symm, by decide, by decide⟩

/-- Every id below the high-water mark is somewhere. -/
def Complete (s : System) : Prop := ∀ q : Int, 0 ≤ q → q < s.pa.highWater → q ∈ s.places

theorem init_complete (c : PageAllocatorConfig) : (init c).Complete := by
  intro q h0 hq
  have hq : q < c.numPages := by simpa [init, PageAllocator.init, highWater] using hq
  simp [places, init, PageAllocator.init, lists, Int.mem_range_iff, h0, hq]

theorem step_complete {c : PageAllocatorConfig} {s t : System} {act : Act}
    (hp : s.ShrinkPending) (hs : s.Complete) (hg : GrowsCleanly c s act) (hl : s.lostBy act = [])
    (h : step c s act = some t) : t.Complete := by
  obtain ⟨fresh, hc, hfresh⟩ := step_conserves_lost hp h
  intro q h0 hq
  have hcount := hc.count q
  rw [hl, List.count_nil, Nat.add_zero] at hcount
  rw [← List.count_pos_iff, hcount]
  by_cases hold : q < s.pa.highWater
  · have := List.count_pos_iff.mpr (hs q h0 hold)
    omega
  · have hin : q ∈ fresh := by
      rw [hc.highWater] at hq
      rcases hfresh with rfl | ⟨m, rfl, rfl⟩
      · simp at hq
        omega
      · rcases hg with hle | hnil
        · rw [freshIds_nil _ _ hle, List.length_nil] at hq
          omega
        · unfold freshIds at hq ⊢
          split_ifs at hq ⊢
          · simp at hq
            omega
          · simp only [Int.range, List.length_map, List.length_range, highWater, hnil,
              List.length_nil] at hq hold
            rw [Int.mem_range_iff]
            simp only [hnil, List.length_nil]
            omega
    have := List.count_pos_iff.mpr hin
    omega

theorem lostBy_of_succeeds {s : System} {act : Act} (h : Succeeds s act) : s.lostBy act = [] := by
  apply lostBy_eq_nil
  rintro rfl
  cases h

/-- A growth that is not clean gives out an id that is already somewhere. -/
theorem unclean_step_duplicates {c : PageAllocatorConfig} {s t : System} {act : Act}
    (hs : s.Counted) (hcomplete : s.Complete) (ht : step c s act = some t)
    (hm : ¬GrowsCleanly c s act) :
    ∃ q : Int, 0 ≤ q ∧ q < t.pa.highWater ∧ 1 < t.places.count q := by
  obtain ⟨m, rfl⟩ : ∃ m, act = .resize m := by
    cases act with
    | resize m => exact ⟨m, rfl⟩
    | _ => exact absurd trivial hm
  simp only [GrowsCleanly, not_or, not_le] at hm
  obtain ⟨hlarge, hreuse⟩ := hm
  have hpos := List.length_pos_iff.mpr hreuse
  have hfree := numFreePages_nonneg hs
  have hinuse := hs.inuse
  simp only [getNumInusePages, inuseCount] at hinuse
  simp only [highWater] at hlarge
  have hguard : ¬m.tdiv c.pageSize < s.pa.getNumInusePages := by
    simp only [getNumInusePages]
    omega
  have hnext : t = { s with pa := s.pa.grow (m.tdiv c.pageSize) } := by
    simp only [step] at ht
    split_ifs at ht
    cases ht
    unfold resizeStep resizeLocked
    dsimp only
    rw [if_neg hguard, if_neg (by omega), if_pos (by omega)]
  have hin : s.pa.numTotalPages ∈ s.places :=
    hcomplete _ (by omega) (by simp only [highWater]; omega)
  have hfresh : s.pa.numTotalPages ∈ s.pa.freshIds (m.tdiv c.pageSize) := by
    unfold freshIds
    rw [if_neg hguard, Int.mem_range_iff]
    omega
  have htwice : t.places.count s.pa.numTotalPages =
      s.places.count s.pa.numTotalPages +
        (s.pa.freshIds (m.tdiv c.pageSize)).count s.pa.numTotalPages := by
    rw [hnext]
    simp only [count_places, count_grow _ _ s.pa hguard]
    omega
  have hmark : t.pa.highWater =
      s.pa.highWater + (s.pa.freshIds (m.tdiv c.pageSize)).length := by
    rw [hnext]
    exact highWater_grow _ _ hguard (by omega)
  have h1 := List.count_pos_iff.mpr hin
  have h2 := List.count_pos_iff.mpr hfresh
  refine ⟨s.pa.numTotalPages, by omega, ?_, by omega⟩
  rw [hmark]
  simp only [highWater]
  omega

/-- The first growth that is not clean gives out an id that is already somewhere. -/
theorem unclean_growth_duplicates {c : PageAllocatorConfig} {acts : List Act} {s t : System}
    {m : Int} (hrun : run (step c) (init c) acts = some s)
    (hg : Along (step c) (GrowsCleanly c) (init c) acts)
    (hok : Along (step c) Succeeds (init c) acts)
    (ht : step c s (.resize m) = some t) (hm : ¬GrowsCleanly c s (.resize m)) :
    ¬t.places.Nodup := by
  have hs : s.Counted ∧ s.Complete := by
    refine run_invariant_along (C := fun s act => GrowsCleanly c s act ∧ Succeeds s act)
      (I := fun s => s.Counted ∧ s.Complete) ?_ ⟨init_counted c, init_complete c⟩
      (along_and.mpr ⟨hg, hok⟩) hrun
    rintro s act t ⟨hi, hs⟩ ⟨hg, hok⟩ ht
    exact ⟨step_counted hi ht, step_complete hi.pending hs hg (lostBy_of_succeeds hok) ht⟩
  obtain ⟨q, -, -, hq⟩ := unclean_step_duplicates hs.1 hs.2 ht hm
  intro hnodup
  exact absurd (List.nodup_iff_count_le_one.mp hnodup q) (by omega)

end GpuSharing.Kvcached.System
