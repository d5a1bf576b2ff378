import GpuSharing.Kvcached.AllocatorOutcomes

namespace GpuSharing.Kvcached

open Transition

namespace PageAllocator

/-- The ids `resize` invents on its growth path. -/
def freshIds (newNumPages : Int) (a : PageAllocator) : List PageId :=
  if newNumPages < a.getNumInusePages then []
  else Int.range a.numTotalPages (a.numTotalPages + (newNumPages - a.numTotalPages -
    min (a.reclaimedPageList.length : Int) (newNumPages - a.numTotalPages)))

theorem count_lists (q : PageId) (a : PageAllocator) :
    a.lists.count q = a.freePageList.count q + a.reservedPageList.count q +
      a.reclaimedPageList.count q := by
  simp [lists, Nat.add_assoc]

theorem count_take_add_drop (q : PageId) (n : Nat) (ps : List PageId) :
    (ps.take n).count q + (ps.drop n).count q = ps.count q := by
  rw [← List.count_append, List.take_append_drop]

theorem count_grow (q : PageId) (n : Int) (a : PageAllocator) (hn : ¬n < a.getNumInusePages) :
    (a.grow n).lists.count q = a.lists.count q + (a.freshIds n).count q := by
  have h := count_take_add_drop q (min (a.reclaimedPageList.length : Int)
    (n - a.numTotalPages)).toNat a.reclaimedPageList
  simp only [count_lists, grow, freshIds, if_neg hn, List.count_append]
  omega

theorem highWater_grow (n : Int) (a : PageAllocator) (hn : ¬n < a.getNumInusePages)
    (hg : a.numTotalPages < n) :
    (a.grow n).highWater = a.highWater + (a.freshIds n).length := by
  simp only [highWater, grow, freshIds, if_neg hn, Int.range, List.length_map,
    List.length_range, List.length_drop]
  omega

theorem count_reclaim (q : PageId) (n : Int) (a : PageAllocator) :
    (a.reclaim n).lists.count q = a.lists.count q := by
  have h := count_take_add_drop q (a.freePageList.length - (a.numTotalPages - n).toNat)
    a.freePageList
  simp only [count_lists, reclaim, List.count_append, List.count_reverse]
  omega

theorem highWater_reclaim (n : Int) (a : PageAllocator)
    (hk : ¬a.freePageList.length < a.numTotalPages - n) (hn : n ≤ a.numTotalPages) :
    (a.reclaim n).highWater = a.highWater := by
  simp only [highWater, reclaim, List.length_append, List.length_reverse, List.length_drop]
  omega

theorem freshIds_nil (n : Int) (a : PageAllocator) (hn : n ≤ a.highWater) :
    a.freshIds n = [] := by
  unfold freshIds
  split_ifs
  · rfl
  · simp only [highWater] at hn
    simp only [Int.range, List.map_eq_nil_iff, List.range_eq_nil]
    omega

end PageAllocator

namespace System

open PageAllocator

theorem count_places (q : PageId) (s : System) :
    s.places.count q = s.pa.lists.count q + s.handedOut.count q +
      s.engine.inFlight.count q + s.worker.inFlight.count q := by
  simp [places, Nat.add_assoc]

/-- The target of a shrink under way is at most the page count. -/
def ShrinkPending (s : System) : Prop :=
  ∀ n ps, s.engine = .unmapping (.resize n) ps ∨ s.engine = .unmapped (.resize n) ps →
    n ≤ s.pa.numTotalPages

/-- What a step does with the ids and with the high-water mark of the ids. -/
structure Conserves (s t : System) (fresh lost : List PageId) : Prop where
  count : ∀ q, t.places.count q + lost.count q = s.places.count q + fresh.count q
  highWater : t.pa.highWater = s.pa.highWater + fresh.length
  pending : t.ShrinkPending

theorem Conserves.moves {s t : System} (hc : ∀ q, t.places.count q = s.places.count q)
    (hw : t.pa.highWater = s.pa.highWater) (hp : t.ShrinkPending) : Conserves s t [] [] :=
  ⟨fun q => by simp [hc q], by simp [hw], hp⟩

/-- Every step conserves the ids: only the growth path of `resize` adds some, and only an unmap
call that throws drops some. -/
theorem step_conserves {c : PageAllocatorConfig} {s t : System} {act : Act}
    (hs : s.ShrinkPending) (h : step c s act = some t) :
    ∃ fresh lost, Conserves s t fresh lost ∧
      (fresh = [] ∨ ∃ m, act = .resize m ∧ fresh = s.pa.freshIds (m.tdiv c.pageSize)) ∧
      (lost = [] ∨ act = .unmapReturns false) := by
  have quiet (hi : s.engine = .idle ∨ s.engine = .waiting) : s.engine.inFlight = [] := by
    rcases hi with hi | hi <;> simp [hi]
  cases step_outcome h with
  | allocFast act p rest flag hi hr =>
    refine ⟨[], [], .moves (fun q => ?_) rfl (by simp [ShrinkPending]), .inl rfl, .inl rfl⟩
    simp only [count_places, count_lists, quiet hi, hr, List.count_cons, List.count_nil,
      EnginePc.inFlight_idle]
    omega
  | allocSlow act p rest hi hf =>
    refine ⟨[], [], .moves (fun q => ?_) rfl (by simp [ShrinkPending]), .inl rfl, .inl rfl⟩
    simp only [count_places, count_lists, quiet hi, hf, List.count_cons, List.count_nil,
      EnginePc.inFlight_mapping]
    omega
  | allocNone act pc hi hpc =>
    refine ⟨[], [], .moves (fun q => ?_) rfl ?_, .inl rfl, .inl rfl⟩
    · rcases hpc with rfl | rfl <;> simp [count_places, quiet hi]
    · rcases hpc with rfl | rfl <;> simp [ShrinkPending]
  | frees act ps k pc hi hp hpc =>
    refine ⟨[], [], .moves (fun q => ?_) rfl ?_, .inl rfl, .inl rfl⟩
    · have out := List.Subperm.count_le hp q
      have hk := count_take_add_drop q k ps
      have hpc : pc.inFlight = ps.drop k := by
        rcases hpc with ⟨rfl, hd⟩ | rfl
        · rw [hd]; rfl
        · rfl
      simp only [count_places, count_lists, quiet (.inl hi), hpc, List.count_append,
        List.count_diff, List.count_nil]
      omega
    · rcases hpc with ⟨rfl, -⟩ | rfl <;> simp [ShrinkPending]
  | keeps => exact ⟨[], [], .moves (fun _ => rfl) rfl hs, .inl rfl, .inl rfl⟩
  | grows m hi hu hg =>
    refine ⟨_, [], ⟨fun q => ?_, highWater_grow _ _ hu hg, by simp [ShrinkPending, hi]⟩,
      .inr ⟨m, rfl, rfl⟩, .inl rfl⟩
    simp only [count_places, count_grow q _ s.pa hu, List.count_nil]
    omega
  | reclaims m hi hu hg hf =>
    refine ⟨[], [], .moves (fun q => ?_) (highWater_reclaim _ _ hf hg.le)
      (by simp [ShrinkPending, hi]), .inl rfl, .inl rfl⟩
    simp only [count_places, count_reclaim]
  | unmapsReserved act k hi hk =>
    refine ⟨[], [], .moves (fun q => ?_) rfl ?_, .inl rfl, .inl rfl⟩
    · simp only [count_places, count_lists, quiet (.inl hi), List.count_nil,
        EnginePc.inFlight_unmapping]
      omega
    · intro n ps hn
      rcases hk with rfl | ⟨m, -, rfl, -, hm⟩
      · simp at hn
      · simp only [EnginePc.unmapping.injEq, AfterUnmap.resize.injEq, reduceCtorEq,
          or_false] at hn
        rw [← hn.1]
        exact hm.le
  | sorts act ps hps =>
    refine ⟨[], [], .moves (fun q => ?_) rfl hs, .inl rfl, .inl rfl⟩
    simp only [count_places, count_lists, hps.count_eq q]
  | flags act flag =>
    exact ⟨[], [], .moves (fun q => by simp only [count_places, count_lists]) rfl hs,
      .inl rfl, .inl rfl⟩
  | mapOk p hi =>
    refine ⟨[], [], .moves (fun q => ?_) rfl (by simp [ShrinkPending]), .inl rfl, .inl rfl⟩
    simp only [count_places, hi, EnginePc.inFlight_mapping, EnginePc.inFlight_mapped]
  | mapFails p hi =>
    refine ⟨[], [], .moves (fun q => ?_) rfl (by simp [ShrinkPending]), .inl rfl, .inl rfl⟩
    simp only [count_places, count_lists, allocPageFailed, hi, List.count_cons, List.count_nil,
      EnginePc.inFlight_mapping, EnginePc.inFlight_idle]
    omega
  | unmapOk k ps hi =>
    refine ⟨[], [], .moves (fun q => ?_) rfl ?_, .inl rfl, .inl rfl⟩
    · simp only [count_places, hi, EnginePc.inFlight_unmapping, EnginePc.inFlight_unmapped]
    · intro n qs hn
      simp only [EnginePc.unmapped.injEq, reduceCtorEq, false_or] at hn
      exact hs n ps (.inl (by rw [hi, hn.1]))
  | unmapFails k ps hi =>
    refine ⟨[], ps, ⟨fun q => ?_, by simp, by simp [ShrinkPending]⟩, .inl rfl, .inr rfl⟩
    simp only [count_places, hi, List.count_nil, EnginePc.inFlight_unmapping,
      EnginePc.inFlight_idle]
    omega
  | handsOut p flag hi =>
    refine ⟨[], [], .moves (fun q => ?_) rfl (by simp [ShrinkPending]), .inl rfl, .inl rfl⟩
    simp only [count_places, count_lists, hi, List.count_cons, List.count_nil,
      EnginePc.inFlight_mapped, EnginePc.inFlight_idle]
    omega
  | pushes k ps hi =>
    refine ⟨[], [], .moves (fun q => ?_) rfl (by simp [ShrinkPending]), .inl rfl, .inl rfl⟩
    simp only [count_places, count_lists, pushFree, hi, List.count_append, List.count_nil,
      EnginePc.inFlight_unmapped, EnginePc.inFlight_idle]
    omega
  | relockReclaims n ps hi hf =>
    have hn : n ≤ (s.pa.pushFree ps).numTotalPages := hs n ps (.inr hi)
    refine ⟨[], [], .moves (fun q => ?_) (highWater_reclaim n _ hf hn)
      (by simp [ShrinkPending]), .inl rfl, .inl rfl⟩
    have push : (s.pa.pushFree ps).lists.count q = s.pa.lists.count q + ps.count q := by
      simp only [count_lists, pushFree, List.count_append]
      omega
    simp only [count_places, count_reclaim, push, hi, List.count_nil,
      EnginePc.inFlight_unmapped, EnginePc.inFlight_idle]
    omega
  | grabs act k flag hi =>
    refine ⟨[], [], .moves (fun q => ?_) rfl hs, .inl rfl, .inl rfl⟩
    have hk := count_take_add_drop q k s.pa.freePageList
    simp only [count_places, count_lists, hi, List.count_nil, WorkerPc.inFlight_mapping,
      WorkerPc.inFlight_idle]
    omega
  | workerMapOk ps hi =>
    refine ⟨[], [], .moves (fun q => ?_) rfl hs, .inl rfl, .inl rfl⟩
    simp only [count_places, hi, WorkerPc.inFlight_mapping, WorkerPc.inFlight_mapped]
  | workerMapFails ps hi =>
    refine ⟨[], [], .moves (fun q => ?_) rfl hs, .inl rfl, .inl rfl⟩
    simp only [count_places, count_lists, preallocFailed, hi, List.count_append, List.count_nil,
      WorkerPc.inFlight_mapping, WorkerPc.inFlight_idle]
    omega
  | reserves ps hi =>
    refine ⟨[], [], .moves (fun q => ?_) rfl hs, .inl rfl, .inl rfl⟩
    simp only [count_places, count_lists, preallocReserve, hi, List.count_append, List.count_nil,
      WorkerPc.inFlight_mapped, WorkerPc.inFlight_idle]
    omega

/-- The pages that a step leaves in no place: those of an unmap call that throws. -/
def lostBy (s : System) : Act → List PageId
  | .unmapReturns false => s.engine.inFlight
  | _ => []

theorem unmapFails_spec {c : PageAllocatorConfig} {s t : System}
    (h : step c s (.unmapReturns false) = some t) :
    ∃ k ps, s.engine = .unmapping k ps ∧ t = { s with engine := .idle } := by
  simp only [step] at h
  split at h
  case h_1 heq => cases heq
  case h_2 k ps hengine _ =>
    cases h
    exact ⟨k, ps, hengine, rfl⟩
  case h_3 => cases h

theorem lostBy_eq_nil {s : System} {act : Act} (h : act ≠ .unmapReturns false) :
    s.lostBy act = [] := by
  unfold lostBy
  split
  · exact absurd rfl h
  · rfl

/-- A step conserves the ids but for those it loses and those a growth adds. -/
theorem step_conserves_lost {c : PageAllocatorConfig} {s t : System} {act : Act}
    (hs : s.ShrinkPending) (h : step c s act = some t) :
    ∃ fresh, Conserves s t fresh (s.lostBy act) ∧
      (fresh = [] ∨ ∃ m, act = .resize m ∧ fresh = s.pa.freshIds (m.tdiv c.pageSize)) := by
  by_cases hact : act = .unmapReturns false
  · subst hact
    obtain ⟨k, ps, hengine, rfl⟩ := unmapFails_spec h
    refine ⟨[], ⟨fun q => ?_, by simp, by simp [ShrinkPending]⟩, .inl rfl⟩
    simp only [lostBy, count_places, hengine, List.count_nil, EnginePc.inFlight_unmapping,
      EnginePc.inFlight_idle]
    omega
  · obtain ⟨fresh, lost, hc, hfresh, hlost⟩ := step_conserves hs h
    obtain rfl := hlost.resolve_right hact
    rw [lostBy_eq_nil hact]
    exact ⟨fresh, hc, hfresh⟩

end System

end GpuSharing.Kvcached
