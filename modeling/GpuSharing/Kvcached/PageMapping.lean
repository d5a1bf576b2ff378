import GpuSharing.Kvcached.PageOwnership

namespace GpuSharing.Kvcached

open Transition

/-- Pages of the engine thread that are mapped while they are in flight. -/
def EnginePc.mappedInFlight : EnginePc → List PageId
  | .mapped p => [p]
  | .unmapping _ ps => ps
  | _ => []

def WorkerPc.mappedInFlight : WorkerPc → List PageId
  | .mapped ps => ps
  | _ => []

namespace System

open PageAllocator

/-- The places whose pages are physically mapped. -/
def mappedPlaces (s : System) : List PageId :=
  s.pa.reservedPageList ++ s.handedOut ++ s.engine.mappedInFlight ++ s.worker.mappedInFlight

/-- The map and unmap calls have left mapped what the bookkeeping says. -/
def MapsExactly (s : System) : Prop := ∀ p, p ∈ s.physical ↔ p ∈ s.mappedPlaces

theorem mem_mappedPlaces {s : System} {p : PageId} : p ∈ s.mappedPlaces ↔
    p ∈ s.pa.reservedPageList ∨ p ∈ s.handedOut ∨ p ∈ s.engine.mappedInFlight ∨
      p ∈ s.worker.mappedInFlight := by
  simp [mappedPlaces]

theorem mem_handedOut_diff {ps out : List PageId} (hp : ps.Subperm out) (q : PageId) :
    q ∈ out ↔ q ∈ ps ∨ q ∈ out.diff ps := by
  rw [← (append_diff_perm hp).mem_iff, List.mem_append]

theorem mappedInFlight_quiet {pc : EnginePc} (hi : pc = .idle ∨ pc = .waiting) :
    pc.mappedInFlight = [] := by
  rcases hi with rfl | rfl <;> rfl

/-- The pages whose map call returns in the step. -/
def newlyMapped (s : System) : Act → List PageId
  | .mapReturns true => s.engine.passedToMap
  | .workerMapReturns true => s.worker.passedToMap
  | _ => []

/-- The pages whose unmap call returns or throws in the step. -/
def newlyUnmapped (s : System) : Act → List PageId
  | .unmapReturns _ => s.engine.unmapInFlight
  | _ => []

/-- A lock section: no call has returned since the last one. -/
def LockSection : Act → Prop
  | .mapReturns _ | .unmapReturns _ | .workerMapReturns _ => False
  | _ => True

theorem lockSection_keeps {c : PageAllocatorConfig} {s t : System} {act : Act}
    (hact : LockSection act) (h : step c s act = some t) :
    t.physical = s.physical ∧ ∀ q, q ∈ t.mappedPlaces ↔ q ∈ s.mappedPlaces := by
  simp only [mem_mappedPlaces]
  cases step_outcome h with
  | allocFast act p rest flag hi hr =>
    refine ⟨rfl, fun q => ?_⟩
    simp only [mappedInFlight_quiet hi, mappedInFlight_quiet (.inl rfl), hr, List.mem_cons]
    grind
  | allocSlow act p rest hi hf =>
    refine ⟨rfl, fun q => ?_⟩
    rw [mappedInFlight_quiet hi]
    rfl
  | allocNone act pc hi hpc =>
    refine ⟨rfl, fun q => ?_⟩
    simp only [mappedInFlight_quiet hi, mappedInFlight_quiet hpc]
  | frees act ps k pc hi hp hpc =>
    refine ⟨rfl, fun q => ?_⟩
    have hpc : pc.mappedInFlight = ps.drop k := by
      rcases hpc with ⟨rfl, hnil⟩ | rfl
      · exact hnil.symm
      · rfl
    have hk : q ∈ ps ↔ q ∈ ps.take k ∨ q ∈ ps.drop k := by
      rw [← List.mem_append, List.take_append_drop]
    rw [mappedInFlight_quiet (.inl hi), mem_handedOut_diff hp, hk]
    simp only [hpc, List.mem_append, List.not_mem_nil]
    grind
  | unmapsReserved act k hi hk =>
    refine ⟨rfl, fun q => ?_⟩
    rw [mappedInFlight_quiet (.inl hi)]
    simp only [EnginePc.mappedInFlight, List.not_mem_nil]
    grind
  | handsOut p flag hi =>
    refine ⟨rfl, fun q => ?_⟩
    simp only [hi, EnginePc.mappedInFlight, List.mem_cons, List.not_mem_nil]
    grind
  | pushes k ps hi =>
    refine ⟨rfl, fun q => ?_⟩
    simp only [hi, pushFree, EnginePc.mappedInFlight]
  | relockReclaims n ps hi hf =>
    refine ⟨rfl, fun q => ?_⟩
    simp only [hi, pushFree, reclaim, EnginePc.mappedInFlight]
  | grabs act k flag hi =>
    refine ⟨rfl, fun q => ?_⟩
    simp only [hi, WorkerPc.mappedInFlight]
  | reserves ps hi =>
    refine ⟨rfl, fun q => ?_⟩
    simp only [hi, preallocReserve, WorkerPc.mappedInFlight, List.mem_append, List.not_mem_nil]
    grind
  | keeps | grows | reclaims | sorts | flags => exact ⟨rfl, fun _ => Iff.rfl⟩
  | mapOk | mapFails | unmapOk | unmapFails | workerMapOk | workerMapFails => cases hact

theorem lockSection_newly {s : System} {act : Act} (hact : LockSection act) :
    s.newlyMapped act = [] ∧ s.newlyUnmapped act = [] := by
  cases act <;> first | exact ⟨rfl, rfl⟩ | cases hact

/-- Pages being unmapped are in no other place. -/
theorem unmapping_apart {s : System} {k : AfterUnmap} {ps : List PageId} (hn : s.places.Nodup)
    (hi : s.engine = .unmapping k ps) {q : PageId} (hq : q ∈ ps) :
    q ∉ s.pa.reservedPageList ∧ q ∉ s.handedOut ∧ q ∉ s.worker.mappedInFlight := by
  have hcount := List.nodup_iff_count_le_one.mp hn q
  rw [count_places, count_lists, hi, EnginePc.inFlight_unmapping] at hcount
  have hpos := List.count_pos_iff.mpr hq
  have hw : q ∈ s.worker.mappedInFlight → q ∈ s.worker.inFlight := by
    cases s.worker <;> simp [WorkerPc.mappedInFlight]
  refine ⟨?_, ?_, fun h => absurd (hw h) ?_⟩ <;> rw [← List.count_eq_zero] <;> omega

/-- Pages that are being mapped count as mapped nowhere yet. -/
theorem beingMapped_apart {s : System} (hn : s.places.Nodup) {q : PageId}
    (hq : q ∈ s.beingMapped) : q ∉ s.mappedPlaces := by
  have hcount := List.nodup_iff_count_le_one.mp hn q
  rw [count_places, count_lists] at hcount
  have he : s.engine.passedToMap.count q + s.engine.mappedInFlight.count q ≤
      s.engine.inFlight.count q := by
    cases s.engine <;> simp [EnginePc.passedToMap, EnginePc.mappedInFlight]
  have hw : s.worker.passedToMap.count q + s.worker.mappedInFlight.count q ≤
      s.worker.inFlight.count q := by
    cases s.worker <;> simp [WorkerPc.passedToMap, WorkerPc.mappedInFlight]
  have hpos := List.count_pos_iff.mpr hq
  rw [beingMapped, List.count_append] at hpos
  rw [← List.count_eq_zero, mappedPlaces, List.count_append, List.count_append, List.count_append]
  omega

/-- The bookkeeping counts the pages of a map call that returned as mapped from then on, and those
of an unmap call as unmapped, even when it threw. -/
theorem step_mappedPlaces {c : PageAllocatorConfig} {s t : System} {act : Act}
    (hn : s.places.Nodup) (h : step c s act = some t) (q : PageId) : q ∈ t.mappedPlaces ↔
      q ∈ s.newlyMapped act ∨ q ∈ s.mappedPlaces ∧ q ∉ s.newlyUnmapped act := by
  by_cases hact : LockSection act
  · obtain ⟨hm, hu⟩ := lockSection_newly (s := s) hact
    rw [hm, hu, (lockSection_keeps hact h).2]
    simp
  · rw [mem_mappedPlaces, mem_mappedPlaces]
    cases act <;> try exact absurd trivial hact
    case mapReturns ok =>
      simp only [step] at h
      split at h <;> cases h
      case h_1 p hi =>
        simp only [hi, newlyMapped, newlyUnmapped, EnginePc.passedToMap, EnginePc.mappedInFlight,
          List.mem_singleton, List.not_mem_nil]
        grind
      case h_2 p hi =>
        simp only [hi, newlyMapped, newlyUnmapped, EnginePc.mappedInFlight, allocPageFailed,
          List.not_mem_nil]
        grind
    case unmapReturns ok =>
      simp only [step] at h
      split at h <;> cases h
      case h_1 k ps hi =>
        have hother := unmapping_apart hn hi (q := q)
        simp only [hi, newlyMapped, newlyUnmapped, EnginePc.mappedInFlight,
          EnginePc.unmapInFlight_unmapping, List.not_mem_nil]
        grind
      case h_2 k ps hi =>
        have hother := unmapping_apart hn hi (q := q)
        simp only [hi, newlyMapped, newlyUnmapped, EnginePc.mappedInFlight,
          EnginePc.unmapInFlight_unmapping, List.not_mem_nil]
        grind
    case workerMapReturns ok =>
      simp only [step] at h
      split at h <;> cases h
      case h_1 ps hi =>
        simp only [hi, newlyMapped, newlyUnmapped, WorkerPc.passedToMap, WorkerPc.mappedInFlight,
          List.not_mem_nil]
        grind
      case h_2 ps hi =>
        simp only [hi, newlyMapped, newlyUnmapped, WorkerPc.mappedInFlight, preallocFailed,
          List.not_mem_nil]
        grind

theorem step_physical {c : PageAllocatorConfig} {s t : System} {act : Act} (hok : Succeeds s act)
    (h : step c s act = some t) (q : PageId) : q ∈ t.physical ↔
      q ∈ s.newlyMapped act ∨ q ∈ s.physical ∧ q ∉ s.newlyUnmapped act := by
  by_cases hact : LockSection act
  · obtain ⟨hm, hu⟩ := lockSection_newly (s := s) hact
    rw [hm, hu, (lockSection_keeps hact h).1]
    simp
  · cases act <;> try exact absurd trivial hact
    case mapReturns ok =>
      simp only [step] at h
      split at h <;> cases h
      case h_1 p hi => simp [hi, newlyMapped, newlyUnmapped, EnginePc.passedToMap]
      case h_2 => cases hok
    case unmapReturns ok =>
      simp only [step] at h
      split at h <;> cases h
      case h_1 k ps hi => simp [hi, newlyMapped, newlyUnmapped]
      case h_2 => cases hok
    case workerMapReturns ok =>
      simp only [step] at h
      split at h <;> cases h
      case h_1 ps hi => simp [hi, newlyMapped, newlyUnmapped, WorkerPc.passedToMap, or_comm]
      case h_2 => cases hok

theorem step_maps_exactly {c : PageAllocatorConfig} {s t : System} {act : Act}
    (hs : s.MapsExactly) (hn : s.places.Nodup) (hok : Succeeds s act)
    (h : step c s act = some t) : t.MapsExactly := by
  intro q
  rw [step_physical hok h, step_mappedPlaces hn h, hs q]

theorem run_maps_exactly {c : PageAllocatorConfig} {acts : List Act} {s : System}
    (hrun : run (step c) (init c) acts = some s)
    (hok : Along (step c) Succeeds (init c) acts)
    (hg : Along (step c) (GrowsCleanly c) (init c) acts) : s.MapsExactly := by
  refine (run_invariant_along (C := fun s act => GrowsCleanly c s act ∧ Succeeds s act)
    (I := fun s => s.Owned ∧ s.MapsExactly) ?_ ⟨init_owned c, ?_⟩
    (along_and.mpr ⟨hg, hok⟩) hrun).2
  · rintro s act t ⟨ho, hs⟩ ⟨hg, hok⟩ ht
    exact ⟨step_owned ho hg ht,
      step_maps_exactly hs (List.nodup_iff_count_le_one.mpr ho.once) hok ht⟩
  · intro p
    simp [mappedPlaces, init, PageAllocator.init, EnginePc.mappedInFlight,
      WorkerPc.mappedInFlight]

theorem not_physical_of_listed {s : System} (hs : s.MapsExactly) (hn : s.places.Nodup)
    {p : PageId} (hp : p ∈ s.pa.freePageList ∨ p ∈ s.pa.reclaimedPageList) : p ∉ s.physical := by
  have hcount := List.nodup_iff_count_le_one.mp hn p
  rw [count_places, count_lists] at hcount
  have hpos : 0 < s.pa.freePageList.count p + s.pa.reclaimedPageList.count p := by
    rcases hp with hp | hp
    · have := List.count_pos_iff.mpr hp
      omega
    · have := List.count_pos_iff.mpr hp
      omega
  have he : p ∈ s.engine.mappedInFlight → p ∈ s.engine.inFlight := by
    cases s.engine <;> simp [EnginePc.mappedInFlight]
  have hw : p ∈ s.worker.mappedInFlight → p ∈ s.worker.inFlight := by
    cases s.worker <;> simp [WorkerPc.mappedInFlight]
  rw [hs p, mem_mappedPlaces]
  rintro (h | h | h | h)
  · have := List.count_pos_iff.mpr h
    omega
  · have := List.count_pos_iff.mpr h
    omega
  · have := List.count_pos_iff.mpr (he h)
    omega
  · have := List.count_pos_iff.mpr (hw h)
    omega

/-- The counters at every point where the lock is free, and, while the ids are distinct, what is
mapped. `num_total_pages_ - num_free_pages_` includes the page `alloc_page` is mapping. -/
theorem page_accounting (c : PageAllocatorConfig) (acts : List Act) (s : System)
    (hrun : run (step c) (init c) acts = some s)
    (hok : Along (step c) Succeeds (init c) acts) :
    s.pa.numFreePages = s.pa.freePageList.length + s.pa.reservedPageList.length +
      s.worker.inFlight.length + s.engine.unmapInFlight.length ∧
    s.pa.numTotalPages - s.pa.numFreePages =
      s.handedOut.length + s.engine.allocInFlight.length ∧
    (Along (step c) (GrowsCleanly c) (init c) acts →
      (∀ p ∈ s.pa.reservedPageList, p ∈ s.physical) ∧ (∀ p ∈ s.handedOut, p ∈ s.physical) ∧
      (∀ p ∈ s.pa.freePageList, p ∉ s.physical) ∧
      ∀ p ∈ s.pa.reclaimedPageList, p ∉ s.physical) := by
  refine ⟨run_free_exact hrun hok, (run_counted hrun).inuse, fun hg => ?_⟩
  have hmaps := run_maps_exactly hrun hok hg
  have hn := List.nodup_iff_count_le_one.mpr (run_owned hrun hg).once
  refine ⟨fun p hp => ?_, fun p hp => ?_, fun p hp => ?_, fun p hp => ?_⟩
  · exact (hmaps p).mpr (mem_mappedPlaces.mpr (.inl hp))
  · exact (hmaps p).mpr (mem_mappedPlaces.mpr (.inr (.inl hp)))
  · exact not_physical_of_listed hmaps hn (.inl hp)
  · exact not_physical_of_listed hmaps hn (.inr hp)

/-- One page is handed out, one sits in the reserve and one is being unmapped. -/
def accountingConfig : PageAllocatorConfig where
  numLayers := 1
  memSizePerLayer := 3
  pageSize := 1
  maxReservedPagesEnv := 1

def freeTwoOfThree : List Act := [.allocPage, .mapReturns true, .relock, .allocPage,
  .mapReturns true, .relock, .allocPage, .mapReturns true, .relock, .freePages [0, 1]]

theorem page_accounting_freeTwoOfThree :
    ∃ s, run (step accountingConfig) (init accountingConfig) freeTwoOfThree = some s ∧
      s.pa.numFreePages = 2 ∧ s.pa.reservedPageList = [0] ∧ s.engine.unmapInFlight = [1] ∧
      0 ∈ s.physical := by
  have hrun : run (step accountingConfig) (init accountingConfig) freeTwoOfThree = some _ :=
    (Option.some_get (by decide)).symm
  obtain ⟨-, -, hmaps⟩ := page_accounting accountingConfig freeTwoOfThree _ hrun (by decide)
  exact ⟨_, hrun, by decide, by decide, by decide, (hmaps (by decide)).1 0 (by decide)⟩

/-- While `alloc_page` maps a page outside the lock, the page counts as in use although it is
neither handed out nor mapped. -/
theorem alloc_in_flight_miscounted :
    ∃ s, run (step accountingConfig) (init accountingConfig) [.allocPage] = some s ∧
      Along (step accountingConfig) Succeeds (init accountingConfig) [.allocPage] ∧
      s.pa.numTotalPages - s.pa.numFreePages ≠ s.handedOut.length ∧
      s.pa.numTotalPages - s.pa.numFreePages = (s.engine.allocInFlight ++ s.handedOut).length ∧
      ∃ p ∈ s.engine.allocInFlight ++ s.handedOut, p ∉ s.physical := by
  refine ⟨_, (Option.some_get (by decide)).symm, by decide, by decide, by decide, 0, by decide,
    by decide⟩

end System

end GpuSharing.Kvcached
