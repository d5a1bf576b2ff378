import GpuSharing.Kvcached.PagePlaces

namespace GpuSharing.Kvcached

open Transition

/-- The page of an `alloc_page` between its two lock sections. -/
def EnginePc.allocInFlight : EnginePc → List PageId
  | .mapping p => [p]
  | .mapped p => [p]
  | _ => []

/-- The pages of a free, trim or resize between its two lock sections. -/
def EnginePc.unmapInFlight : EnginePc → List PageId
  | .unmapping _ ps => ps
  | .unmapped _ ps => ps
  | _ => []

namespace EnginePc

@[simp] theorem allocInFlight_idle : allocInFlight .idle = [] := rfl
@[simp] theorem allocInFlight_waiting : allocInFlight .waiting = [] := rfl
@[simp] theorem allocInFlight_mapping (p : PageId) : allocInFlight (.mapping p) = [p] := rfl
@[simp] theorem allocInFlight_mapped (p : PageId) : allocInFlight (.mapped p) = [p] := rfl
@[simp] theorem allocInFlight_unmapping (k : AfterUnmap) (ps : List PageId) :
    allocInFlight (.unmapping k ps) = [] := rfl
@[simp] theorem allocInFlight_unmapped (k : AfterUnmap) (ps : List PageId) :
    allocInFlight (.unmapped k ps) = [] := rfl
@[simp] theorem unmapInFlight_idle : unmapInFlight .idle = [] := rfl
@[simp] theorem unmapInFlight_waiting : unmapInFlight .waiting = [] := rfl
@[simp] theorem unmapInFlight_mapping (p : PageId) : unmapInFlight (.mapping p) = [] := rfl
@[simp] theorem unmapInFlight_mapped (p : PageId) : unmapInFlight (.mapped p) = [] := rfl
@[simp] theorem unmapInFlight_unmapping (k : AfterUnmap) (ps : List PageId) :
    unmapInFlight (.unmapping k ps) = ps := rfl
@[simp] theorem unmapInFlight_unmapped (k : AfterUnmap) (ps : List PageId) :
    unmapInFlight (.unmapped k ps) = ps := rfl

end EnginePc

namespace PageAllocator

theorem grow_counters (n : Int) (a : PageAllocator) (hg : a.numTotalPages < n) :
    (a.grow n).numFreePages - (a.grow n).freePageList.length =
      a.numFreePages - a.freePageList.length ∧
    (a.grow n).getNumInusePages = a.getNumInusePages := by
  simp only [grow, getNumInusePages, Int.range, List.length_append, List.length_take,
    List.length_map, List.length_range]
  omega

theorem reclaim_counters (n : Int) (a : PageAllocator)
    (hf : ¬a.freePageList.length < a.numTotalPages - n) (hn : n ≤ a.numTotalPages) :
    (a.reclaim n).numFreePages - (a.reclaim n).freePageList.length =
      a.numFreePages - a.freePageList.length ∧
    (a.reclaim n).getNumInusePages = a.getNumInusePages := by
  simp only [reclaim, getNumInusePages, List.length_take]
  omega

end PageAllocator

namespace System

open PageAllocator

/-- No map or unmap call of the run throws. -/
def Succeeds (_ : System) : Act → Prop
  | .mapReturns ok | .unmapReturns ok | .workerMapReturns ok => ok = true
  | _ => True

instance : ∀ s act, Decidable (Succeeds s act) := fun _ act => by
  cases act <;> unfold Succeeds <;> infer_instance

/-- The pages `num_free_pages_` should count. -/
def freeCount (s : System) : Int :=
  s.pa.freePageList.length + s.pa.reservedPageList.length + s.worker.inFlight.length +
    s.engine.unmapInFlight.length

/-- The pages `get_num_inuse_pages` should count. -/
def inuseCount (s : System) : Int := s.handedOut.length + s.engine.allocInFlight.length

/-- What a step does with the two counters; `lost` pages are those of an unmap that throws. -/
structure Accounts (s t : System) (lost : Nat) : Prop where
  free : t.pa.numFreePages - t.freeCount = s.pa.numFreePages - s.freeCount + lost
  inuse : t.pa.getNumInusePages - t.inuseCount = s.pa.getNumInusePages - s.inuseCount

theorem length_diff_of_subperm {ps qs : List PageId} (h : ps.Subperm qs) :
    (qs.diff ps).length + ps.length = qs.length := by
  have hp := (append_diff_perm h).length_eq
  rw [List.length_append] at hp
  omega

theorem step_accounts {c : PageAllocatorConfig} {s t : System} {act : Act}
    (hs : s.ShrinkPending) (h : step c s act = some t) :
    ∃ lost, Accounts s t lost ∧ (lost = 0 ∨ act = .unmapReturns false) := by
  have quiet (hi : s.engine = .idle ∨ s.engine = .waiting) :
      s.engine.allocInFlight = [] ∧ s.engine.unmapInFlight = [] := by
    rcases hi with hi | hi <;> simp [hi]
  cases step_outcome h with
  | allocFast act p rest flag hi hr =>
    obtain ⟨ha, hu⟩ := quiet hi
    refine ⟨0, ⟨?_, ?_⟩, .inl rfl⟩ <;>
      simp only [freeCount, inuseCount, getNumInusePages, ha, hu, hr, List.length_cons,
        List.length_nil, EnginePc.allocInFlight_idle, EnginePc.unmapInFlight_idle] <;> omega
  | allocSlow act p rest hi hf =>
    obtain ⟨ha, hu⟩ := quiet hi
    refine ⟨0, ⟨?_, ?_⟩, .inl rfl⟩ <;>
      simp only [freeCount, inuseCount, getNumInusePages, ha, hu, hf, List.length_cons,
        List.length_nil, EnginePc.allocInFlight_mapping, EnginePc.unmapInFlight_mapping] <;> omega
  | allocNone act pc hi hpc =>
    obtain ⟨ha, hu⟩ := quiet hi
    refine ⟨0, ⟨?_, ?_⟩, .inl rfl⟩ <;> rcases hpc with rfl | rfl <;>
      simp [freeCount, inuseCount, getNumInusePages, ha, hu]
  | frees act ps k pc hi hp hpc =>
    obtain ⟨ha, hu⟩ := quiet (.inl hi)
    have hd := length_diff_of_subperm hp
    have hk : (ps.take k).length + (ps.drop k).length = ps.length := by
      rw [← List.length_append, List.take_append_drop]
    have hpc : pc.allocInFlight = [] ∧ pc.unmapInFlight = ps.drop k := by
      rcases hpc with ⟨rfl, hnil⟩ | rfl
      · exact ⟨rfl, hnil.symm⟩
      · exact ⟨rfl, rfl⟩
    refine ⟨0, ⟨?_, ?_⟩, .inl rfl⟩ <;>
      simp only [freeCount, inuseCount, getNumInusePages, ha, hu, hpc, List.length_append,
        List.length_nil] <;> omega
  | keeps => exact ⟨0, ⟨by simp, rfl⟩, .inl rfl⟩
  | grows m hi hu hg =>
    obtain ⟨hfree, hinuse⟩ := grow_counters _ s.pa hg
    refine ⟨0, ⟨?_, ?_⟩, .inl rfl⟩
    · have hr : (s.pa.grow (m.tdiv c.pageSize)).reservedPageList = s.pa.reservedPageList := rfl
      simp only [freeCount, hr]
      omega
    · simp only [inuseCount, hinuse]
  | reclaims m hi hu hg hf =>
    obtain ⟨hfree, hinuse⟩ := reclaim_counters _ s.pa hf hg.le
    refine ⟨0, ⟨?_, ?_⟩, .inl rfl⟩
    · have hr : (s.pa.reclaim (m.tdiv c.pageSize)).reservedPageList =
        s.pa.reservedPageList := rfl
      simp only [freeCount, hr]
      omega
    · simp only [inuseCount, hinuse]
  | unmapsReserved act k hi hk =>
    obtain ⟨ha, hu⟩ := quiet (.inl hi)
    refine ⟨0, ⟨?_, ?_⟩, .inl rfl⟩
    · simp only [freeCount, hu, List.length_nil, EnginePc.unmapInFlight_unmapping]
      omega
    · simp only [inuseCount, getNumInusePages, ha, EnginePc.allocInFlight_unmapping]
  | sorts act ps hps =>
    refine ⟨0, ⟨?_, rfl⟩, .inl rfl⟩
    simp only [freeCount, hps.length_eq]
    omega
  | flags => exact ⟨0, ⟨by simp [freeCount], rfl⟩, .inl rfl⟩
  | mapOk p hi =>
    refine ⟨0, ⟨?_, ?_⟩, .inl rfl⟩ <;>
      simp [freeCount, inuseCount, hi]
  | mapFails p hi =>
    refine ⟨0, ⟨?_, ?_⟩, .inl rfl⟩ <;>
      simp only [freeCount, inuseCount, getNumInusePages, allocPageFailed, hi, List.length_cons,
        List.length_nil, EnginePc.allocInFlight_mapping, EnginePc.allocInFlight_idle,
        EnginePc.unmapInFlight_mapping, EnginePc.unmapInFlight_idle] <;> omega
  | unmapOk k ps hi =>
    refine ⟨0, ⟨?_, ?_⟩, .inl rfl⟩ <;>
      simp [freeCount, inuseCount, hi]
  | unmapFails k ps hi =>
    refine ⟨ps.length, ⟨?_, ?_⟩, .inr rfl⟩
    · simp only [freeCount, hi, List.length_nil, EnginePc.unmapInFlight_unmapping,
        EnginePc.unmapInFlight_idle]
      omega
    · simp only [inuseCount, hi, EnginePc.allocInFlight_unmapping, EnginePc.allocInFlight_idle]
  | handsOut p flag hi =>
    refine ⟨0, ⟨?_, ?_⟩, .inl rfl⟩ <;>
      simp only [freeCount, inuseCount, getNumInusePages, hi, List.length_cons, List.length_nil,
        EnginePc.allocInFlight_mapped, EnginePc.allocInFlight_idle,
        EnginePc.unmapInFlight_mapped, EnginePc.unmapInFlight_idle] <;> omega
  | pushes k ps hi =>
    refine ⟨0, ⟨?_, ?_⟩, .inl rfl⟩
    · simp only [freeCount, pushFree, hi, List.length_append, List.length_nil,
        EnginePc.unmapInFlight_unmapped, EnginePc.unmapInFlight_idle]
      omega
    · simp only [inuseCount, getNumInusePages, pushFree, hi, EnginePc.allocInFlight_unmapped,
        EnginePc.allocInFlight_idle]
  | relockReclaims n ps hi hf =>
    obtain ⟨hfree, hinuse⟩ := reclaim_counters n (s.pa.pushFree ps) hf (hs n ps (.inr hi))
    refine ⟨0, ⟨?_, ?_⟩, .inl rfl⟩
    · have hr : ((s.pa.pushFree ps).reclaim n).reservedPageList = s.pa.reservedPageList := rfl
      have hn : (s.pa.pushFree ps).numFreePages = s.pa.numFreePages := rfl
      simp only [freeCount, hr, hi, List.length_nil, EnginePc.unmapInFlight_unmapped,
        EnginePc.unmapInFlight_idle]
      simp only [pushFree, List.length_append] at hfree hn ⊢
      omega
    · have hn : (s.pa.pushFree ps).getNumInusePages = s.pa.getNumInusePages := rfl
      simp only [inuseCount, hinuse, hn, hi, EnginePc.allocInFlight_unmapped,
        EnginePc.allocInFlight_idle]
  | grabs act k flag hi =>
    refine ⟨0, ⟨?_, rfl⟩, .inl rfl⟩
    simp only [freeCount, hi, List.length_drop, List.length_take, List.length_nil,
      WorkerPc.inFlight_mapping, WorkerPc.inFlight_idle]
    omega
  | workerMapOk ps hi =>
    refine ⟨0, ⟨?_, rfl⟩, .inl rfl⟩
    simp [freeCount, hi]
  | workerMapFails ps hi =>
    refine ⟨0, ⟨?_, rfl⟩, .inl rfl⟩
    simp only [freeCount, preallocFailed, hi, List.length_append, List.length_nil,
      WorkerPc.inFlight_mapping, WorkerPc.inFlight_idle]
    omega
  | reserves ps hi =>
    refine ⟨0, ⟨?_, rfl⟩, .inl rfl⟩
    simp only [freeCount, preallocReserve, hi, List.length_append, List.length_nil,
      WorkerPc.inFlight_mapped, WorkerPc.inFlight_idle]
    omega

theorem step_accounts_lost {c : PageAllocatorConfig} {s t : System} {act : Act}
    (hs : s.ShrinkPending) (h : step c s act = some t) :
    Accounts s t (s.lostBy act).length := by
  by_cases hact : act = .unmapReturns false
  · subst hact
    obtain ⟨k, ps, hengine, rfl⟩ := unmapFails_spec h
    constructor
    · simp only [lostBy, freeCount, hengine, EnginePc.inFlight_unmapping, List.length_nil,
        EnginePc.unmapInFlight_unmapping, EnginePc.unmapInFlight_idle]
      omega
    · simp only [inuseCount, hengine, EnginePc.allocInFlight_unmapping,
        EnginePc.allocInFlight_idle]
  · obtain ⟨lost, ha, hlost⟩ := step_accounts hs h
    obtain rfl := hlost.resolve_right hact
    rw [lostBy_eq_nil hact]
    exact ha

/-- `get_num_inuse_pages` counts the pages handed out and the one `alloc_page` is mapping, and
`num_free_pages_` is never below what is free, reserved or on its way there. -/
structure Counted (s : System) : Prop where
  free : s.freeCount ≤ s.pa.numFreePages
  inuse : s.pa.getNumInusePages = s.inuseCount
  pending : s.ShrinkPending

theorem init_counted (c : PageAllocatorConfig) : (init c).Counted := by
  have h := c.numPages_nonneg
  refine ⟨?_, ?_, by simp [ShrinkPending, init]⟩
  · simp only [freeCount, init, PageAllocator.init, Int.range, List.length_map,
      List.length_range, EnginePc.unmapInFlight_idle, WorkerPc.inFlight_idle, List.length_nil]
    omega
  · simp [inuseCount, getNumInusePages, init, PageAllocator.init]

theorem step_counted {c : PageAllocatorConfig} {s t : System} {act : Act} (hs : s.Counted)
    (h : step c s act = some t) : t.Counted := by
  obtain ⟨lost, ha, -⟩ := step_accounts hs.pending h
  obtain ⟨_, _, hc, -⟩ := step_conserves hs.pending h
  have hfree := ha.free
  have hinuse := ha.inuse
  have := hs.free
  have := hs.inuse
  exact ⟨by omega, by omega, hc.pending⟩

theorem run_counted {c : PageAllocatorConfig} {acts : List Act} {s : System}
    (hrun : run (step c) (init c) acts = some s) : s.Counted :=
  run_invariant (fun _ _ _ => step_counted) (init_counted c) hrun

theorem numFreePages_nonneg {s : System} (h : s.Counted) : 0 ≤ s.pa.numFreePages := by
  have := h.free
  unfold freeCount at this
  omega

/-- When no call throws, `num_free_pages_` is exact. -/
theorem run_free_exact {c : PageAllocatorConfig} {acts : List Act} {s : System}
    (hrun : run (step c) (init c) acts = some s)
    (hok : Along (step c) Succeeds (init c) acts) : s.pa.numFreePages = s.freeCount := by
  have hinit : (init c).pa.numFreePages = (init c).freeCount := by
    have h := c.numPages_nonneg
    simp only [freeCount, init, PageAllocator.init, Int.range, List.length_map,
      List.length_range, EnginePc.unmapInFlight_idle, WorkerPc.inFlight_idle, List.length_nil]
    omega
  refine (run_invariant_along (C := Succeeds)
    (I := fun s => s.ShrinkPending ∧ s.pa.numFreePages = s.freeCount) ?_
    ⟨(init_counted c).pending, hinit⟩ hok hrun).2
  rintro s act t ⟨hp, hs⟩ hc ht
  obtain ⟨lost, ha, hlost⟩ := step_accounts hp ht
  obtain ⟨_, _, hcons, -⟩ := step_conserves hp ht
  refine ⟨hcons.pending, ?_⟩
  rcases hlost with rfl | rfl
  · have := ha.free
    omega
  · cases hc

end System

end GpuSharing.Kvcached
