import GpuSharing.Kvcached.KvPool
import GpuSharing.Kvcached.PageAccounting

namespace GpuSharing.Kvcached.System

open Transition PageAllocator

/-- A growth asks for no more than `N` pages. -/
def GrowsWithin (c : PageAllocatorConfig) (N : Int) (s : System) : Act → Prop
  | .resize m => s.pa.numTotalPages < m.tdiv c.pageSize → m.tdiv c.pageSize ≤ N
  | _ => True

instance (c : PageAllocatorConfig) (N : Int) : ∀ s act, Decidable (GrowsWithin c N s act)
  | s, .resize m =>
    inferInstanceAs (Decidable (s.pa.numTotalPages < m.tdiv c.pageSize → m.tdiv c.pageSize ≤ N))
  | _, .allocPage | _, .wake | _, .freePage _ | _, .freePages _ | _, .trim
  | _, .resetFreePageOrder | _, .startPrealloc | _, .mapReturns _ | _, .unmapReturns _
  | _, .relock | _, .workerGrab _ | _, .workerMapReturns _ | _, .workerRelock => .isTrue trivial

def Below (N : Int) (s : System) : Prop := ∀ q : Int, q ∈ s.places → 0 ≤ q ∧ q < N

theorem freshIds_lt_target {a : PageAllocator} {n q : Int} (hq : q ∈ a.freshIds n) :
    a.numTotalPages ≤ q ∧ q < n := by
  unfold freshIds at hq
  split_ifs at hq
  · cases hq
  · rw [Int.mem_range_iff] at hq
    omega

theorem step_below {c : PageAllocatorConfig} {N : Int} {s t : System} {act : Act}
    (hc : s.Counted) (hs : s.Below N) (hg : GrowsWithin c N s act)
    (h : step c s act = some t) : t.Below N := by
  obtain ⟨fresh, lost, hcons, hfresh, -⟩ := step_conserves hc.pending h
  intro q hq
  have hcount := hcons.count q
  have hpos := List.count_pos_iff.mpr hq
  by_cases hm : q ∈ fresh
  · rcases hfresh with rfl | ⟨m, rfl, rfl⟩
    · cases hm
    · have hlt := freshIds_lt_target hm
      have htarget := hg (by omega)
      have hfree := numFreePages_nonneg hc
      have hinuse := hc.inuse
      simp only [getNumInusePages, inuseCount] at hinuse
      omega
  · rw [List.count_eq_zero.mpr hm] at hcount
    exact hs q (List.count_pos_iff.mp (by omega))

theorem run_below {c : PageAllocatorConfig} {N : Int} {acts : List Act} {s : System}
    (hN : c.numPages ≤ N) (hrun : run (step c) (init c) acts = some s)
    (hg : Along (step c) (GrowsWithin c N) (init c) acts) : s.Below N := by
  refine (run_invariant_along (C := GrowsWithin c N) (I := fun s => s.Counted ∧ s.Below N) ?_
    ⟨init_counted c, ?_⟩ hg hrun).2
  · rintro s act t ⟨hc, hs⟩ hg ht
    exact ⟨step_counted hc ht, step_below hc hs hg ht⟩
  · intro q hq
    have hq : 0 ≤ q ∧ q < c.numPages := by
      simpa [places, init, PageAllocator.init, lists, Int.mem_range_iff] using hq
    omega

theorem mem_places_of_beingMapped {s : System} {p : PageId} (hp : p ∈ s.beingMapped) :
    p ∈ s.places := by
  have he : p ∈ s.engine.passedToMap → p ∈ s.engine.inFlight := by
    cases s.engine <;> simp [EnginePc.passedToMap]
  have hw : p ∈ s.worker.passedToMap → p ∈ s.worker.inFlight := by
    cases s.worker <;> simp [WorkerPc.passedToMap]
  simp only [beingMapped, List.mem_append] at hp
  simp only [places, List.mem_append]
  tauto

/-- While the manager's size and every growth stay within the reservation, the pages passed to
`map_pages` do, and so do the bytes at their offsets. -/
theorem beingMapped_reserved (P : KvPool) (acts : List Act) (s : System)
    (hrun : run (step P.allocator) (init P.allocator) acts = some s)
    (hm : P.memSizePerLayer ≤ P.reservedBytes)
    (hg : Along (step P.allocator) (GrowsWithin P.allocator (P.reservedBytes.tdiv P.pageSize))
      (init P.allocator) acts) :
    ∀ p : Int, p ∈ s.beingMapped → 0 ≤ p ∧ p < P.reservedBytes.tdiv P.pageSize ∧
      0 ≤ pageOffset P.allocator p ∧
      pageOffset P.allocator p + P.tensors.slotBytes ≤ P.tensors.tensorBytes := by
  intro p hp
  have hN : P.allocator.numPages ≤ P.reservedBytes.tdiv P.pageSize :=
    Int.tdiv_le_tdiv P.pageSize_pos hm
  obtain ⟨h0, hlt⟩ := run_below hN hrun hg p (mem_places_of_beingMapped hp)
  exact ⟨h0, hlt, P.offset_reserved h0 hlt⟩

/-- Two pages are reserved and the manager starts with one of them. -/
def growingPool : KvPool where
  contiguousLayout := true
  unifiedPool := false
  numLayers := 2
  numKvBuffers := 2
  managerKvBuffers := 2
  pageSize := 2097152
  perBufferBytes := 4194304
  memSizePerLayer := 2097152
  pageSize_pos := Numerals.pos_pageBytes

/-- After a growth to `m` bytes a layer the last page is being mapped. -/
def growAndAlloc (m : Int) (pages : Nat) : List Act :=
  .resize m :: (List.replicate pages [.allocPage, .mapReturns true, .relock]).flatten ++ [.allocPage]

theorem beingMapped_reserved_growingPool :
    ∃ s, run (step growingPool.allocator) (init growingPool.allocator)
        (growAndAlloc 4194304 1) = some s ∧ s.beingMapped = [1] ∧
      pageOffset growingPool.allocator 1 + growingPool.tensors.slotBytes ≤
        growingPool.tensors.tensorBytes := by
  have hrun : run (step growingPool.allocator) (init growingPool.allocator)
      (growAndAlloc 4194304 1) = some _ := (Option.some_get (by decide)).symm
  have hreserved := beingMapped_reserved growingPool (growAndAlloc 4194304 1) _ hrun (by decide)
    (by decide) 1 (by decide)
  exact ⟨_, hrun, by decide, hreserved.2.2.2⟩

/-- `resize` compares its target with nothing: past the reservation, page 2 of two is mapped. -/
theorem growth_past_reservation :
    ∃ s, run (step growingPool.allocator) (init growingPool.allocator)
        (growAndAlloc 6291456 2) = some s ∧
      growingPool.reservedBytes.tdiv growingPool.pageSize = 2 ∧ s.beingMapped = [2] ∧
      growingPool.tensors.tensorBytes < pageOffset growingPool.allocator 2 +
        growingPool.tensors.slotBytes :=
  ⟨_, (Option.some_get (by decide)).symm, by decide, by decide, by decide⟩

end GpuSharing.Kvcached.System
