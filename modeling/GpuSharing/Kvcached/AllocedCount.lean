import Mathlib.Algebra.Order.BigOperators.Group.List
import GpuSharing.Kvcached.BlockAccounting

namespace GpuSharing.Kvcached

open Transition KvCacheManager

variable {σ : Type} {C : KvCacheManagerConfig} {S : PageAllocatorApi σ}

/-- By how many blocks the pages are shorter than the manager reckons. -/
def shortfall (C : KvCacheManagerConfig) (ps : List PageId) : Int :=
  (ps.map fun p => InternalPage.getNumBlocks C.pageSize C.blockMemSize -
    ((blockRange C p).length : Int)).sum

theorem shortfall_add (C : KvCacheManagerConfig) (ps : List PageId) :
    shortfall C ps + ((ps.map fun p => (blockRange C p).length).sum : Nat) =
      ps.length * InternalPage.getNumBlocks C.pageSize C.blockMemSize := by
  induction ps with
  | nil => simp [shortfall]
  | cons p ps ih =>
    simp only [shortfall, List.map_cons, List.sum_cons, List.length_cons, Nat.cast_add, Nat.cast_one,
      add_mul, one_mul] at ih ⊢
    omega

theorem shortfall_nonneg {ps : List PageId} (h : ∀ p : Int, p ∈ ps → 0 ≤ p) :
    0 ≤ shortfall C ps := by
  apply List.sum_nonneg
  intro d hd
  obtain ⟨p, hp, rfl⟩ := List.mem_map.mp hd
  exact sub_nonneg.mpr (length_blockRange_le C (h p hp))

/-- No page is short when the shortfall is zero. -/
theorem shortfall_eq_zero {ps : List PageId} (h : ∀ p : Int, p ∈ ps → 0 ≤ p) :
    shortfall C ps = 0 ↔ ∀ p ∈ ps,
      ((blockRange C p).length : Int) = InternalPage.getNumBlocks C.pageSize C.blockMemSize := by
  induction ps with
  | nil => simp [shortfall]
  | cons p ps ih =>
    have hrest : ∀ q : Int, q ∈ ps → 0 ≤ q := fun q hq => h q (List.mem_cons_of_mem _ hq)
    have hle := length_blockRange_le C (h p List.mem_cons_self)
    have hnonneg := shortfall_nonneg (C := C) hrest
    have hcons : shortfall C (p :: ps) = InternalPage.getNumBlocks C.pageSize C.blockMemSize -
        ((blockRange C p).length : Int) + shortfall C ps := by
      simp [shortfall]
    rw [hcons, List.forall_mem_cons, ← ih hrest]
    omega

namespace KvCacheManager

variable {m : KvCacheManager (σ × List PageId)} {out : List BlockId}

/-- The blocks that lie free on a page held. -/
def freeBlocks (m : KvCacheManager σ) : List BlockId :=
  (heldEntries m.availPages m.fullPages).flatMap fun e => e.2.freeList

/-- What `_get_num_alloced_blocks` returns: the blocks outstanding, the reserved blocks once more,
and what the pages held are short of. -/
theorem Consistent.getNumAllocedBlocks (h : Consistent C m out) :
    getNumAllocedBlocks C m = out.length + m.reservedBlocks.length + shortfall C m.issued := by
  have hkeys : (m.availPages.keys.length : Int) + m.fullPages.keys.length = m.issued.length := by
    rw [← h.pages.length_eq, pageIds, heldEntries, List.keys, List.map_append, List.length_append,
      Nat.cast_add]
    rfl
  have hfree := h.freeIn_add
  have hshort := shortfall_add C m.issued
  unfold KvCacheManager.getNumAllocedBlocks
  rw [h.counter, ← hkeys] at *
  linarith

theorem Consistent.mem_freeBlocks (h : Consistent C m out) (b : BlockId) :
    (∃ p ∈ m.issued, b ∈ blockRange C p) ↔ b ∈ out ∨ b ∈ m.freeBlocks := by
  constructor
  · rintro ⟨p, hp, hb⟩
    obtain ⟨e, he, rfl⟩ := List.mem_map.mp (h.pages.mem_iff.mpr hp)
    have hin := (h.holds.pages e he).blocks.mem_iff.mpr ((h.holds.keyed e he) ▸ hb)
    rcases List.mem_append.mp hin with hin | hin
    · exact .inl (List.mem_filter.mp hin).1
    · exact .inr (List.mem_flatMap.mpr ⟨e, he, hin⟩)
  · rintro (hb | hb)
    · exact ⟨_, h.mem_blockRange hb⟩
    · obtain ⟨e, he, hb⟩ := List.mem_flatMap.mp hb
      have hin := (h.holds.pages e he).blocks.subset (List.mem_append_right _ hb)
      rw [h.holds.keyed e he] at hin
      exact ⟨e.1, h.pages.mem_iff.mp (List.mem_map_of_mem he), hin⟩

theorem Consistent.nonneg (h : Consistent C m out) : ∀ p : Int, p ∈ m.issued → 0 ≤ p := by
  intro p hp
  obtain ⟨e, he, rfl⟩ := List.mem_map.mp (h.pages.mem_iff.mpr hp)
  have hnonneg := (h.holds.pages e he).nonneg
  rwa [h.holds.keyed e he] at hnonneg

/-- An outstanding block is not free. -/
theorem Consistent.notMem_freeBlocks (h : Consistent C m out) {b : BlockId} (hb : b ∈ out) :
    b ∉ m.freeBlocks := by
  intro hfree
  obtain ⟨e, he, hin⟩ := List.mem_flatMap.mp hfree
  have hok := h.holds.pages e he
  have hdisj := (List.nodup_append.mp (hok.blocks.nodup_iff.mpr (nodup_blockRange C _))).2.2
  have hissued : b ∈ issuedOn C out e.2.pageId :=
    List.mem_filter.mpr ⟨hb, decide_eq_true (hok.page_eq hin)⟩
  exact hdisj b hissued b hin rfl

end KvCacheManager

namespace Session

/-- Every block of a page held is free, reserved or with a caller; an allocation that raises after it
has taken blocks leaves some that are not. -/
def NothingDropped (C : KvCacheManagerConfig) (s : Session σ) : Prop :=
  ∀ p ∈ s.manager.issued, ∀ b ∈ blockRange C p,
    b ∈ s.held ∨ b ∈ s.manager.reservedBlocks ∨ b ∈ s.manager.freeBlocks

theorem nothingDropped_iff {s : Session σ} {lost : List BlockId}
    (h : Settled C s.manager (s.held ++ lost)) : s.NothingDropped C ↔ lost = [] := by
  have hc := h.consistent
  constructor
  · intro hall
    apply List.eq_nil_iff_forall_not_mem.mpr
    intro b hb
    have hout : b ∈ s.manager.reservedBlocks ++ (s.held ++ lost) :=
      List.mem_append_right _ (List.mem_append_right _ hb)
    obtain ⟨hp, hrange⟩ := hc.mem_blockRange hout
    obtain ⟨-, hn, hdisj⟩ := List.nodup_append.mp hc.nodup
    rcases hall _ hp b hrange with hin | hin | hin
    · exact (List.nodup_append.mp hn).2.2 b hin b hb rfl
    · exact hdisj b hin b (List.mem_append_right _ hb) rfl
    · exact hc.notMem_freeBlocks hout hin
  · rintro rfl p hp b hb
    have hin := (hc.mem_freeBlocks b).mp ⟨p, hp, hb⟩
    simp only [List.append_nil, List.mem_append] at hin
    tauto

/-- `_get_num_alloced_blocks` counts the blocks held and reserved exactly when none is reserved, every
page held has as many blocks as a page is reckoned to have, and no block was dropped. -/
theorem getNumAllocedBlocks_iff (C : KvCacheManagerConfig) (S : PageAllocatorApi σ) (s₀ : σ)
    (acts : List ManagerAct) (s : Session σ)
    (hrun : run (step C S) (start s₀) acts = some s)
    (hu : Along (step C S) (IssuesOnce C S) (start s₀) acts) :
    getNumAllocedBlocks C s.manager = s.held.length + s.manager.reservedBlocks.length ↔
      s.manager.reservedBlocks = [] ∧
      (∀ p ∈ s.manager.issued,
        ((blockRange C p).length : Int) = InternalPage.getNumBlocks C.pageSize C.blockMemSize) ∧
      s.NothingDropped C := by
  obtain ⟨lost, hsettled⟩ := (run_accounted hrun hu).settled
  have hcount := hsettled.consistent.getNumAllocedBlocks
  have hpages := hsettled.consistent.nonneg
  have hnonneg := shortfall_nonneg (C := C) hpages
  rw [nothingDropped_iff hsettled, ← shortfall_eq_zero hpages, ← List.length_eq_zero_iff,
    ← List.length_eq_zero_iff (l := lost), hcount]
  simp only [List.length_append, Nat.cast_add]
  omega

instance (C : KvCacheManagerConfig) (s : Session σ) : Decidable (s.NothingDropped C) := by
  unfold NothingDropped
  infer_instance

theorem getNumAllocedBlocks_held : ∃ s,
    run (step straddlingManager straddlingApi) straddlingStart [.postInit true, .alloc 2] = some s ∧
      s.held = [1, 3, 0] ∧ getNumAllocedBlocks straddlingManager s.manager =
        s.held.length + s.manager.reservedBlocks.length := by
  have hrun : run (step straddlingManager straddlingApi) straddlingStart
      [.postInit true, .alloc 2] = some _ := (Option.some_get (by decide +kernel)).symm
  exact ⟨_, hrun, by decide +kernel, (getNumAllocedBlocks_iff straddlingManager straddlingApi _ _ _
    hrun (by decide +kernel)).mpr ⟨by decide +kernel, by decide +kernel, by decide +kernel⟩⟩

/-- Two blocks are held and two reserved, and the count is six. -/
theorem reserved_blocks_counted_twice : ∃ s,
    run (step straddlingManager straddlingApi) straddlingStart reserveAndFree = some s ∧
      s.held.length + s.manager.reservedBlocks.length = 4 ∧
      getNumAllocedBlocks straddlingManager s.manager = 6 := by
  have hrun : run (step straddlingManager straddlingApi) straddlingStart reserveAndFree =
      some _ := (Option.some_get (by decide +kernel)).symm
  exact ⟨_, hrun, by decide +kernel, by decide +kernel⟩

end Session

end GpuSharing.Kvcached
