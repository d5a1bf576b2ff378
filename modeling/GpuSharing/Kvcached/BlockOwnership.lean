import GpuSharing.Kvcached.ManagerHistory

namespace GpuSharing.Kvcached

open Transition KvCacheManager

variable {σ : Type} {C : KvCacheManagerConfig} {S : PageAllocatorApi σ}

namespace KvCacheManager

variable {m : KvCacheManager (σ × List PageId)} {out : List BlockId}

theorem mem_pageIds {p : PageId} : p ∈ pageIds m.availPages m.fullPages ↔
    p ∈ m.availPages ∨ p ∈ m.fullPages := by
  simp only [pageIds, heldEntries, List.keys, List.map_append, List.mem_append]
  rfl

/-- An outstanding block is one of the blocks of a page held. -/
theorem Consistent.mem_blockRange (h : Consistent C m out) {b : BlockId} (hb : b ∈ out) :
    getPageId C b ∈ m.issued ∧ b ∈ blockRange C (getPageId C b) := by
  have hp := h.owned b hb
  refine ⟨hp, ?_⟩
  obtain ⟨e, he, heq⟩ := List.mem_map.mp (h.pages.mem_iff.mpr hp)
  have hok := h.holds.pages e he
  have hin : b ∈ issuedOn C out e.2.pageId := by
    rw [issuedOn, List.mem_filter, h.holds.keyed e he, heq]
    exact ⟨hb, decide_eq_true rfl⟩
  have hrange := hok.blocks.subset (List.mem_append_left _ hin)
  rwa [h.holds.keyed e he, heq] at hrange

theorem Consistent.nodup (h : Consistent C m out) : out.Nodup := by
  rw [List.nodup_iff_count_le_one]
  intro b
  by_cases hb : b ∈ out
  · obtain ⟨e, he, heq⟩ := List.mem_map.mp (h.pages.mem_iff.mpr (h.owned b hb))
    have hok := h.holds.pages e he
    have hnodup := (List.nodup_append.mp
      (hok.blocks.nodup_iff.mpr (nodup_blockRange C e.2.pageId))).1
    rw [h.holds.keyed e he, heq] at hnodup
    have hcount : (issuedOn C out (getPageId C b)).count b = out.count b := by
      rw [issuedOn, List.count_filter]
      exact decide_eq_true rfl
    rw [← hcount]
    exact List.nodup_iff_count_le_one.mp hnodup b
  · rw [List.count_eq_zero.mpr hb]
    exact Nat.zero_le _

end KvCacheManager

namespace Session

/-- The blocks held and reserved are accounted for, together with blocks an allocation that raised
has lost. -/
structure Accounted (C : KvCacheManagerConfig) (s : Session σ) : Prop where
  settled : ∃ lost, Settled C s.manager (s.held ++ lost)
  fresh : s.manager.postInitDone = false → s.held = [] ∧ s.manager.nullBlock = none

theorem start_accounted (s : σ) : (start s).Accounted C := by
  refine ⟨⟨[], ⟨⟨⟨?_, ?_, ?_, ?_, ?_⟩, rfl, ?_, ?_⟩, ?_⟩⟩, fun _ => ⟨rfl, rfl⟩⟩ <;>
    simp [start, KvCacheManager.init, pageIds, heldEntries, KvCacheManager.issued, ShrinkKnown]

/-- Freeing held blocks leaves the other held, reserved and lost blocks outstanding. -/
theorem free_accounted {s : Session σ} {ids lost : List BlockId}
    (hs : Settled C s.manager (s.held ++ lost)) (hids : ids.Subperm s.held) :
    ∃ m, free C S.logged ids s.manager = (.ok (), m) ∧ Settled C m (s.held.diff ids ++ lost) ∧
      AfterFree s.manager m := by
  have hperm : (s.manager.reservedBlocks ++ (s.held ++ lost)).Perm
      (ids ++ (s.manager.reservedBlocks ++ (s.held.diff ids ++ lost))) := by
    have h := (append_diff_perm hids).symm.append_right lost
    rw [List.append_assoc] at h
    exact (h.append_left _).trans (List.perm_append_comm_assoc _ _ _)
  have hapart : ∀ b ∈ ids, b ∉ s.manager.reservedBlocks := by
    intro b hb hr
    have hdisj := (List.nodup_append.mp hs.consistent.nodup).2.2
    exact hdisj b hr b (List.mem_append_left _ (hids.subset hb)) rfl
  obtain ⟨m, hfree, hm, hafter⟩ :=
    free_spec (S := S) (hs.consistent.perm hperm) hs.known fun _ => hapart
  refine ⟨m, hfree, ⟨?_, hafter.known⟩, hafter⟩
  rwa [hafter.reservedBlocks]

theorem step_accounted {s t : Session σ} {act : ManagerAct} (hs : s.Accounted C)
    (hu : IssuesOnce C S s act) (h : step C S s act = some t) : t.Accounted C := by
  obtain ⟨lost, hsettled⟩ := hs.settled
  have hu : t.manager.IssuedOnce := by
    rw [IssuesOnce, h] at hu
    exact hu
  have hfresh : ∀ {m : KvCacheManager (σ × List PageId)} {held : List BlockId},
      s.manager.postInitDone = true → SameInit s.manager m →
        m.postInitDone = false → held = [] ∧ m.nullBlock = none := by
    intro m held hdone hinit hnot
    rw [hinit.postInitDone, hdone] at hnot
    cases hnot
  cases step_outcome h with
  | postInit created r m hdone hcall =>
    obtain ⟨hheld, hnull⟩ := hs.fresh hdone
    obtain ⟨hdone', lost', hlost⟩ := postInit_settled hsettled hnull hcall hu
    refine ⟨⟨lost' ++ (s.held ++ lost), hlost⟩, ?_⟩
    intro hnot
    rw [hdone'] at hnot
    cases hnot
  | background => exact ⟨⟨lost, hsettled.relabel hsettled.known rfl⟩, hs.fresh⟩
  | allocs n ids m hdone hcall =>
    obtain ⟨hinit, got, hgot, hids⟩ := alloc_settled hsettled hcall hu
    rw [hids ids rfl, ← List.append_assoc] at hgot
    exact ⟨⟨lost, hgot⟩, hfresh hdone hinit⟩
  | allocRaises n e m hdone hcall =>
    obtain ⟨hinit, got, hgot, -⟩ := alloc_settled hsettled hcall hu
    refine ⟨⟨got ++ lost, ?_, hgot.known⟩, hfresh hdone hinit⟩
    exact hgot.consistent.perm ((List.perm_append_comm_assoc _ _ _).append_left _)
  | free ids hdone hheld =>
    obtain ⟨m, hfree, hm, hafter⟩ := free_accounted (S := S) hsettled hheld
    rw [hfree]
    exact ⟨⟨lost, hm⟩, hfresh hdone hafter.init⟩
  | tryToReserve n r m hdone hcall =>
    obtain ⟨hinit, lost', hlost⟩ := tryToReserve_settled hsettled hcall hu
    refine ⟨⟨lost' ++ lost, ?_, hlost.known⟩, hfresh hdone hinit⟩
    exact hlost.consistent.perm ((List.perm_append_comm_assoc _ _ _).append_left _)
  | freeReserved hdone =>
    rcases freeReserved_spec (S := S) hsettled.consistent hsettled.known with
      ⟨m, hfree, hm, hnil, hknown, hinit⟩ | ⟨e, hfree⟩
    · rw [hfree]
      refine ⟨⟨lost, ?_, hknown⟩, hfresh hdone hinit⟩
      rw [hnil]
      exact hm
    · rw [hfree]
      exact hs
  | resize n hdone =>
    obtain ⟨hm, hinit⟩ := resize_settled (S := S) (r := (resize C S.logged n s.manager).1) hsettled rfl
    exact ⟨⟨lost, hm⟩, hfresh hdone hinit⟩
  | trim hdone =>
    exact ⟨⟨lost, hsettled.relabel hsettled.known rfl⟩, hfresh hdone ⟨rfl, rfl⟩⟩

theorem run_accounted {s₀ : σ} {acts : List ManagerAct} {s : Session σ}
    (hrun : run (step C S) (start s₀) acts = some s)
    (hu : Along (step C S) (IssuesOnce C S) (start s₀) acts) : s.Accounted C :=
  run_invariant_along (fun _ _ _ => step_accounted) (start_accounted s₀) hu hrun

/-- In every state a manager can reach over an allocator that issues unique page ids, held and
reserved blocks are distinct blocks of the pages held, every page held is in one of the two
dictionaries, and the counter counts the free blocks of `avail_pages`. -/
theorem blocks_owned (C : KvCacheManagerConfig) (S : PageAllocatorApi σ) (s₀ : σ)
    (acts : List ManagerAct) (s : Session σ)
    (hrun : run (step C S) (start s₀) acts = some s)
    (hu : Along (step C S) (IssuesOnce C S) (start s₀) acts) :
    (s.held ++ s.manager.reservedBlocks).Nodup ∧
    (∀ b ∈ s.held ++ s.manager.reservedBlocks,
      ∃ p ∈ s.manager.issued, b ∈ blockRange C p) ∧
    (∀ p, p ∈ s.manager.issued ↔ p ∈ s.manager.availPages ∨ p ∈ s.manager.fullPages) ∧
    (∀ p, ¬(p ∈ s.manager.availPages ∧ p ∈ s.manager.fullPages)) ∧
    s.manager.numAvailBlocks =
      (s.manager.availPages.entries.map fun e => e.2.numFreeBlocks).sum := by
  obtain ⟨lost, hsettled⟩ := (run_accounted hrun hu).settled
  have hc := hsettled.consistent
  have hperm : (s.manager.reservedBlocks ++ (s.held ++ lost)).Perm
      (s.held ++ s.manager.reservedBlocks ++ lost) := by
    rw [List.append_assoc]
    exact List.perm_append_comm_assoc _ _ _
  refine ⟨?_, ?_, ?_, ?_, hc.counter⟩
  · exact (List.nodup_append.mp (hperm.nodup_iff.mp hc.nodup)).1
  · intro b hb
    have hin := hc.mem_blockRange (hperm.mem_iff.mpr (List.mem_append_left _ hb))
    exact ⟨_, hin.1, hin.2⟩
  · intro p
    rw [← hc.pages.mem_iff, mem_pageIds]
  · intro p hp
    have hn := hc.holds.nodup
    rw [pageIds, heldEntries, List.keys, List.map_append] at hn
    exact (List.nodup_append.mp hn).2.2 p hp.1 p hp.2 rfl

instance (m : KvCacheManager (σ × List PageId)) : Decidable m.IssuedOnce := by
  unfold IssuedOnce
  infer_instance

instance (C : KvCacheManagerConfig) (S : PageAllocatorApi σ) :
    ∀ s act, Decidable (IssuesOnce C S s act) := fun s act => by
  unfold IssuesOnce
  split <;> infer_instance

/-- Three pages of eight bytes and blocks of three, two whole blocks to a page. -/
def straddlingAllocator : PageAllocatorConfig where
  numLayers := 1
  memSizePerLayer := 24
  pageSize := 8
  numKvBuffers := 1
  memSizePerLayer_nonneg := Numerals.nonneg_twentyFour
  pageSize_pos := Numerals.pos_eight

def straddlingManager : KvCacheManagerConfig where
  blockMemSize := 3
  pageSize := 8
  reserveNullBlock := true
  pageSize_pos := Numerals.pos_eight
  pageSize_lt := Numerals.eight_lt

def straddlingApi : PageAllocatorApi AllocatorProcess := straddlingAllocator.api fun _ => (1000, 0)

/-- The worker reserves the two other pages after the null block is out. -/
def straddlingStart : Session AllocatorProcess :=
  start (.init straddlingAllocator [[], [], [], [], [.grab 5, .mapReturns, .relock]])

def reserveAndFree : List ManagerAct :=
  [.postInit true, .background, .alloc 2, .tryToReserve 2, .free [3]]

theorem blocks_owned_straddling :
    ∃ s, run (step straddlingManager straddlingApi) straddlingStart reserveAndFree = some s ∧
      s.held = [1, 0] ∧ s.manager.reservedBlocks = [4, 6] ∧ s.manager.issued = [2, 1, 0] ∧
      (s.held ++ s.manager.reservedBlocks).Nodup := by
  have hrun : run (step straddlingManager straddlingApi) straddlingStart reserveAndFree =
      some _ := (Option.some_get (by decide +kernel)).symm
  have howned := blocks_owned straddlingManager straddlingApi _ reserveAndFree _ hrun
    (by decide +kernel)
  exact ⟨_, hrun, by decide +kernel, by decide +kernel, by decide +kernel, howned.1⟩

end Session

end GpuSharing.Kvcached
