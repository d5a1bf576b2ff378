import GpuSharing.Kvcached.AllocedCount

namespace GpuSharing.Kvcached

open Transition KvCacheManager

variable {σ : Type} {C : KvCacheManagerConfig} {S : PageAllocatorApi σ}

namespace KvCacheManager

variable {m m' : KvCacheManager (σ × List PageId)} {out ids : List BlockId} {b : BlockId}

/-- The blocks `ids` have come back to their pages, each once and nothing else, and a page that was
given back has all its blocks. -/
structure PutBack (C : KvCacheManagerConfig) (m m' : KvCacheManager (σ × List PageId))
    (ids : List BlockId) : Prop where
  pages : m'.issued ⊆ m.issued
  once : ∀ b, getPageId C b ∈ m'.issued →
    m'.freeBlocks.count b = m.freeBlocks.count b + ids.count b
  whole : ∀ p ∈ m.issued, p ∉ m'.issued → ∀ b ∈ blockRange C p,
    m.freeBlocks.count b + ids.count b = 1

/-- A block of a page held is free as often as it is not outstanding. -/
theorem Consistent.count_freeBlocks (h : Consistent C m out) (hb : getPageId C b ∈ m.issued) :
    out.count b + m.freeBlocks.count b = (blockRange C (getPageId C b)).count b := by
  obtain ⟨e, he, hkey⟩ := List.mem_map.mp (h.pages.mem_iff.mpr hb)
  obtain ⟨before, after, hsplit⟩ := List.append_of_mem he
  have hperm : (heldEntries m.availPages m.fullPages).Perm (e :: (before ++ after)) := by
    rw [hsplit]
    exact List.perm_middle
  have hkeys := (hperm.map Sigma.fst).nodup_iff.mp h.holds.nodup
  have hothers : ((before ++ after).flatMap fun e => e.2.freeList).count b = 0 := by
    rw [List.count_eq_zero, List.mem_flatMap]
    rintro ⟨e', he', hin⟩
    have hheld := hperm.mem_iff.mpr (List.mem_cons_of_mem _ he')
    have hpage := (h.holds.pages e' hheld).page_eq hin
    rw [h.holds.keyed e' hheld, ← hkey] at hpage
    refine (List.nodup_cons.mp hkeys).1 ?_
    rw [hpage]
    exact List.mem_map_of_mem he'
  have hfree : m.freeBlocks.count b = e.2.freeList.count b := by
    rw [freeBlocks, (hperm.flatMap_right _).count_eq, List.flatMap_cons, List.count_append, hothers,
      Nat.add_zero]
  have hpage : e.2.pageId = getPageId C b := (h.holds.keyed e he).trans hkey
  have hcount := (h.holds.pages e he).blocks.count_eq b
  rw [hpage, List.count_append, issuedOn, List.count_filter] at hcount
  · rw [hfree, hcount]
  · exact decide_eq_true rfl

theorem Consistent.count_range (h : Consistent C m out) {p : PageId} (hp : p ∈ m.issued)
    (hb : b ∈ blockRange C p) : out.count b + m.freeBlocks.count b = 1 := by
  have hpage := getPageId_of_mem C (h.nonneg p hp) hb
  rw [h.count_freeBlocks (by rwa [hpage]), hpage]
  exact List.count_eq_one_of_mem (nodup_blockRange C p) hb

/-- What was outstanding and is so no more has come back. -/
theorem Consistent.putBack (h : Consistent C m (ids ++ out)) (h' : Consistent C m' out)
    (hpages : m'.issued ⊆ m.issued) : PutBack C m m' ids := by
  refine ⟨hpages, ?_, ?_⟩
  · intro b hb
    have hbefore := h.count_freeBlocks (hpages hb)
    have hafter := h'.count_freeBlocks hb
    rw [List.count_append] at hbefore
    omega
  · intro p hp hgone b hb
    have hcount := h.count_range hp hb
    have hnone : out.count b = 0 := by
      rw [List.count_eq_zero]
      intro hout
      apply hgone
      rw [← getPageId_of_mem C (h.nonneg p hp) hb]
      exact h'.owned b hout
    rw [List.count_append, hnone] at hcount
    omega

/-- `free_reserved` returns with every reserved block back on its page. -/
structure FreesReserved (C : KvCacheManagerConfig) (S : PageAllocatorApi σ)
    (m : KvCacheManager (σ × List PageId)) : Prop where
  returns : (freeReserved C S.logged m).1 = .ok ()
  cleared : (freeReserved C S.logged m).2.reservedBlocks = []
  putBack : PutBack C m (freeReserved C S.logged m).2 m.reservedBlocks

/-- `free_reserved` hands its blocks to `free` while they are still listed as reserved. -/
theorem freesReserved_iff (hm : Consistent C m (m.reservedBlocks ++ out)) (hs : m.ShrinkKnown) :
    FreesReserved C S m ↔ C.sanityCheck = false ∨ m.reservedBlocks = [] := by
  constructor
  · intro h
    by_contra hnot
    rw [not_or] at hnot
    obtain ⟨e, hraises⟩ := freeReserved_raises (S := S) (by simpa using hnot.1) hnot.2
    have hreturns := h.returns
    rw [hraises] at hreturns
    cases hreturns
  · intro h
    obtain ⟨m', hfree, hm', hnil, -, -, hpages⟩ := freeReserved_returns (S := S) hm hs h
    refine ⟨by rw [hfree], by rw [hfree]; exact hnil, ?_⟩
    rw [hfree]
    exact hm.putBack hm' hpages

end KvCacheManager

namespace Session

/-- In every state a manager reaches, by `try_to_reserve` and `free_reserved` or any other calls,
`free_reserved` does its work exactly if the sanity check is off or nothing is reserved. -/
theorem free_reserved_iff (C : KvCacheManagerConfig) (S : PageAllocatorApi σ) (s₀ : σ)
    (acts : List ManagerAct) (s : Session σ) (hrun : run (step C S) (start s₀) acts = some s)
    (hu : Along (step C S) (IssuesOnce C S) (start s₀) acts) :
    FreesReserved C S s.manager ↔ C.sanityCheck = false ∨ s.manager.reservedBlocks = [] := by
  obtain ⟨lost, hsettled⟩ := (run_accounted hrun hu).settled
  exact freesReserved_iff hsettled.consistent hsettled.known

/-- One block is held and two more are reserved. -/
def holdAndReserve : List ManagerAct := [.postInit true, .alloc 1, .tryToReserve 2]

theorem free_reserved_iff_straddling : ∃ s,
    run (step straddlingManager straddlingApi) straddlingStart holdAndReserve = some s ∧
      s.manager.reservedBlocks = [3, 4] ∧ FreesReserved straddlingManager straddlingApi s.manager := by
  have hrun : run (step straddlingManager straddlingApi) straddlingStart holdAndReserve =
      some _ := (Option.some_get (by decide +kernel)).symm
  have hiff := free_reserved_iff straddlingManager straddlingApi _ holdAndReserve _ hrun
    (by decide +kernel)
  exact ⟨_, hrun, by decide +kernel, hiff.mpr (.inl rfl)⟩

def checkedManager : KvCacheManagerConfig := { straddlingManager with sanityCheck := true }

/-- With the sanity check `free_reserved` raises on the first block that it frees. -/
theorem free_reserved_raises : ∃ s,
    run (step checkedManager straddlingApi) straddlingStart holdAndReserve = some s ∧
      (freeReserved checkedManager straddlingApi.logged s.manager).1 = .error (.valueError
        "Freed index 3 is in  reserved_blocks, which is not allowed.") ∧
      (freeReserved checkedManager straddlingApi.logged s.manager).2.reservedBlocks = [3, 4] := by
  have hrun : run (step checkedManager straddlingApi) straddlingStart holdAndReserve =
      some _ := (Option.some_get (by decide +kernel)).symm
  exact ⟨_, hrun, by decide +kernel, by decide +kernel⟩

end Session

end GpuSharing.Kvcached
