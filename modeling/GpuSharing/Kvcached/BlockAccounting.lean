import Mathlib.Algebra.BigOperators.Ring.Finset
import GpuSharing.Kvcached.BlockOwnership

namespace GpuSharing.Kvcached.KvCacheManager

variable {σ : Type} {C : KvCacheManagerConfig} {m : KvCacheManager (σ × List PageId)}
  {held : List BlockId}

/-- The pages that blocks of `held` lie on. -/
def pagesOf (C : KvCacheManagerConfig) (held : List BlockId) : List PageId :=
  (held.map (getPageId C)).dedup

/-- The pages held that have no whole block. -/
def parkedPages (C : KvCacheManagerConfig) (m : KvCacheManager (σ × List PageId)) :
    List PageId := m.issued.filter (blockRange C · = [])

/-- A page in `avail_pages` has an outstanding block, and so does every page held that has a whole
block at all. -/
theorem Consistent.page_used (h : Consistent C m held) :
    (∀ p ∈ m.availPages, p ∈ pagesOf C held) ∧
      ∀ p ∈ m.issued, p ∈ pagesOf C held ∨ blockRange C p = [] := by
  have hused : ∀ p, issuedOn C held p ≠ [] → p ∈ pagesOf C held := by
    intro p hp
    obtain ⟨b, hb⟩ := List.exists_mem_of_ne_nil _ hp
    obtain ⟨hb, hbp⟩ := List.mem_filter.mp hb
    exact List.mem_dedup.mpr (List.mem_map.mpr ⟨b, hb, of_decide_eq_true hbp⟩)
  have havail : ∀ p ∈ m.availPages, p ∈ pagesOf C held := by
    intro p hp
    obtain ⟨e, he, rfl⟩ := List.mem_map.mp (show p ∈ m.availPages.entries.map Sigma.fst from hp)
    have hin : e ∈ heldEntries m.availPages m.fullPages := List.mem_append_left _ he
    have hlen := (h.holds.pages e hin).length_le
    have hopen := (h.holds.opened e he).2
    rw [h.holds.keyed e hin] at hlen
    apply hused
    intro hnil
    rw [hnil, List.length_nil] at hlen
    omega
  refine ⟨havail, ?_⟩
  intro p hp
  rcases mem_pageIds.mp (h.pages.mem_iff.mpr hp) with hp | hp
  · exact .inl (havail p hp)
  · obtain ⟨e, he, rfl⟩ := List.mem_map.mp (show p ∈ m.fullPages.entries.map Sigma.fst from hp)
    have hin : e ∈ heldEntries m.availPages m.fullPages := List.mem_append_right _ he
    have hblocks := (h.holds.pages e hin).blocks
    rw [h.holds.closed e he, List.append_nil, h.holds.keyed e hin] at hblocks
    by_cases hnil : issuedOn C held e.1 = []
    · rw [hnil] at hblocks
      exact .inr hblocks.symm.eq_nil
    · exact .inl (hused _ hnil)

/-- The pages held are those of the outstanding blocks and the parked ones. -/
theorem Consistent.issued_perm (h : Consistent C m held) :
    m.issued.Perm (pagesOf C held ++ parkedPages C m) := by
  have hn : m.issued.Nodup := h.pages.nodup_iff.mp h.holds.nodup
  have hon : ∀ p ∈ pagesOf C held, p ∈ m.issued ∧ blockRange C p ≠ [] := by
    intro p hp
    obtain ⟨b, hb, rfl⟩ := List.mem_map.mp (List.mem_dedup.mp hp)
    obtain ⟨hin, hrange⟩ := h.mem_blockRange hb
    exact ⟨hin, List.ne_nil_of_mem hrange⟩
  have hnodup : (pagesOf C held ++ parkedPages C m).Nodup := by
    apply List.nodup_append.mpr
    refine ⟨List.nodup_dedup _, hn.filter _, ?_⟩
    intro p hp q hq heq
    subst heq
    exact (hon p hp).2 (of_decide_eq_true (List.mem_filter.mp hq).2)
  rw [List.perm_ext_iff_of_nodup hn hnodup]
  intro p
  rw [List.mem_append]
  constructor
  · intro hp
    rcases h.page_used.2 p hp with hp' | hnil
    · exact .inl hp'
    · exact .inr (List.mem_filter.mpr ⟨hp, decide_eq_true hnil⟩)
  · intro hp
    rcases hp with hp | hp
    · exact (hon p hp).1
    · exact (List.mem_filter.mp hp).1

/-- The free and the outstanding blocks are the blocks of the pages held. -/
theorem Consistent.freeIn_add (h : Consistent C m held) :
    freeIn m.availPages + held.length =
      ((m.issued.map fun p => (blockRange C p).length).sum : Nat) := by
  have hout : ((pageIds m.availPages m.fullPages).map fun p => (issuedOn C held p).length).sum =
      held.length := by
    have hperm : ((pageIds m.availPages m.fullPages).flatMap (issuedOn C held)).Perm held :=
      groups_perm _ h.holds.nodup fun b hb => h.pages.mem_iff.mpr (h.owned b hb)
    rw [← hperm.length_eq, List.length_flatMap]
  have hfull : (m.fullPages.entries.map fun e => e.2.freeList.length).sum = 0 := by
    apply List.sum_eq_zero
    intro n hn
    obtain ⟨e, he, rfl⟩ := List.mem_map.mp hn
    rw [h.holds.closed e he, List.length_nil]
  have hfree : freeIn m.availPages =
      ((m.availPages.entries.map fun e => e.2.freeList.length).sum : Nat) := by
    rw [freeIn, Nat.cast_list_sum, List.map_map]
    rfl
  have hpage : ∀ e ∈ heldEntries m.availPages m.fullPages,
      (blockRange C e.1).length = (issuedOn C held e.1).length + e.2.freeList.length := by
    intro e he
    rw [← h.holds.keyed e he, ← (h.holds.pages e he).blocks.length_eq, List.length_append]
  have hsum : ((heldEntries m.availPages m.fullPages).map fun e =>
      (blockRange C e.1).length).sum = held.length +
        (m.availPages.entries.map fun e => e.2.freeList.length).sum := by
    rw [List.map_congr_left hpage, List.sum_map_add, ← hout]
    congr 1
    · rw [pageIds, List.keys, List.map_map]
      rfl
    · rw [heldEntries, List.map_append, List.sum_append, hfull, Nat.add_zero]
  rw [← (h.pages.map _).sum_eq, pageIds, List.keys, List.map_map, hfree]
  change _ = ((((heldEntries m.availPages m.fullPages).map fun e =>
    (blockRange C e.1).length).sum : Nat) : Int)
  rw [hsum]
  push_cast
  ring

/-- The free blocks are determined by the outstanding ones. -/
theorem Consistent.freeIn_eq (h : Consistent C m held) :
    freeIn m.availPages + held.length =
      (((pagesOf C held).map fun p => (blockRange C p).length).sum : Nat) := by
  have hparked : ((parkedPages C m).map fun p => (blockRange C p).length).sum = 0 := by
    apply List.sum_eq_zero
    intro n hn
    obtain ⟨p, hp, rfl⟩ := List.mem_map.mp hn
    rw [of_decide_eq_true (List.mem_filter.mp hp).2, List.length_nil]
  rw [h.freeIn_add, (h.issued_perm.map _).sum_eq, List.map_append, List.sum_append, hparked,
    Nat.add_zero]

theorem Consistent.length_issued (h : Consistent C m held) :
    (m.issued.length : Int) = (pagesOf C held).length + (parkedPages C m).length := by
  rw [h.issued_perm.length_eq, List.length_append, Nat.cast_add]

end GpuSharing.Kvcached.KvCacheManager
