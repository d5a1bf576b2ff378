import GpuSharing.Kvcached.ManagerFree
import GpuSharing.Lib.Grouping

namespace GpuSharing.Kvcached

variable {pageSize blockMemSize : Int}

namespace InternalPage

/-- The free list of a page as `init` leaves it. -/
def blocks (pageSize blockMemSize : Int) (p : PageId) : List BlockId :=
  ((mk' p pageSize).init blockMemSize).freeList

theorem mem_blocks (hs : 0 < pageSize) (hb : 0 < blockMemSize) {p : Int} (hp : 0 ≤ p)
    (b : BlockId) : b ∈ blocks pageSize blockMemSize p ↔ Within pageSize blockMemSize b p :=
  mem_blockRange hs hb hp b

theorem getPageId_of_mem_blocks (hs : 0 < pageSize) (hb : 0 < blockMemSize) {p : Int} (hp : 0 ≤ p)
    {b : BlockId} (h : b ∈ blocks pageSize blockMemSize p) :
    PageAllocator.getPageId pageSize b blockMemSize = p :=
  PageAllocator.getPageId_of_within hs hb hp ((mem_blocks hs hb hp b).mp h)

/-- No block lies inside two pages. -/
theorem disjoint_blocks (hs : 0 < pageSize) (hb : 0 < blockMemSize) {p q : Int} (hp : 0 ≤ p)
    (hq : 0 ≤ q) (hne : p ≠ q) :
    (blocks pageSize blockMemSize p).Disjoint (blocks pageSize blockMemSize q) := by
  intro b hbp hbq
  apply hne
  rw [← getPageId_of_mem_blocks hs hb hp hbp, getPageId_of_mem_blocks hs hb hq hbq]

end InternalPage

namespace PageAllocator

/-- `group_indices_by_page`. The capacity that the map is given beforehand takes a division by the
blocks of a page, by which the process ends when they are none. -/
def groupIndicesByPage (pageSize : Int) (indices : List BlockId) (blockMemSize : Int) :
    Option (Dict PageId (List BlockId)) :=
  let blocksPerPage := pageSize.tdiv blockMemSize
  if blocksPerPage = 0 then none
  else some (Grouping.dictGrouped (getPageId pageSize · blockMemSize) indices)

/-- Every index is in one group, that of its page, and no group is empty. -/
structure Partitions (pageSize blockMemSize : Int) (indices : List BlockId)
    (result : Dict PageId (List BlockId)) : Prop where
  complete : (result.entries.flatMap (·.2)).Perm indices
  byPage : ∀ p ids, result.lookup p = some ids →
    ids ≠ [] ∧ ids = indices.filter (getPageId pageSize · blockMemSize = p)

theorem groupIndicesByPage_eq_none (hs : 0 < pageSize) (hb : 0 < blockMemSize)
    {indices : List BlockId} :
    groupIndicesByPage pageSize indices blockMemSize = none ↔ pageSize < blockMemSize := by
  unfold groupIndicesByPage
  rw [← InternalPage.ediv_eq_zero_iff hs.le hb, ← Int.tdiv_eq_ediv_of_nonneg hs.le]
  dsimp only
  split_ifs with h <;> simp [h]

theorem groupIndicesByPage_partitions {indices : List BlockId} {result : Dict PageId (List BlockId)}
    (h : groupIndicesByPage pageSize indices blockMemSize = some result) :
    Partitions pageSize blockMemSize indices result := by
  unfold groupIndicesByPage at h
  dsimp only at h
  split_ifs at h
  cases h
  refine ⟨Grouping.dictGrouped_perm _ _, fun p ids hids => ?_⟩
  refine ⟨Grouping.ne_nil_of_lookup_dictGrouped hids, ?_⟩
  rw [← Grouping.lookup_dictGrouped, hids]
  rfl

theorem exists_partition (hs : 0 < pageSize) (hb : 0 < blockMemSize)
    (hfits : blockMemSize ≤ pageSize) (indices : List BlockId) :
    ∃ result, groupIndicesByPage pageSize indices blockMemSize = some result ∧
      Partitions pageSize blockMemSize indices result := by
  cases hgroups : groupIndicesByPage pageSize indices blockMemSize with
  | none => exact absurd ((groupIndicesByPage_eq_none hs hb).mp hgroups) (not_lt.mpr hfits)
  | some result => exact ⟨result, rfl, groupIndicesByPage_partitions hgroups⟩

/-- What the ranges of blocks, the lookup of a block's page and the grouping by it have to do with
one another. -/
structure RangesAgree (pageSize blockMemSize : Int) : Prop where
  within : ∀ p : Int, 0 ≤ p → ∀ b,
    b ∈ InternalPage.blocks pageSize blockMemSize p ↔ InternalPage.Within pageSize blockMemSize b p
  lookup : ∀ p : Int, 0 ≤ p → ∀ b ∈ InternalPage.blocks pageSize blockMemSize p,
    getPageId pageSize b blockMemSize = p
  disjoint : ∀ p q : Int, 0 ≤ p → 0 ≤ q → p ≠ q →
    (InternalPage.blocks pageSize blockMemSize p).Disjoint
      (InternalPage.blocks pageSize blockMemSize q)
  groups : ∀ indices, ∃ result, groupIndicesByPage pageSize indices blockMemSize = some result ∧
    Partitions pageSize blockMemSize indices result

/-- The ranges and the lookup agree for all sizes; it is the grouping that needs a block to fit into
a page. -/
theorem ranges_agree_iff (hs : 0 < pageSize) (hb : 0 < blockMemSize) :
    RangesAgree pageSize blockMemSize ↔ blockMemSize ≤ pageSize := by
  constructor
  · intro h
    obtain ⟨result, hresult, -⟩ := h.groups []
    by_contra hlarge
    rw [(groupIndicesByPage_eq_none hs hb).mpr (not_le.mp hlarge)] at hresult
    cases hresult
  · intro hfits
    exact ⟨fun p hp => InternalPage.mem_blocks hs hb hp,
      fun p hp b => InternalPage.getPageId_of_mem_blocks hs hb hp,
      fun p q hp hq => InternalPage.disjoint_blocks hs hb hp hq, exists_partition hs hb hfits⟩

/-- Blocks of three bytes in pages of eight: every third block straddles a page. -/
theorem ranges_agree_straddling : 3 ≤ 8 ∧ RangesAgree 8 3 :=
  ⟨by decide, (ranges_agree_iff (by decide) (by decide)).mpr (by decide)⟩

/-- Blocks of 4 MiB are larger than a page of 2 MiB. -/
theorem large_block_groups_nothing : groupIndicesByPage (2^21) [0] (2^22) = none ∧
    ¬ RangesAgree (2^21) (2^22) := by
  refine ⟨by decide, fun h => ?_⟩
  obtain ⟨result, hresult, -⟩ := h.groups [0]
  rw [show groupIndicesByPage (2^21) [0] (2^22) = none by decide] at hresult
  cases hresult

end PageAllocator

/-- The groups that `free` goes through are those of the map, in the order of iteration. -/
theorem KvCacheManager.mem_groupIndicesByPage {C : KvCacheManagerConfig}
    (hfits : C.blockMemSize ≤ C.pageSize) (ids : List BlockId) :
    ∃ result, PageAllocator.groupIndicesByPage C.pageSize ids C.blockMemSize = some result ∧
      ∀ p group, (p, group) ∈ KvCacheManager.groupIndicesByPage C ids ↔
        result.lookup p = some group := by
  obtain ⟨result, hresult, hparts⟩ :=
    PageAllocator.exists_partition C.pageSize_pos C.blockMemSize_pos hfits ids
  refine ⟨result, hresult, fun p group => ?_⟩
  constructor
  · intro hin
    obtain ⟨q, hq, heq⟩ := List.mem_map.mp hin
    cases heq
    obtain ⟨b, hb, rfl⟩ := List.mem_map.mp ((C.groupOrder.mem _ _).mp hq)
    obtain ⟨e, he, hbe⟩ := List.mem_flatMap.mp (hparts.complete.mem_iff.mpr hb)
    have hlookup : result.lookup e.1 = some e.2 := AList.mem_lookup_iff.mpr he
    have hgroup := (hparts.byPage _ _ hlookup).2
    rw [hgroup] at hbe
    have hpage : getPageId C b = e.1 := of_decide_eq_true (List.mem_filter.mp hbe).2
    rw [hpage, hlookup, hgroup]
    rfl
  · intro hlookup
    obtain ⟨hne, rfl⟩ := hparts.byPage p group hlookup
    obtain ⟨b, hb⟩ := List.exists_mem_of_ne_nil _ hne
    obtain ⟨hb, hpage⟩ := List.mem_filter.mp hb
    refine List.mem_map.mpr ⟨p, (C.groupOrder.mem _ _).mpr ?_, rfl⟩
    exact List.mem_map.mpr ⟨b, hb, of_decide_eq_true hpage⟩

end GpuSharing.Kvcached
