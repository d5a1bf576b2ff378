import Mathlib.Algebra.BigOperators.Group.List.Basic
import Mathlib.Data.List.Perm.Subperm
import GpuSharing.Kvcached.KvCacheManager

namespace GpuSharing.Kvcached

open KvCacheManager

variable {C : KvCacheManagerConfig} {avail full rest : Dict PageId InternalPage}
  {out out' : List BlockId} {pg : InternalPage} {p : PageId}

/-- The blocks of page `p`. -/
def blockRange (C : KvCacheManagerConfig) (p : PageId) : List BlockId :=
  Int.range (InternalPage.getBlockRange p C.pageSize C.blockMemSize).1
    (InternalPage.getBlockRange p C.pageSize C.blockMemSize).2

/-- The blocks of `out` that lie on page `p`. -/
def issuedOn (C : KvCacheManagerConfig) (out : List BlockId) (p : PageId) : List BlockId :=
  out.filter (getPageId C · = p)

/-- Each block of the page is either free or outstanding, and only once. -/
structure PageOk (C : KvCacheManagerConfig) (out : List BlockId) (pg : InternalPage) : Prop where
  nonneg : (0 : Int) ≤ pg.pageId
  numKvBlocks : pg.numKvBlocks = (InternalPage.getBlockRange pg.pageId C.pageSize
    C.blockMemSize).2 - (InternalPage.getBlockRange pg.pageId C.pageSize C.blockMemSize).1
  blocks : (issuedOn C out pg.pageId ++ pg.freeList).Perm (blockRange C pg.pageId)

/-- The entries of both dictionaries. -/
def heldEntries (avail full : Dict PageId InternalPage) : List (Sigma fun _ : PageId => InternalPage) :=
  avail.entries ++ full.entries

def pageIds (avail full : Dict PageId InternalPage) : List PageId := (heldEntries avail full).keys

/-- The free blocks of the pages in `avail_pages`. -/
def freeIn (avail : Dict PageId InternalPage) : Int :=
  (avail.entries.map fun e => e.2.numFreeBlocks).sum

/-- What the two dictionaries of pages keep while the blocks `out` are outstanding. -/
structure Holds (C : KvCacheManagerConfig) (avail full : Dict PageId InternalPage)
    (out : List BlockId) : Prop where
  nodup : (pageIds avail full).Nodup
  keyed : ∀ e ∈ heldEntries avail full, e.2.pageId = e.1
  pages : ∀ e ∈ heldEntries avail full, PageOk C out e.2
  opened : ∀ e ∈ avail.entries, e.2.freeList ≠ [] ∧ e.2.freeList.length < e.2.numKvBlocks
  closed : ∀ e ∈ full.entries, e.2.freeList = []

theorem mem_blockRange_iff (C : KvCacheManagerConfig) {p : Int} (hp : 0 ≤ p) (b : BlockId) :
    b ∈ blockRange C p ↔ InternalPage.Within C.pageSize C.blockMemSize b p :=
  InternalPage.mem_blockRange C.pageSize_pos C.blockMemSize_pos hp b

theorem getPageId_of_mem (C : KvCacheManagerConfig) {p : Int} (hp : 0 ≤ p) {b : BlockId}
    (hb : b ∈ blockRange C p) : getPageId C b = p :=
  PageAllocator.getPageId_of_within C.pageSize_pos C.blockMemSize_pos hp
    ((mem_blockRange_iff C hp b).mp hb)

theorem nodup_blockRange (C : KvCacheManagerConfig) (p : PageId) : (blockRange C p).Nodup :=
  nodup_intRange _ _

theorem length_blockRange (C : KvCacheManagerConfig) (p : PageId) :
    (blockRange C p).length = ((InternalPage.getBlockRange p C.pageSize C.blockMemSize).2 -
      (InternalPage.getBlockRange p C.pageSize C.blockMemSize).1).toNat := by
  simp [blockRange, Int.range]

/-- No page has more blocks than a page is long. -/
theorem numKvBlocks_le (C : KvCacheManagerConfig) {p : Int} (hp : 0 ≤ p) :
    (InternalPage.getBlockRange p C.pageSize C.blockMemSize).2 -
      (InternalPage.getBlockRange p C.pageSize C.blockMemSize).1 ≤
        InternalPage.getNumBlocks C.pageSize C.blockMemSize := by
  have hb := C.blockMemSize_pos
  have hs := C.pageSize_pos
  have h1 : 0 ≤ p * C.pageSize := Int.mul_nonneg hp hs.le
  have hlo := (InternalPage.ceil_le_iff hb h1 (b := _)).mp le_rfl
  have hhi : (InternalPage.getBlockRange p C.pageSize C.blockMemSize).2 * C.blockMemSize ≤
      (p + 1) * C.pageSize := by
    have h2 : 0 ≤ (p + 1) * C.pageSize := Int.mul_nonneg (by omega) hs.le
    have h3 := (InternalPage.lt_floor_iff hb h2
      (b := (InternalPage.getBlockRange p C.pageSize C.blockMemSize).2 - 1)).mp
      (show _ < (InternalPage.getBlockRange p C.pageSize C.blockMemSize).2 by omega)
    rwa [sub_add_cancel] at h3
  change p * C.pageSize ≤ (InternalPage.getBlockRange p C.pageSize C.blockMemSize).1 *
    C.blockMemSize at hlo
  rw [InternalPage.getNumBlocks, Int.tdiv_eq_ediv_of_nonneg hs.le, Int.le_ediv_iff_mul_le hb]
  linarith

/-- A page has fewer blocks than a machine word can count. -/
theorem numKvBlocks_lt (C : KvCacheManagerConfig) {p : Int} (hp : 0 ≤ p) :
    (InternalPage.getBlockRange p C.pageSize C.blockMemSize).2 -
      (InternalPage.getBlockRange p C.pageSize C.blockMemSize).1 < 2^63 := by
  have hle := numKvBlocks_le C hp
  have hpage : InternalPage.getNumBlocks C.pageSize C.blockMemSize ≤ C.pageSize := by
    rw [InternalPage.getNumBlocks, Int.tdiv_eq_ediv_of_nonneg C.pageSize_pos.le]
    exact Int.ediv_le_self _ C.pageSize_pos.le
  have := C.pageSize_lt
  omega

/-- The blocks that a page has, against what the manager reckons with. -/
theorem length_blockRange_le (C : KvCacheManagerConfig) {p : Int} (hp : 0 ≤ p) :
    ((blockRange C p).length : Int) ≤ InternalPage.getNumBlocks C.pageSize C.blockMemSize := by
  have hle := numKvBlocks_le C hp
  have h0 : 0 ≤ InternalPage.getNumBlocks C.pageSize C.blockMemSize :=
    Int.tdiv_nonneg C.pageSize_pos.le C.blockMemSize_pos.le
  rw [length_blockRange]
  omega

namespace PageOk

theorem page_eq (h : PageOk C out pg) {b : BlockId} (hb : b ∈ pg.freeList) :
    getPageId C b = pg.pageId :=
  getPageId_of_mem C h.nonneg (h.blocks.subset (List.mem_append_right _ hb))

theorem length_le (h : PageOk C out pg) :
    (issuedOn C out pg.pageId).length + pg.freeList.length = (pg.numKvBlocks).toNat := by
  rw [← List.length_append, h.blocks.length_eq, length_blockRange, h.numKvBlocks]

theorem congr (h : PageOk C out pg)
    (ho : (issuedOn C out' pg.pageId).Perm (issuedOn C out pg.pageId)) : PageOk C out' pg :=
  ⟨h.nonneg, h.numKvBlocks, (ho.append_right _).trans h.blocks⟩

end PageOk

theorem issuedOn_eq_nil (h : ∀ b ∈ out, getPageId C b ≠ p) : issuedOn C out p = [] := by
  rw [issuedOn, List.filter_eq_nil_iff]
  intro b hb
  simpa using h b hb

theorem issuedOn_self (h : ∀ b ∈ out, getPageId C b = p) : issuedOn C out p = out := by
  rw [issuedOn, List.filter_eq_self]
  intro b hb
  simpa using h b hb

theorem issuedOn_append : issuedOn C (out ++ out') p = issuedOn C out p ++ issuedOn C out' p :=
  List.filter_append ..

/-- A new page has all its blocks free. -/
theorem pageOk_init (C : KvCacheManagerConfig) {p : Int} (hp : 0 ≤ p)
    (hout : ∀ b ∈ out, getPageId C b ≠ p) :
    PageOk C out ((InternalPage.mk' p C.pageSize).init C.blockMemSize) := by
  refine ⟨hp, rfl, ?_⟩
  change (issuedOn C out p ++ _).Perm _
  rw [issuedOn_eq_nil hout, List.nil_append]
  exact List.Perm.refl _

namespace Holds

theorem congr (h : Holds C avail full out)
    (ho : ∀ p ∈ pageIds avail full, (issuedOn C out' p).Perm (issuedOn C out p)) :
    Holds C avail full out' := by
  refine ⟨h.nodup, h.keyed, ?_, h.opened, h.closed⟩
  intro e he
  apply (h.pages e he).congr
  rw [h.keyed e he]
  exact ho e.1 (List.mem_map_of_mem he)

/-- Blocks of another page are no concern of the pages held. -/
theorem append_other (h : Holds C avail full out) {ids : List BlockId}
    (hids : ∀ b ∈ ids, getPageId C b = p) (hp : p ∉ pageIds avail full) :
    Holds C avail full (ids ++ out) := by
  apply h.congr
  intro q hq
  rw [issuedOn_append, issuedOn_eq_nil, List.nil_append]
  intro b hb heq
  apply hp
  rwa [← hids b hb, heq]

theorem drop_other (h : Holds C avail full (out' ++ out))
    (hids : ∀ b ∈ out', getPageId C b = p) (hp : p ∉ pageIds avail full) :
    Holds C avail full out := by
  apply h.congr
  intro q hq
  have hnil : issuedOn C out' q = [] := by
    apply issuedOn_eq_nil
    intro b hb heq
    apply hp
    rwa [← hids b hb, heq]
  rw [issuedOn_append, hnil, List.nil_append]

/-- Taking a page out of a dictionary leaves the others as they are. -/
theorem take {avail' full' : Dict PageId InternalPage} (h : Holds C avail full out)
    (hperm : (heldEntries avail full).Perm (⟨p, pg⟩ :: heldEntries avail' full'))
    (ha : avail'.entries ⊆ avail.entries) (hf : full'.entries ⊆ full.entries) :
    Holds C avail' full' out ∧ pg.pageId = p ∧ PageOk C out pg ∧
      p ∉ pageIds avail' full' ∧ (pageIds avail full).Perm (p :: pageIds avail' full') := by
  have hkeys : (pageIds avail full).Perm (p :: pageIds avail' full') := hperm.map Sigma.fst
  have hn := hkeys.nodup_iff.mp h.nodup
  have hsub : ∀ e ∈ heldEntries avail' full', e ∈ heldEntries avail full := by
    intro e he
    exact hperm.mem_iff.mpr (List.mem_cons_of_mem _ he)
  have hin : (⟨p, pg⟩ : Sigma fun _ : PageId => InternalPage) ∈ heldEntries avail full :=
    hperm.mem_iff.mpr List.mem_cons_self
  refine ⟨⟨(List.nodup_cons.mp hn).2, ?_, ?_, ?_, ?_⟩, h.keyed _ hin, h.pages _ hin,
    (List.nodup_cons.mp hn).1, hkeys⟩
  · intro e he
    exact h.keyed e (hsub e he)
  · intro e he
    exact h.pages e (hsub e he)
  · intro e he
    exact h.opened e (ha he)
  · intro e he
    exact h.closed e (hf he)

theorem put (h : Holds C avail full out) (avail' full' : Dict PageId InternalPage)
    (hentries : (heldEntries avail' full').Perm (⟨pg.pageId, pg⟩ :: heldEntries avail full))
    (hp : pg.pageId ∉ pageIds avail full) (hok : PageOk C out pg)
    (ha : ∀ e ∈ avail'.entries, e.2.freeList ≠ [] ∧ e.2.freeList.length < e.2.numKvBlocks)
    (hf : ∀ e ∈ full'.entries, e.2.freeList = []) :
    Holds C avail' full' out ∧
      (pageIds avail' full').Perm (pg.pageId :: pageIds avail full) := by
  have hkeys : (pageIds avail' full').Perm (pg.pageId :: pageIds avail full) :=
    hentries.map Sigma.fst
  refine ⟨⟨hkeys.nodup_iff.mpr (List.nodup_cons.mpr ⟨hp, h.nodup⟩), ?_, ?_, ha, hf⟩, hkeys⟩
  · intro e he
    rcases List.mem_cons.mp (hentries.mem_iff.mp he) with rfl | he
    · rfl
    · exact h.keyed e he
  · intro e he
    rcases List.mem_cons.mp (hentries.mem_iff.mp he) with rfl | he
    · exact hok
    · exact h.pages e he

theorem notMem_avail (hp : p ∉ pageIds avail full) : p ∉ AList.keys avail := by
  intro h
  apply hp
  rw [pageIds, heldEntries, List.keys, List.map_append]
  exact List.mem_append_left _ h

theorem notMem_full (hp : p ∉ pageIds avail full) : p ∉ AList.keys full := by
  intro h
  apply hp
  rw [pageIds, heldEntries, List.keys, List.map_append]
  exact List.mem_append_right _ h

theorem putAvail (h : Holds C avail full out) (pg : InternalPage)
    (hp : pg.pageId ∉ pageIds avail full) (hok : PageOk C out pg) (hne : pg.freeList ≠ [])
    (hlt : pg.freeList.length < pg.numKvBlocks) :
    Holds C (Dict.setItem avail pg.pageId pg) full out ∧
      (pageIds (Dict.setItem avail pg.pageId pg) full).Perm (pg.pageId :: pageIds avail full) ∧
      freeIn (Dict.setItem avail pg.pageId pg) = pg.numFreeBlocks + freeIn avail := by
  have he := Dict.entries_setItem (notMem_avail hp) pg
  have hput := h.put (Dict.setItem avail pg.pageId pg) full
    (by rw [heldEntries, he]; exact List.Perm.refl _) hp hok
    (by
      intro e hin
      rw [he] at hin
      rcases List.mem_cons.mp hin with rfl | hin
      · exact ⟨hne, hlt⟩
      · exact h.opened e hin)
    h.closed
  refine ⟨hput.1, hput.2, ?_⟩
  rw [freeIn, he, List.map_cons, List.sum_cons]
  rfl

theorem putFull (h : Holds C avail full out) (pg : InternalPage)
    (hp : pg.pageId ∉ pageIds avail full) (hok : PageOk C out pg) (hnil : pg.freeList = []) :
    Holds C avail (Dict.setItem full pg.pageId pg) out ∧
      (pageIds avail (Dict.setItem full pg.pageId pg)).Perm (pg.pageId :: pageIds avail full) := by
  have he := Dict.entries_setItem (notMem_full hp) pg
  apply h.put _ _ (by rw [heldEntries, he]; exact List.perm_middle) hp hok h.opened
  intro e hin
  rw [he] at hin
  rcases List.mem_cons.mp hin with rfl | hin
  · exact hnil
  · exact h.closed e hin

theorem takeAvail (h : Holds C avail full out)
    (he : avail.entries.Perm (⟨p, pg⟩ :: rest.entries)) :
    (Holds C rest full out ∧ pg.pageId = p ∧ PageOk C out pg ∧ p ∉ pageIds rest full ∧
      (pageIds avail full).Perm (p :: pageIds rest full)) ∧
      freeIn avail = pg.numFreeBlocks + freeIn rest ∧ pg.freeList ≠ [] := by
  have hsub : rest.entries ⊆ avail.entries := by
    intro e hin
    exact he.mem_iff.mpr (List.mem_cons_of_mem _ hin)
  refine ⟨h.take (he.append_right _) hsub (List.Subset.refl _), ?_, ?_⟩
  · rw [freeIn, (he.map _).sum_eq, List.map_cons, List.sum_cons]
    rfl
  · exact (h.opened ⟨p, pg⟩ (he.mem_iff.mpr List.mem_cons_self)).1

theorem takeFull (h : Holds C avail full out)
    (he : full.entries.Perm (⟨p, pg⟩ :: rest.entries)) :
    (Holds C avail rest out ∧ pg.pageId = p ∧ PageOk C out pg ∧ p ∉ pageIds avail rest ∧
      (pageIds avail full).Perm (p :: pageIds avail rest)) ∧ pg.freeList = [] := by
  have hsub : rest.entries ⊆ full.entries := by
    intro e hin
    exact he.mem_iff.mpr (List.mem_cons_of_mem _ hin)
  refine ⟨h.take ((he.append_left _).trans List.perm_middle) (List.Subset.refl _) hsub, ?_⟩
  exact h.closed ⟨p, pg⟩ (he.mem_iff.mpr List.mem_cons_self)

end Holds

end GpuSharing.Kvcached
