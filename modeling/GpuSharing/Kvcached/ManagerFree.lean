import GpuSharing.Kvcached.ManagerAlloc

namespace GpuSharing.Kvcached.KvCacheManager

variable {σ : Type} {C : KvCacheManagerConfig} {S : PageAllocatorApi σ}
  {m m' : KvCacheManager (σ × List PageId)} {out ids : List BlockId} {pg : InternalPage}
  {p : PageId}

/-- The bookkeeping inside the loop of `free`: the pages to free have left the dictionaries but
are still issued. -/
structure Freeing (C : KvCacheManagerConfig) (m : KvCacheManager (σ × List PageId))
    (pagesToFree : List PageId) (out : List BlockId) : Prop where
  holds : Holds C m.availPages m.fullPages out
  counter : m.numAvailBlocks = freeIn m.availPages
  pages : (pageIds m.availPages m.fullPages ++ pagesToFree).Perm m.issued
  owned : ∀ b ∈ out, getPageId C b ∈ pageIds m.availPages m.fullPages

theorem takePage_spec (h : Holds C m.availPages m.fullPages out)
    (hc : m.numAvailBlocks = freeIn m.availPages) (hp : p ∈ pageIds m.availPages m.fullPages) :
    ∃ pg m', m.takePage p = some (pg, m') ∧ Holds C m'.availPages m'.fullPages out ∧
      pg.pageId = p ∧ PageOk C out pg ∧ p ∉ pageIds m'.availPages m'.fullPages ∧
      (pageIds m.availPages m.fullPages).Perm (p :: pageIds m'.availPages m'.fullPages) ∧
      m'.numAvailBlocks = pg.numFreeBlocks + freeIn m'.availPages ∧ m'.issued = m.issued ∧
      SameCalls m m' := by
  unfold takePage
  cases hfull : m.fullPages.pop p with
  | some found =>
    obtain ⟨pg, rest⟩ := found
    obtain ⟨⟨hrest, hkey, hok, hapart, hpages⟩, hnil⟩ := h.takeFull (Dict.pop_some hfull)
    refine ⟨pg, _, rfl, hrest, hkey, hok, hapart, hpages, ?_, rfl, rfl, rfl, rfl, rfl, rfl⟩
    simp only [InternalPage.numFreeBlocks, hnil, List.length_nil, Nat.cast_zero, zero_add]
    exact hc
  | none =>
    cases havail : m.availPages.pop p with
    | some found =>
      obtain ⟨pg, rest⟩ := found
      obtain ⟨⟨hrest, hkey, hok, hapart, hpages⟩, hfree, -⟩ :=
        h.takeAvail (Dict.pop_some havail)
      exact ⟨pg, _, rfl, hrest, hkey, hok, hapart, hpages, hc.trans hfree, rfl, rfl, rfl, rfl,
        rfl, rfl⟩
    | none =>
      exfalso
      rw [pageIds, heldEntries, List.keys, List.map_append] at hp
      rcases List.mem_append.mp hp with hp | hp
      · exact Dict.pop_none havail hp
      · exact Dict.pop_none hfull hp

/-- Blocks that come back to their page join its free list. -/
theorem freeBatch_ok (h : PageOk C (ids ++ out) pg)
    (hids : ∀ b ∈ ids, getPageId C b = pg.pageId) : PageOk C out (pg.freeBatch ids) := by
  refine ⟨h.nonneg, h.numKvBlocks, ?_⟩
  apply List.Perm.trans _ h.blocks
  change (issuedOn C out pg.pageId ++ (pg.freeList ++ ids)).Perm _
  rw [issuedOn_append, issuedOn_self hids, List.append_assoc]
  refine (List.Perm.append_left _ List.perm_append_comm).trans ?_
  rw [← List.append_assoc, ← List.append_assoc]
  exact List.perm_append_comm.append_right _

theorem empty_iff (h : PageOk C out pg) (hne : pg.freeList ≠ []) :
    pg.empty = true ↔ (pg.freeList.length : Int) = pg.numKvBlocks := by
  have hlen := h.length_le
  have hlt := numKvBlocks_lt C h.nonneg
  rw [← h.numKvBlocks] at hlt
  have hpos := List.length_pos_iff.mpr hne
  rw [InternalPage.empty, decide_eq_true_iff, sizeT_of_lt (by omega) hlt]
  omega

/-- A page is empty when no block of it is outstanding. -/
theorem issuedOn_of_empty (h : PageOk C out pg)
    (he : (pg.freeList.length : Int) = pg.numKvBlocks) : issuedOn C out pg.pageId = [] := by
  have hlen := h.length_le
  apply List.length_eq_zero_iff.mp
  omega

/-- One pass of the loop of `free` puts the blocks of one page back. -/
theorem freeGroups_cons (groups : List (PageId × List BlockId)) {pagesToFree : List PageId}
    (hm : Freeing C m pagesToFree (ids ++ out)) (hne : ids ≠ [])
    (hids : ∀ b ∈ ids, getPageId C b = p) :
    ∃ freed m', freeGroups C ((p, ids) :: groups) pagesToFree m = freeGroups C groups freed m' ∧
      Freeing C m' freed out ∧ m'.issued = m.issued ∧ SameCalls m m' := by
  have hp : p ∈ pageIds m.availPages m.fullPages := by
    obtain ⟨b, hb⟩ := List.exists_mem_of_ne_nil ids hne
    have hin := hm.owned b (List.mem_append_left _ hb)
    rwa [hids b hb] at hin
  obtain ⟨pg, m₁, htake, hholds, hkey, hok, hapart, hpages, hcount, hissued, hcalls⟩ :=
    takePage_spec hm.holds hm.counter hp
  subst hkey
  have hrest := hholds.drop_other hids hapart
  have hok' := freeBatch_ok hok hids
  have hne' : (pg.freeBatch ids).freeList ≠ [] := List.append_ne_nil_of_right_ne_nil _ hne
  have hfree : (pg.freeBatch ids).numFreeBlocks = pg.numFreeBlocks + ids.length := by
    simp [InternalPage.numFreeBlocks, InternalPage.freeBatch]
  have hpages' : (pg.pageId :: pageIds m₁.availPages m₁.fullPages ++ pagesToFree).Perm m₁.issued := by
    rw [hissued]
    exact (hpages.append_right _).symm.trans hm.pages
  have howned : ∀ b ∈ out, getPageId C b ∈ pg.pageId :: pageIds m₁.availPages m₁.fullPages := by
    intro b hb
    exact hpages.mem_iff.mp (hm.owned b (List.mem_append_right _ hb))
  rw [freeGroups, htake]
  dsimp only
  by_cases hempty : (pg.freeBatch ids).empty = true
  · have hnone := issuedOn_of_empty hok' ((empty_iff hok' hne').mp hempty)
    rw [if_pos hempty]
    refine ⟨_, _, rfl, ⟨hrest, ?_, ?_, ?_⟩, hissued, hcalls.1, hcalls.2, hcalls.3, hcalls.4,
      hcalls.5⟩
    · change m₁.numAvailBlocks + ids.length - (pg.freeBatch ids).numFreeBlocks = _
      rw [hfree, hcount]
      ring
    · apply List.Perm.trans _ hpages'
      rw [← List.append_assoc]
      exact List.perm_append_singleton _ _
    · intro b hb
      rcases List.mem_cons.mp (howned b hb) with heq | hin
      · have hin : b ∈ issuedOn C out pg.pageId :=
          List.mem_filter.mpr ⟨hb, decide_eq_true heq⟩
        change issuedOn C out pg.pageId = [] at hnone
        rw [hnone] at hin
        cases hin
      · exact hin
  · have hlt : (pg.freeBatch ids).freeList.length < (pg.freeBatch ids).numKvBlocks := by
      have hlen := hok'.length_le
      have hneq := mt (empty_iff hok' hne').mpr hempty
      have hpos := List.length_pos_iff.mpr hne'
      omega
    obtain ⟨hput, hpages'', hfree'⟩ := hrest.putAvail (pg.freeBatch ids) hapart hok' hne' hlt
    rw [if_neg hempty]
    refine ⟨_, _, rfl, ⟨hput, ?_, ?_, ?_⟩, hissued, hcalls.1, hcalls.2, hcalls.3, hcalls.4,
      hcalls.5⟩
    · change m₁.numAvailBlocks + ids.length = freeIn (Dict.setItem m₁.availPages pg.pageId _)
      rw [show pg.pageId = (pg.freeBatch ids).pageId from rfl, hfree', hfree, hcount]
      ring
    · exact (hpages''.append_right _).trans hpages'
    · intro b hb
      exact hpages''.mem_iff.mpr (howned b hb)

/-- The loop of `free` puts every group back and keeps the pages that became empty aside. -/
theorem freeGroups_spec {groups : List (PageId × List BlockId)} {pagesToFree : List PageId}
    (hm : Freeing C m pagesToFree (groups.flatMap Prod.snd ++ out))
    (hg : ∀ g ∈ groups, g.2 ≠ [] ∧ ∀ b ∈ g.2, getPageId C b = g.1) :
    ∃ freed m', freeGroups C groups pagesToFree m = (.ok freed, m') ∧ Freeing C m' freed out ∧
      m'.issued = m.issued ∧ SameCalls m m' := by
  induction groups generalizing pagesToFree m with
  | nil => exact ⟨pagesToFree, m, rfl, hm, rfl, SameCalls.refl _⟩
  | cons g groups ih =>
    obtain ⟨hne, hids⟩ := hg g List.mem_cons_self
    rw [List.flatMap_cons, List.append_assoc] at hm
    obtain ⟨freed, m₁, hpass, hm₁, hi, hc⟩ := freeGroups_cons groups hm hne hids
    obtain ⟨freed', m₂, hrun, hm₂, hi', hc'⟩ := ih hm₁ fun g hin => hg g (List.mem_cons_of_mem _ hin)
    exact ⟨freed', m₂, hpass.trans hrun, hm₂, hi'.trans hi, hc.trans hc'⟩

/-- Grouping by page keeps every index. -/
theorem groups_perm (ps : List PageId) (hn : ps.Nodup) (hin : ∀ b ∈ ids, getPageId C b ∈ ps) :
    (ps.flatMap fun p => ids.filter (getPageId C · = p)).Perm ids := by
  induction ps generalizing ids with
  | nil =>
    cases ids with
    | nil => exact List.Perm.refl _
    | cons b ids => cases hin b List.mem_cons_self
  | cons p ps ih =>
    obtain ⟨hp, hn⟩ := List.nodup_cons.mp hn
    have hothers : ∀ b ∈ ids.filter fun b => !decide (getPageId C b = p), getPageId C b ∈ ps := by
      intro b hb
      obtain ⟨hb, hne⟩ := List.mem_filter.mp hb
      exact (List.mem_cons.mp (hin b hb)).resolve_left (by simpa using hne)
    have hrest := ih hn hothers
    have hsame : ∀ q ∈ ps, (ids.filter fun b => !decide (getPageId C b = p)).filter (getPageId C · = q) =
        ids.filter (getPageId C · = q) := by
      intro q hq
      rw [List.filter_filter]
      apply List.filter_congr
      intro b _
      by_cases h : getPageId C b = q
      · have hne : q ≠ p := by
          intro heq
          exact hp (heq ▸ hq)
        simp [h, hne]
      · simp [h]
    rw [List.flatMap_cons]
    rw [List.flatMap_congr hsame] at hrest
    exact (hrest.append_left _).trans (List.filter_append_perm _ _)

theorem groupIndicesByPage_perm (ids : List BlockId) :
    ((groupIndicesByPage C ids).flatMap Prod.snd).Perm ids := by
  rw [groupIndicesByPage, List.flatMap_map]
  apply groups_perm _ (C.groupOrder.nodup _)
  intro b hb
  exact (C.groupOrder.mem _ _).mpr (List.mem_map_of_mem hb)

theorem groupIndicesByPage_groups {g : PageId × List BlockId}
    (hg : g ∈ groupIndicesByPage C ids) : g.2 ≠ [] ∧ ∀ b ∈ g.2, getPageId C b = g.1 := by
  obtain ⟨p, hp, rfl⟩ := List.mem_map.mp hg
  obtain ⟨b, hb, hbp⟩ := List.mem_map.mp ((C.groupOrder.mem _ _).mp hp)
  constructor
  · exact List.ne_nil_of_mem (List.mem_filter.mpr ⟨hb, decide_eq_true hbp⟩)
  · intro b hb
    exact of_decide_eq_true (List.mem_filter.mp hb).2

/-- A deferred shrink knows its target. -/
def ShrinkKnown (m : KvCacheManager σ) : Prop := m.inShrink = true → m.targetNumBlocks ≠ none

/-- The fields that only `_post_init` writes. -/
structure SameInit (m m' : KvCacheManager σ) : Prop where
  nullBlock : m'.nullBlock = m.nullBlock
  postInitDone : m'.postInitDone = m.postInitDone

theorem SameInit.trans {m m₁ m₂ : KvCacheManager σ} (h : SameInit m m₁) (h' : SameInit m₁ m₂) :
    SameInit m m₂ :=
  ⟨h'.nullBlock.trans h.nullBlock, h'.postInitDone.trans h.postInitDone⟩

theorem SameCalls.sameInit {m m' : KvCacheManager σ} (h : SameCalls m m') : SameInit m m' :=
  ⟨h.nullBlock, h.postInitDone⟩

/-- What `free` leaves of the fields outside the page bookkeeping. -/
structure AfterFree (m m' : KvCacheManager σ) : Prop where
  reservedBlocks : m'.reservedBlocks = m.reservedBlocks
  known : m'.ShrinkKnown
  init : SameInit m m'
  quiet : m.inShrink = false → SameCalls m m'

theorem SameCalls.afterFree {m m' : KvCacheManager σ} (h : SameCalls m m') (hs : m.ShrinkKnown) :
    AfterFree m m' := by
  refine ⟨h.reservedBlocks, ?_, h.sameInit, fun _ => h⟩
  unfold ShrinkKnown
  rw [h.inShrink, h.targetNumBlocks]
  exact hs

theorem AfterFree.of_sameCalls {m m₁ m' : KvCacheManager σ} (h : SameCalls m m₁)
    (h' : AfterFree m₁ m') : AfterFree m m' :=
  ⟨h'.reservedBlocks.trans h.reservedBlocks, h'.known, h.sameInit.trans h'.init,
    fun hq => h.trans (h'.quiet (h.inShrink.trans hq))⟩

theorem retryShrink_spec (hm : Consistent C m out) (hs : m.ShrinkKnown) :
    ∃ m', retryShrink C S.logged m = (.ok (), m') ∧ Consistent C m' out ∧ AfterFree m m' := by
  unfold retryShrink
  by_cases hshrink : m.inShrink = true
  · rw [if_pos hshrink]
    cases htarget : m.targetNumBlocks with
    | none => exact absurd htarget (hs hshrink)
    | some target =>
      dsimp only
      split_ifs
      · refine ⟨_, rfl, hm.relabel rfl, rfl, by simp [ShrinkKnown], ⟨rfl, rfl⟩, ?_⟩
        intro hq
        rw [hshrink] at hq
        cases hq
      · exact ⟨m, rfl, hm, (SameCalls.refl m).afterFree hs⟩
  · rw [if_neg hshrink]
    exact ⟨m, rfl, hm, (SameCalls.refl m).afterFree hs⟩

/-- The pages given back at the end of `free` are no longer issued. -/
theorem Freeing.freePages {freed : List PageId} (hm : Freeing C m freed out) :
    Consistent C { m with pageAllocator := S.logged.freePages freed m.pageAllocator } out := by
  have hback : (pageIds m.availPages m.fullPages).Perm (m.issued.diff freed) := by
    have hsub : freed.Subperm m.issued :=
      (List.sublist_append_right _ _).subperm.trans hm.pages.subperm
    apply (List.perm_append_left_iff freed).mp
    exact List.perm_append_comm.trans (hm.pages.trans (append_diff_perm hsub).symm)
  exact ⟨hm.holds, hm.counter, hback, fun b hb => hback.mem_iff.mp (hm.owned b hb)⟩

/-- Where the loop of `free` starts. -/
theorem Consistent.freeing (hm : Consistent C m (ids ++ out)) :
    Freeing C m [] ((groupIndicesByPage C ids).flatMap Prod.snd ++ out) := by
  have hp := hm.perm ((groupIndicesByPage_perm (C := C) ids).symm.append_right out)
  refine ⟨hp.holds, hp.counter, ?_, ?_⟩
  · rw [List.append_nil]
    exact hp.pages
  · intro b hb
    exact hp.pages.mem_iff.mpr (hp.owned b hb)

/-- `free` of outstanding blocks returns, and they are outstanding no longer. -/
theorem free_spec (hm : Consistent C m (ids ++ out)) (hs : m.ShrinkKnown)
    (hr : C.sanityCheck = true → ∀ b ∈ ids, b ∉ m.reservedBlocks) :
    ∃ m', free C S.logged ids m = (.ok (), m') ∧ Consistent C m' out ∧ AfterFree m m' := by
  unfold free
  by_cases hnil : ids = []
  · subst hnil
    exact ⟨m, rfl, hm, (SameCalls.refl m).afterFree hs⟩
  · rw [if_neg (by simpa using hnil)]
    have hfind : (if C.sanityCheck then ids.find? (· ∈ m.reservedBlocks) else none) = none := by
      split_ifs with h
      · rw [List.find?_eq_none]
        intro b hb
        simpa using hr h b hb
      · rfl
    obtain ⟨freed, m₁, hrun, hm₁, -, hc⟩ :=
      freeGroups_spec hm.freeing fun g hg => groupIndicesByPage_groups hg
    have hback : Consistent C (if freed.isEmpty then m₁
        else { m₁ with pageAllocator := S.logged.freePages freed m₁.pageAllocator }) out ∧
        SameCalls m (if freed.isEmpty then m₁
          else { m₁ with pageAllocator := S.logged.freePages freed m₁.pageAllocator }) := by
      cases freed with
      | nil =>
        have hpages := hm₁.pages
        rw [List.append_nil] at hpages
        exact ⟨⟨hm₁.holds, hm₁.counter, hpages, fun b hb => hpages.mem_iff.mp (hm₁.owned b hb)⟩, hc⟩
      | cons p ps => exact ⟨hm₁.freePages, hc.1, hc.2, hc.3, hc.4, hc.5⟩
    obtain ⟨m₂, hretry, hm₂, hafter⟩ :=
      retryShrink_spec (S := S) hback.1 (hback.2.afterFree hs).known
    rw [hfind]
    dsimp only
    rw [hrun]
    exact ⟨m₂, hretry, hm₂, .of_sameCalls hback.2 hafter⟩

/-- The loop of `free` touches the dictionaries and the counter only. -/
theorem freeGroups_frame {τ : Type} (C : KvCacheManagerConfig)
    (groups : List (PageId × List BlockId)) (pagesToFree : List PageId) (m : KvCacheManager τ) :
    ∃ n avail full, (freeGroups C groups pagesToFree m).2 =
      { m with numAvailBlocks := n, availPages := avail, fullPages := full } := by
  induction groups generalizing pagesToFree m with
  | nil => exact ⟨_, _, _, rfl⟩
  | cons g groups ih =>
    rw [freeGroups]
    split
    case h_1 =>
      split_ifs
      · exact ⟨_, _, _, rfl⟩
      · exact ih pagesToFree m
    case h_2 pg m₁ hpg =>
      have htaken : ∃ avail full, m₁ = { m with availPages := avail, fullPages := full } := by
        unfold takePage at hpg
        split at hpg
        case h_1 =>
          cases hpg
          exact ⟨_, _, rfl⟩
        case h_2 =>
          split at hpg <;> cases hpg
          exact ⟨_, _, rfl⟩
      obtain ⟨avail, full, rfl⟩ := htaken
      dsimp only
      split_ifs
      · obtain ⟨n, avail', full', hrest⟩ := ih _ _
        exact ⟨n, avail', full', hrest⟩
      · obtain ⟨n, avail', full', hrest⟩ := ih _ _
        exact ⟨n, avail', full', hrest⟩

theorem freeGroups_source {groups : List (PageId × List BlockId)}
    {pagesToFree : List PageId} {m : KvCacheManager σ} :
    (freeGroups C groups pagesToFree m).2.pageAllocator = m.pageAllocator := by
  obtain ⟨n, avail, full, hrun⟩ := freeGroups_frame C groups pagesToFree m
  rw [hrun]

/-- Freeing blocks gives pages back, and gets none. -/
theorem free_issued {ids : List BlockId} {r : Except PyError Unit}
    (h : free C S.logged ids m = (r, m')) : m'.issued ⊆ m.issued := by
  have hretry : ∀ {q q' : KvCacheManager (σ × List PageId)} {r : Except PyError Unit},
      retryShrink C S.logged q = (r, q') → q'.issued = q.issued := by
    intro q q' r hq
    unfold retryShrink at hq
    split at hq
    case isFalse =>
      cases hq
      rfl
    case isTrue =>
      split at hq
      case h_1 =>
        cases hq
        rfl
      case h_2 => split_ifs at hq <;> cases hq <;> rfl
  unfold free at h
  split at h
  case isTrue =>
    cases h
    exact List.Subset.refl _
  case isFalse =>
    split at h
    case h_1 =>
      cases h
      exact List.Subset.refl _
    case h_2 =>
      have hsource : (freeGroups C (groupIndicesByPage C ids) [] m).2.pageAllocator =
          m.pageAllocator := freeGroups_source
      split at h
      case h_1 e q hq =>
        rw [hq] at hsource
        cases h
        rw [issued, hsource]
        exact List.Subset.refl _
      case h_2 ps q hq =>
        rw [hq] at hsource
        rw [hretry h]
        split_ifs
        · rw [issued, hsource]
          exact List.Subset.refl _
        · change q.issued.diff ps ⊆ _
          rw [issued, hsource]
          exact (List.diff_sublist _ _).subset

/-- `free_reserved` gives every reserved block back, unless the sanity check sees one. -/
theorem freeReserved_returns (hm : Consistent C m (m.reservedBlocks ++ out)) (hs : m.ShrinkKnown)
    (h : C.sanityCheck = false ∨ m.reservedBlocks = []) :
    ∃ m', freeReserved C S.logged m = (.ok (), m') ∧ Consistent C m' out ∧
      m'.reservedBlocks = [] ∧ m'.ShrinkKnown ∧ SameInit m m' ∧ m'.issued ⊆ m.issued := by
  by_cases hnil : m.reservedBlocks = []
  · rw [hnil] at hm
    exact ⟨m, freeReserved_nil hnil, hm, hnil, hs, ⟨rfl, rfl⟩, List.Subset.refl _⟩
  · have hoff := h.resolve_right hnil
    obtain ⟨m', hfree, hm', hafter⟩ :=
      free_spec (S := S) hm hs fun hon => by simp [hoff] at hon
    have hpages : m'.issued ⊆ m.issued := free_issued hfree
    refine ⟨{ m' with reservedBlocks := [] }, ?_, hm'.relabel rfl, rfl, hafter.known,
      ⟨hafter.init.1, hafter.init.2⟩, hpages⟩
    unfold freeReserved
    rw [if_neg (by simpa using hnil), hfree]

theorem freeReserved_raises (hsanity : C.sanityCheck = true) (hne : m.reservedBlocks ≠ []) :
    ∃ e, freeReserved C S.logged m = (.error e, m) := by
  obtain ⟨b, hb⟩ : ∃ b, m.reservedBlocks.find? (· ∈ m.reservedBlocks) = some b := by
    rw [← Option.isSome_iff_exists, List.find?_isSome]
    obtain ⟨b, hb⟩ := List.exists_mem_of_ne_nil _ hne
    exact ⟨b, hb, by simpa using hb⟩
  unfold freeReserved free
  rw [if_neg (by simpa using hne), if_neg (by simpa using hne), if_pos hsanity, hb]
  exact ⟨_, rfl⟩

/-- Without the sanity check `free_reserved` gives every reserved block back; with it, it raises
when there is one. -/
theorem freeReserved_spec (hm : Consistent C m (m.reservedBlocks ++ out)) (hs : m.ShrinkKnown) :
    (∃ m', freeReserved C S.logged m = (.ok (), m') ∧ Consistent C m' out ∧
      m'.reservedBlocks = [] ∧ m'.ShrinkKnown ∧ SameInit m m') ∨
    ∃ e, freeReserved C S.logged m = (.error e, m) := by
  by_cases h : C.sanityCheck = false ∨ m.reservedBlocks = []
  · obtain ⟨m', hfree, hm', hnil, hknown, hinit, -⟩ := freeReserved_returns (S := S) hm hs h
    exact .inl ⟨m', hfree, hm', hnil, hknown, hinit⟩
  · rw [not_or] at h
    exact .inr (freeReserved_raises (by simpa using h.1) h.2)

/-- Outside a deferred shrink `free` reaches the allocator through `free_pages` only, with pages
that are issued. -/
theorem free_source {I : σ × List PageId → Prop}
    (hI : ∀ s ps, I s → ps.Subperm s.2 → I (S.logged.freePages ps s))
    (hm : Consistent C m (ids ++ out)) (hq : m.inShrink = false) (hs : I m.pageAllocator) :
    I (free C S.logged ids m).2.pageAllocator := by
  unfold free
  by_cases hnil : ids = []
  · rw [if_pos (by simpa using hnil)]
    exact hs
  · rw [if_neg (by simpa using hnil)]
    split
    case h_1 => exact hs
    case h_2 =>
      obtain ⟨freed, m₁, hrun, hm₁, -, hc⟩ :=
        freeGroups_spec hm.freeing fun g hg => groupIndicesByPage_groups hg
      have hsource : (freeGroups C (groupIndicesByPage C ids) [] m).2.pageAllocator =
          m.pageAllocator := freeGroups_source
      rw [hrun] at hsource
      rw [hrun]
      dsimp only at hsource ⊢
      have hq₁ : m₁.inShrink = false := hc.inShrink.trans hq
      have hsub : freed.Subperm m₁.issued :=
        (List.sublist_append_right _ _).subperm.trans hm₁.pages.subperm
      unfold retryShrink
      split_ifs with h1 h2 h2
      · simp [hq₁] at h2
      · exact hsource ▸ hs
      · simp [hq₁] at h2
      · exact hI _ _ (hsource ▸ hs) hsub

end GpuSharing.Kvcached.KvCacheManager
