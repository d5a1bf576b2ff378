import GpuSharing.Kvcached.HeldPages

namespace GpuSharing.Kvcached

variable {σ : Type}

/-- The allocator with the list of the pages it has issued and not got back. -/
def PageAllocatorApi.logged (S : PageAllocatorApi σ) : PageAllocatorApi (σ × List PageId) where
  allocPage s := match S.allocPage s.1 with
    | (.ok p, t) => (.ok p, (t, p :: s.2))
    | (.error msg, t) => (.error msg, (t, s.2))
  freePages ps s := (S.freePages ps s.1, s.2.diff ps)
  resize n s := ((S.resize n s.1).1, ((S.resize n s.1).2, s.2))
  trim s := (S.trim s.1, s.2)
  startPreallocThread s := (S.startPreallocThread s.1, s.2)
  background s := (S.background s.1, s.2)
  getNumFreePages s := S.getNumFreePages s.1
  getAvailPhysicalPages s := S.getAvailPhysicalPages s.1
  getNumReservedPages s := S.getNumReservedPages s.1
  getResizeTarget s := S.getResizeTarget s.1

theorem PageAllocatorApi.logged_ok {S : PageAllocatorApi σ} {s t : σ × List PageId} {p : PageId}
    (h : S.logged.allocPage s = (.ok p, t)) :
    ∃ u, S.allocPage s.1 = (.ok p, u) ∧ t = (u, p :: s.2) := by
  simp only [PageAllocatorApi.logged] at h
  split at h
  case h_1 u halloc =>
    cases h
    exact ⟨u, halloc, rfl⟩
  case h_2 => cases h

theorem PageAllocatorApi.logged_error {S : PageAllocatorApi σ} {s t : σ × List PageId}
    {msg : String} (h : S.logged.allocPage s = (.error msg, t)) :
    ∃ u, S.allocPage s.1 = (.error msg, u) ∧ t = (u, s.2) := by
  simp only [PageAllocatorApi.logged] at h
  split at h
  case h_1 => cases h
  case h_2 u halloc =>
    cases h
    exact ⟨u, halloc, rfl⟩

namespace KvCacheManager

section

variable {C : KvCacheManagerConfig} {S : PageAllocatorApi σ} {m m' : KvCacheManager σ}

/-- Everything the search for the next page can do. -/
inductive NextPageStep (C : KvCacheManagerConfig) (S : PageAllocatorApi σ)
    (m : KvCacheManager σ) : Except PyError (Option InternalPage) → KvCacheManager σ → Prop
  | pops (k : PageId) (page : InternalPage) (rest : Dict PageId InternalPage)
      (hpop : m.availPages.popitem = some (k, page, rest)) :
      NextPageStep C S m (.ok (some page)) { m with availPages := rest }
  | raises (msg : String) (s : σ) (halloc : S.allocPage m.pageAllocator = (.error msg, s)) :
      NextPageStep C S m (.error (.runtimeError msg)) { m with pageAllocator := s }
  | parks (p : PageId) (s : σ) (halloc : S.allocPage m.pageAllocator = (.ok p, s))
      (hzero : ((InternalPage.mk' p C.pageSize).init C.blockMemSize).numFreeBlocks = 0) :
      NextPageStep C S m (.ok none) { m with
        pageAllocator := s
        fullPages := m.fullPages.setItem p ((InternalPage.mk' p C.pageSize).init C.blockMemSize) }
  | opens (p : PageId) (s : σ) (halloc : S.allocPage m.pageAllocator = (.ok p, s))
      (hzero : ((InternalPage.mk' p C.pageSize).init C.blockMemSize).numFreeBlocks ≠ 0) :
      NextPageStep C S m (.ok (some ((InternalPage.mk' p C.pageSize).init C.blockMemSize)))
        { m with
          pageAllocator := s
          numAvailBlocks := m.numAvailBlocks +
            ((InternalPage.mk' p C.pageSize).init C.blockMemSize).numFreeBlocks }

theorem nextPage_step {r : Except PyError (Option InternalPage)}
    (h : nextPage C S m = (r, m')) : NextPageStep C S m r m' := by
  unfold nextPage at h
  split at h
  case h_1 k page rest hpop =>
    cases h
    exact .pops k page rest hpop
  case h_2 =>
    split at h
    case h_1 msg s halloc =>
      cases h
      exact .raises msg s halloc
    case h_2 p s halloc =>
      dsimp only at h
      split_ifs at h with hzero
      · cases h
        exact .parks p s halloc hzero
      · cases h
        exact .opens p s halloc hzero

/-- The loop of `_alloc` keeps what each of its passes keeps, with or without a page to take blocks
from; it may end at any of them. -/
theorem allocLoop_rule {Q : KvCacheManager σ → Prop}
    (hnext : ∀ m r m', Q m → nextPage C S m = (r, m') → (∀ pg, r ≠ .ok (some pg)) → Q m')
    (htake : ∀ m pg m₁ n r m', Q m → nextPage C S m = (.ok (some pg), m₁) →
      takeBlocks n pg m₁ = (r, m') → Q m')
    {fuel : Nat} {need : Int} {ret : List BlockId} {r : Except PyError (List BlockId)} (hm : Q m)
    (h : allocLoop C S fuel need ret m = some (r, m')) : Q m' := by
  induction fuel generalizing need ret m with
  | zero =>
    unfold allocLoop at h
    split_ifs at h
    cases h
    exact hm
  | succ fuel ih =>
    unfold allocLoop at h
    split_ifs at h
    · cases h
      exact hm
    · dsimp only at h
      split at h
      case h_1 e m₁ hn =>
        cases h
        exact hnext _ _ _ hm hn (by simp)
      case h_2 m₁ hn => exact ih (hnext _ _ _ hm hn (by simp)) h
      case h_3 page m₁ hn =>
        split at h
        case h_1 e m₂ ht =>
          cases h
          exact htake _ _ _ _ _ _ hm hn ht
        case h_2 ids m₂ ht => exact ih (htake _ _ _ _ _ _ hm hn ht) h

end

variable {C : KvCacheManagerConfig} {S : PageAllocatorApi σ}
  {m m' m₁ m₂ : KvCacheManager (σ × List PageId)} {out : List BlockId} {pg : InternalPage}

/-- The pages the manager currently holds. -/
def issued (m : KvCacheManager (σ × List PageId)) : List PageId := m.pageAllocator.2

/-- Page ids are never negative, and no page is issued again before it came back. -/
def IssuedOnce (m : KvCacheManager (σ × List PageId)) : Prop :=
  m.issued.Nodup ∧ ∀ p : Int, p ∈ m.issued → 0 ≤ p

/-- The bookkeeping when the blocks `out` are outstanding. -/
structure Consistent (C : KvCacheManagerConfig) (m : KvCacheManager (σ × List PageId))
    (out : List BlockId) : Prop where
  holds : Holds C m.availPages m.fullPages out
  counter : m.numAvailBlocks = freeIn m.availPages
  pages : (pageIds m.availPages m.fullPages).Perm m.issued
  owned : ∀ b ∈ out, getPageId C b ∈ m.issued

/-- The bookkeeping between taking a page out of the dictionaries and putting it back. -/
structure Taken (C : KvCacheManagerConfig) (m : KvCacheManager (σ × List PageId))
    (out : List BlockId) (pg : InternalPage) : Prop where
  holds : Holds C m.availPages m.fullPages out
  counter : m.numAvailBlocks = pg.numFreeBlocks + freeIn m.availPages
  ok : PageOk C out pg
  apart : pg.pageId ∉ pageIds m.availPages m.fullPages
  pages : (pg.pageId :: pageIds m.availPages m.fullPages).Perm m.issued
  owned : ∀ b ∈ out, getPageId C b ∈ m.issued

/-- The fields that allocation from pages leaves alone. -/
structure SameCalls (m m' : KvCacheManager σ) : Prop where
  reservedBlocks : m'.reservedBlocks = m.reservedBlocks
  nullBlock : m'.nullBlock = m.nullBlock
  inShrink : m'.inShrink = m.inShrink
  targetNumBlocks : m'.targetNumBlocks = m.targetNumBlocks
  postInitDone : m'.postInitDone = m.postInitDone

theorem SameCalls.refl (m : KvCacheManager σ) : SameCalls m m := ⟨rfl, rfl, rfl, rfl, rfl⟩

theorem SameCalls.trans {m m₁ m₂ : KvCacheManager σ} (h : SameCalls m m₁) (h' : SameCalls m₁ m₂) :
    SameCalls m m₂ :=
  ⟨h'.reservedBlocks.trans h.reservedBlocks, h'.nullBlock.trans h.nullBlock,
    h'.inShrink.trans h.inShrink, h'.targetNumBlocks.trans h.targetNumBlocks,
    h'.postInitDone.trans h.postInitDone⟩

theorem Consistent.perm {out' : List BlockId} (h : Consistent C m out) (hp : out.Perm out') :
    Consistent C m out' := by
  refine ⟨h.holds.congr ?_, h.counter, h.pages, ?_⟩
  · intro p hp'
    exact (hp.filter _).symm
  · intro b hb
    exact h.owned b (hp.mem_iff.mpr hb)

/-- Calls that leave the pages and the counter alone. -/
theorem Consistent.relabel (h : Consistent C m out)
    (hsame : (m'.availPages, m'.fullPages, m'.numAvailBlocks, m'.issued) =
      (m.availPages, m.fullPages, m.numAvailBlocks, m.issued)) : Consistent C m' out := by
  simp only [Prod.mk.injEq] at hsame
  obtain ⟨ha, hf, hn, hi⟩ := hsame
  obtain ⟨holds, counter, pages, owned⟩ := h
  refine ⟨?_, ?_, ?_, ?_⟩
  · rwa [ha, hf]
  · rwa [ha, hn]
  · rwa [ha, hf, hi]
  · rwa [hi]

/-- What a pass of the loop finds: an error of the allocator, a page to park or a page with free
blocks. -/
inductive NextPage (C : KvCacheManagerConfig) (m m' : KvCacheManager (σ × List PageId))
    (out : List BlockId) : Except PyError (Option InternalPage) → Prop
  | raises (e : PyError) (h : Consistent C m' out) (hi : m'.issued = m.issued) :
      NextPage C m m' out (.error e)
  | parks (h : Consistent C m' out) : NextPage C m m' out (.ok none)
  | takes (pg : InternalPage) (h : Taken C m' out pg) (hne : pg.freeList ≠ []) :
      NextPage C m m' out (.ok (some pg))

theorem nextPage_frame {r : Except PyError (Option InternalPage)}
    (h : nextPage C S.logged m = (r, m')) : m.issued <:+ m'.issued ∧ SameCalls m m' := by
  cases nextPage_step h with
  | pops => exact ⟨List.suffix_refl _, rfl, rfl, rfl, rfl, rfl⟩
  | raises msg s halloc =>
    obtain ⟨t, -, rfl⟩ := PageAllocatorApi.logged_error halloc
    exact ⟨List.suffix_refl _, rfl, rfl, rfl, rfl, rfl⟩
  | parks p s halloc | opens p s halloc =>
    obtain ⟨t, -, rfl⟩ := PageAllocatorApi.logged_ok halloc
    exact ⟨List.suffix_cons _ _, rfl, rfl, rfl, rfl, rfl⟩

/-- A page just issued holds nothing that the manager or its callers have. -/
theorem Consistent.fresh (hm : Consistent C m out) {p : PageId} (hnew : p ∉ m.issued)
    (h0 : (0 : Int) ≤ p) :
    PageOk C out ((InternalPage.mk' p C.pageSize).init C.blockMemSize) ∧
      p ∉ pageIds m.availPages m.fullPages ∧ ∀ b ∈ out, getPageId C b ∈ p :: m.issued := by
  refine ⟨pageOk_init C h0 fun b hb heq => ?_, fun hin => ?_, fun b hb => ?_⟩
  · exact hnew (heq ▸ hm.owned b hb)
  · exact hnew (hm.pages.mem_iff.mp hin)
  · exact List.mem_cons_of_mem _ (hm.owned b hb)

theorem nextPage_spec {r : Except PyError (Option InternalPage)} (hm : Consistent C m out)
    (h : nextPage C S.logged m = (r, m')) (hu : m'.IssuedOnce) : NextPage C m m' out r := by
  cases nextPage_step h with
  | pops k page rest hpop =>
    obtain ⟨⟨hrest, hkey, hok, hapart, hpages⟩, hfree, hne⟩ :=
      hm.holds.takeAvail (List.Perm.of_eq (Dict.popitem_some hpop))
    refine .takes page ⟨hrest, hm.counter.trans hfree, hok, hkey ▸ hapart, ?_, hm.owned⟩ hne
    rw [hkey]
    exact hpages.symm.trans hm.pages
  | raises msg s halloc =>
    obtain ⟨t, -, rfl⟩ := PageAllocatorApi.logged_error halloc
    exact .raises _ (hm.relabel rfl) rfl
  | parks p s halloc hzero =>
    obtain ⟨t, -, rfl⟩ := PageAllocatorApi.logged_ok halloc
    obtain ⟨hok, hapart, howned⟩ :=
      hm.fresh (List.nodup_cons.mp hu.1).1 (hu.2 p List.mem_cons_self)
    have hnil : ((InternalPage.mk' p C.pageSize).init C.blockMemSize).freeList = [] := by
      simpa [InternalPage.numFreeBlocks] using hzero
    obtain ⟨hput, hpages⟩ := hm.holds.putFull
      ((InternalPage.mk' p C.pageSize).init C.blockMemSize) hapart hok hnil
    exact .parks ⟨hput, hm.counter, hpages.trans (hm.pages.cons _), howned⟩
  | opens p s halloc hzero =>
    obtain ⟨t, -, rfl⟩ := PageAllocatorApi.logged_ok halloc
    obtain ⟨hok, hapart, howned⟩ :=
      hm.fresh (List.nodup_cons.mp hu.1).1 (hu.2 p List.mem_cons_self)
    refine .takes _ ⟨hm.holds, ?_, hok, hapart, hm.pages.cons _, howned⟩ ?_
    · change m.numAvailBlocks + _ = _
      rw [hm.counter]
      exact add_comm _ _
    · intro hnil
      apply hzero
      simp only [InternalPage.numFreeBlocks, hnil, List.length_nil, Nat.cast_zero]

theorem freeList_lt (h : PageOk C out pg) : pg.freeList.length < 2^63 := by
  have hlen := h.length_le
  have hlt := numKvBlocks_lt C h.nonneg
  rw [← h.numKvBlocks] at hlt
  omega

theorem sizeT_of_lt {x : Int} (h0 : 0 ≤ x) (h : x < 2^63) : sizeT x = x.toNat := by
  rw [sizeT, Int.emod_eq_of_lt h0 (by omega)]

/-- Some blocks of the page taken go out and the page returns to one of the dictionaries. -/
theorem takeBlocks_spec {n : Int} (hm : Taken C m out pg) (h0 : 0 < n)
    (hn : n ≤ pg.freeList.length) :
    ∃ m', takeBlocks n pg m = (.ok (pg.freeList.take n.toNat), m') ∧
      Consistent C m' (pg.freeList.take n.toNat ++ out) ∧ m'.issued = m.issued ∧
      SameCalls m m' := by
  have hlt := freeList_lt hm.ok
  have hsize : ¬pg.freeList.length < sizeT n := by
    rw [sizeT_of_lt h0.le (by omega)]
    omega
  have hids : ∀ b ∈ pg.freeList.take n.toNat, getPageId C b = pg.pageId := by
    intro b hb
    exact hm.ok.page_eq (List.mem_of_mem_take hb)
  have hin : pg.pageId ∈ m.issued := hm.pages.mem_iff.mp List.mem_cons_self
  have howned : ∀ b ∈ pg.freeList.take n.toNat ++ out, getPageId C b ∈ m.issued := by
    intro b hb
    rcases List.mem_append.mp hb with hb | hb
    · rw [hids b hb]
      exact hin
    · exact hm.owned b hb
  have hholds := hm.holds.append_other hids hm.apart
  have hok : PageOk C (pg.freeList.take n.toNat ++ out)
      { pg with freeList := pg.freeList.drop n.toNat } := by
    refine ⟨hm.ok.nonneg, hm.ok.numKvBlocks, ?_⟩
    change (issuedOn C _ pg.pageId ++ pg.freeList.drop n.toNat).Perm _
    rw [issuedOn_append, issuedOn_self hids]
    apply List.Perm.trans _ hm.ok.blocks
    rw [List.append_assoc]
    refine List.perm_append_comm.trans ?_
    rw [List.append_assoc]
    apply List.Perm.append_left
    refine List.perm_append_comm.trans ?_
    rw [List.take_append_drop]
  unfold takeBlocks InternalPage.alloc
  rw [if_neg hsize]
  dsimp only
  by_cases hfull : pg.freeList.drop n.toNat = []
  · obtain ⟨hput, hpages⟩ :=
      hholds.putFull { pg with freeList := pg.freeList.drop n.toNat } hm.apart hok hfull
    have hlen : pg.freeList.length ≤ n.toNat := List.drop_eq_nil_iff.mp hfull
    rw [if_pos (by simp [InternalPage.full, hfull])]
    refine ⟨_, rfl, ⟨hput, ?_, hpages.trans hm.pages, howned⟩, rfl, rfl, rfl, rfl, rfl, rfl⟩
    have := hm.counter
    simp only [InternalPage.numFreeBlocks] at this
    change m.numAvailBlocks - n = freeIn m.availPages
    omega
  · have hopen : (pg.freeList.drop n.toNat).length < pg.numKvBlocks := by
      have := hm.ok.length_le
      rw [List.length_drop]
      omega
    obtain ⟨hput, hpages, hfree⟩ := hholds.putAvail
      { pg with freeList := pg.freeList.drop n.toNat } hm.apart hok hfull hopen
    rw [if_neg (by simpa [InternalPage.full] using hfull)]
    refine ⟨_, rfl, ⟨hput, ?_, hpages.trans hm.pages, howned⟩, rfl, rfl, rfl, rfl, rfl, rfl⟩
    have := hm.counter
    simp only [InternalPage.numFreeBlocks, List.length_drop] at this hfree
    change m.numAvailBlocks - n = _
    rw [hfree]
    omega

theorem takeBlocks_frame {n : Int} {r : Except PyError (List BlockId)}
    (h : takeBlocks n pg m = (r, m')) : m'.issued = m.issued ∧ SameCalls m m' := by
  unfold takeBlocks at h
  split at h
  case h_1 =>
    cases h
    exact ⟨rfl, SameCalls.refl _⟩
  case h_2 =>
    dsimp only at h
    split_ifs at h <;> cases h <;> exact ⟨rfl, rfl, rfl, rfl, rfl, rfl⟩

theorem allocLoop_frame {fuel : Nat} {need : Int} {ret : List BlockId}
    {r : Except PyError (List BlockId)}
    (h : allocLoop C S.logged fuel need ret m = some (r, m')) :
    m.issued <:+ m'.issued ∧ SameCalls m m' := by
  refine allocLoop_rule (Q := fun m' => m.issued <:+ m'.issued ∧ SameCalls m m') ?_ ?_
    ⟨List.suffix_refl _, SameCalls.refl _⟩ h
  · intro m₁ r m₂ ⟨hs, hc⟩ hnext _
    obtain ⟨hs', hc'⟩ := nextPage_frame hnext
    exact ⟨hs.trans hs', hc.trans hc'⟩
  · intro m₁ pg m₂ n r m₃ ⟨hs, hc⟩ hnext htake
    obtain ⟨hs', hc'⟩ := nextPage_frame hnext
    obtain ⟨hi, hc''⟩ := takeBlocks_frame htake
    exact ⟨hi ▸ hs.trans hs', (hc.trans hc').trans hc''⟩

theorem IssuedOnce.of_suffix (h : m'.IssuedOnce) (hs : m.issued <:+ m'.issued) :
    m.IssuedOnce :=
  ⟨h.1.sublist hs.sublist, fun p hp => h.2 p (hs.subset hp)⟩

/-- The loop hands out as many blocks as were still needed; if the allocator raises, the blocks
it had gathered stay outstanding. -/
theorem allocLoop_spec {fuel : Nat} {need : Int} {ret : List BlockId}
    {r : Except PyError (List BlockId)} (hm : Consistent C m (ret ++ out))
    (h : allocLoop C S.logged fuel need ret m = some (r, m')) (hu : m'.IssuedOnce) :
    ∃ got, Consistent C m' (got ++ out) ∧
      (∀ ids, r = .ok ids → got = ids ∧ ids.length = ret.length + need.toNat) := by
  induction fuel generalizing need ret m with
  | zero =>
    unfold allocLoop at h
    split_ifs at h with hneed
    cases h
    refine ⟨ret, hm, ?_⟩
    intro ids hids
    cases hids
    exact ⟨rfl, by omega⟩
  | succ fuel ih =>
    unfold allocLoop at h
    split_ifs at h with hneed
    · cases h
      refine ⟨ret, hm, ?_⟩
      intro ids hids
      cases hids
      exact ⟨rfl, by omega⟩
    · dsimp only at h
      split at h
      case h_1 e m₁ hnext =>
        cases h
        cases nextPage_spec hm hnext hu with
        | raises _ hm' hi =>
          refine ⟨ret, hm', ?_⟩
          intro ids hids
          cases hids
      case h_2 m₁ hnext =>
        cases nextPage_spec hm hnext (hu.of_suffix (allocLoop_frame h).1) with
        | parks hm' => exact ih hm' h
      case h_3 page m₁ hnext =>
        have hu₁ : m₁.IssuedOnce := by
          split at h
          case h_1 e m₂ htake =>
            cases h
            have hsame := (takeBlocks_frame htake).1
            exact hu.of_suffix (hsame ▸ List.suffix_refl _)
          case h_2 ids m₂ htake =>
            apply hu.of_suffix
            rw [← (takeBlocks_frame htake).1]
            exact (allocLoop_frame h).1
        cases nextPage_spec hm hnext hu₁ with
        | takes _ hm' hne =>
          have hpos := List.length_pos_iff.mpr hne
          obtain ⟨m₂, htake, hm₂, -, -⟩ :=
            takeBlocks_spec (n := min page.numFreeBlocks need) hm'
              (by simp only [InternalPage.numFreeBlocks]; omega)
              (by simp only [InternalPage.numFreeBlocks]; omega)
          rw [htake] at h
          have hm₃ : Consistent C m₂
              ((ret ++ page.freeList.take (min page.numFreeBlocks need).toNat) ++ out) := by
            apply hm₂.perm
            rw [← List.append_assoc]
            exact List.perm_append_comm.append_right _
          obtain ⟨got, hgot, hids⟩ := ih hm₃ h
          refine ⟨got, hgot, ?_⟩
          intro ids hr
          obtain ⟨rfl, hlen⟩ := hids ids hr
          refine ⟨rfl, ?_⟩
          rw [hlen, List.length_append, List.length_take]
          simp only [InternalPage.numFreeBlocks]
          omega

theorem nextPage_source {S : PageAllocatorApi σ} {I : σ → Prop}
    (hI : ∀ s, I s → I (S.allocPage s).2) {m m' : KvCacheManager σ}
    {r : Except PyError (Option InternalPage)} (hm : I m.pageAllocator)
    (h : nextPage C S m = (r, m')) : I m'.pageAllocator := by
  have hs := hI _ hm
  cases nextPage_step h with
  | pops => exact hm
  | raises msg s halloc =>
    rw [halloc] at hs
    exact hs
  | parks p s halloc | opens p s halloc =>
    rw [halloc] at hs
    exact hs

theorem takeBlocks_source {n : Int} {m m' : KvCacheManager σ}
    {r : Except PyError (List BlockId)} (h : takeBlocks n pg m = (r, m')) :
    m'.pageAllocator = m.pageAllocator := by
  unfold takeBlocks at h
  split at h
  case h_1 =>
    cases h
    rfl
  case h_2 =>
    dsimp only at h
    split_ifs at h <;> cases h <;> rfl

/-- The loop reaches the allocator through `alloc_page` only. -/
theorem allocLoop_source {S : PageAllocatorApi σ} {I : σ → Prop}
    (hI : ∀ s, I s → I (S.allocPage s).2) {fuel : Nat} {need : Int} {ret : List BlockId}
    {m m' : KvCacheManager σ} {r : Except PyError (List BlockId)} (hm : I m.pageAllocator)
    (h : allocLoop C S fuel need ret m = some (r, m')) : I m'.pageAllocator := by
  refine allocLoop_rule (Q := fun m => I m.pageAllocator) ?_ ?_ hm h
  · intro m r m' hm hnext _
    exact nextPage_source hI hm hnext
  · intro m pg m₁ n r m' hm hnext htake
    rw [takeBlocks_source htake]
    exact nextPage_source hI hm hnext

/-- From its check of `available_size` on `_alloc` reaches it through `start_prealloc_thread`
besides. -/
theorem allocBlocks_source {S : PageAllocatorApi σ} {I : σ → Prop}
    (hI : ∀ s, I s → I (S.allocPage s).2) (hstart : ∀ s, I s → I (S.startPreallocThread s))
    {n : Int} {m m' : KvCacheManager σ} {r : Except PyError (Option (List BlockId))}
    (hm : I m.pageAllocator) (h : allocBlocks C S n m = some (r, m')) : I m'.pageAllocator := by
  have hcut : ∀ bs, I { m with reservedBlocks := bs }.pageAllocator := fun _ => hm
  unfold allocBlocks at h
  by_cases hsize : availableSize C S m < n
  · rw [if_pos hsize] at h
    cases h
    exact hm
  · rw [if_neg hsize] at h
    dsimp only at h
    split at h
    case h_1 => cases h
    case h_2 e m₁ hloop =>
      cases h
      exact allocLoop_source hI (hcut _) hloop
    case h_3 ret m₁ hloop =>
      cases h
      have hm₁ := allocLoop_source hI (hcut _) hloop
      unfold startPreallocThread
      split_ifs
      · exact hm₁
      · exact hstart _ hm₁
      · exact hm₁

end KvCacheManager

end GpuSharing.Kvcached
