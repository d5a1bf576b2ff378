import GpuSharing.Kvcached.ManagerHistory

namespace GpuSharing.Kvcached

variable {σ : Type}

/-- Every call a manager makes on its allocator keeps `I`. It frees pages it has only, and
`resizes` says whether it may resize. -/
structure PageAllocatorApi.Keeps (S : PageAllocatorApi σ) (resizes : Bool)
    (I : σ × List PageId → Prop) : Prop where
  allocPage : ∀ s, I s → I (S.logged.allocPage s).2
  freePages : ∀ ps s, ps.Subperm s.2 → I s → I (S.logged.freePages ps s)
  resize : resizes = true → ∀ n s, I s → I (S.logged.resize n s).2
  trim : ∀ s, I s → I (S.logged.trim s)
  startPreallocThread : ∀ s, I s → I (S.logged.startPreallocThread s)
  background : ∀ s, I s → I (S.logged.background s)
  target : resizes = false → ∀ s, I s → S.logged.getResizeTarget s ≤ 0

theorem PageAllocatorApi.Keeps.resizes_of_target {S : PageAllocatorApi σ} {resizes : Bool}
    {I : σ × List PageId → Prop} {s : σ × List PageId} (hS : S.Keeps resizes I) (hs : I s)
    (h : 0 < S.logged.getResizeTarget s) : resizes = true := by
  by_contra hr
  have hle := hS.target (by simpa using hr) s hs
  omega

namespace KvCacheManager

variable {C : KvCacheManagerConfig} {S : PageAllocatorApi σ} {resizes : Bool}
  {I : σ × List PageId → Prop} {m m' : KvCacheManager (σ × List PageId)} {ps : List PageId}
  {pg : InternalPage}

theorem count_pageIds (avail full : Dict PageId InternalPage) (q : PageId) :
    (pageIds avail full).count q = avail.keys.count q + full.keys.count q := by
  rw [pageIds, heldEntries, List.keys, List.map_append, List.count_append]
  rfl

/-- What holds of a manager whatever its allocator issues, while a method has the pages `ps` in
hand. -/
structure Sound (resizes : Bool) (I : σ × List PageId → Prop) (ps : List PageId)
    (m : KvCacheManager (σ × List PageId)) : Prop where
  source : I m.pageAllocator
  opened : ∀ e ∈ m.availPages.entries, e.2.freeList ≠ []
  keyed : ∀ e ∈ heldEntries m.availPages m.fullPages, e.2.pageId = e.1
  issued : ∀ q, ps.count q + (pageIds m.availPages m.fullPages).count q ≤ m.issued.count q
  settled : resizes = false → m.inShrink = false

namespace Sound

theorem init {s : σ} (h : I (s, [])) : Sound resizes I [] (KvCacheManager.init (s, [])) := by
  refine ⟨h, ?_, ?_, ?_, ?_⟩ <;> simp [KvCacheManager.init, heldEntries, pageIds]

/-- A call that changes the allocator and keeps the pages it has issued. -/
theorem reshrink (h : Sound resizes I ps m) (hI : I m'.pageAllocator)
    (hq : resizes = false → m'.inShrink = false)
    (hsame : (m'.availPages, m'.fullPages, m'.issued) = (m.availPages, m.fullPages, m.issued)) :
    Sound resizes I ps m' := by
  simp only [Prod.mk.injEq] at hsame
  obtain ⟨ha, hf, hi⟩ := hsame
  refine ⟨hI, ?_, ?_, ?_, hq⟩
  · rw [ha]
    exact h.opened
  · rw [ha, hf]
    exact h.keyed
  · rw [ha, hf, hi]
    exact h.issued

theorem relabel (h : Sound resizes I ps m) (hI : I m'.pageAllocator)
    (hsame : (m'.availPages, m'.fullPages, m'.issued, m'.inShrink) =
      (m.availPages, m.fullPages, m.issued, m.inShrink)) : Sound resizes I ps m' := by
  simp only [Prod.mk.injEq] at hsame
  obtain ⟨ha, hf, hi, hq⟩ := hsame
  apply h.reshrink hI
  · intro hr
    exact hq.trans (h.settled hr)
  · rw [ha, hf, hi]

theorem weaken {qs : List PageId} (h : Sound resizes I ps m) (hqs : ∀ q, qs.count q ≤ ps.count q) :
    Sound resizes I qs m := by
  refine ⟨h.source, h.opened, h.keyed, ?_, h.settled⟩
  intro q
  have hq := hqs q
  have hi := h.issued q
  omega

/-- A page in hand goes into `avail_pages`. -/
theorem setAvail (pg : InternalPage) (h : Sound resizes I (pg.pageId :: ps) m) (hne : pg.freeList ≠ []) :
    Sound resizes I ps { m with availPages := m.availPages.setItem pg.pageId pg } := by
  refine ⟨h.source, ?_, ?_, ?_, h.settled⟩
  · intro e he
    rcases Dict.mem_entries_setItem he with rfl | he
    · exact hne
    · exact h.opened e he
  · intro e he
    rcases List.mem_append.mp he with he | he
    · rcases Dict.mem_entries_setItem he with rfl | he
      · rfl
      · exact h.keyed e (List.mem_append_left _ he)
    · exact h.keyed e (List.mem_append_right _ he)
  · intro q
    have hkeys := (Dict.keys_setItem_subperm m.availPages pg.pageId pg).count_le q
    have hi := h.issued q
    rw [List.count_cons] at hkeys hi
    change ps.count q + (pageIds (m.availPages.setItem pg.pageId pg) m.fullPages).count q ≤
      m.issued.count q
    rw [count_pageIds] at hi ⊢
    omega

/-- A page in hand goes into `full_pages`. -/
theorem setFull (pg : InternalPage) (h : Sound resizes I (pg.pageId :: ps) m) :
    Sound resizes I ps { m with fullPages := m.fullPages.setItem pg.pageId pg } := by
  refine ⟨h.source, h.opened, ?_, ?_, h.settled⟩
  · intro e he
    rcases List.mem_append.mp he with he | he
    · exact h.keyed e (List.mem_append_left _ he)
    · rcases Dict.mem_entries_setItem he with rfl | he
      · rfl
      · exact h.keyed e (List.mem_append_right _ he)
  · intro q
    have hkeys := (Dict.keys_setItem_subperm m.fullPages pg.pageId pg).count_le q
    have hi := h.issued q
    rw [List.count_cons] at hkeys hi
    change ps.count q + (pageIds m.availPages (m.fullPages.setItem pg.pageId pg)).count q ≤
      m.issued.count q
    rw [count_pageIds] at hi ⊢
    omega

/-- A page leaves one of the dictionaries. -/
theorem take {p : PageId} {avail full : Dict PageId InternalPage} (h : Sound resizes I ps m)
    (hperm : (heldEntries m.availPages m.fullPages).Perm (⟨p, pg⟩ :: heldEntries avail full))
    (ha : avail.entries ⊆ m.availPages.entries) :
    pg.pageId = p ∧ Sound resizes I (p :: ps) { m with availPages := avail, fullPages := full } := by
  have hkey : pg.pageId = p := h.keyed ⟨p, pg⟩ (hperm.mem_iff.mpr List.mem_cons_self)
  refine ⟨hkey, h.source, ?_, ?_, ?_, h.settled⟩
  · intro e he
    exact h.opened e (ha he)
  · intro e he
    exact h.keyed e (hperm.mem_iff.mpr (List.mem_cons_of_mem _ he))
  · intro q
    have hids : (pageIds m.availPages m.fullPages).Perm (p :: pageIds avail full) :=
      hperm.map Sigma.fst
    have hi := h.issued q
    rw [hids.count_eq, List.count_cons] at hi
    change (p :: ps).count q + (pageIds avail full).count q ≤ m.issued.count q
    rw [List.count_cons]
    omega

theorem takeAvail {p : PageId} {rest : Dict PageId InternalPage} (h : Sound resizes I ps m)
    (he : m.availPages.entries.Perm (⟨p, pg⟩ :: rest.entries)) :
    pg.pageId = p ∧ pg.freeList ≠ [] ∧ Sound resizes I (p :: ps) { m with availPages := rest } := by
  have hsub : rest.entries ⊆ m.availPages.entries := by
    intro e hin
    exact he.mem_iff.mpr (List.mem_cons_of_mem _ hin)
  obtain ⟨hkey, hs⟩ := h.take (he.append_right m.fullPages.entries) hsub
  exact ⟨hkey, h.opened ⟨p, pg⟩ (he.mem_iff.mpr List.mem_cons_self), hs⟩

end Sound

/-- The page a pass of the loop has taken out to give blocks from. -/
def inHand : Except PyError (Option InternalPage) → List PageId
  | .ok (some pg) => [pg.pageId]
  | _ => []

/-- A page just issued is in hand. -/
theorem Sound.issue (hm : Sound resizes I [] m) {p : PageId} {t : σ}
    (hI : I (t, p :: m.pageAllocator.2)) :
    Sound resizes I [p] { m with pageAllocator := (t, p :: m.pageAllocator.2) } := by
  refine ⟨hI, hm.opened, hm.keyed, ?_, hm.settled⟩
  intro q
  have hi := hm.issued q
  change [p].count q + (pageIds m.availPages m.fullPages).count q ≤ (p :: m.issued).count q
  rw [List.count_cons, List.count_cons]
  omega

theorem nextPage_sound {r : Except PyError (Option InternalPage)} (hS : S.Keeps resizes I)
    (hm : Sound resizes I [] m) (h : nextPage C S.logged m = (r, m')) :
    Sound resizes I (inHand r) m' ∧ ∀ pg, r = .ok (some pg) → pg.freeList ≠ [] := by
  have hI := hS.allocPage _ hm.source
  cases nextPage_step h with
  | pops k page rest hpop =>
    obtain ⟨hkey, hne, hs⟩ := hm.takeAvail (.of_eq (Dict.popitem_some hpop))
    refine ⟨by rwa [inHand, hkey], ?_⟩
    intro pg hpg
    cases hpg
    exact hne
  | raises msg s halloc =>
    rw [halloc] at hI
    obtain ⟨t, -, rfl⟩ := PageAllocatorApi.logged_error halloc
    exact ⟨hm.relabel hI rfl, by simp⟩
  | parks p s halloc hzero =>
    rw [halloc] at hI
    obtain ⟨t, -, rfl⟩ := PageAllocatorApi.logged_ok halloc
    have hfull := (hm.issue hI).setFull ((InternalPage.mk' p C.pageSize).init C.blockMemSize)
    exact ⟨hfull, by simp⟩
  | opens p s halloc hzero =>
    rw [halloc] at hI
    obtain ⟨t, -, rfl⟩ := PageAllocatorApi.logged_ok halloc
    refine ⟨(hm.issue hI).relabel hI rfl, ?_⟩
    intro pg hpg
    cases hpg
    intro hnil
    exact hzero (by rw [InternalPage.numFreeBlocks, hnil]; rfl)

theorem takeBlocks_sound {n : Int} {r : Except PyError (List BlockId)}
    (hm : Sound resizes I [pg.pageId] m) (h : takeBlocks n pg m = (r, m')) : Sound resizes I [] m' := by
  unfold takeBlocks at h
  split at h
  case h_1 =>
    cases h
    exact hm.weaken (by simp)
  case h_2 ids page halloc =>
    have hid : page.pageId = pg.pageId := by
      unfold InternalPage.alloc at halloc
      split_ifs at halloc
      cases halloc
      rfl
    rw [← hid] at hm
    dsimp only at h
    split_ifs at h with hfull <;> cases h
    · exact (hm.setFull page).relabel hm.source rfl
    · have hne : page.freeList ≠ [] := by
        intro hnil
        exact hfull (by rw [InternalPage.full, hnil]; rfl)
      exact (hm.setAvail page hne).relabel hm.source rfl

theorem allocLoop_sound {fuel : Nat} {need : Int} {ret : List BlockId}
    {r : Except PyError (List BlockId)} (hS : S.Keeps resizes I) (hm : Sound resizes I [] m)
    (h : allocLoop C S.logged fuel need ret m = some (r, m')) : Sound resizes I [] m' := by
  refine allocLoop_rule (Q := Sound resizes I []) ?_ ?_ hm h
  · intro m r m' hm hnext hno
    have hs := (nextPage_sound hS hm hnext).1
    cases r with
    | error e => exact hs
    | ok page =>
      cases page with
      | none => exact hs
      | some pg => exact absurd rfl (hno pg)
  · intro m pg m₁ n r m' hm hnext htake
    exact takeBlocks_sound (nextPage_sound hS hm hnext).1 htake

/-- Every page issued is one free page less. -/
def Counts (S : PageAllocatorApi σ) (I : σ × List PageId → Prop) : Prop :=
  ∀ s p t, I s → S.logged.allocPage s = (.ok p, t) →
    (S.logged.getNumFreePages t).toNat < (S.logged.getNumFreePages s).toNat

theorem nextPage_measure {r : Option InternalPage} (hS : Counts S I) (hI : I m.pageAllocator)
    (h : nextPage C S.logged m = (.ok r, m')) :
    (S.logged.getNumFreePages m'.pageAllocator).toNat ≤
        (S.logged.getNumFreePages m.pageAllocator).toNat ∧
      (r = none → (S.logged.getNumFreePages m'.pageAllocator).toNat <
        (S.logged.getNumFreePages m.pageAllocator).toNat) := by
  cases nextPage_step h with
  | pops => exact ⟨le_rfl, by simp⟩
  | parks p s halloc | opens p s halloc =>
    have hlt := hS _ _ _ hI halloc
    exact ⟨hlt.le, fun _ => hlt⟩

/-- The fuel is enough: each pass takes a block or parks a page. -/
theorem allocLoop_returns {fuel : Nat} {need : Int} {ret : List BlockId} (hS : S.Keeps resizes I)
    (hc : Counts S I) (hm : Sound resizes I [] m)
    (hfuel : need.toNat + (S.logged.getNumFreePages m.pageAllocator).toNat < fuel) :
    (allocLoop C S.logged fuel need ret m).isSome := by
  induction fuel generalizing need ret m with
  | zero => omega
  | succ fuel ih =>
    unfold allocLoop
    split_ifs with hneed
    · rfl
    · dsimp only
      split
      case h_1 => rfl
      case h_2 m₁ hnext =>
        obtain ⟨-, hlt⟩ := nextPage_measure hc hm.source hnext
        have hless := hlt rfl
        exact ih (nextPage_sound hS hm hnext).1 (by omega)
      case h_3 page m₁ hnext =>
        obtain ⟨hm₁, hne⟩ := nextPage_sound hS hm hnext
        obtain ⟨hle, -⟩ := nextPage_measure hc hm.source hnext
        have hpos := List.length_pos_iff.mpr (hne page rfl)
        split
        case h_1 => rfl
        case h_2 ids m₂ htake =>
          apply ih (takeBlocks_sound hm₁ htake)
          rw [takeBlocks_source htake]
          simp only [InternalPage.numFreeBlocks]
          omega

theorem takePage_sound {p : PageId} (hm : Sound resizes I ps m) (h : m.takePage p = some (pg, m')) :
    pg.pageId = p ∧ Sound resizes I (p :: ps) m' := by
  unfold takePage at h
  split at h
  case h_1 page rest hpop =>
    cases h
    have hperm : (heldEntries m.availPages m.fullPages).Perm
        (⟨p, pg⟩ :: heldEntries m.availPages rest) :=
      ((Dict.pop_some hpop).append_left _).trans List.perm_middle
    exact hm.take hperm (List.Subset.refl _)
  case h_2 =>
    split at h
    case h_1 page rest hpop =>
      cases h
      obtain ⟨hkey, -, hs⟩ := hm.takeAvail (Dict.pop_some hpop)
      exact ⟨hkey, hs⟩
    case h_2 => cases h

/-- The pages `free` gives back are pages it has taken out. -/
theorem freeGroups_sound {groups : List (PageId × List BlockId)} {r : Except PyError (List PageId)}
    (hg : ∀ g ∈ groups, g.2 ≠ []) (hm : Sound resizes I ps m)
    (h : freeGroups C groups ps m = (r, m')) : ∃ freed, Sound resizes I freed m' ∧ ∀ qs, r = .ok qs →
      qs = freed := by
  induction groups generalizing ps m with
  | nil =>
    cases h
    exact ⟨ps, hm, by simp⟩
  | cons g groups ih =>
    obtain ⟨p, ids⟩ := g
    have hids : ids ≠ [] := hg (p, ids) List.mem_cons_self
    have hrest : ∀ g ∈ groups, g.2 ≠ [] := fun g hin => hg g (List.mem_cons_of_mem _ hin)
    rw [freeGroups] at h
    split at h
    case h_1 =>
      split_ifs at h
      · cases h
        exact ⟨ps, hm, by simp⟩
      · exact ih hrest hm h
    case h_2 page m₁ htake =>
      obtain ⟨hkey, hm₁⟩ := takePage_sound hm htake
      dsimp only at h
      split_ifs at h
      · have hm₂ : Sound resizes I (ps ++ [page.pageId]) m₁ := by
          apply hm₁.weaken
          intro q
          rw [hkey, List.count_append, List.count_cons, List.count_cons, List.count_nil]
          omega
        refine ih hrest ?_ h
        exact hm₂.relabel hm₂.source rfl
      · refine ih hrest ?_ h
        rw [← hkey] at hm₁
        have hset := Sound.setAvail (page.freeBatch ids) hm₁
          (by simp [InternalPage.freeBatch, hids])
        rw [show (page.freeBatch ids).pageId = p from hkey] at hset
        exact hset.relabel hset.source rfl

theorem retryShrink_sound {r : Except PyError Unit} (hS : S.Keeps resizes I) (hm : Sound resizes I [] m)
    (h : retryShrink C S.logged m = (r, m')) : Sound resizes I [] m' := by
  unfold retryShrink at h
  split_ifs at h with hq
  · have hr : resizes = true := by
      by_contra hr
      rw [hm.settled (by simpa using hr)] at hq
      cases hq
    split at h
    case h_1 =>
      cases h
      exact hm
    case h_2 target _ =>
      split_ifs at h <;> cases h
      · exact hm.reshrink (hS.resize hr _ _ hm.source) (fun _ => rfl) rfl
      · exact hm
  · cases h
    exact hm

/-- The state in which `free` comes to a deferred shrink, if it does. -/
def putBack (C : KvCacheManagerConfig) (S : PageAllocatorApi σ) (ids : List BlockId)
    (m : KvCacheManager σ) : Option (KvCacheManager σ) :=
  if ids.isEmpty then none
  else match (if C.sanityCheck then ids.find? (· ∈ m.reservedBlocks) else none) with
  | some _ => none
  | none =>
    match freeGroups C (groupIndicesByPage C ids) [] m with
    | (.error _, _) => none
    | (.ok pagesToFree, m) =>
      some (if pagesToFree.isEmpty then m
        else { m with pageAllocator := S.freePages pagesToFree m.pageAllocator })

/-- `free` puts the blocks back and then retries a deferred shrink, or it stops before that. -/
theorem free_putBack (C : KvCacheManagerConfig) (S : PageAllocatorApi σ) (ids : List BlockId)
    (m : KvCacheManager σ) :
    (∃ m₁, putBack C S ids m = some m₁ ∧ free C S ids m = retryShrink C S m₁) ∨
      putBack C S ids m = none ∧ ((free C S ids m).2 = m ∨
        ∃ e, freeGroups C (groupIndicesByPage C ids) [] m = (.error e, (free C S ids m).2)) := by
  unfold putBack free
  by_cases hnil : ids.isEmpty = true
  · rw [if_pos hnil, if_pos hnil]
    exact .inr ⟨rfl, .inl rfl⟩
  · rw [if_neg hnil, if_neg hnil]
    cases (if C.sanityCheck then ids.find? (· ∈ m.reservedBlocks) else none) with
    | some b => exact .inr ⟨rfl, .inl rfl⟩
    | none =>
      dsimp only
      cases freeGroups C (groupIndicesByPage C ids) [] m with
      | mk r m₁ =>
        cases r with
        | error e => exact .inr ⟨rfl, .inr ⟨e, rfl⟩⟩
        | ok qs => exact .inl ⟨_, rfl, rfl⟩

theorem groupIndicesByPage_ne_nil {ids : List BlockId} :
    ∀ g ∈ groupIndicesByPage C ids, g.2 ≠ [] := fun _ hin => (groupIndicesByPage_groups hin).1

theorem putBack_some {S : PageAllocatorApi σ} {m m' : KvCacheManager σ} {ids : List BlockId}
    (h : putBack C S ids m = some m') :
    ∃ qs m₁, freeGroups C (groupIndicesByPage C ids) [] m = (.ok qs, m₁) ∧
      m' = if qs.isEmpty then m₁
        else { m₁ with pageAllocator := S.freePages qs m₁.pageAllocator } := by
  unfold putBack at h
  by_cases hnil : ids.isEmpty = true
  · rw [if_pos hnil] at h
    cases h
  · rw [if_neg hnil] at h
    split at h
    case h_1 => cases h
    case h_2 =>
      split at h
      case h_1 => cases h
      case h_2 qs m₁ hrun =>
        cases h
        exact ⟨qs, m₁, hrun, rfl⟩

theorem putBack_sound {ids : List BlockId} (hS : S.Keeps resizes I) (hm : Sound resizes I [] m)
    (h : putBack C S.logged ids m = some m') : Sound resizes I [] m' := by
  obtain ⟨qs, m₁, hrun, rfl⟩ := putBack_some h
  obtain ⟨freed, hm₁, hqs⟩ := freeGroups_sound groupIndicesByPage_ne_nil hm hrun
  obtain rfl := hqs qs rfl
  split_ifs
  · exact hm₁.weaken (by simp)
  · have hsub : qs.Subperm m₁.issued := by
      apply List.subperm_ext_iff.mpr
      intro q _
      have hi := hm₁.issued q
      omega
    refine ⟨hS.freePages _ _ hsub hm₁.source, hm₁.opened, hm₁.keyed, ?_, hm₁.settled⟩
    intro q
    have hi := hm₁.issued q
    have hdiff := (append_diff_perm hsub).count_eq q
    rw [List.count_append] at hdiff
    change [].count q + (pageIds m₁.availPages m₁.fullPages).count q ≤
      (m₁.issued.diff qs).count q
    rw [List.count_nil]
    omega

theorem free_sound {ids : List BlockId} {r : Except PyError Unit} (hS : S.Keeps resizes I)
    (hm : Sound resizes I [] m) (h : free C S.logged ids m = (r, m')) : Sound resizes I [] m' := by
  rcases free_putBack C S.logged ids m with ⟨m₁, hback, hfree⟩ | ⟨-, hsame | ⟨e, hrun⟩⟩
  · rw [hfree] at h
    exact retryShrink_sound hS (putBack_sound hS hm hback) h
  · rw [h] at hsame
    obtain rfl : m' = m := hsame
    exact hm
  · rw [h] at hrun
    obtain ⟨freed, hm', -⟩ := freeGroups_sound groupIndicesByPage_ne_nil hm hrun
    exact hm'.weaken (by simp)

theorem freeReserved_sound {r : Except PyError Unit} (hS : S.Keeps resizes I) (hm : Sound resizes I [] m)
    (h : freeReserved C S.logged m = (r, m')) : Sound resizes I [] m' := by
  by_cases hnil : m.reservedBlocks = []
  · rw [freeReserved_nil hnil] at h
    cases h
    exact hm
  · unfold freeReserved at h
    rw [if_neg (by simpa using hnil)] at h
    split at h
    case h_1 e m₁ hfree =>
      cases h
      exact free_sound hS hm hfree
    case h_2 m₁ hfree =>
      cases h
      have hm₁ := free_sound hS hm hfree
      exact hm₁.relabel hm₁.source rfl

theorem resize_sound {n : Int} {r : Except PyError Bool} (hS : S.Keeps true I)
    (hm : Sound true I [] m) (h : resize C S.logged n m = (r, m')) : Sound true I [] m' := by
  unfold resize at h
  by_cases hn : n ≤ 0
  · rw [if_pos hn] at h
    cases h
    exact hm
  · rw [if_neg hn] at h
    have hI := hS.resize rfl n _ hm.source
    split at h
    case h_1 s hs =>
      rw [hs] at hI
      obtain ⟨-, rfl⟩ := Prod.mk.inj hs
      cases h
      split_ifs <;> exact hm.reshrink hI (by simp) rfl
    case h_2 s hs =>
      rw [hs] at hI
      obtain ⟨-, rfl⟩ := Prod.mk.inj hs
      by_cases hnil : m.reservedBlocks = []
      · rw [if_neg (not_not.mpr hnil), freeReserved_nil] at h
        · cases h
          exact hm.reshrink hI (by simp) rfl
        · exact hnil
      · rw [if_pos hnil] at h
        cases h
        exact hm.relabel hI rfl

theorem startPreallocThread_sound (hS : S.Keeps resizes I) (hm : Sound resizes I [] m) :
    Sound resizes I [] (startPreallocThread S.logged m) := by
  unfold startPreallocThread
  split_ifs
  · exact hm
  · exact hm.relabel (hS.startPreallocThread _ hm.source) rfl

theorem allocBlocks_sound {n : Int} {r : Except PyError (Option (List BlockId))} (hS : S.Keeps resizes I)
    (hm : Sound resizes I [] m) (h : allocBlocks C S.logged n m = some (r, m')) : Sound resizes I [] m' := by
  unfold allocBlocks at h
  by_cases hsize : availableSize C S.logged m < n
  · rw [if_pos hsize] at h
    cases h
    exact hm
  · rw [if_neg hsize] at h
    have hcut : ∀ bs, Sound resizes I [] { m with reservedBlocks := bs } := fun _ =>
      hm.relabel hm.source rfl
    dsimp only at h
    split at h
    case h_1 => cases h
    case h_2 e m₁ hloop =>
      cases h
      exact allocLoop_sound hS (hcut _) hloop
    case h_3 ret m₁ hloop =>
      cases h
      have hm₁ := allocLoop_sound hS (hcut _) hloop
      split_ifs
      · exact startPreallocThread_sound hS hm₁
      · exact hm₁

/-- From its check of `available_size` on `_alloc` returns or raises. -/
theorem allocBlocks_returns (hS : S.Keeps resizes I) (hc : Counts S I) (hm : Sound resizes I [] m) (n : Int) :
    (allocBlocks C S.logged n m).isSome := by
  unfold allocBlocks
  by_cases hsize : availableSize C S.logged m < n
  · rw [if_pos hsize]
    rfl
  · rw [if_neg hsize]
    dsimp only
    generalize (if m.reservedBlocks.isEmpty then (0 : Int)
      else min (m.reservedBlocks.length : Int) n) = k
    generalize sliceIndex m.reservedBlocks k = cut
    have hloop : (allocLoop C S.logged
        ((n - k).toNat + (S.logged.getNumFreePages m.pageAllocator).toNat + 1) (n - k)
        (m.reservedBlocks.take cut) { m with reservedBlocks := m.reservedBlocks.drop cut }).isSome :=
      allocLoop_returns hS hc (hm.relabel hm.source rfl) (Nat.lt_succ_self _)
    split
    case h_1 hnone =>
      rw [hnone] at hloop
      cases hloop
    case h_2 => rfl
    case h_3 => rfl

theorem alloc_sound {n : Int} {r : Except PyError (Option (List BlockId))} (hS : S.Keeps resizes I)
    (hm : Sound resizes I [] m) (h : alloc C S.logged n m = some (r, m')) : Sound resizes I [] m' := by
  rcases alloc_cases h with ⟨-, h⟩ | ⟨htarget, -, hresized⟩
  · exact allocBlocks_sound hS hm h
  · obtain rfl := hS.resizes_of_target hm.source htarget
    obtain ⟨e, hresize, -⟩ | ⟨ok, m₁, hresize, h⟩ := hresized
    · exact resize_sound hS hm hresize
    · exact allocBlocks_sound hS (resize_sound hS hm hresize) h

/-- Once `_post_init` is done `alloc` returns or raises. -/
theorem alloc_returns (hS : S.Keeps resizes I) (hc : Counts S I) (hm : Sound resizes I [] m)
    (hdone : m.postInitDone = true) (n : Int) : (alloc C S.logged n m).isSome := by
  unfold alloc
  dsimp only
  rw [if_pos hdone]
  split_ifs with htarget
  · obtain rfl := hS.resizes_of_target hm.source htarget
    split
    case h_1 => rfl
    case h_2 m₁ hresize => exact allocBlocks_returns hS hc (resize_sound hS hm hresize) n
  · exact allocBlocks_returns hS hc hm n

theorem tryToReserve_sound {n : Int} {r : Except PyError Bool} (hS : S.Keeps resizes I)
    (hm : Sound resizes I [] m) (h : tryToReserve C S.logged n m = some (r, m')) : Sound resizes I [] m' := by
  rcases tryToReserve_cases h with ⟨-, -, rfl⟩ | ⟨-, r₁, m₁, halloc, -, hreserved⟩
  · exact hm
  · have hm₁ := alloc_sound hS hm halloc
    obtain rfl | ⟨ids, -, rfl⟩ := hreserved
    · exact hm₁
    · exact hm₁.relabel hm₁.source rfl

theorem reserveNull_sound {r : Except PyError Unit} (hS : S.Keeps resizes I) (hm : Sound resizes I [] m)
    (h : reserveNull C S.logged m = some (r, m')) : Sound resizes I [] m' := by
  rcases reserveNull_cases h with
    ⟨-, -, rfl⟩ | ⟨-, ⟨e, halloc, -⟩ | ⟨ids, m₁, halloc, rfl, -⟩⟩
  · exact hm.relabel hm.source rfl
  · exact alloc_sound hS hm halloc
  · have hm₁ := alloc_sound hS hm halloc
    exact hm₁.relabel hm₁.source rfl

theorem postInit_sound {created : Bool} {r : Except PyError Unit} (hS : S.Keeps resizes I)
    (hm : Sound resizes I [] m) (h : postInit C S.logged created m = some (r, m')) : Sound resizes I [] m' := by
  rcases postInit_cases h with ⟨-, -, rfl⟩ | ⟨-, m₁, hreserve, hpost⟩
  · exact hm.relabel hm.source rfl
  · have hm₁ := reserveNull_sound hS hm hreserve
    obtain ⟨-, rfl⟩ | ⟨-, -, rfl⟩ := hpost
    · exact hm₁.relabel hm₁.source rfl
    · have hstart := startPreallocThread_sound hS hm₁
      exact hstart.relabel hstart.source rfl

end KvCacheManager

/-- The call does not resize by itself, or `resizes` is set. -/
def ManagerAct.Plain (resizes : Bool) : ManagerAct → Prop
  | .resize _ => resizes = true
  | _ => True

namespace Session

open KvCacheManager

variable {C : KvCacheManagerConfig} {S : PageAllocatorApi σ} {resizes : Bool}
  {I : σ × List PageId → Prop} {s t : Session σ}

/-- What every call on the allocator keeps, every call on the manager keeps. -/
theorem step_sound {act : ManagerAct} (hS : S.Keeps resizes I) (hs : Sound resizes I [] s.manager)
    (hact : act.Plain resizes) (h : step C S s act = some t) : Sound resizes I [] t.manager := by
  cases step_outcome h with
  | postInit created r m hdone hcall => exact postInit_sound hS hs hcall
  | background => exact hs.relabel (hS.background _ hs.source) rfl
  | allocs n ids m hdone hcall => exact alloc_sound hS hs hcall
  | allocRaises n e m hdone hcall => exact alloc_sound hS hs hcall
  | free ids hdone hheld => exact free_sound hS hs rfl
  | tryToReserve n r m hdone hcall => exact tryToReserve_sound hS hs hcall
  | freeReserved hdone => exact freeReserved_sound hS hs rfl
  | resize n hdone =>
    obtain rfl : resizes = true := hact
    exact resize_sound hS hs rfl
  | trim hdone => exact hs.relabel (hS.trim _ hs.source) rfl

end Session

end GpuSharing.Kvcached
