import GpuSharing.Kvcached.AllocedCount
import GpuSharing.Kvcached.PendingLimit

namespace GpuSharing.Kvcached

open Transition

variable {σ : Type}

/-- The allocator raises before it issues a page with a whole block. -/
inductive PageAllocatorApi.RaisesFirst (S : PageAllocatorApi σ) (C : KvCacheManagerConfig) : σ → Prop
  | raises {s t : σ} {msg : String} (h : S.allocPage s = (.error msg, t)) : RaisesFirst S C s
  | parks {s t : σ} {p : PageId} (h : S.allocPage s = (.ok p, t)) (hnil : blockRange C p = [])
      (ht : RaisesFirst S C t) : RaisesFirst S C s

namespace KvCacheManager

variable {C : KvCacheManagerConfig} {S : PageAllocatorApi σ}
  {m m' : KvCacheManager (σ × List PageId)} {out : List BlockId} {e : PyError}

/-- A block of a page held is not free and not reserved. -/
def Used (C : KvCacheManagerConfig) (m : KvCacheManager (σ × List PageId)) (b : BlockId) : Prop :=
  (∃ p ∈ m.issued, b ∈ blockRange C p) ∧ b ∉ m.freeBlocks ∧ b ∉ m.reservedBlocks

/-- Every block is where it was. -/
structure SameOwners (C : KvCacheManagerConfig) (m m' : KvCacheManager (σ × List PageId)) :
    Prop where
  counter : m'.numAvailBlocks = m.numAvailBlocks
  reserved : m'.reservedBlocks = m.reservedBlocks
  free : ∀ b, b ∈ m'.freeBlocks ↔ b ∈ m.freeBlocks
  used : ∀ b, Used C m' b ↔ Used C m b

/-- Calls that change the allocator or the deferred shrink only. -/
theorem SameOwners.of_same
    (h : (m'.availPages, m'.fullPages, m'.numAvailBlocks, m'.reservedBlocks, m'.issued) =
      (m.availPages, m.fullPages, m.numAvailBlocks, m.reservedBlocks, m.issued)) :
    SameOwners C m m' := by
  simp only [Prod.mk.injEq] at h
  obtain ⟨ha, hf, hn, hr, hi⟩ := h
  have hfree : m'.freeBlocks = m.freeBlocks := by rw [freeBlocks, freeBlocks, ha, hf]
  refine ⟨hn, hr, fun b => by rw [hfree], fun b => ?_⟩
  rw [Used, Used, hi, hfree, hr]

theorem SameOwners.trans_iff {m₁ : KvCacheManager (σ × List PageId)} (h : SameOwners C m m₁) :
    SameOwners C m m' ↔ SameOwners C m₁ m' := by
  constructor
  · intro h'
    exact ⟨h'.counter.trans h.counter.symm, h'.reserved.trans h.reserved.symm,
      fun b => (h'.free b).trans (h.free b).symm, fun b => (h'.used b).trans (h.used b).symm⟩
  · intro h'
    exact ⟨h'.counter.trans h.counter, h'.reserved.trans h.reserved,
      fun b => (h'.free b).trans (h.free b), fun b => (h'.used b).trans (h.used b)⟩

/-- The blocks used are the outstanding ones that are not reserved. -/
theorem Consistent.used_iff (h : Consistent C m (m.reservedBlocks ++ out)) (b : BlockId) :
    Used C m b ↔ b ∈ out := by
  constructor
  · rintro ⟨hpage, hfree, hreserved⟩
    have hin := (h.mem_freeBlocks b).mp hpage
    rw [List.mem_append] at hin
    tauto
  · intro hb
    have hout : b ∈ m.reservedBlocks ++ out := List.mem_append_right _ hb
    refine ⟨⟨_, h.mem_blockRange hout⟩, h.notMem_freeBlocks hout, fun hr => ?_⟩
    exact (List.nodup_append.mp h.nodup).2.2 b hr b hb rfl

theorem Consistent.sound (h : Consistent C m out) : Sound true (fun _ => True) [] m := by
  refine ⟨trivial, fun e he => (h.holds.opened e he).1, h.holds.keyed, ?_, by simp⟩
  intro q
  rw [h.pages.count_eq, List.count_nil, Nat.zero_add]

theorem serveLimit_logged (S : PageAllocatorApi σ) (m : KvCacheManager (σ × List PageId)) :
    (serveLimit S.logged m).availPages = m.availPages ∧
      (serveLimit S.logged m).fullPages = m.fullPages ∧
      (serveLimit S.logged m).numAvailBlocks = m.numAvailBlocks ∧
      (serveLimit S.logged m).reservedBlocks = m.reservedBlocks ∧
      (serveLimit S.logged m).issued = m.issued := by
  unfold serveLimit
  dsimp only
  split_ifs <;> exact ⟨rfl, rfl, rfl, rfl, rfl⟩

theorem keeps_trivial (S : PageAllocatorApi σ) : S.Keeps true fun _ => True :=
  ⟨fun _ _ => trivial, fun _ _ _ _ => trivial, fun _ _ _ _ => trivial, fun _ _ => trivial,
    fun _ _ => trivial, fun _ _ => trivial, by simp⟩

theorem avail_eq_empty (h : Consistent C m out) (hfree : freeIn m.availPages = 0) :
    m.availPages = ∅ := by
  cases hpop : m.availPages.popitem with
  | none => exact Dict.popitem_none hpop
  | some found =>
    obtain ⟨k, page, rest⟩ := found
    obtain ⟨-, hsum, hne⟩ := h.holds.takeAvail (.of_eq (Dict.popitem_some hpop))
    have hpos := List.length_pos_iff.mpr hne
    have hnonneg := freeIn_nonneg rest
    simp only [InternalPage.numFreeBlocks] at hsum
    omega

/-- No block is free while `avail_pages` is empty. -/
theorem freeBlocks_eq_nil (h : Consistent C m out) (hempty : m.availPages = ∅) :
    m.freeBlocks = [] := by
  rw [freeBlocks, List.flatMap_eq_nil_iff]
  intro e he
  rw [heldEntries, hempty] at he
  exact h.holds.closed e he

theorem nextPage_error (h : nextPage C S.logged m = (.error e, m')) :
    m'.availPages = ∅ ∧ m'.issued = m.issued := by
  cases hpop : m.availPages.popitem with
  | some found =>
    obtain ⟨k, page, rest⟩ := found
    rw [nextPage, hpop] at h
    cases h
  | none =>
    cases nextPage_step h with
    | raises msg s halloc =>
      obtain ⟨t, -, rfl⟩ := PageAllocatorApi.logged_error halloc
      exact ⟨Dict.popitem_none hpop, rfl⟩

/-- The loop of `_alloc` raises when `avail_pages` is used up. -/
theorem allocLoop_error {fuel : Nat} {need : Int} {ret : List BlockId}
    (hm : Sound true (fun _ => True) [] m)
    (h : allocLoop C S.logged fuel need ret m = some (.error e, m')) :
    0 < need ∧ m'.availPages = ∅ := by
  induction fuel generalizing need ret m with
  | zero =>
    unfold allocLoop at h
    split_ifs at h
    cases h
  | succ fuel ih =>
    unfold allocLoop at h
    split_ifs at h with hneed
    · cases h
    · refine ⟨not_le.mp hneed, ?_⟩
      dsimp only at h
      split at h
      case h_1 e m₁ hnext =>
        cases h
        exact (nextPage_error hnext).1
      case h_2 m₁ hnext => exact (ih (nextPage_sound (keeps_trivial S) hm hnext).1 h).2
      case h_3 page m₁ hnext =>
        obtain ⟨hm₁, hne⟩ := nextPage_sound (keeps_trivial S) hm hnext
        have hpos := List.length_pos_iff.mpr (hne page rfl)
        split at h
        case h_1 e m₂ htake =>
          have halloc := page.alloc_of_le (n := min page.numFreeBlocks need)
            (by simp only [InternalPage.numFreeBlocks]; omega)
            (by simp only [InternalPage.numFreeBlocks]; omega)
          rw [takeBlocks, halloc] at htake
          cases htake
        case h_2 ids m₂ htake => exact (ih (takeBlocks_sound hm₁ htake) h).2

theorem append_cons_cancel {α : Type} {xs ys zs : List α} {x : α}
    (h : xs ++ x :: zs = ys ++ zs) : ys = xs ++ [x] := by
  apply (List.append_left_inj zs).mp
  rw [← h, List.append_assoc, List.singleton_append]

/-- With no page in `avail_pages` the loop takes no block before it raises exactly when the allocator
raises first. -/
theorem allocLoop_raisesFirst {fuel : Nat} {need : Int} {ret : List BlockId}
    {issued : List PageId} (hempty : m.availPages = ∅)
    (h : allocLoop C S.logged fuel need ret m = some (.error e, m'))
    (hissued : m'.issued = issued ++ m.issued) :
    (∀ p ∈ issued, blockRange C p = []) ↔ S.RaisesFirst C m.pageAllocator.1 := by
  induction fuel generalizing need ret m issued with
  | zero =>
    unfold allocLoop at h
    split_ifs at h
    cases h
  | succ fuel ih =>
    unfold allocLoop at h
    split_ifs at h with hneed
    · cases h
    · dsimp only at h
      split at h
      case h_1 e m₁ hnext =>
        cases h
        cases nextPage_step hnext with
        | raises msg s halloc =>
          obtain ⟨t, ht, rfl⟩ := PageAllocatorApi.logged_error halloc
          have hnil : issued = [] := List.append_left_eq_self.mp hissued.symm
          rw [hnil]
          exact iff_of_true (by simp) (.raises ht)
      case h_2 m₁ hnext =>
        cases nextPage_step hnext with
        | parks p s halloc hzero =>
          obtain ⟨t, ht, rfl⟩ := PageAllocatorApi.logged_ok halloc
          have hlength : (((blockRange C p).length : Nat) : Int) = 0 := hzero
          have hnil : blockRange C p = [] := List.length_eq_zero_iff.mp (by omega)
          obtain ⟨new, hnew⟩ := (allocLoop_frame h).1
          obtain rfl := append_cons_cancel (hnew.trans hissued)
          have hrest : (∀ q ∈ new, blockRange C q = []) ↔ S.RaisesFirst C t := by
            refine ih ?_ h hnew.symm
            exact hempty
          constructor
          · intro hall
            exact .parks ht hnil (hrest.mp fun q hq => hall q (List.mem_append_left _ hq))
          · intro hraises
            have hraises' : S.RaisesFirst C t := by
              cases hraises with
              | raises hcall =>
                rw [ht] at hcall
                cases hcall
              | parks hcall _ hafter =>
                rw [ht] at hcall
                cases hcall
                exact hafter
            intro q hq
            rcases List.mem_append.mp hq with hq | hq
            · exact hrest.mpr hraises' q hq
            · rw [List.mem_singleton.mp hq]
              exact hnil
      case h_3 page m₁ hnext =>
        have hsuffix : m₁.issued <:+ m'.issued := by
          split at h
          case h_1 e m₂ htake =>
            cases h
            exact (takeBlocks_frame htake).1 ▸ List.suffix_refl _
          case h_2 ids m₂ htake => exact (takeBlocks_frame htake).1 ▸ (allocLoop_frame h).1
        cases nextPage_step hnext with
        | pops k page rest hpop =>
          rw [hempty] at hpop
          cases hpop
        | opens p s halloc hzero =>
          obtain ⟨t, ht, rfl⟩ := PageAllocatorApi.logged_ok halloc
          have hblocks : blockRange C p ≠ [] := by
            intro hnil
            exact hzero (congrArg (fun bs => ((List.length bs : Nat) : Int)) hnil)
          obtain ⟨new, hnew⟩ := hsuffix
          obtain rfl := append_cons_cancel (hnew.trans hissued)
          refine iff_of_false (fun hall => hblocks (hall p (by simp))) fun hraises => ?_
          cases hraises with
          | raises hcall =>
            rw [ht] at hcall
            cases hcall
          | parks hcall hnil _ =>
            rw [ht] at hcall
            cases hcall
            exact hblocks hnil

/-- The blocks an allocation takes before it raises: the free and the reserved ones, and those of the
pages it was issued. -/
theorem allocLoop_lost {fuel : Nat} {need : Int} {ret reserved : List BlockId}
    (hm : Consistent C m (ret ++ (reserved ++ out)))
    (h : allocLoop C S.logged fuel need ret m = some (.error e, m')) (hu : m'.IssuedOnce) :
    ∃ got issued, Consistent C m' (got ++ (reserved ++ out)) ∧
      m'.issued = issued ++ m.issued ∧
      (got.length : Int) = freeIn m.availPages + ret.length + blockCount C issued := by
  obtain ⟨got, hgot, -⟩ := allocLoop_spec hm h hu
  obtain ⟨issued, hissued⟩ := (allocLoop_frame h).1
  refine ⟨got, issued, hgot, hissued.symm, ?_⟩
  have hbefore := hm.freeIn_add
  have hafter := hgot.freeIn_add
  have hempty := (allocLoop_error hm.sound h).2
  rw [← hissued, hempty, List.map_append, List.sum_append] at hafter
  have hnil : freeIn (∅ : Dict PageId InternalPage) = 0 := rfl
  rw [hnil] at hafter
  simp only [List.length_append, blockCount] at *
  push_cast at *
  omega

/-- What an `_alloc` that raises in its loop leaves behind it. -/
structure Raised (C : KvCacheManagerConfig) (S : PageAllocatorApi σ)
    (m m' : KvCacheManager (σ × List PageId)) (out : List BlockId) : Prop where
  reserved : m'.reservedBlocks = []
  avail : m'.availPages = ∅
  lost : ∃ got issued, Consistent C m' (got ++ out) ∧
    (got.length : Int) = freeIn m.availPages + m.reservedBlocks.length + blockCount C issued ∧
    (m.availPages = ∅ →
      ((∀ p ∈ issued, blockRange C p = []) ↔ S.RaisesFirst C m.pageAllocator.1))

theorem allocBlocks_failure {n : Int} {r : Except PyError (Option (List BlockId))}
    (hm : Consistent C m (m.reservedBlocks ++ out))
    (h : allocBlocks C S.logged n m = some (r, m')) (hfail : ∀ ids, r ≠ .ok (some ids))
    (hu : m'.IssuedOnce) :
    availableSize C S.logged m < n ∧ m' = m ∨
      ¬availableSize C S.logged m < n ∧ Raised C S m m' out := by
  unfold allocBlocks at h
  by_cases hsize : availableSize C S.logged m < n
  · rw [if_pos hsize] at h
    cases h
    exact .inl ⟨hsize, rfl⟩
  · rw [if_neg hsize] at h
    dsimp only at h
    split at h
    case h_1 => cases h
    case h_3 ret m₁ hloop =>
      cases h
      exact absurd rfl (hfail ret)
    case h_2 e m₁ hloop =>
      cases h
      refine .inr ⟨hsize, ?_⟩
      have hnil : ∀ cut, Sound true (fun _ => True) []
          { m with reservedBlocks := m.reservedBlocks.drop cut } :=
        fun _ => hm.sound.relabel trivial rfl
      obtain ⟨hneed, hempty⟩ := allocLoop_error (hnil _) hloop
      -- Blocks are still needed, so the reserved ones are all gathered.
      have hcut : sliceIndex m.reservedBlocks (if m.reservedBlocks.isEmpty then (0 : Int)
          else min (m.reservedBlocks.length : Int) n) = m.reservedBlocks.length := by
        by_cases hres : m.reservedBlocks = []
        · rw [hres]
          rfl
        · rw [if_neg (by simpa using hres)] at hneed ⊢
          rw [sliceIndex, if_pos (by omega)]
          omega
      rw [hcut, List.take_length, List.drop_length] at hloop
      have hstart : Consistent C { m with reservedBlocks := [] }
          (m.reservedBlocks ++ ([] ++ out)) := hm.relabel rfl
      obtain ⟨got, issued, hgot, hissued, hlen⟩ := allocLoop_lost hstart hloop hu
      refine ⟨(allocLoop_frame hloop).2.reservedBlocks, hempty, got, issued, hgot, hlen, ?_⟩
      intro havail
      have hraises := allocLoop_raisesFirst (m := { m with reservedBlocks := [] }) havail hloop hissued
      exact hraises

/-- The blocks are where they were exactly when the loop had no block to take before it raised. -/
theorem Raised.sameOwners_iff (hm : Consistent C m (m.reservedBlocks ++ out))
    (h : Raised C S m m' out) :
    SameOwners C m m' ↔ m.reservedBlocks = [] ∧ m.numAvailBlocks = 0 ∧
      S.RaisesFirst C m.pageAllocator.1 := by
  obtain ⟨hreserved, hempty, got, issued, hgot, hlen, hissued⟩ := h
  have hused : ∀ b, Used C m' b ↔ b ∈ got ++ out := by
    have hgot' : Consistent C m' (m'.reservedBlocks ++ (got ++ out)) := by
      rw [hreserved]
      exact hgot
    exact hgot'.used_iff
  have hfree := freeIn_nonneg m.availPages
  have hpages := blockCount_nonneg C issued
  have hnone : blockCount C issued = 0 ↔ ∀ p ∈ issued, blockRange C p = [] := by
    rw [blockCount, Nat.cast_eq_zero, List.sum_eq_zero_iff]
    simp
  rw [hm.counter]
  constructor
  · intro hsame
    have hgotnil : got = [] := by
      apply List.eq_nil_iff_forall_not_mem.mpr
      intro b hb
      have hout := (hm.used_iff b).mp ((hsame.used b).mp ((hused b).mpr (List.mem_append_left _ hb)))
      exact (List.nodup_append.mp hgot.nodup).2.2 b hb b hout rfl
    rw [hgotnil, List.length_nil] at hlen
    have havail := avail_eq_empty hm (by omega)
    refine ⟨hsame.reserved.symm.trans hreserved, by omega, (hissued havail).mp ?_⟩
    exact hnone.mp (by omega)
  · rintro ⟨hres, hzero, hraises⟩
    have havail := avail_eq_empty hm hzero
    have hgotnil : got = [] := by
      have hblocks := hnone.mpr ((hissued havail).mpr hraises)
      rw [hres, List.length_nil] at hlen
      exact List.length_eq_zero_iff.mp (by omega)
    refine ⟨?_, hreserved.trans hres.symm, ?_, ?_⟩
    · rw [hgot.counter, hempty, hm.counter, hzero]
      rfl
    · rw [freeBlocks_eq_nil hgot hempty, freeBlocks_eq_nil hm havail]
      exact fun _ => Iff.rfl
    · intro b
      rw [hused, hm.used_iff, hgotnil, List.nil_append]

end KvCacheManager

namespace Session

open KvCacheManager

variable {C : KvCacheManagerConfig} {S : PageAllocatorApi σ}

/-- An `alloc` that fails leaves every block where it was exactly when it gives up before the loop, or
the loop finds no free and no reserved block and the allocator has no page with a whole one. -/
theorem failed_alloc_keeps_iff (C : KvCacheManagerConfig) (S : PageAllocatorApi σ) (s₀ : σ)
    (acts : List ManagerAct) (s : Session σ) (n : Int)
    (r : Except PyError (Option (List BlockId))) (m' : KvCacheManager (σ × List PageId))
    (hrun : run (step C S) (start s₀) acts = some s)
    (hu : Along (step C S) (IssuesOnce C S) (start s₀) acts)
    (halloc : alloc C S.logged n s.manager = some (r, m')) (hissued : m'.IssuedOnce)
    (hfail : ∀ ids, r ≠ .ok (some ids)) :
    SameOwners C s.manager m' ↔
      LimitRefused S.logged s.manager ∨
      availableSize C S.logged (serveLimit S.logged s.manager) < n ∨
      (s.manager.reservedBlocks = [] ∧ s.manager.numAvailBlocks = 0 ∧
        S.RaisesFirst C (serveLimit S.logged s.manager).pageAllocator.1) := by
  obtain ⟨lost, hsettled⟩ := (run_accounted hrun hu).settled
  have hc := hsettled.consistent
  have hwaits : 0 < S.logged.getResizeTarget s.manager.pageAllocator →
      s.manager.postInitDone = true := by
    intro hpos
    by_contra hdone
    unfold alloc at halloc
    rw [if_pos hpos, if_neg hdone] at halloc
    cases halloc
  rcases alloc_limit hwaits n with ⟨hrefused, hcall⟩ | ⟨hserve, target, hcall⟩
  · rw [hcall] at halloc
    cases halloc
    exact iff_of_true (.of_same rfl) (.inl hrefused)
  · rw [hcall] at halloc
    obtain ⟨ha, hf, hn, hr, hi⟩ := serveLimit_logged S s.manager
    have hm₁ : Consistent C { serveLimit S.logged s.manager with targetNumBlocks := target }
        ((serveLimit S.logged s.manager).reservedBlocks ++ (s.held ++ lost)) := by
      rw [hr]
      exact hc.relabel (Prod.ext ha (Prod.ext hf (Prod.ext hn hi)))
    have hsame : SameOwners C s.manager
        { serveLimit S.logged s.manager with targetNumBlocks := target } :=
      .of_same (Prod.ext ha (Prod.ext hf (Prod.ext hn (Prod.ext hr hi))))
    rcases allocBlocks_failure hm₁ halloc hfail hissued with ⟨hsize, rfl⟩ | ⟨hsize, hraised⟩
    · exact iff_of_true hsame (.inr (.inl hsize))
    · rw [hsame.trans_iff, hraised.sameOwners_iff hm₁]
      change (serveLimit S.logged s.manager).reservedBlocks = [] ∧
        (serveLimit S.logged s.manager).numAvailBlocks = 0 ∧ _ ↔ _
      rw [hr, hn]
      constructor
      · exact fun h => .inr (.inr h)
      · rintro (hrefused | hsmall | h)
        · exact absurd hrefused hserve
        · exact absurd hsmall hsize
        · exact h

/-- Four blocks are promised, of which one is reserved. -/
def reservedOne : Option (Session AllocatorProcess) :=
  run (step (parkingManager false) (parkingAllocator.api parkingDevice)) parkingSession
    [.postInit true, .tryToReserve 1]

theorem reservedOne_isSome : reservedOne.isSome := by decide +kernel

/-- Five blocks are refused before any is taken. -/
theorem failed_alloc_keeps_iff_refused : ∃ s m, reservedOne = some s ∧
    alloc (parkingManager false) (parkingAllocator.api parkingDevice).logged 5 s.manager =
      some (.ok none, m) ∧ SameOwners (parkingManager false) s.manager m := by
  have hrun : reservedOne = some (reservedOne.get reservedOne_isSome) := (Option.some_get _).symm
  obtain ⟨⟨r, m⟩, halloc⟩ := Option.isSome_iff_exists.mp
    (show (alloc (parkingManager false) (parkingAllocator.api parkingDevice).logged 5
      (reservedOne.get reservedOne_isSome).manager).isSome by decide +kernel)
  have hr : (alloc (parkingManager false) (parkingAllocator.api parkingDevice).logged 5
      (reservedOne.get reservedOne_isSome).manager).map
      (fun x => (x.1, decide x.2.IssuedOnce)) = some (.ok none, true) := by decide +kernel
  rw [halloc] at hr
  obtain ⟨rfl, hissued⟩ := Prod.mk.inj (Option.some.inj hr)
  have hsame := (failed_alloc_keeps_iff (parkingManager false)
    (parkingAllocator.api parkingDevice) _ _ _ 5 _ m hrun (by decide +kernel) halloc
    (of_decide_eq_true hissued) (by simp)).mpr (.inr (.inl (by decide +kernel)))
  exact ⟨_, m, hrun, halloc, hsame⟩

/-- Of four blocks the reserved one and two of pages are taken before the allocator raises, and none
of them is free or reserved afterwards. -/
theorem failed_alloc_loses_blocks : ∃ s, reservedOne = some s ∧
    s.held = [] ∧ s.manager.reservedBlocks = [0] ∧
    (alloc (parkingManager false) (parkingAllocator.api parkingDevice).logged 4 s.manager).map
      (fun x => (x.1, x.2.reservedBlocks, x.2.freeBlocks, x.2.issued)) =
      some (.error (.runtimeError "No free pages left"), [], [], [3, 2, 1, 0]) := by
  have hrun : reservedOne = some (reservedOne.get reservedOne_isSome) := (Option.some_get _).symm
  exact ⟨_, hrun, by decide +kernel, by decide +kernel, by decide +kernel⟩

end Session

end GpuSharing.Kvcached
