import GpuSharing.Lib.Transition
import GpuSharing.Kvcached.AllocatorCalls
import GpuSharing.Kvcached.ManagerFree

namespace GpuSharing.Kvcached

open Transition

namespace KvCacheManager

variable {σ : Type} {C : KvCacheManagerConfig} {S : PageAllocatorApi σ}
  {m m' : KvCacheManager (σ × List PageId)} {out : List BlockId}

/-- A manager between two calls, when its reserved blocks and `out` are outstanding. -/
structure Settled (C : KvCacheManagerConfig) (m : KvCacheManager (σ × List PageId))
    (out : List BlockId) : Prop where
  consistent : Consistent C m (m.reservedBlocks ++ out)
  known : m.ShrinkKnown

/-- Calls that change the allocator or the deferred shrink only. -/
theorem Settled.relabel (h : Settled C m out) (hk : m'.ShrinkKnown)
    (hsame : (m'.availPages, m'.fullPages, m'.numAvailBlocks, m'.reservedBlocks, m'.issued) =
      (m.availPages, m.fullPages, m.numAvailBlocks, m.reservedBlocks, m.issued)) :
    Settled C m' out := by
  simp only [Prod.mk.injEq] at hsame
  obtain ⟨ha, hf, hn, hr, hi⟩ := hsame
  refine ⟨?_, hk⟩
  rw [hr]
  exact h.consistent.relabel (by rw [ha, hf, hn, hi])

theorem startPreallocThread_settled (h : Settled C m out) :
    Settled C (startPreallocThread S.logged m) out := by
  unfold startPreallocThread
  split_ifs
  · exact h
  · exact h.relabel h.known rfl

theorem startPreallocThread_frame : (startPreallocThread S.logged m).issued = m.issued ∧
    SameInit m (startPreallocThread S.logged m) := by
  unfold startPreallocThread
  split_ifs <;> exact ⟨rfl, rfl, rfl⟩

theorem resize_settled {n : Int} {r : Except PyError Bool} (hm : Settled C m out)
    (h : resize C S.logged n m = (r, m')) :
    Settled C m' out ∧ SameInit m m' := by
  unfold resize at h
  by_cases hn : n ≤ 0
  · rw [if_pos hn] at h
    cases h
    exact ⟨hm, rfl, rfl⟩
  · rw [if_neg hn] at h
    simp only [PageAllocatorApi.logged] at h
    split at h
    case h_1 s hs =>
      obtain ⟨_, rfl⟩ := Prod.mk.inj hs
      cases h
      split_ifs
      · exact ⟨hm.relabel (by simp [ShrinkKnown]) rfl, rfl, rfl⟩
      · exact ⟨hm.relabel hm.known rfl, rfl, rfl⟩
    case h_2 s hs =>
      obtain ⟨_, rfl⟩ := Prod.mk.inj hs
      by_cases hnil : m.reservedBlocks = []
      · rw [if_neg (not_not.mpr hnil), freeReserved_nil] at h
        · cases h
          exact ⟨hm.relabel (by simp [ShrinkKnown]) rfl, rfl, rfl⟩
        · exact hnil
      · rw [if_pos hnil] at h
        cases h
        exact ⟨hm.relabel hm.known rfl, rfl, rfl⟩

/-- What `_alloc` does: the blocks it returns join the outstanding ones, and so do the blocks it
had gathered when the allocator raised. -/
def Hands (C : KvCacheManagerConfig) (m m' : KvCacheManager (σ × List PageId))
    (out : List BlockId) (r : Except PyError (Option (List BlockId))) : Prop :=
  SameInit m m' ∧
    ∃ got, Settled C m' (got ++ out) ∧ ∀ ids, r = .ok ids → got = ids.getD []

theorem allocBlocks_settled {n : Int} {r : Except PyError (Option (List BlockId))}
    (hm : Settled C m out) (h : allocBlocks C S.logged n m = some (r, m')) (hu : m'.IssuedOnce) :
    Hands C m m' out r := by
  unfold allocBlocks at h
  by_cases hsize : availableSize C S.logged m < n
  · rw [if_pos hsize] at h
    cases h
    refine ⟨⟨rfl, rfl⟩, [], hm, ?_⟩
    intro ids hids
    cases hids
    rfl
  · rw [if_neg hsize] at h
    dsimp only at h
    generalize (if m.reservedBlocks.isEmpty then (0 : Int)
      else min (m.reservedBlocks.length : Int) n) = k at h
    generalize sliceIndex m.reservedBlocks k = cut at h
    have hstart : Consistent C { m with reservedBlocks := m.reservedBlocks.drop cut }
        (m.reservedBlocks.take cut ++ (m.reservedBlocks.drop cut ++ out)) := by
      have hc := hm.consistent
      rw [← List.take_append_drop cut m.reservedBlocks, List.append_assoc] at hc
      exact hc.relabel rfl
    have hend : ∀ {r₁ : Except PyError (List BlockId)} {fuel need m₁},
        allocLoop C S.logged fuel need (m.reservedBlocks.take cut)
          { m with reservedBlocks := m.reservedBlocks.drop cut } = some (r₁, m₁) →
        m₁.IssuedOnce → SameInit m m₁ ∧
          ∃ got, Settled C m₁ (got ++ out) ∧ ∀ ids, r₁ = .ok ids → got = ids := by
      intro r₁ fuel need m₁ hloop hu₁
      obtain ⟨got, hgot, hids⟩ := allocLoop_spec hstart hloop hu₁
      obtain ⟨-, hcalls⟩ := allocLoop_frame hloop
      refine ⟨⟨hcalls.nullBlock, hcalls.postInitDone⟩, got, ⟨?_, (hcalls.afterFree hm.known).known⟩,
        fun ids h => (hids ids h).1⟩
      rw [hcalls.reservedBlocks]
      exact hgot.perm (List.perm_append_comm_assoc _ _ _)
    split at h
    case h_1 => cases h
    case h_2 e m₁ hloop =>
      cases h
      obtain ⟨hinit, got, hgot, -⟩ := hend hloop hu
      refine ⟨hinit, got, hgot, ?_⟩
      intro ids hids
      cases hids
    case h_3 ret m₁ hloop =>
      cases h
      by_cases hdefer : C.deferPrealloc = true
      · rw [if_pos hdefer] at hu ⊢
        have hu₁ : m₁.IssuedOnce := by
          rwa [IssuedOnce, startPreallocThread_frame.1] at hu
        obtain ⟨hinit, got, hgot, hids⟩ := hend hloop hu₁
        refine ⟨hinit.trans startPreallocThread_frame.2, got, startPreallocThread_settled hgot, ?_⟩
        intro ids heq
        cases heq
        exact hids ret rfl
      · rw [if_neg hdefer] at hu ⊢
        obtain ⟨hinit, got, hgot, hids⟩ := hend hloop hu
        refine ⟨hinit, got, hgot, ?_⟩
        intro ids heq
        cases heq
        exact hids ret rfl

/-- `alloc` takes blocks at once, or after a resize to the limit set unless that raises. -/
theorem alloc_cases {S : PageAllocatorApi σ} {m m' : KvCacheManager σ} {n : Int}
    {r : Except PyError (Option (List BlockId))} (h : alloc C S n m = some (r, m')) :
    (¬ 0 < S.getResizeTarget m.pageAllocator ∧ allocBlocks C S n m = some (r, m')) ∨
      0 < S.getResizeTarget m.pageAllocator ∧ m.postInitDone = true ∧
        ((∃ e, resize C S (S.getResizeTarget m.pageAllocator) m = (.error e, m') ∧
            r = .error e) ∨
          ∃ ok m₁, resize C S (S.getResizeTarget m.pageAllocator) m = (.ok ok, m₁) ∧
            allocBlocks C S n m₁ = some (r, m')) := by
  unfold alloc at h
  dsimp only at h
  split at h
  case isFalse htarget => exact .inl ⟨htarget, h⟩
  case isTrue htarget =>
    split at h
    case isFalse => cases h
    case isTrue hdone =>
      refine .inr ⟨htarget, hdone, ?_⟩
      split at h
      case h_1 e m₁ hresize =>
        cases h
        exact .inl ⟨e, hresize, rfl⟩
      case h_2 ok m₁ hresize => exact .inr ⟨ok, m₁, hresize, h⟩

/-- `try_to_reserve` adds what `alloc` returns to the reserved blocks. -/
theorem tryToReserve_cases {S : PageAllocatorApi σ} {m m' : KvCacheManager σ} {n : Int}
    {r : Except PyError Bool} (h : tryToReserve C S n m = some (r, m')) :
    (availableSize C S m < n ∧ r = .ok false ∧ m' = m) ∨
      ¬ availableSize C S m < n ∧ ∃ r₁ m₁, alloc C S n m = some (r₁, m₁) ∧
        r = r₁.map Option.isSome ∧ (m' = m₁ ∨ ∃ ids, r₁ = .ok (some ids) ∧
          m' = { m₁ with reservedBlocks := m₁.reservedBlocks ++ ids }) := by
  unfold tryToReserve at h
  by_cases hsize : availableSize C S m < n
  · rw [if_pos hsize] at h
    cases h
    exact .inl ⟨hsize, rfl, rfl⟩
  · rw [if_neg hsize] at h
    refine .inr ⟨hsize, ?_⟩
    split at h
    case h_1 => cases h
    case h_2 e m₁ halloc =>
      cases h
      exact ⟨_, _, halloc, rfl, .inl rfl⟩
    case h_3 m₁ halloc =>
      cases h
      exact ⟨_, _, halloc, rfl, .inl rfl⟩
    case h_4 ids m₁ halloc =>
      cases h
      exact ⟨_, m₁, halloc, rfl, .inr ⟨ids, rfl, rfl⟩⟩

theorem alloc_settled {n : Int} {r : Except PyError (Option (List BlockId))}
    (hm : Settled C m out) (h : alloc C S.logged n m = some (r, m')) (hu : m'.IssuedOnce) :
    Hands C m m' out r := by
  rcases alloc_cases h with ⟨-, h⟩ | ⟨-, -, ⟨e, hresize, rfl⟩ | ⟨ok, m₁, hresize, h⟩⟩
  · exact allocBlocks_settled hm h hu
  · obtain ⟨hm', hinit⟩ := resize_settled hm hresize
    refine ⟨hinit, [], hm', ?_⟩
    intro ids hids
    cases hids
  · obtain ⟨hm₁, hinit⟩ := resize_settled hm hresize
    obtain ⟨hinit', hgot⟩ := allocBlocks_settled hm₁ h hu
    exact ⟨hinit.trans hinit', hgot⟩

theorem tryToReserve_settled {n : Int} {r : Except PyError Bool}
    (hm : Settled C m out) (h : tryToReserve C S.logged n m = some (r, m')) (hu : m'.IssuedOnce) :
    SameInit m m' ∧ ∃ lost, Settled C m' (lost ++ out) := by
  rcases tryToReserve_cases h with ⟨-, -, rfl⟩ | ⟨-, r₁, m₁, halloc, -, rfl | ⟨ids, rfl, rfl⟩⟩
  · exact ⟨⟨rfl, rfl⟩, [], hm⟩
  · obtain ⟨hinit, got, hgot, -⟩ := alloc_settled hm halloc hu
    exact ⟨hinit, got, hgot⟩
  · obtain ⟨hinit, got, hgot, hids⟩ := alloc_settled hm halloc hu
    obtain rfl : got = ids := hids _ rfl
    refine ⟨⟨hinit.1, hinit.2⟩, [], ⟨?_, hgot.known⟩⟩
    have hc := hgot.consistent
    rw [← List.append_assoc] at hc
    exact hc.relabel rfl

/-- `_reserve_null_block` keeps what `alloc` returned, the right block or not. -/
theorem reserveNull_cases {S : PageAllocatorApi σ} {m m' : KvCacheManager σ}
    {r : Except PyError Unit} (h : reserveNull C S m = some (r, m')) :
    (C.reserveNullBlock = false ∧ r = .ok () ∧ m' = { m with nullBlock := none }) ∨
      C.reserveNullBlock = true ∧
        ((∃ e, alloc C S 1 m = some (.error e, m') ∧ r = .error e) ∨
          ∃ ids m₁, alloc C S 1 m = some (.ok ids, m₁) ∧ m' = { m₁ with nullBlock := ids } ∧
            (r = .ok () ↔ ids = some [0])) := by
  unfold reserveNull at h
  by_cases hreserve : C.reserveNullBlock = true
  · rw [if_pos hreserve] at h
    refine .inr ⟨hreserve, ?_⟩
    split at h
    case h_1 => cases h
    case h_2 e m₁ halloc =>
      cases h
      exact .inl ⟨e, halloc, rfl⟩
    case h_3 ids m₁ halloc =>
      split_ifs at h with hids <;> cases h
      · exact .inr ⟨ids, m₁, halloc, rfl, iff_of_true rfl hids⟩
      · exact .inr ⟨ids, m₁, halloc, rfl, iff_of_false nofun hids⟩
  · rw [if_neg hreserve] at h
    cases h
    exact .inl ⟨by simpa using hreserve, rfl, rfl⟩

/-- `_post_init` is done, also when it has raised or timed out. -/
theorem postInit_cases {S : PageAllocatorApi σ} {m m' : KvCacheManager σ} {created : Bool}
    {r : Except PyError Unit} (h : postInit C S created m = some (r, m')) :
    (created = false ∧ r ≠ .ok () ∧ m' = { m with postInitDone := true }) ∨
      created = true ∧ ∃ m₁, reserveNull C S m = some (r, m₁) ∧
        ((C.deferPrealloc = true ∨ r ≠ .ok ()) ∧ m' = { m₁ with postInitDone := true } ∨
          C.deferPrealloc = false ∧ r = .ok () ∧
            m' = { startPreallocThread S m₁ with postInitDone := true }) := by
  unfold postInit at h
  by_cases hcreated : created = true
  · rw [if_pos hcreated] at h
    refine .inr ⟨hcreated, ?_⟩
    split at h
    case h_1 => cases h
    case h_2 e m₁ hreserve =>
      cases h
      exact ⟨m₁, hreserve, .inl ⟨.inr nofun, rfl⟩⟩
    case h_3 m₁ hreserve =>
      cases h
      refine ⟨m₁, hreserve, ?_⟩
      split_ifs with hdefer
      · exact .inl ⟨.inl hdefer, rfl⟩
      · exact .inr ⟨by simpa using hdefer, rfl, rfl⟩
  · rw [if_neg hcreated] at h
    cases h
    exact .inl ⟨by simpa using hcreated, nofun, rfl⟩

/-- The null block is outstanding afterwards, and so are blocks gathered before an error. -/
theorem reserveNull_settled {r : Except PyError Unit} (hm : Settled C m out)
    (hnull : m.nullBlock = none) (h : reserveNull C S.logged m = some (r, m'))
    (hu : m'.IssuedOnce) : ∃ lost, Settled C m' (m'.nullBlock.getD [] ++ (lost ++ out)) := by
  rcases reserveNull_cases h with
    ⟨-, -, rfl⟩ | ⟨-, ⟨e, halloc, -⟩ | ⟨ids, m₁, halloc, rfl, -⟩⟩
  · exact ⟨[], hm.relabel hm.known rfl⟩
  · obtain ⟨hkeep, got, hgot, -⟩ := alloc_settled hm halloc hu
    rw [hkeep.nullBlock, hnull]
    exact ⟨got, hgot⟩
  · obtain ⟨-, got, hgot, hids⟩ := alloc_settled hm halloc hu
    rw [← hids ids rfl]
    exact ⟨[], hgot.relabel hgot.known rfl⟩

theorem postInit_settled {created : Bool} {r : Except PyError Unit} (hm : Settled C m out)
    (hnull : m.nullBlock = none) (h : postInit C S.logged created m = some (r, m'))
    (hu : m'.IssuedOnce) : m'.postInitDone = true ∧
      ∃ lost, Settled C m' (m'.nullBlock.getD [] ++ (lost ++ out)) := by
  rcases postInit_cases h with ⟨-, -, rfl⟩ | ⟨-, m₁, hreserve, ⟨-, rfl⟩ | ⟨-, -, rfl⟩⟩
  · rw [hnull]
    exact ⟨rfl, [], hm.relabel hm.known rfl⟩
  · obtain ⟨lost, hlost⟩ := reserveNull_settled hm hnull hreserve hu
    exact ⟨rfl, lost, hlost.relabel hlost.known rfl⟩
  · have hu₁ : m₁.IssuedOnce := by
      have hstarted : (startPreallocThread S.logged m₁).IssuedOnce := hu
      rwa [IssuedOnce, startPreallocThread_frame.1] at hstarted
    obtain ⟨lost, hlost⟩ := reserveNull_settled hm hnull hreserve hu₁
    have hstart := startPreallocThread_settled (S := S) hlost
    rw [← startPreallocThread_frame.2.nullBlock] at hstart
    exact ⟨rfl, lost, hstart.relabel hstart.known rfl⟩

end KvCacheManager

/-- A manager and the blocks it has handed out, its null block included, that are not freed. -/
structure Session (σ : Type) where
  manager : KvCacheManager (σ × List PageId)
  held : List BlockId

/-- The calls on a manager; `background` is what happens in the allocator between two of them. -/
inductive ManagerAct
  | postInit (created : Bool)
  | alloc (needSize : Int)
  | free (ids : List BlockId)
  | tryToReserve (needSize : Int)
  | freeReserved
  | resize (newMemSize : Int)
  | trim
  | background
  deriving DecidableEq, Repr

namespace Session

open KvCacheManager

variable {σ : Type} (C : KvCacheManagerConfig) (S : PageAllocatorApi σ)

def start (s : σ) : Session σ := ⟨KvCacheManager.init (s, []), []⟩

/-- The calls wait for `_post_init`, which runs once; `free` gets blocks that are held only. -/
def step (s : Session σ) : ManagerAct → Option (Session σ)
  | .postInit created =>
    if s.manager.postInitDone then none
    else match postInit C S.logged created s.manager with
      | some (_, m) => some ⟨m, m.nullBlock.getD []⟩
      | none => none
  | .background =>
    some { s with manager := { s.manager with
      pageAllocator := S.logged.background s.manager.pageAllocator } }
  | act =>
    if s.manager.postInitDone then
      match act with
      | .alloc n => match alloc C S.logged n s.manager with
        | some (.ok ids, m) => some ⟨m, ids.getD [] ++ s.held⟩
        | some (.error _, m) => some { s with manager := m }
        | none => none
      | .free ids =>
        if ids.Subperm s.held then
          some ⟨(free C S.logged ids s.manager).2, s.held.diff ids⟩
        else none
      | .tryToReserve n => match tryToReserve C S.logged n s.manager with
        | some (_, m) => some { s with manager := m }
        | none => none
      | .freeReserved => some { s with manager := (freeReserved C S.logged s.manager).2 }
      | .resize n => some { s with manager := (resize C S.logged n s.manager).2 }
      | .trim => some { s with manager := trim S.logged s.manager }
      | _ => none
    else none

/-- Everything a step can do, call by call. -/
inductive Outcome (s : Session σ) : ManagerAct → Session σ → Prop
  | postInit (created : Bool) (r : Except PyError Unit) (m : KvCacheManager (σ × List PageId))
      (hdone : s.manager.postInitDone = false)
      (hcall : postInit C S.logged created s.manager = some (r, m)) :
      Outcome s (.postInit created) ⟨m, m.nullBlock.getD []⟩
  | background : Outcome s .background { s with manager := { s.manager with
      pageAllocator := S.logged.background s.manager.pageAllocator } }
  | allocs (n : Int) (ids : Option (List BlockId)) (m : KvCacheManager (σ × List PageId))
      (hdone : s.manager.postInitDone = true)
      (hcall : alloc C S.logged n s.manager = some (.ok ids, m)) :
      Outcome s (.alloc n) ⟨m, ids.getD [] ++ s.held⟩
  | allocRaises (n : Int) (e : PyError) (m : KvCacheManager (σ × List PageId))
      (hdone : s.manager.postInitDone = true)
      (hcall : alloc C S.logged n s.manager = some (.error e, m)) :
      Outcome s (.alloc n) { s with manager := m }
  | free (ids : List BlockId) (hdone : s.manager.postInitDone = true)
      (hheld : ids.Subperm s.held) :
      Outcome s (.free ids) ⟨(free C S.logged ids s.manager).2, s.held.diff ids⟩
  | tryToReserve (n : Int) (r : Except PyError Bool) (m : KvCacheManager (σ × List PageId))
      (hdone : s.manager.postInitDone = true)
      (hcall : tryToReserve C S.logged n s.manager = some (r, m)) :
      Outcome s (.tryToReserve n) { s with manager := m }
  | freeReserved (hdone : s.manager.postInitDone = true) :
      Outcome s .freeReserved { s with manager := (freeReserved C S.logged s.manager).2 }
  | resize (n : Int) (hdone : s.manager.postInitDone = true) :
      Outcome s (.resize n) { s with manager := (resize C S.logged n s.manager).2 }
  | trim (hdone : s.manager.postInitDone = true) :
      Outcome s .trim { s with manager := trim S.logged s.manager }

variable {C S} in
theorem step_outcome {s t : Session σ} {act : ManagerAct} (h : step C S s act = some t) :
    Outcome C S s act t := by
  cases act with
  | postInit created =>
    simp only [step] at h
    split_ifs at h with hdone
    split at h
    case h_1 r m hcall =>
      cases h
      exact .postInit created r m (by simpa using hdone) hcall
    case h_2 => cases h
  | background =>
    cases h
    exact .background
  | alloc n =>
    simp only [step] at h
    split_ifs at h with hdone
    split at h
    case h_1 ids m hcall =>
      cases h
      exact .allocs n ids m hdone hcall
    case h_2 e m hcall =>
      cases h
      exact .allocRaises n e m hdone hcall
    case h_3 => cases h
  | free ids =>
    simp only [step] at h
    split_ifs at h with hdone hheld
    cases h
    exact .free ids hdone hheld
  | tryToReserve n =>
    simp only [step] at h
    split_ifs at h with hdone
    split at h
    case h_1 r m hcall =>
      cases h
      exact .tryToReserve n r m hdone hcall
    case h_2 => cases h
  | freeReserved =>
    simp only [step] at h
    split_ifs at h with hdone
    cases h
    exact .freeReserved hdone
  | resize n =>
    simp only [step] at h
    split_ifs at h with hdone
    cases h
    exact .resize n hdone
  | trim =>
    simp only [step] at h
    split_ifs at h with hdone
    cases h
    exact .trim hdone

/-- The page ids issued by the end of the step are unique. -/
def IssuesOnce (s : Session σ) (act : ManagerAct) : Prop :=
  match step C S s act with
  | some t => t.manager.IssuedOnce
  | none => True

end Session

end GpuSharing.Kvcached
