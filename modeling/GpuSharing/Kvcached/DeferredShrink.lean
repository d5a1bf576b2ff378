import GpuSharing.Kvcached.LimitHistory
import GpuSharing.Kvcached.ResizeAnswer

namespace GpuSharing.Kvcached

open Transition

namespace KvCacheManager

variable {c : PageAllocatorConfig} {C : KvCacheManagerConfig} {memGetInfo : System → Nat × Nat}
  {m m' m₁ : KvCacheManager (AllocatorProcess × List PageId)} {target : Int}

/-- The deferred shrink and the page count are as they were. -/
structure SameShrink (m m' : KvCacheManager (AllocatorProcess × List PageId)) : Prop where
  inShrink : m'.inShrink = m.inShrink
  target : m'.targetNumBlocks = m.targetNumBlocks
  total : m'.numTotalPages = m.numTotalPages

theorem SameShrink.refl (m : KvCacheManager (AllocatorProcess × List PageId)) : SameShrink m m :=
  ⟨rfl, rfl, rfl⟩

theorem SameShrink.trans (h : SameShrink m m₁) (h' : SameShrink m₁ m') : SameShrink m m' :=
  ⟨h'.inShrink.trans h.inShrink, h'.target.trans h.target, h'.total.trans h.total⟩

theorem startPreallocThread_shrink (hm : Linked c true m.pageAllocator) :
    SameShrink m (startPreallocThread (c.api memGetInfo).logged m) := by
  unfold startPreallocThread
  split_ifs
  · exact .refl m
  · exact ⟨rfl, rfl, AllocatorProcess.startPreallocThread_total hm.1⟩

theorem allocBlocks_shrink {n : Int} {r : Except PyError (Option (List BlockId))}
    (hm : Linked c true m.pageAllocator)
    (h : allocBlocks C (c.api memGetInfo).logged n m = some (r, m')) : SameShrink m m' := by
  have htotal := allocBlocks_total hm h
  have hshrink : m'.inShrink = m.inShrink ∧ m'.targetNumBlocks = m.targetNumBlocks := by
    unfold allocBlocks at h
    by_cases hsize : availableSize C (c.api memGetInfo).logged m < n
    · rw [if_pos hsize] at h
      cases h
      exact ⟨rfl, rfl⟩
    · rw [if_neg hsize] at h
      dsimp only at h
      split at h
      case h_1 => cases h
      case h_2 e m₁ hloop =>
        cases h
        exact ⟨(allocLoop_frame hloop).2.inShrink, (allocLoop_frame hloop).2.targetNumBlocks⟩
      case h_3 ret m₁ hloop =>
        cases h
        have hcalls := (allocLoop_frame hloop).2
        unfold startPreallocThread
        split_ifs <;> exact ⟨hcalls.inShrink, hcalls.targetNumBlocks⟩
  exact ⟨hshrink.1, hshrink.2, htotal⟩

theorem alloc_shrink {n : Int} {r : Except PyError (Option (List BlockId))}
    (hm : Linked c true m.pageAllocator) (hdone : m.postInitDone = false)
    (h : alloc C (c.api memGetInfo).logged n m = some (r, m')) : SameShrink m m' := by
  rcases alloc_cases h with ⟨-, h⟩ | ⟨-, hwaited, -⟩
  · exact allocBlocks_shrink hm h
  · rw [hdone] at hwaited
    cases hwaited

/-- `_post_init` serves no limit: its `alloc` would wait for it. -/
theorem reserveNull_shrink {r : Except PyError Unit} (hm : Linked c true m.pageAllocator)
    (hdone : m.postInitDone = false)
    (h : reserveNull C (c.api memGetInfo).logged m = some (r, m')) : SameShrink m m' := by
  rcases reserveNull_cases h with
    ⟨-, -, rfl⟩ | ⟨-, ⟨e, halloc, -⟩ | ⟨ids, m₁, halloc, rfl, -⟩⟩
  · exact ⟨rfl, rfl, rfl⟩
  · exact alloc_shrink hm hdone halloc
  · exact (alloc_shrink hm hdone halloc).trans ⟨rfl, rfl, rfl⟩

theorem postInit_shrink {created : Bool} {r : Except PyError Unit}
    (hm : Sound true (Targeted c target) [] m) (hdone : m.postInitDone = false)
    (h : postInit C (c.api memGetInfo).logged created m = some (r, m')) : SameShrink m m' := by
  rcases postInit_cases h with ⟨-, -, rfl⟩ | ⟨-, m₁, hreserve, hpost⟩
  · exact ⟨rfl, rfl, rfl⟩
  · have hsame := reserveNull_shrink hm.source.1 hdone hreserve
    obtain ⟨-, rfl⟩ | ⟨-, -, rfl⟩ := hpost
    · exact hsame.trans ⟨rfl, rfl, rfl⟩
    · have hm₁ := reserveNull_sound (Targeted.keeps c target memGetInfo) hm hreserve
      exact (hsame.trans (startPreallocThread_shrink hm₁.source.1)).trans ⟨rfl, rfl, rfl⟩

theorem freeGroups_shrink {groups : List (PageId × List BlockId)} {ps : List PageId}
    {r : Except PyError (List PageId)} (h : freeGroups C groups ps m = (r, m')) :
    SameShrink m m' ∧ m'.pageAllocator = m.pageAllocator := by
  obtain ⟨n, avail, full, hrun⟩ := freeGroups_frame C groups ps m
  rw [h] at hrun
  obtain rfl : m' = _ := hrun
  exact ⟨⟨rfl, rfl, rfl⟩, rfl⟩

/-- Nothing but the retry in `free` touches a deferred shrink. -/
theorem putBack_shrink {ids : List BlockId} (hm : Linked c true m.pageAllocator)
    (h : putBack C (c.api memGetInfo).logged ids m = some m') : SameShrink m m' := by
  obtain ⟨ps, m₁, hrun, rfl⟩ := putBack_some h
  obtain ⟨hsame, hpa⟩ := freeGroups_shrink hrun
  rw [← hpa] at hm
  split_ifs
  · exact hsame
  · refine hsame.trans ⟨rfl, rfl, ?_⟩
    exact AllocatorProcess.freePages_total hm.1 ps

section

variable {σ : Type} (C : KvCacheManagerConfig) (S : PageAllocatorApi σ)

/-- The size a shrink is deferred for after a resize to `n`, when it was `size` before. -/
def deferred (n size : Int) (m : KvCacheManager σ) : Int :=
  match (resize C S n m).1 with
  | .ok false => n
  | _ => size

/-- The same for `_alloc`, which serves a limit first. -/
def limitDeferred (size : Int) (m : KvCacheManager σ) : Int :=
  if 0 < S.getResizeTarget m.pageAllocator then
    deferred C S (S.getResizeTarget m.pageAllocator) size m
  else size

/-- `free` comes to a deferred shrink with few enough blocks left. -/
structure Retries (m : KvCacheManager σ) (blocks : Int) : Prop where
  inShrink : m.inShrink = true
  target : m.targetNumBlocks = some blocks
  few : getNumAllocedBlocks C m ≤ blocks

end

/-- A shrink is deferred for `size`, and the pages are still more than that. -/
def Pending (C : KvCacheManagerConfig) (c : PageAllocatorConfig) (size : Int)
    (m : KvCacheManager (AllocatorProcess × List PageId)) : Prop :=
  m.inShrink = true →
    m.targetNumBlocks = some (size / C.blockMemSize) ∧ size.tdiv c.pageSize < m.numTotalPages

variable {size : Int}

theorem SameShrink.pending (h : SameShrink m m') (hp : Pending C c size m) :
    Pending C c size m' := by
  intro hq
  rw [h.target, h.total]
  exact hp (h.inShrink ▸ hq)

theorem resize_pending {n : Int} {r : Except PyError Bool} (hm : Linked c true m.pageAllocator)
    (hp : Pending C c size m) (h : resize C (c.api memGetInfo).logged n m = (r, m')) :
    Pending C c (deferred C (c.api memGetInfo).logged n size m) m' := by
  have hfits := AllocatorProcess.resize_fits hm.1 n
  unfold deferred
  rw [h]
  unfold resize at h
  by_cases hn : n ≤ 0
  · rw [if_pos hn] at h
    cases h
    exact hp
  · rw [if_neg hn] at h
    split at h
    case h_1 s hcall =>
      cases h
      split_ifs with hq
      · simp [Pending]
      · intro hq'
        exact absurd hq' hq
    case h_2 s hcall =>
      obtain ⟨hok, rfl⟩ := Prod.mk.inj hcall
      rcases hfits with ⟨-, htrue, -⟩ | ⟨-, -, htotal, hlt⟩
      · exact absurd (htrue.symm.trans hok) (by simp)
      · by_cases hnil : m.reservedBlocks = []
        · rw [if_neg (not_not.mpr hnil), freeReserved_nil] at h
          · cases h
            intro _
            exact ⟨rfl, hlt.trans_eq htotal.symm⟩
          · exact hnil
        · rw [if_pos hnil] at h
          cases h
          have hsame : SameShrink m { m with
              pageAllocator := ((c.api memGetInfo).logged.resize n m.pageAllocator).2 } :=
            ⟨rfl, rfl, htotal⟩
          exact hsame.pending hp

theorem alloc_pending {n : Int} {r : Except PyError (Option (List BlockId))}
    (hm : Sound true (Targeted c target) [] m) (hp : Pending C c size m)
    (h : alloc C (c.api memGetInfo).logged n m = some (r, m')) :
    Pending C c (limitDeferred C (c.api memGetInfo).logged size m) m' := by
  unfold limitDeferred
  rcases alloc_cases h with ⟨htarget, h⟩ | ⟨htarget, -, ⟨e, hresize, -⟩ | ⟨ok, m₁, hresize, h⟩⟩
  · rw [if_neg htarget]
    exact (allocBlocks_shrink hm.source.1 h).pending hp
  · rw [if_pos htarget]
    exact resize_pending hm.source.1 hp hresize
  · rw [if_pos htarget]
    have hm₁ := resize_sound (Targeted.keeps c target memGetInfo) hm hresize
    exact (allocBlocks_shrink hm₁.source.1 h).pending (resize_pending hm.source.1 hp hresize)

theorem tryToReserve_pending {n : Int} {r : Except PyError Bool}
    (hm : Sound true (Targeted c target) [] m) (hp : Pending C c size m)
    (h : tryToReserve C (c.api memGetInfo).logged n m = some (r, m')) :
    Pending C c (if availableSize C (c.api memGetInfo).logged m < n then size
      else limitDeferred C (c.api memGetInfo).logged size m) m' := by
  rcases tryToReserve_cases h with ⟨hsize, -, rfl⟩ | ⟨hsize, r₁, m₁, halloc, -, hreserved⟩
  · rw [if_pos hsize]
    exact hp
  · rw [if_neg hsize]
    have hp₁ := alloc_pending hm hp halloc
    obtain rfl | ⟨ids, -, rfl⟩ := hreserved
    · exact hp₁
    · have hsame : SameShrink m₁ { m₁ with reservedBlocks := m₁.reservedBlocks ++ ids } :=
        ⟨rfl, rfl, rfl⟩
      exact hsame.pending hp₁

/-- What `free` does to a deferred shrink: it clears it after a retry, whatever that answers, or it
leaves it alone. -/
theorem free_shrink (C : KvCacheManagerConfig) (memGetInfo : System → Nat × Nat)
    (hm : Sound true (Targeted c target) [] m) (ids : List BlockId) :
    (∃ m₁ blocks, putBack C (c.api memGetInfo).logged ids m = some m₁ ∧ m₁.Retries C blocks ∧
      SameShrink m m₁ ∧ m₁.pageAllocator.1.Idle c true ∧
      (free C (c.api memGetInfo).logged ids m).2.inShrink = false ∧
      (free C (c.api memGetInfo).logged ids m).2.numTotalPages =
        (AllocatorProcess.resize c (blocks * C.blockMemSize)
          m₁.pageAllocator.1).2.system.pa.numTotalPages) ∨
    SameShrink m (free C (c.api memGetInfo).logged ids m).2 ∧
      ∀ m₁ blocks, putBack C (c.api memGetInfo).logged ids m = some m₁ → ¬m₁.Retries C blocks := by
  rcases free_putBack C (c.api memGetInfo).logged ids m with
    ⟨m₁, hback, hfree⟩ | ⟨hnone, hsame | ⟨e, hrun⟩⟩
  · have hshrink := putBack_shrink hm.source.1 hback
    have hm₁ := putBack_sound (Targeted.keeps c target memGetInfo) hm hback
    rw [hfree, hback]
    unfold retryShrink
    by_cases hq : m₁.inShrink = true
    · rw [if_pos hq]
      cases htarget : m₁.targetNumBlocks with
      | none =>
        refine .inr ⟨hshrink, ?_⟩
        rintro m₂ blocks ⟨⟩ hr
        rw [hr.target] at htarget
        cases htarget
      | some blocks =>
        dsimp only
        split_ifs with hfew
        · exact .inl ⟨m₁, blocks, rfl, ⟨hq, htarget, hfew⟩, hshrink, hm₁.source.1.1, rfl, rfl⟩
        · refine .inr ⟨hshrink, ?_⟩
          rintro m₂ blocks' ⟨⟩ hr
          rw [hr.target] at htarget
          cases htarget
          exact hfew hr.few
    · rw [if_neg hq]
      refine .inr ⟨hshrink, ?_⟩
      rintro m₂ blocks ⟨⟩ hr
      exact hq hr.inShrink
  · rw [hsame, hnone]
    exact .inr ⟨.refl m, by simp⟩
  · rw [hnone]
    exact .inr ⟨(freeGroups_shrink hrun).1, by simp⟩

theorem free_pending (hm : Sound true (Targeted c target) [] m) (hp : Pending C c size m)
    (ids : List BlockId) : Pending C c size (free C (c.api memGetInfo).logged ids m).2 := by
  rcases free_shrink C memGetInfo hm ids with ⟨m₁, blocks, -, -, -, -, hq, -⟩ | ⟨hsame, -⟩
  · intro hq'
    exact absurd (hq.symm.trans hq') (by simp)
  · exact hsame.pending hp

/-- A shrink that `free` clears has reached its size exactly when the pages fit at the retry, and the
target in blocks is as many pages. -/
theorem free_reaches_iff (memGetInfo : System → Nat × Nat)
    (hm : Sound true (Targeted c target) [] m) (hp : Pending C c size m) (ids : List BlockId) :
    (m.inShrink = true → (free C (c.api memGetInfo).logged ids m).2.inShrink = false →
      (free C (c.api memGetInfo).logged ids m).2.numTotalPages = size.tdiv c.pageSize) ↔
    ∀ m₁ blocks, putBack C (c.api memGetInfo).logged ids m = some m₁ → m₁.Retries C blocks →
      m₁.pageAllocator.1.Fits c ((blocks * C.blockMemSize).tdiv c.pageSize) ∧
        (blocks * C.blockMemSize).tdiv c.pageSize = size.tdiv c.pageSize := by
  rcases free_shrink C memGetInfo hm ids with
    ⟨m₁, blocks, hback, hretries, hsame, hidle, hq, htotal⟩ | ⟨hsame, hno⟩
  · have hlt : size.tdiv c.pageSize < m₁.numTotalPages := (hsame.pending hp hretries.inShrink).2
    have hthis : (∀ m₂ blocks', putBack C (c.api memGetInfo).logged ids m = some m₂ →
        m₂.Retries C blocks' →
        m₂.pageAllocator.1.Fits c ((blocks' * C.blockMemSize).tdiv c.pageSize) ∧
          (blocks' * C.blockMemSize).tdiv c.pageSize = size.tdiv c.pageSize) ↔
        m₁.pageAllocator.1.Fits c ((blocks * C.blockMemSize).tdiv c.pageSize) ∧
          (blocks * C.blockMemSize).tdiv c.pageSize = size.tdiv c.pageSize := by
      refine ⟨fun h => h m₁ blocks hback hretries, ?_⟩
      intro h m₂ blocks' hback' hretries'
      rw [hback] at hback'
      cases hback'
      have htarget := hretries'.target
      rw [hretries.target] at htarget
      cases htarget
      exact h
    rw [hthis, htotal, ← hsame.inShrink]
    simp only [hretries.inShrink, hq, forall_const]
    rcases AllocatorProcess.resize_fits hidle (blocks * C.blockMemSize) with
      ⟨hfits, -, hreached⟩ | ⟨hfits, -, hleft, -⟩
    · rw [hreached]
      exact ⟨fun h => ⟨hfits, h⟩, fun h => h.2⟩
    · rw [hleft]
      exact iff_of_false (ne_of_gt hlt) fun h => hfits h.1
  · refine iff_of_true ?_ ?_
    · intro hq hq'
      rw [hsame.inShrink, hq] at hq'
      cases hq'
    · intro m₁ blocks hback hretries
      exact absurd hretries (hno m₁ blocks hback)

theorem freeReserved_shrink (C : KvCacheManagerConfig) (memGetInfo : System → Nat × Nat)
    (m : KvCacheManager (AllocatorProcess × List PageId)) :
    SameShrink (free C (c.api memGetInfo).logged m.reservedBlocks m).2
      (freeReserved C (c.api memGetInfo).logged m).2 := by
  unfold freeReserved
  split_ifs with hnil
  · unfold free
    rw [if_pos hnil]
    exact ⟨rfl, rfl, rfl⟩
  · split
    case h_1 e m₁ hrun =>
      rw [hrun]
      exact ⟨rfl, rfl, rfl⟩
    case h_2 m₁ hrun =>
      rw [hrun]
      exact ⟨rfl, rfl, rfl⟩

end KvCacheManager

/-- The size a shrink is deferred for after a call. -/
def ManagerAct.deferred {σ : Type} (C : KvCacheManagerConfig) (S : PageAllocatorApi σ) (size : Int)
    (m : KvCacheManager σ) : ManagerAct → Int
  | .resize n => KvCacheManager.deferred C S n size m
  | .alloc _ => KvCacheManager.limitDeferred C S size m
  | .tryToReserve n =>
    if KvCacheManager.availableSize C S m < n then size
    else KvCacheManager.limitDeferred C S size m
  | _ => size

/-- The blocks a call passes to `free`. -/
def ManagerAct.freed {σ : Type} (m : KvCacheManager σ) : ManagerAct → Option (List BlockId)
  | .free ids => some ids
  | .freeReserved => some m.reservedBlocks
  | _ => none

namespace Session

open KvCacheManager

variable {c : PageAllocatorConfig} {C : KvCacheManagerConfig} {memGetInfo : System → Nat × Nat}
  {s t : Session AllocatorProcess} {size target : Int}

theorem step_pending {act : ManagerAct} (hs : Sound true (Targeted c target) [] s.manager)
    (hp : Pending C c size s.manager) (h : step C (c.api memGetInfo) s act = some t) :
    Pending C c (act.deferred C (c.api memGetInfo).logged size s.manager) t.manager := by
  cases step_outcome h with
  | postInit created r m hdone hcall => exact (postInit_shrink hs hdone hcall).pending hp
  | background =>
    have hsame : SameShrink s.manager { s.manager with
        pageAllocator := (c.api memGetInfo).logged.background s.manager.pageAllocator } :=
      ⟨rfl, rfl, System.drive_total c _ _⟩
    exact hsame.pending hp
  | allocs n ids m hdone hcall => exact alloc_pending hs hp hcall
  | allocRaises n e m hdone hcall => exact alloc_pending hs hp hcall
  | free ids hdone hheld => exact free_pending hs hp ids
  | tryToReserve n r m hdone hcall => exact tryToReserve_pending hs hp hcall
  | freeReserved hdone =>
    exact (freeReserved_shrink C memGetInfo s.manager).pending (free_pending hs hp _)
  | resize n hdone => exact resize_pending hs.source.1 hp rfl
  | trim hdone =>
    have hsame : SameShrink s.manager (trim (c.api memGetInfo).logged s.manager) :=
      ⟨rfl, rfl, AllocatorProcess.trim_total hs.source.1.1⟩
    exact hsame.pending hp

/-- A call that frees ends as `free` does. -/
theorem step_freed {act : ManagerAct} {ids : List BlockId} (hfreed : act.freed s.manager = some ids)
    (h : step C (c.api memGetInfo) s act = some t) :
    SameShrink (free C (c.api memGetInfo).logged ids s.manager).2 t.manager := by
  cases step_outcome h with
  | free ids' hdone hheld =>
    cases hfreed
    exact .refl _
  | freeReserved hdone =>
    cases hfreed
    exact freeReserved_shrink C memGetInfo s.manager
  | _ => cases hfreed

end Session

/-- A manager with its segment, and the size its last deferred shrink is for. -/
structure Shrinking where
  limited : LimitedGroup
  newMemSize : Int

namespace Shrinking

open KvCacheManager

def group (s : Shrinking) : Group := s.limited.group

def manager (s : Shrinking) : KvCacheManager (AllocatorProcess × List PageId) :=
  s.group.session.manager

def start (names : IpcNames) (C : KvCacheManagerConfig) (c : PageAllocatorConfig)
    (schedule : List (List WorkerMove)) (shm : Shm) : Shrinking :=
  ⟨.start names C c schedule shm, 0⟩

def deferred (s : Shrinking) : LimitAct → Int
  | .group (.call memGetInfo act) =>
    act.deferred s.group.managerConfig (s.group.allocatorConfig.api memGetInfo).logged s.newMemSize
      s.manager
  | _ => s.newMemSize

def step (s : Shrinking) (act : LimitAct) : Option Shrinking :=
  match s.limited.step act with
  | some t => some ⟨t, s.deferred act⟩
  | none => none

/-- The step runs `free` on the blocks `ids`. -/
def Frees (s : Shrinking) (act : LimitAct) (memGetInfo : System → Nat × Nat) (ids : List BlockId) :
    Prop :=
  ∃ call t, act = .group (.call memGetInfo call) ∧ call.freed s.manager = some ids ∧
    step s act = some t

/-- A deferred shrink that `free` clears has brought the page count to its size. -/
def ReachesTarget (s : Shrinking) (act : LimitAct) : Prop :=
  ∀ memGetInfo ids t, s.Frees act memGetInfo ids → step s act = some t →
    s.manager.inShrink = true → t.manager.inShrink = false →
    t.manager.numTotalPages = s.newMemSize.tdiv s.group.allocatorConfig.pageSize

/-- When `free` retries the shrink enough pages are free for its target in blocks, and that is as many
pages as its size. -/
def RetryFits (s : Shrinking) (act : LimitAct) : Prop :=
  ∀ memGetInfo ids, s.Frees act memGetInfo ids →
    let C := s.group.managerConfig
    let c := s.group.allocatorConfig
    ∀ m blocks, putBack C (c.api memGetInfo).logged ids s.manager = some m → m.Retries C blocks →
      m.pageAllocator.1.Fits c ((blocks * C.blockMemSize).tdiv c.pageSize) ∧
        (blocks * C.blockMemSize).tdiv c.pageSize = s.newMemSize.tdiv c.pageSize

/-- What holds between two calls. -/
structure Kept (s : Shrinking) : Prop where
  limited : ∃ c l, s.limited.Kept c l
  pending : Pending s.group.managerConfig s.group.allocatorConfig s.newMemSize s.manager

variable {s t : Shrinking} {act : LimitAct}

theorem Kept.served (h : s.Kept) :
    ∃ target, Sound true (Targeted s.group.allocatorConfig target) [] s.manager := by
  obtain ⟨c, l, hkept⟩ := h.limited
  exact hkept.served

theorem start_kept (names : IpcNames) (C : KvCacheManagerConfig) (c : PageAllocatorConfig)
    (schedule : List (List WorkerMove)) (shm : Shm) : (start names C c schedule shm).Kept :=
  ⟨⟨c, _, LimitedGroup.start_kept names C c schedule shm⟩, fun hq => by cases hq⟩

theorem step_limited (h : step s act = some t) :
    s.limited.step act = some t.limited ∧ t.newMemSize = s.deferred act := by
  unfold step at h
  split at h <;> cases h
  exact ⟨‹_›, rfl⟩

theorem step_call {memGetInfo : System → Nat × Nat} {call : ManagerAct}
    (h : step s (.group (.call memGetInfo call)) = some t) :
    Session.step s.group.managerConfig (s.group.allocatorConfig.api memGetInfo) s.group.session
        call = some t.group.session := by
  obtain ⟨⟨group, shm⟩, size⟩ := t
  have hstep := LimitedGroup.step_group (step_limited h).1
  simp only [Group.step] at hstep
  split at hstep <;> cases hstep
  assumption

theorem step_kept (hs : s.Kept) (h : step s act = some t) : t.Kept := by
  obtain ⟨limited, size⟩ := t
  obtain ⟨hstep, rfl⟩ := step_limited h
  obtain ⟨c, l, hkept⟩ := hs.limited
  refine ⟨⟨c, _, LimitedGroup.step_kept hkept hstep⟩, ?_⟩
  cases act with
  | writeLimit l' =>
    cases hstep
    exact hs.pending
  | group act =>
    have hgroup := LimitedGroup.step_group hstep
    obtain ⟨hC, hc, -⟩ := Group.step_frame hgroup
    have hpending := hs.pending
    unfold group at hpending ⊢
    rw [hC, hc]
    cases act with
    | call memGetInfo call =>
      obtain ⟨target, hserved⟩ := hs.served
      exact Session.step_pending hserved hpending (step_call h)
    | publish =>
      cases hstep
      exact hpending
    | poll =>
      simp only [LimitedGroup.step, Group.step] at hstep
      split_ifs at hstep
      cases hstep
      exact hpending

theorem reaches_iff (hs : s.Kept) : s.ReachesTarget act ↔ s.RetryFits act := by
  obtain ⟨target, hserved⟩ := hs.served
  have hiff := fun memGetInfo => free_reaches_iff memGetInfo hserved hs.pending
  constructor
  · rintro hreach memGetInfo ids ⟨call, t, rfl, hfreed, ht⟩
    obtain ⟨hq, -, htotal⟩ := Session.step_freed hfreed (step_call ht)
    apply (hiff memGetInfo ids).mp
    intro hin hout
    refine htotal.symm.trans ?_
    exact hreach memGetInfo ids t ⟨call, t, rfl, hfreed, ht⟩ ht hin (hq.trans hout)
  · rintro hfits memGetInfo ids t ⟨call, t', rfl, hfreed, -⟩ ht hin hout
    obtain ⟨hq, -, htotal⟩ := Session.step_freed hfreed (step_call ht)
    refine htotal.trans ((hiff memGetInfo ids).mpr ?_ hin (hq.symm.trans hout))
    exact hfits memGetInfo ids ⟨call, t, rfl, hfreed, ht⟩

/-- In every history a shrink that `free` clears has reached its size exactly when, at each retry,
enough pages are free for the target in blocks and that is as many pages. -/
theorem deferred_shrink_iff (names : IpcNames) (C : KvCacheManagerConfig) (c : PageAllocatorConfig)
    (schedule : List (List WorkerMove)) (shm : Shm) (acts : List LimitAct) :
    Along step ReachesTarget (start names C c schedule shm) acts ↔
      Along step RetryFits (start names C c schedule shm) acts := by
  refine along_congr (E := fun _ _ => True) (I := Kept) ?_ ?_
    (start_kept names C c schedule shm) (along_of_mem (fun _ _ _ => trivial) _)
  · intro s act hs _
    exact reaches_iff hs
  · intro s act t hs _ _ h
    exact step_kept hs h

/-- Four blocks on two pages, when the memory is cut to one page. -/
def cutToOnePage : List LimitAct :=
  [.group (.call LimitedGroup.eightPagesDevice (.postInit true)),
    .group (.call LimitedGroup.eightPagesDevice (.alloc 4)),
    .group (.call LimitedGroup.eightPagesDevice (.resize (2^21)))]

/-- With one block of each page freed the shrink is tried again, refused, and given up: eight pages
are left. -/
theorem refused_shrink_forgotten : ∃ s t,
    run step (start LimitedGroup.eightPagesNames LimitedGroup.eightPagesManager
      LimitedGroup.eightPages [] fun _ => none) cutToOnePage = some s ∧
    step s (.group (.call LimitedGroup.eightPagesDevice (.free [0, 2]))) = some t ∧
    s.manager.inShrink = true ∧ t.manager.inShrink = false ∧
    s.newMemSize.tdiv LimitedGroup.eightPages.pageSize = 1 ∧ t.manager.numTotalPages = 8 := by
  have hrun : run step (start LimitedGroup.eightPagesNames LimitedGroup.eightPagesManager
      LimitedGroup.eightPages [] fun _ => none) cutToOnePage = some _ :=
    (Option.some_get (by decide +kernel)).symm
  refine ⟨_, _, hrun, (Option.some_get (by decide +kernel)).symm, ?_⟩
  decide +kernel

end Shrinking

end GpuSharing.Kvcached
