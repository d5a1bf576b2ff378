import GpuSharing.Integration.VllmBlockSession
import GpuSharing.Kvcached.PendingLimit

namespace GpuSharing.Kvcached

open Transition KvCacheManager

/-- An act outside the calls of a manager. -/
def LimitAct.Outside : LimitAct → Prop
  | .group (.call _ _) => False
  | _ => True

/-- What can happen before the first block is asked for. -/
def LimitAct.Boots : LimitAct → Prop
  | .group (.call _ (.postInit _)) => True
  | .group (.call _ .background) => True
  | act => act.Outside

instance : DecidablePred LimitAct.Outside := fun act => by
  unfold LimitAct.Outside
  split <;> infer_instance

instance : DecidablePred LimitAct.Boots := fun act => by
  unfold LimitAct.Boots
  split <;> infer_instance

namespace LimitedGroup

def manager (s : LimitedGroup) : KvCacheManager (AllocatorProcess × List PageId) :=
  s.group.session.manager

def withManager (m : KvCacheManager (AllocatorProcess × List PageId)) (s : LimitedGroup) :
    LimitedGroup :=
  { s with group := { s.group with session := { s.group.session with manager := m } } }

def allocatorApi (s : LimitedGroup) (memGetInfo : System → Nat × Nat) :
    PageAllocatorApi (AllocatorProcess × List PageId) :=
  (s.group.allocatorConfig.api memGetInfo).logged

variable {c : PageAllocatorConfig} {l : Int} {s t : LimitedGroup}
  {m : KvCacheManager (AllocatorProcess × List PageId)}

@[simp] theorem withManager_manager : (s.withManager m).manager = m := rfl

@[simp] theorem withManager_self : s.withManager s.manager = s := rfl

theorem Kept.withManager (h : s.Kept c l) (hm : ∃ target, Sound true (Targeted c target) [] m) :
    (s.withManager m).Kept c l := by
  obtain ⟨target, hm⟩ := hm
  obtain rfl := h.config
  exact ⟨rfl, h.limit, target, hm⟩

/-- Outside its calls a manager only finds another limit stored. -/
theorem step_outside {act : LimitAct} (hact : act.Outside) (h : step s act = some t) :
    t.group.managerConfig = s.group.managerConfig ∧
      ∃ a, t.manager = { s.manager with pageAllocator := (a, s.manager.pageAllocator.2) } := by
  cases act with
  | writeLimit l =>
    cases h
    exact ⟨rfl, _, rfl⟩
  | group act =>
    cases act with
    | call => exact hact.elim
    | publish =>
      cases h
      exact ⟨rfl, _, rfl⟩
    | poll =>
      simp only [step, Group.step] at h
      by_cases hw : s.group.watching = true
      · simp only [if_pos hw, Option.some.injEq] at h
        subst h
        exact ⟨rfl, _, rfl⟩
      · simp [hw] at h

end LimitedGroup

end GpuSharing.Kvcached

namespace GpuSharing.Integration

open Kvcached Transition ElasticBlockPool KvCacheManagerApi

/-- The manager of a group as an `ElasticBlockPool` calls it; `memGetInfo` is what `cudaMemGetInfo`
reports during the call. -/
def limitedManagerApi (memGetInfo : System → Nat × Nat) : BlockManagerApi LimitedGroup where
  availableSize s := KvCacheManager.availableSize s.group.managerConfig (s.allocatorApi memGetInfo)
    s.manager
  alloc n s := (KvCacheManager.alloc s.group.managerConfig (s.allocatorApi memGetInfo) n
    s.manager).map fun r => (r.1, s.withManager r.2)
  free ids s :=
    let r := KvCacheManager.free s.group.managerConfig (s.allocatorApi memGetInfo) ids s.manager
    (r.1, s.withManager r.2)
  background s := s.withManager { s.manager with
    pageAllocator := (s.allocatorApi memGetInfo).background s.manager.pageAllocator }

/-- A group whose manager is between two calls and has handed out the blocks `held`. -/
structure LentOut (C : KvCacheManagerConfig) (a : PageAllocatorConfig) (numBlocks : Int)
    (s : LimitedGroup) (held : List BlockId) : Prop where
  managerConfig : s.group.managerConfig = C
  kept : ∃ l, s.Kept a l
  done : s.manager.postInitDone = true
  lending : Lending C numBlocks s.manager held

namespace LentOut

variable {C : KvCacheManagerConfig} {a : PageAllocatorConfig} {numBlocks : Int}
  {s t : LimitedGroup} {held : List BlockId} {memGetInfo : System → Nat × Nat}

theorem sound (h : LentOut C a numBlocks s held) :
    ∃ target, KvCacheManager.Sound true (Targeted a target) [] s.manager := by
  obtain ⟨l, hkept⟩ := h.kept
  obtain ⟨target, hserved⟩ := hkept.served
  exact ⟨target, hkept.config ▸ hserved⟩

theorem allocatorApi (h : LentOut C a numBlocks s held) :
    s.allocatorApi memGetInfo = (a.api memGetInfo).logged := by
  obtain ⟨l, hkept⟩ := h.kept
  rw [LimitedGroup.allocatorApi, hkept.config]

theorem withManager (h : LentOut C a numBlocks s held) {held' : List BlockId}
    {m : KvCacheManager (AllocatorProcess × List PageId)}
    (hm : ∀ target, KvCacheManager.Sound true (Targeted a target) [] s.manager →
      KvCacheManager.Sound true (Targeted a target) [] m)
    (hdone : m.postInitDone = s.manager.postInitDone) (hlending : Lending C numBlocks m held') :
    LentOut C a numBlocks (s.withManager m) held' := by
  obtain ⟨target, hsound⟩ := h.sound
  obtain ⟨l, hkept⟩ := h.kept
  exact ⟨h.managerConfig, ⟨l, hkept.withManager ⟨target, hm target hsound⟩⟩, hdone.trans h.done,
    hlending⟩

/-- Limits are written and served while blocks are out. -/
theorem outside {act : LimitAct} (h : LentOut C a numBlocks s held) (hact : act.Outside)
    (hstep : s.step act = some t) : LentOut C a numBlocks t held := by
  obtain ⟨l, hkept⟩ := h.kept
  obtain ⟨hconfig, b, hm⟩ := LimitedGroup.step_outside hact hstep
  refine ⟨hconfig.trans h.managerConfig, ⟨_, LimitedGroup.step_kept hkept hstep⟩, ?_, ?_⟩
  · rw [hm]
    exact h.done
  · rw [hm]
    exact h.lending.relabel h.lending.known rfl

end LentOut

/-- The manager of a group lends distinct blocks as long as the pages it gets are distinct. -/
theorem limitedManagerApi_lends (C : KvCacheManagerConfig) (a : PageAllocatorConfig)
    (memGetInfo : System → Nat × Nat) (numBlocks : Int) :
    (limitedManagerApi memGetInfo).Lends numBlocks (LentOut C a numBlocks)
      (fun s => IssuedInside C numBlocks s.manager) where
  nodup h := (lends C (a.api memGetInfo) numBlocks).nodup h.lending
  range h := (lends C (a.api memGetInfo) numBlocks).range h.lending
  perm h hperm :=
    ⟨h.managerConfig, h.kept, h.done, (lends C (a.api memGetInfo) numBlocks).perm h.lending hperm⟩
  alloc {s s' held n r} h halloc hfine := by
    simp only [limitedManagerApi, Option.map_eq_some_iff, Prod.mk.injEq] at halloc
    obtain ⟨⟨r', m⟩, halloc, rfl, rfl⟩ := halloc
    rw [h.managerConfig, h.allocatorApi] at halloc
    obtain ⟨hlending, hids⟩ :=
      (lends C (a.api memGetInfo) numBlocks).alloc h.lending halloc hfine
    refine ⟨h.withManager ?_ ?_ hlending, hids⟩
    · intro target hsound
      exact KvCacheManager.alloc_sound (Targeted.keeps a target memGetInfo) hsound halloc
    · obtain ⟨lost, hset⟩ := h.lending.settled
      exact (KvCacheManager.alloc_settled hset halloc hfine.1).1.postInitDone
  free {s held ids} h hids := by
    obtain ⟨lost, hset⟩ := h.lending.settled
    obtain ⟨m, hfree, -, hafter⟩ :=
      Session.free_accounted (S := a.api memGetInfo) (s := ⟨s.manager, held⟩) hset hids
    obtain ⟨m', hfree', hlending⟩ := (lends C (a.api memGetInfo) numBlocks).free h.lending hids
    obtain rfl : m = m' := (Prod.mk.inj (hfree.symm.trans hfree')).2
    refine ⟨s.withManager m, ?_, h.withManager ?_ hafter.init.postInitDone hlending⟩
    · simp only [limitedManagerApi]
      rw [h.managerConfig, h.allocatorApi, hfree]
    · intro target hsound
      exact KvCacheManager.free_sound (Targeted.keeps a target memGetInfo) hsound hfree
  background {s held} h := by
    refine h.withManager ?_ rfl (h.lending.relabel h.lending.known rfl)
    intro target hsound
    have hback := (Targeted.keeps a target memGetInfo).background _ hsound.source
    rw [← h.allocatorApi] at hback
    exact hsound.relabel hback rfl

/-- A call of a pool, or what happens to its manager's group between two of them. -/
inductive LimitedPoolAct
  | pool (memGetInfo : System → Nat × Nat) (act : BlockPoolAct)
  | outside (act : LimitAct)

namespace LimitedPool

variable {c : ElasticBlockPoolConfig} {C : KvCacheManagerConfig} {a : PageAllocatorConfig}
  {s t : PoolSession LimitedGroup} {g g' : LimitedGroup}

/-- A new pool. Its `alloc` waits for `_post_init`. -/
def start (c : ElasticBlockPoolConfig) (memGetInfo : System → Nat × Nat) (g : LimitedGroup) :
    Option (PoolSession LimitedGroup) :=
  if g.manager.postInitDone then
    match ElasticBlockPool.init c (limitedManagerApi memGetInfo) g with
    | some (.ok p) => some ⟨p, []⟩
    | _ => none
  else none

def step (c : ElasticBlockPoolConfig) (s : PoolSession LimitedGroup) :
    LimitedPoolAct → Option (PoolSession LimitedGroup)
  | .pool memGetInfo act => PoolSession.step c (limitedManagerApi memGetInfo) s act
  | .outside act =>
    if act.Outside then
      match s.pool.kvCacheManager.step act with
      | some g => some { s with pool := { s.pool with kvCacheManager := g } }
      | none => none
    else none

/-- The page ids issued by the end of the step are unique and of the pool's own pages. -/
def IssuesInside (c : ElasticBlockPoolConfig) (C : KvCacheManagerConfig)
    (s : PoolSession LimitedGroup) (act : LimitedPoolAct) : Prop :=
  match step c s act with
  | some t => IssuedInside C c.numGpuBlocks t.pool.kvCacheManager.manager
  | none => True

instance : ∀ s act, Decidable (IssuesInside c C s act) := fun s act => by
  unfold IssuesInside
  split <;> infer_instance

theorem step_pool {memGetInfo : System → Nat × Nat} {act : BlockPoolAct}
    (h : step c s (.pool memGetInfo act) = some t) :
    PoolSession.step c (limitedManagerApi memGetInfo) s act = some t := h

/-- What happens outside the calls of a pool leaves its own fields alone. -/
theorem step_outside {act : LimitAct} (h : step c s (.outside act) = some t) :
    act.Outside ∧ ∃ g, s.pool.kvCacheManager.step act = some g ∧
      t = { s with pool := { s.pool with kvCacheManager := g } } := by
  simp only [step] at h
  split_ifs at h with hact
  split at h <;> cases h
  exact ⟨hact, _, ‹_›, rfl⟩

theorem step_history {act : LimitedPoolAct} (h : step c s act = some t)
    (honce : CachedOnce t.pool.history) : CachedOnce s.pool.history := by
  cases act with
  | pool memGetInfo act =>
    obtain ⟨new, hnew⟩ := (step_extends (PoolSession.step_pool (step_pool h))).history
    rw [← hnew] at honce
    exact honce.tail
  | outside act =>
    obtain ⟨-, g, -, rfl⟩ := step_outside h
    exact honce

theorem step_inOrder {act : LimitedPoolAct}
    (hs : InOrder c (LentOut C a c.numGpuBlocks) s.refs s.pool) (h : step c s act = some t)
    (hissued : IssuesInside c C s act) (honce : CachedOnce t.pool.history) :
    InOrder c (LentOut C a c.numGpuBlocks) t.refs t.pool := by
  rw [IssuesInside, h] at hissued
  cases act with
  | pool memGetInfo act =>
    exact PoolSession.step_inOrder (limitedManagerApi_lends C a memGetInfo _) hs (step_pool h)
      hissued honce
  | outside act =>
    obtain ⟨hact, g, hg, rfl⟩ := step_outside h
    exact hs.withManager (hs.lends.outside hact hg)

/-- A group whose manager has handed out nothing yet. -/
structure Booting (C : KvCacheManagerConfig) (a : PageAllocatorConfig) (numBlocks : Int)
    (g : LimitedGroup) : Prop where
  managerConfig : g.group.managerConfig = C
  kept : ∃ l, g.Kept a l
  lending : Lending C numBlocks g.manager []

theorem step_booting {numBlocks : Int} {act : LimitAct} (hreserve : C.reserveNullBlock = false)
    (hg : Booting C a numBlocks g) (hact : act.Boots) (h : g.step act = some g') :
    Booting C a numBlocks g' := by
  obtain ⟨l, hkept⟩ := hg.kept
  have hkept' := LimitedGroup.step_kept hkept h
  have houtside : act.Outside → Booting C a numBlocks g' := by
    intro hout
    obtain ⟨hconfig, b, hm⟩ := LimitedGroup.step_outside hout h
    refine ⟨hconfig.trans hg.managerConfig, ⟨_, hkept'⟩, ?_⟩
    rw [hm]
    exact hg.lending.relabel hg.lending.known rfl
  cases act with
  | writeLimit => exact houtside trivial
  | group act =>
    cases act with
    | publish | poll => exact houtside trivial
    | call memGetInfo act =>
      obtain ⟨group, shm⟩ := g'
      have hstep := LimitedGroup.step_group h
      have hconfig := (Group.step_frame hstep).1
      refine ⟨hconfig.trans hg.managerConfig, ⟨_, hkept'⟩, ?_⟩
      simp only [Group.step] at hstep
      split at hstep
      case h_2 => cases hstep
      case h_1 session hsession =>
        cases hstep
        cases Session.step_outcome hsession with
        | postInit created r m hdone hcall =>
          rw [hg.managerConfig] at hcall
          exact PoolSession.postInit_lending hreserve hg.lending hcall
        | background => exact hg.lending.relabel hg.lending.known rfl
        | _ => exact hact.elim

theorem run_booting {names : IpcNames} {schedule : List (List WorkerMove)} {shm : Shm}
    {boot : List LimitAct} (numBlocks : Int) (hreserve : C.reserveNullBlock = false)
    (hboot : ∀ act ∈ boot, act.Boots)
    (hrun : run LimitedGroup.step (LimitedGroup.start names C a schedule shm) boot = some g) :
    Booting C a numBlocks g := by
  have hstart : Booting C a numBlocks (LimitedGroup.start names C a schedule shm) :=
    ⟨rfl, ⟨_, LimitedGroup.start_kept names C a schedule shm⟩, PoolSession.init_lending C _ _⟩
  exact run_invariant_along (fun _ _ _ hg hact h => step_booting hreserve hg hact h) hstart
    (along_of_mem (fun act hact _ => hboot act hact) _) hrun

theorem start_inOrder {memGetInfo : System → Nat × Nat} (hg : Booting C a c.numGpuBlocks g)
    (h : start c memGetInfo g = some s)
    (hissued : IssuedInside C c.numGpuBlocks s.pool.kvCacheManager.manager) :
    InOrder c (LentOut C a c.numGpuBlocks) s.refs s.pool := by
  unfold start at h
  split_ifs at h with hdone
  split at h
  case h_2 => cases h
  case h_1 p hinit =>
    cases h
    exact init_inOrder (limitedManagerApi_lends C a memGetInfo _)
      ⟨hg.managerConfig, hg.kept, hdone, hg.lending⟩ hinit hissued

theorem run_inOrder {acts : List LimitedPoolAct}
    (hs : InOrder c (LentOut C a c.numGpuBlocks) s.refs s.pool)
    (hrun : run (step c) s acts = some t)
    (hissued : Along (step c) (IssuesInside c C) s acts) (honce : CachedOnce t.pool.history) :
    InOrder c (LentOut C a c.numGpuBlocks) t.refs t.pool := by
  have hcached := (along_of_last (fun _ _ _ => step_history) hrun honce).2
  refine run_invariant_along
    (I := fun s => InOrder c (LentOut C a c.numGpuBlocks) s.refs s.pool) ?_ hs
    (along_and.mpr ⟨hissued, hcached⟩) hrun
  rintro s act t hs ⟨hissued, honce⟩ ht
  exact step_inOrder hs ht hissued (honce t ht)

end LimitedPool

end GpuSharing.Integration
