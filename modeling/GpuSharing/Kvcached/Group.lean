import GpuSharing.Kvcached.LinkedAllocator
import GpuSharing.Kvcached.MemInfoTracker

namespace GpuSharing.Kvcached

/-- `total_memory_size_`. -/
def PageAllocatorConfig.totalMemorySize (c : PageAllocatorConfig) : Int :=
  c.memSizePerLayer * c.numLayers * c.numKvBuffers

/-- The names a process takes from its environment: `DEFAULT_IPC_NAME`, and what
`obtain_default_ipc_name` returns. -/
structure IpcNames where
  defaultIpcName : String
  trackerName : String
  ne_empty : defaultIpcName ≠ "" := by decide

/-- A manager with its page allocator and the tracker of that. -/
structure Group where
  managerConfig : KvCacheManagerConfig
  allocatorConfig : PageAllocatorConfig
  tracker : MemInfoTracker
  session : Session AllocatorProcess

/-- A call on the manager, `update_memory_usage`, which ends the allocator's calls, or a poll of the
watcher thread. `memGetInfo` is what `cudaMemGetInfo` reports during a call. -/
inductive GroupAct
  | call (memGetInfo : System → Nat × Nat) (act : ManagerAct)
  | publish
  | poll

namespace Group

/-- `KVCacheManager.__init__`, up to the start of the thread that runs `_post_init`. -/
def create (names : IpcNames) (C : KvCacheManagerConfig) (c : PageAllocatorConfig)
    (schedule : List (List WorkerMove)) (shm : Shm) : Group × Shm :=
  let r := MemInfoTracker.create names.trackerName c.totalMemorySize c.groupId
    names.defaultIpcName shm
  (⟨C, c, r.1, Session.start (.init c schedule)⟩, r.2)

def process (g : Group) : AllocatorProcess := g.session.manager.pageAllocator.1

def numTotalPages (g : Group) : Int := g.process.system.pa.numTotalPages

def updateMemoryUsage (g : Group) (shm : Shm) : Shm :=
  let a := g.process.system.pa
  let c := g.allocatorConfig
  g.tracker.updateMemoryUsage (a.getNumInusePages * c.numLayers * c.pageSize * c.numKvBuffers)
    (a.reservedPageList.length * c.numLayers * c.pageSize * c.numKvBuffers) shm

/-- The watcher thread is started beside the preallocation thread. -/
def watching (g : Group) : Bool :=
  g.allocatorConfig.enablePagePrealloc && g.session.manager.preallocStarted

/-- A round of `resize_watcher`. -/
def resizeWatcher (g : Group) (shm : Shm) : Group :=
  let c := g.allocatorConfig
  let target := g.tracker.checkAndGetResizeTarget c.memSizePerLayer c.numLayers c.numKvBuffers shm
  { g with session := { g.session with manager := { g.session.manager with
      pageAllocator := ({ g.process with resizeTarget := target },
        g.session.manager.pageAllocator.2) } } }

def step (g : Group) (shm : Shm) : GroupAct → Option (Group × Shm)
  | .call memGetInfo act =>
    match Session.step g.managerConfig (g.allocatorConfig.api memGetInfo) g.session act with
    | some s => some ({ g with session := s }, shm)
    | none => none
  | .publish => some (g, g.updateMemoryUsage shm)
  | .poll => if g.watching then some (g.resizeWatcher shm, shm) else none

/-- The manager is between two calls and the watcher has stored `target`. -/
def Served (g : Group) (target : Int) : Prop :=
  KvCacheManager.Sound true (Targeted g.allocatorConfig target) [] g.session.manager

/-- What the watcher stores when the limit in the segment is `l`. -/
def targetOf (g : Group) (l : Int) : Int :=
  let c := g.allocatorConfig
  let newMemSize := (l.tdiv c.numLayers).tdiv c.numKvBuffers
  if newMemSize ≠ c.memSizePerLayer then newMemSize else -1

variable {g g' : Group} {shm shm' : Shm} {act : GroupAct} {target l : Int}

theorem create_served (names : IpcNames) (C : KvCacheManagerConfig) (c : PageAllocatorConfig)
    (schedule : List (List WorkerMove)) (shm : Shm) :
    (create names C c schedule shm).1.Served (-1) :=
  KvCacheManager.Sound.init ⟨Linked.init c true schedule, rfl⟩

theorem create_limit (names : IpcNames) (C : KvCacheManagerConfig) (c : PageAllocatorConfig)
    (schedule : List (List WorkerMove)) (shm : Shm) :
    (create names C c schedule shm).1.tracker.limit (create names C c schedule shm).2 =
      some c.totalMemorySize :=
  MemInfoTracker.limit_create ..

theorem step_frame (h : g.step shm act = some (g', shm')) :
    g'.managerConfig = g.managerConfig ∧ g'.allocatorConfig = g.allocatorConfig ∧
      g'.tracker = g.tracker := by
  cases act with
  | call memGetInfo act =>
    simp only [step] at h
    split at h <;> cases h
    exact ⟨rfl, rfl, rfl⟩
  | publish =>
    cases h
    exact ⟨rfl, rfl, rfl⟩
  | poll =>
    simp only [step] at h
    split_ifs at h
    cases h
    exact ⟨rfl, rfl, rfl⟩

/-- The group itself leaves the limit alone. -/
theorem step_limit (hl : g.tracker.limit shm = some l) (h : g.step shm act = some (g', shm')) :
    g'.tracker.limit shm' = some l := by
  rw [(step_frame h).2.2]
  cases act with
  | call memGetInfo act =>
    simp only [step] at h
    split at h <;> cases h
    exact hl
  | publish =>
    cases h
    exact MemInfoTracker.limit_updateMemoryUsage hl
  | poll =>
    simp only [step] at h
    split_ifs at h
    cases h
    exact hl

theorem call_served {memGetInfo : System → Nat × Nat} {act : ManagerAct} (hg : g.Served target)
    (h : g.step shm (.call memGetInfo act) = some (g', shm')) : g'.Served target := by
  simp only [step] at h
  split at h
  case h_1 s hs =>
    cases h
    have hplain : act.Plain true := by cases act <;> trivial
    exact Session.step_sound (Targeted.keeps g.allocatorConfig target memGetInfo) hg hplain hs
  case h_2 => cases h

theorem poll_served (hg : g.Served target) (hl : g.tracker.limit shm = some l)
    (h : g.step shm .poll = some (g', shm')) : g'.Served (g.targetOf l) := by
  simp only [step] at h
  split_ifs at h
  cases h
  obtain ⟨⟨hlinked, -⟩, hopened, hkeyed, hissued, hsettled⟩ := hg
  refine ⟨⟨⟨⟨hlinked.1.ran, hlinked.1.engine, by simp⟩, hlinked.2⟩, ?_⟩, hopened, hkeyed, hissued,
    hsettled⟩
  exact MemInfoTracker.checkAndGetResizeTarget_of_limit hl

end Group

end GpuSharing.Kvcached
