import GpuSharing.Kvcached.AllocatorThreads
import GpuSharing.Kvcached.KvCacheManager

namespace GpuSharing.Kvcached

/-- A lock section of the preallocation worker, or the return of its map call. -/
inductive WorkerMove
  | grab (availPhysicalPages : Int)
  | mapReturns
  | relock
  deriving DecidableEq, Repr

def WorkerMove.act : WorkerMove → Act
  | .grab n => .workerGrab n
  | .mapReturns => .workerMapReturns true
  | .relock => .workerRelock

/-- The allocator in a process whose map and unmap calls succeed. `schedule` lists what the worker
does before each lock section of the engine thread; moves that are not enabled are skipped. -/
structure AllocatorProcess where
  system : System
  schedule : List (List WorkerMove)
  resizeTarget : Int
  deriving DecidableEq

namespace System

def drive (c : PageAllocatorConfig) (s : System) (moves : List WorkerMove) : System :=
  moves.foldl (fun s w => (step c s w.act).getD s) s

end System

namespace AllocatorProcess

variable (c : PageAllocatorConfig)

def init (schedule : List (List WorkerMove)) : AllocatorProcess := ⟨System.init c, schedule, -1⟩

/-- The worker's moves that are due, then one lock section of the engine thread. -/
def engine (act : Act) (a : AllocatorProcess) : AllocatorProcess :=
  let s := a.system.drive c (a.schedule.headD [])
  { a with system := (System.step c s act).getD s, schedule := a.schedule.tail }

def background (a : AllocatorProcess) : AllocatorProcess :=
  { a with
    system := a.system.drive c (a.schedule.headD [])
    schedule := a.schedule.tail }

/-- The rest of a call that has a map or unmap call to make. -/
def finish (a : AllocatorProcess) : AllocatorProcess :=
  match a.system.engine with
  | .mapping _ => engine c .relock (engine c (.mapReturns true) a)
  | .unmapping _ _ => engine c .relock (engine c (.unmapReturns true) a)
  | _ => a

/-- `alloc_page`. An engine that waits is woken by the worker, once that has reserved its pages. -/
def allocPage (a : AllocatorProcess) : Except String PageId × AllocatorProcess :=
  let s := a.system.drive c (a.schedule.headD [])
  let a := engine c .allocPage a
  match s.pa.allocPageLoop c with
  | (.throws msg, _) => (.error msg, a)
  | (.fast p, _) => (.ok p, a)
  | (.slow p, _) => (.ok p, finish c a)
  | (.wait, _) =>
    let s := a.system.drive c [.mapReturns, .relock]
    match s.pa.allocPageLoop c with
    | (.fast p, _) => (.ok p, { a with system := (System.step c s .wake).getD s })
    | _ => (.error "alloc_page does not return", { a with system := s })

def freePages (ps : List PageId) (a : AllocatorProcess) : AllocatorProcess :=
  finish c (engine c (.freePages ps) a)

def trim (a : AllocatorProcess) : AllocatorProcess := finish c (engine c .trim a)

def resize (newMemSize : Int) (a : AllocatorProcess) : Bool × AllocatorProcess :=
  let newNumPages := newMemSize.tdiv c.pageSize
  let s := a.system.drive c (a.schedule.headD [])
  let a := engine c (.resize newMemSize) a
  match s.pa.resizeLocked newNumPages with
  | (.returns ok, _) => (ok, a)
  | (.unmaps ps, _) =>
    let a := engine c (.unmapReturns true) a
    let s := a.system.drive c (a.schedule.headD [])
    ((s.pa.resizeRelocked newNumPages ps).1, engine c .relock a)

def startPreallocThread (a : AllocatorProcess) : AllocatorProcess :=
  if c.enablePagePrealloc then engine c .startPrealloc a else a

end AllocatorProcess

/-- The methods of the allocator as a manager calls them. -/
def PageAllocatorConfig.api (c : PageAllocatorConfig) (memGetInfo : System → Nat × Nat) :
    PageAllocatorApi AllocatorProcess where
  allocPage := AllocatorProcess.allocPage c
  freePages := AllocatorProcess.freePages c
  resize := AllocatorProcess.resize c
  trim := AllocatorProcess.trim c
  startPreallocThread := AllocatorProcess.startPreallocThread c
  background := AllocatorProcess.background c
  getNumFreePages a := a.system.pa.numFreePages
  getAvailPhysicalPages a := PageAllocator.getAvailPhysicalPages c (memGetInfo a.system).1
    (memGetInfo a.system).2
  getNumReservedPages a := a.system.pa.reservedPageList.length
  getResizeTarget a := a.resizeTarget

end GpuSharing.Kvcached
