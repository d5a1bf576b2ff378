import Mathlib.Data.Finset.Basic
import GpuSharing.Lib.Transition
import GpuSharing.Kvcached.PageAllocator

namespace GpuSharing.Kvcached

open Transition

/-- What the engine thread does once `unmap_pages` has returned and it holds the lock again. -/
inductive AfterUnmap
  | free
  | trim
  | resize (newNumPages : Int)
  deriving DecidableEq, Repr

/-- Where the engine thread is while the allocator lock is free. -/
inductive EnginePc
  | idle
  | waiting
  | mapping (page : PageId)
  | mapped (page : PageId)
  | unmapping (k : AfterUnmap) (ps : List PageId)
  | unmapped (k : AfterUnmap) (ps : List PageId)
  deriving DecidableEq, Repr

inductive WorkerPc
  | idle
  | mapping (ps : List PageId)
  | mapped (ps : List PageId)
  deriving DecidableEq, Repr

/-- Pages the engine thread holds between two lock sections of one call. -/
def EnginePc.inFlight : EnginePc → List PageId
  | .idle => []
  | .waiting => []
  | .mapping p => [p]
  | .mapped p => [p]
  | .unmapping _ ps => ps
  | .unmapped _ ps => ps

namespace EnginePc

@[simp] theorem inFlight_idle : inFlight .idle = [] := rfl
@[simp] theorem inFlight_waiting : inFlight .waiting = [] := rfl
@[simp] theorem inFlight_mapping (p : PageId) : inFlight (.mapping p) = [p] := rfl
@[simp] theorem inFlight_mapped (p : PageId) : inFlight (.mapped p) = [p] := rfl
@[simp] theorem inFlight_unmapping (k : AfterUnmap) (ps : List PageId) :
    inFlight (.unmapping k ps) = ps := rfl
@[simp] theorem inFlight_unmapped (k : AfterUnmap) (ps : List PageId) :
    inFlight (.unmapped k ps) = ps := rfl

end EnginePc

def EnginePc.passedToMap : EnginePc → List PageId
  | .mapping p => [p]
  | _ => []

def WorkerPc.inFlight : WorkerPc → List PageId
  | .idle => []
  | .mapping ps => ps
  | .mapped ps => ps

namespace WorkerPc

@[simp] theorem inFlight_idle : inFlight .idle = [] := rfl
@[simp] theorem inFlight_mapping (ps : List PageId) : inFlight (.mapping ps) = ps := rfl
@[simp] theorem inFlight_mapped (ps : List PageId) : inFlight (.mapped ps) = ps := rfl

end WorkerPc

def WorkerPc.passedToMap : WorkerPc → List PageId
  | .mapping ps => ps
  | _ => []

/-- The allocator, its engine thread and its preallocation worker. `handedOut` lists the pages
`alloc_page` has returned and no `free_page(s)` has taken back; `physical` is what the map and
unmap calls have left mapped. -/
structure System where
  pa : PageAllocator
  engine : EnginePc
  worker : WorkerPc
  handedOut : List PageId
  physical : Finset PageId
  deriving DecidableEq

/-- One lock section, or the return of one map or unmap call. -/
inductive Act
  | allocPage
  | wake
  | freePage (page : PageId)
  | freePages (ps : List PageId)
  | resize (newMemSize : Int)
  | trim
  | resetFreePageOrder
  | startPrealloc
  | mapReturns (ok : Bool)
  | unmapReturns (ok : Bool)
  | relock
  | workerGrab (availPhysicalPages : Int)
  | workerMapReturns (ok : Bool)
  | workerRelock
  deriving DecidableEq, Repr

namespace System

def init (c : PageAllocatorConfig) : System where
  pa := PageAllocator.init c
  engine := .idle
  worker := .idle
  handedOut := []
  physical := ∅

/-- The engine enters `alloc_page`, or goes round its loop again after the wait. -/
def allocStep (c : PageAllocatorConfig) (s : System) : System :=
  match s.pa.allocPageLoop c with
  | (.fast p, a) => { s with pa := a, engine := .idle, handedOut := p :: s.handedOut }
  | (.slow p, a) => { s with pa := a, engine := .mapping p }
  | (.throws _, a) => { s with pa := a, engine := .idle }
  | (.wait, a) => { s with pa := a, engine := .waiting }

def freePageStep (c : PageAllocatorConfig) (p : PageId) (s : System) : System :=
  match s.pa.freePageLocked c p with
  | (false, a) => { s with pa := a, handedOut := s.handedOut.erase p }
  | (true, a) =>
    { s with pa := a, engine := .unmapping .free [p], handedOut := s.handedOut.erase p }

def freePagesStep (c : PageAllocatorConfig) (ps : List PageId) (s : System) : System :=
  match s.pa.freePagesLocked c ps with
  | (none, a) => { s with pa := a, handedOut := s.handedOut.diff ps }
  | (some qs, a) =>
    { s with pa := a, engine := .unmapping .free qs, handedOut := s.handedOut.diff ps }

def resizeStep (c : PageAllocatorConfig) (newMemSize : Int) (s : System) : System :=
  let newNumPages := newMemSize.tdiv c.pageSize
  match s.pa.resizeLocked newNumPages with
  | (.returns _, a) => { s with pa := a }
  | (.unmaps ps, a) => { s with pa := a, engine := .unmapping (.resize newNumPages) ps }

def trimStep (s : System) : System :=
  match s.pa.trimLocked with
  | ([], a) => { s with pa := a }
  | (p :: ps, a) => { s with pa := a, engine := .unmapping .trim (p :: ps) }

def relockStep (c : PageAllocatorConfig) (s : System) : Option System :=
  match s.engine with
  | .mapped p => some { s with
      pa := if c.enablePagePrealloc then s.pa.triggerPreallocation else s.pa
      engine := .idle
      handedOut := p :: s.handedOut }
  | .unmapped (.resize n) ps =>
    some { s with pa := (s.pa.resizeRelocked n ps).2, engine := .idle }
  | .unmapped .free ps | .unmapped .trim ps =>
    some { s with pa := s.pa.pushFree ps, engine := .idle }
  | _ => none

/-- `free_page` and `free_pages` are enabled for pages that are handed out only; pages whose
unmap call throws are in no list afterwards. -/
def step (c : PageAllocatorConfig) (s : System) : Act → Option System
  | .allocPage => if s.engine = .idle then some (s.allocStep c) else none
  | .wake => if s.engine = .waiting then some (s.allocStep c) else none
  | .freePage p =>
    if s.engine = .idle ∧ p ∈ s.handedOut then some (s.freePageStep c p) else none
  | .freePages ps =>
    if s.engine = .idle ∧ ps.Subperm s.handedOut then some (s.freePagesStep c ps) else none
  | .resize m => if s.engine = .idle then some (s.resizeStep c m) else none
  | .trim => if s.engine = .idle then some s.trimStep else none
  | .resetFreePageOrder =>
    if s.engine = .idle then some { s with pa := s.pa.resetFreePageOrder } else none
  | .startPrealloc =>
    if s.engine = .idle then some { s with pa := s.pa.triggerPreallocation } else none
  | .mapReturns ok => match s.engine, ok with
    | .mapping p, true => some { s with engine := .mapped p, physical := insert p s.physical }
    | .mapping p, false => some { s with engine := .idle, pa := s.pa.allocPageFailed p }
    | _, _ => none
  | .unmapReturns ok => match s.engine, ok with
    | .unmapping k ps, true =>
      some { s with engine := .unmapped k ps, physical := s.physical \ ps.toFinset }
    | .unmapping _ _, false => some { s with engine := .idle }
    | _, _ => none
  | .relock => s.relockStep c
  | .workerGrab n =>
    if s.worker = .idle ∧ c.enablePagePrealloc ∧ s.pa.preallocNeeded then
      match s.pa.preallocGrab c n with
      | ([], a) => some { s with pa := a }
      | (p :: ps, a) => some { s with pa := a, worker := .mapping (p :: ps) }
    else none
  | .workerMapReturns ok => match s.worker, ok with
    | .mapping ps, true =>
      some { s with worker := .mapped ps, physical := s.physical ∪ ps.toFinset }
    | .mapping ps, false => some { s with worker := .idle, pa := s.pa.preallocFailed ps }
    | _, _ => none
  | .workerRelock => match s.worker with
    | .mapped ps => some { s with worker := .idle, pa := s.pa.preallocReserve ps }
    | _ => none

/-- Every place a page id can be in. -/
def places (s : System) : List PageId :=
  s.pa.lists ++ s.handedOut ++ s.engine.inFlight ++ s.worker.inFlight

/-- The pages some thread is passing to `map_pages`. -/
def beingMapped (s : System) : List PageId := s.engine.passedToMap ++ s.worker.passedToMap

end System

end GpuSharing.Kvcached
