import Mathlib.Algebra.Group.Nat.Defs
import Mathlib.Data.Int.Range
import Mathlib.Data.List.Count
import Mathlib.Data.List.Perm.Subperm
import Mathlib.Data.List.Sort
import GpuSharing.Lib.Numerals

namespace GpuSharing.Kvcached

abbrev PageId := Int

theorem nodup_intRange (a b : Int) : (Int.range a b).Nodup :=
  List.Nodup.map (fun _ _ h => by omega) List.nodup_range

theorem append_diff_perm {xs ys : List Int} (h : xs.Subperm ys) : (xs ++ ys.diff xs).Perm ys :=
  List.subperm_append_diff_self_of_count_le fun x _ => List.Subperm.count_le h x

/-- `static_cast<size_t>` of an `int64_t`. -/
def sizeT (x : Int) : Nat := (x % 2^64).toNat

/-- The constructor's arguments and the environment constants `PageAllocator` is built from. -/
structure PageAllocatorConfig where
  numLayers : Int
  memSizePerLayer : Int
  pageSize : Int
  worldSize : Int := 1
  ppRank : Int := 0
  contiguousLayout : Bool := true
  enablePagePrealloc : Bool := true
  numKvBuffers : Int := 2
  groupId : Int := 0
  deferFreeUnmap : Bool := false
  minReservedPagesEnv : Int := 5
  maxReservedPagesEnv : Int := 10
  numLayers_pos : 0 < numLayers := by first | exact Int.one_pos | exact Numerals.pos_two | decide
  memSizePerLayer_nonneg : 0 ≤ memSizePerLayer := by decide
  pageSize_pos : 0 < pageSize := by first | exact Int.one_pos | exact Numerals.pos_two | decide
  numKvBuffers_pos : 0 < numKvBuffers := by first | exact Int.one_pos | exact Numerals.pos_two | decide

namespace PageAllocatorConfig

def numPages (c : PageAllocatorConfig) : Int := c.memSizePerLayer.tdiv c.pageSize

def minReservedPages (c : PageAllocatorConfig) : Int := min c.numPages c.minReservedPagesEnv

def maxReservedPages (c : PageAllocatorConfig) : Int := min c.numPages c.maxReservedPagesEnv

theorem numPages_nonneg (c : PageAllocatorConfig) : 0 ≤ c.numPages :=
  Int.tdiv_nonneg c.memSizePerLayer_nonneg c.pageSize_pos.le

end PageAllocatorConfig

/-- The fields of `PageAllocator` that change after construction. -/
structure PageAllocator where
  numFreePages : Int
  numTotalPages : Int
  freePageList : List PageId
  reservedPageList : List PageId
  reclaimedPageList : List PageId
  preallocNeeded : Bool
  deriving DecidableEq, Repr

namespace PageAllocator

def init (c : PageAllocatorConfig) : PageAllocator where
  numFreePages := c.numPages
  numTotalPages := c.numPages
  freePageList := Int.range 0 c.numPages
  reservedPageList := []
  reclaimedPageList := []
  preallocNeeded := false

def getNumInusePages (a : PageAllocator) : Int := a.numTotalPages - a.numFreePages

/-- How one pass through the loop of `alloc_page`, run under the lock, ends. -/
inductive AllocOutcome
  | fast (page : PageId)
  | slow (page : PageId)
  | throws (msg : String)
  | wait
  deriving DecidableEq, Repr

def allocPageLoop (c : PageAllocatorConfig) (a : PageAllocator) : AllocOutcome × PageAllocator :=
  match a.reservedPageList, a.freePageList with
  | p :: rest, _ =>
    (.fast p, { a with
      reservedPageList := rest
      numFreePages := a.numFreePages - 1
      preallocNeeded := a.preallocNeeded || decide (rest.length < sizeT c.minReservedPages) })
  | [], p :: rest =>
    (.slow p, { a with freePageList := rest, numFreePages := a.numFreePages - 1 })
  | [], [] =>
    if a.numFreePages ≤ 0 then (.throws "No free pages left", a)
    else if !c.enablePagePrealloc then
      (.throws "Inconsistent page allocator state: no free pages available", a)
    else (.wait, a)

/-- The `catch` branch of `alloc_page`: the page goes back to the front of the free list. -/
def allocPageFailed (p : PageId) (a : PageAllocator) : PageAllocator :=
  { a with freePageList := p :: a.freePageList, numFreePages := a.numFreePages + 1 }

def triggerPreallocation (a : PageAllocator) : PageAllocator := { a with preallocNeeded := true }

/-- First lock section of `free_page`; the flag says that the page is still to be unmapped. -/
def freePageLocked (c : PageAllocatorConfig) (p : PageId) (a : PageAllocator) :
    Bool × PageAllocator :=
  if c.deferFreeUnmap || decide (a.reservedPageList.length < sizeT c.maxReservedPages) then
    (false, { a with
      numFreePages := a.numFreePages + 1
      reservedPageList := a.reservedPageList ++ [p] })
  else (true, { a with numFreePages := a.numFreePages + 1 })

/-- First lock section of `free_pages`: the pages still to be unmapped, or `none` when it
returns from this section. -/
def freePagesLocked (c : PageAllocatorConfig) (ps : List PageId) (a : PageAllocator) :
    Option (List PageId) × PageAllocator :=
  let numToReserve : Int :=
    if c.deferFreeUnmap then ps.length else c.maxReservedPages - a.reservedPageList.length
  if 0 < numToReserve then
    let k := min numToReserve.toNat ps.length
    let a := { a with
      numFreePages := a.numFreePages + ps.length
      reservedPageList := a.reservedPageList ++ ps.take k }
    (if (ps.drop k).isEmpty then none else some (ps.drop k), a)
  else (some ps, { a with numFreePages := a.numFreePages + ps.length })

/-- Last lock section of `free_page`, `free_pages` and `trim`. -/
def pushFree (ps : List PageId) (a : PageAllocator) : PageAllocator :=
  { a with freePageList := a.freePageList ++ ps }

/-- First lock section of `trim`: the reserved pages, which leave their list. -/
def trimLocked (a : PageAllocator) : List PageId × PageAllocator :=
  (a.reservedPageList, { a with reservedPageList := [] })

def resetFreePageOrder (a : PageAllocator) : PageAllocator :=
  { a with freePageList := a.freePageList.insertionSort (· ≤ ·) }

/-- The growth path of `resize`. The new ids start at the page count, whatever was reused. -/
def grow (newNumPages : Int) (a : PageAllocator) : PageAllocator :=
  let numToReuse := min (a.reclaimedPageList.length : Int) (newNumPages - a.numTotalPages)
  let numToExpand := newNumPages - a.numTotalPages - numToReuse
  { a with
    freePageList := a.freePageList ++ a.reclaimedPageList.take numToReuse.toNat ++
      Int.range a.numTotalPages (a.numTotalPages + numToExpand)
    reclaimedPageList := a.reclaimedPageList.drop numToReuse.toNat
    numFreePages := a.numFreePages + numToReuse + numToExpand
    numTotalPages := newNumPages }

/-- The reclaim loop of `resize`: pages leave the back of the free list one by one. -/
def reclaim (newNumPages : Int) (a : PageAllocator) : PageAllocator :=
  let numToReclaim := a.numTotalPages - newNumPages
  let keep := a.freePageList.length - numToReclaim.toNat
  { a with
    freePageList := a.freePageList.take keep
    reclaimedPageList := a.reclaimedPageList ++ (a.freePageList.drop keep).reverse
    numFreePages := a.numFreePages - numToReclaim
    numTotalPages := newNumPages }

inductive ResizeOutcome
  | returns (ok : Bool)
  | unmaps (ps : List PageId)
  deriving DecidableEq, Repr

/-- First lock section of `resize`. On the shrink path `num_to_reclaim` is positive, so its
cast to `size_t` is the identity. -/
def resizeLocked (newNumPages : Int) (a : PageAllocator) : ResizeOutcome × PageAllocator :=
  if newNumPages < a.getNumInusePages then (.returns false, a)
  else if newNumPages = a.numTotalPages then (.returns true, a)
  else if a.numTotalPages < newNumPages then (.returns true, a.grow newNumPages)
  else if a.freePageList.length < a.numTotalPages - newNumPages then
    if a.reservedPageList.isEmpty then (.returns false, a)
    else (.unmaps a.reservedPageList, { a with reservedPageList := [] })
  else (.returns true, a.reclaim newNumPages)

/-- Second lock section of `resize`, after the reserved pages were unmapped. -/
def resizeRelocked (newNumPages : Int) (ps : List PageId) (a : PageAllocator) :
    Bool × PageAllocator :=
  let a := a.pushFree ps
  if a.freePageList.length < a.numTotalPages - newNumPages then (false, a)
  else (true, a.reclaim newNumPages)

/-- The lock section of `prealloc_worker`: the pages it takes off the free list, given what
`get_avail_physical_pages` answers. -/
def preallocGrab (c : PageAllocatorConfig) (availPhysicalPages : Int) (a : PageAllocator) :
    List PageId × PageAllocator :=
  let toReserve := max 0 (c.minReservedPages - a.reservedPageList.length)
  let k := (min toReserve (min (a.freePageList.length : Int) availPhysicalPages)).toNat
  (a.freePageList.take k,
    { a with preallocNeeded := false, freePageList := a.freePageList.drop k })

def preallocReserve (ps : List PageId) (a : PageAllocator) : PageAllocator :=
  { a with reservedPageList := a.reservedPageList ++ ps }

/-- The `catch` branch of `prealloc_worker`. -/
def preallocFailed (ps : List PageId) (a : PageAllocator) : PageAllocator :=
  { a with freePageList := ps ++ a.freePageList }

/-- `get_avail_physical_pages`, from the free bytes `cudaMemGetInfo` reports and the headroom; both
are `size_t`, and so is their difference. -/
def getAvailPhysicalPages (c : PageAllocatorConfig) (availPhyMemSize headroom : Nat) : Int :=
  let availPhyMemSize := sizeT (availPhyMemSize - headroom)
  let availPhyPages := Int.bmod (availPhyMemSize / c.pageSize) (2^64)
  (availPhyPages.tdiv c.numLayers).tdiv c.numKvBuffers

/-- `map_pages` and `unmap_pages` pass this offset on for a page id. -/
def pageOffset (c : PageAllocatorConfig) (p : PageId) : Int :=
  if c.contiguousLayout then p * c.pageSize * c.numLayers * c.numKvBuffers else p * c.pageSize

/-- The three lists of page ids the allocator keeps. -/
def lists (a : PageAllocator) : List PageId :=
  a.freePageList ++ a.reservedPageList ++ a.reclaimedPageList

/-- One more than the largest page id `resize` has issued while its growths were clean. -/
def highWater (a : PageAllocator) : Int := a.numTotalPages + a.reclaimedPageList.length

end PageAllocator

end GpuSharing.Kvcached
