import Mathlib.Algebra.Order.Ring.Int
import Mathlib.Tactic.Linarith
import Mathlib.Tactic.Ring
import GpuSharing.Kvcached.PageAllocator

namespace GpuSharing.Kvcached

abbrev BlockId := Int

/-- `num_kv_blocks` is -1 for a page that lies strictly inside one block. -/
structure InternalPage where
  pageId : PageId
  pageSize : Int
  startBlock : Int
  endBlock : Int
  numKvBlocks : Int
  freeList : List BlockId
  deriving DecidableEq, Repr

namespace InternalPage

/-- The blocks that lie inside the page as a whole. -/
def getBlockRange (pageId : PageId) (pageSize blockMemSize : Int) : Int × Int :=
  ((pageId * pageSize + blockMemSize - 1).tdiv blockMemSize,
    ((pageId + 1) * pageSize).tdiv blockMemSize)

def getNumBlocks (pageSize blockMemSize : Int) : Int := pageSize.tdiv blockMemSize

def mk' (pageId : PageId) (pageSize : Int) : InternalPage := ⟨pageId, pageSize, 0, 0, 0, []⟩

def init (p : InternalPage) (blockMemSize : Int) : InternalPage :=
  let range := getBlockRange p.pageId p.pageSize blockMemSize
  { p with
    startBlock := range.1
    endBlock := range.2
    numKvBlocks := range.2 - range.1
    freeList := Int.range range.1 range.2 }

def alloc (p : InternalPage) (numBlocks : Int) : Except String (List BlockId × InternalPage) :=
  if p.freeList.length < sizeT numBlocks then .error "Not enough free blocks in page"
  else .ok (p.freeList.take numBlocks.toNat,
    { p with freeList := p.freeList.drop numBlocks.toNat })

def freeBatch (p : InternalPage) (blockIds : List BlockId) : InternalPage :=
  { p with freeList := p.freeList ++ blockIds }

def empty (p : InternalPage) : Bool := decide (p.freeList.length = sizeT p.numKvBlocks)

def full (p : InternalPage) : Bool := p.freeList.isEmpty

def numFreeBlocks (p : InternalPage) : Int := p.freeList.length

/-- Block `b` lies inside page `p`. -/
def Within (pageSize blockMemSize : Int) (b : BlockId) (p : PageId) : Prop :=
  p * pageSize ≤ b * blockMemSize ∧ (b + 1) * blockMemSize ≤ (p + 1) * pageSize

variable {pageSize blockMemSize : Int}

theorem ceil_le_iff (hb : 0 < blockMemSize) {x b : Int} (hx : 0 ≤ x) :
    (x + blockMemSize - 1).tdiv blockMemSize ≤ b ↔ x ≤ b * blockMemSize := by
  rw [Int.tdiv_eq_ediv_of_nonneg (by omega), ← Int.lt_add_one_iff, Int.ediv_lt_iff_lt_mul hb,
    add_mul, one_mul]
  omega

theorem lt_floor_iff (hb : 0 < blockMemSize) {y b : Int} (hy : 0 ≤ y) :
    b < y.tdiv blockMemSize ↔ (b + 1) * blockMemSize ≤ y := by
  rw [Int.tdiv_eq_ediv_of_nonneg hy, Int.lt_iff_add_one_le, Int.le_ediv_iff_mul_le hb]

theorem ediv_eq_zero_iff {x y : Int} (hx : 0 ≤ x) (hy : 0 < y) : x / y = 0 ↔ x < y := by
  have hpos : 0 ≤ x / y := Int.ediv_nonneg hx hy.le
  have hless : x / y < 1 ↔ x < y := by rw [Int.ediv_lt_iff_lt_mul hy, one_mul]
  omega

theorem mem_blockRange (hs : 0 < pageSize) (hb : 0 < blockMemSize) {p : Int} (hp : 0 ≤ p)
    (b : BlockId) :
    b ∈ Int.range (getBlockRange p pageSize blockMemSize).1
      (getBlockRange p pageSize blockMemSize).2 ↔ Within pageSize blockMemSize b p := by
  have h1 : 0 ≤ p * pageSize := Int.mul_nonneg hp hs.le
  have h2 : 0 ≤ (p + 1) * pageSize := Int.mul_nonneg (by omega) hs.le
  rw [Int.mem_range_iff, getBlockRange, ceil_le_iff hb h1, lt_floor_iff hb h2, Within]

end InternalPage

namespace PageAllocator

def getPageId (pageSize : Int) (blockId : BlockId) (blockMemSize : Int) : PageId :=
  (blockId * blockMemSize).tdiv pageSize

theorem getPageId_of_within {pageSize blockMemSize : Int} (hs : 0 < pageSize)
    (hb : 0 < blockMemSize) {b p : Int} (hp : 0 ≤ p)
    (h : InternalPage.Within pageSize blockMemSize b p) :
    getPageId pageSize b blockMemSize = p := by
  obtain ⟨hlo, hhi⟩ := h
  have h0 : 0 ≤ p * pageSize := Int.mul_nonneg hp hs.le
  have hhi : b * blockMemSize < (p + 1) * pageSize := by nlinarith
  have hle : p ≤ b * blockMemSize / pageSize := (Int.le_ediv_iff_mul_le hs).mpr hlo
  have hlt : b * blockMemSize / pageSize < p + 1 := (Int.ediv_lt_iff_lt_mul hs).mpr hhi
  rw [getPageId, Int.tdiv_eq_ediv_of_nonneg (h0.trans hlo)]
  exact le_antisymm (Int.lt_add_one_iff.mp hlt) hle

end PageAllocator

end GpuSharing.Kvcached
