import GpuSharing.Lib.StridedView
import GpuSharing.Kvcached.KvPool

namespace GpuSharing.Integration

open Strided Kvcached

inductive AttentionType
  | mha
  | gqa
  | mla
  | hybridLinear
  deriving DecidableEq, Repr

/-- The arguments of `alloc_kv_cache` and the globals it reads. Page sizes are multiples of 2 MiB
and element sizes powers of two, so the former are multiples of the latter. -/
structure KvCacheRequest where
  kvcacheShape : List Nat
  blockSize : Nat
  itemsize : Nat
  numLayers : Nat
  attentionType : AttentionType
  kernelBlockSize : Option Nat
  contiguousLayout : Bool
  pageSize : Nat
  gpuMemBytes : Nat
  numLayers_pos : 0 < numLayers := by decide
  pageSize_pos : 0 < pageSize := by decide
  itemsize_dvd : itemsize ∣ pageSize := by decide

/-- What `alloc_kv_cache` returns, and where the block and token dimensions of the views are. -/
structure KvCache where
  views : List View
  blocksDimIdx : Nat
  tokenDimIdx : Nat
  numBlocksPerLayer : Nat
  pageSizeBytes : Nat
  deriving DecidableEq, Repr

/-- Python's text of a tuple of integers. -/
def pyTuple : List Nat → String
  | [] => "()"
  | [n] => "(" ++ toString n ++ ",)"
  | ns => "(" ++ ", ".intercalate (ns.map toString) ++ ")"

namespace KvCacheRequest

def isMla (r : KvCacheRequest) : Bool := r.attentionType == .mla

def unifiedPool (r : KvCacheRequest) : Bool := r.attentionType == .hybridLinear

def numKOrV (r : KvCacheRequest) : Nat := if r.isMla then 1 else 2

/-- Rounded down to whole pages. -/
def gpuMemBytesPerLayerKOrV (r : KvCacheRequest) : Nat :=
  r.gpuMemBytes / r.numLayers / r.numKOrV / r.pageSize * r.pageSize

/-- The shape checks: the block dimension, the permutation of the contiguous view and the bytes
of a block of K or V. -/
def checkShape (r : KvCacheRequest) : Except String (Nat × List Nat × Nat) :=
  let shape := r.kvcacheShape
  if r.isMla then
    if shape.length ≤ 2 then
      throw ("Unsupported MLA kv cache shape: " ++ pyTuple shape)
    else if shape.getD 1 0 ≠ r.blockSize then
      throw ("block_size mismatch: kvcache_shape[1]=" ++ toString (shape.getD 1 0) ++
        " != block_size=" ++ toString r.blockSize)
    else
      return (0, List.range shape.length, (shape.drop 1).prod * r.itemsize)
  else
    if shape.length ≤ 3 ∨ (shape.getD 0 0 ≠ 2 ∧ shape.getD 1 0 ≠ 2) ∨
        shape.getD 2 0 ≠ r.blockSize then
      throw ("Unsupported kv cache shape: " ++ pyTuple shape)
    else if shape.getD 0 0 = 2 then
      return (1, 1 :: 0 :: (List.range shape.length).drop 2, (shape.drop 2).prod * r.itemsize)
    else
      return (0, List.range shape.length, (shape.drop 2).prod * r.itemsize)

/-- The view of a per-layer tensor: dense for MLA, else with the K/V stride of its pool. -/
def perLayerView (r : KvCacheRequest) (blocksDimIdx : Nat) (shape : List Nat) : View :=
  if r.isMla then .dense shape
  else
    let hiddenSizeEles := (shape.drop 2).prod
    let vOffsetEles := r.gpuMemBytesPerLayerKOrV / r.itemsize
    let (blockStride, kvStride) :=
      if r.unifiedPool then (2 * hiddenSizeEles, hiddenSizeEles) else (hiddenSizeEles, vOffsetEles)
    let strides := rowMajor (shape.drop 2)
    .asStrided shape (if blocksDimIdx = 1 then kvStride :: blockStride :: strides
      else blockStride :: kvStride :: strides)

def contiguousView (r : KvCacheRequest) (blocksDimIdx : Nat) (permuteOrder shape : List Nat)
    (layer : Nat) : View :=
  let layerElemShape := shape.eraseIdx blocksDimIdx
  ((View.dense (shape.getD blocksDimIdx 0 :: r.numLayers :: layerElemShape)).selectSecond
    layer).permute permuteOrder

/-- The views over the raw tensors: at kernel-block granularity for per-layer tensors, at block
granularity for the contiguous one. -/
def reshape (r : KvCacheRequest) (kernelBlockSize blocksDimIdx : Nat) (permuteOrder : List Nat)
    (blockMemBytes : Nat) : KvCache :=
  let ratio := r.blockSize / kernelBlockSize
  let numBlocksPerLayer := r.gpuMemBytesPerLayerKOrV / blockMemBytes
  let actualKvcacheShape := r.kvcacheShape.set blocksDimIdx numBlocksPerLayer
  let tokenDimIdx := if r.isMla then 1 else 2
  let kernelKvcacheShape :=
    if 1 < ratio then
      (actualKvcacheShape.set blocksDimIdx (numBlocksPerLayer * ratio)).set tokenDimIdx
        kernelBlockSize
    else actualKvcacheShape
  { views := (List.range r.numLayers).map fun layer =>
      if r.contiguousLayout then
        r.contiguousView blocksDimIdx permuteOrder actualKvcacheShape layer
      else r.perLayerView blocksDimIdx kernelKvcacheShape
    blocksDimIdx, tokenDimIdx, numBlocksPerLayer
    pageSizeBytes := (actualKvcacheShape.eraseIdx blocksDimIdx).prod * r.itemsize }

def allocKvCache (r : KvCacheRequest) : Except String KvCache := do
  if r.unifiedPool && r.contiguousLayout then
    throw ("kvcached detected a hybrid linear-attention model " ++
      "(e.g. Jamba/Bamba/NemotronH/Zamba2/Plamo2), which requires the " ++
      "non-contiguous KV layout. Re-launch with " ++
      "KVCACHED_CONTIGUOUS_LAYOUT=false. Also do NOT pass " ++
      "--disable-hybrid-kv-cache-manager to vLLM for these models — " ++
      "it only applies to attention-only hybrids like sliding-window " ++
      "models (e.g. GPT-OSS).")
  let kernelBlockSize := r.kernelBlockSize.getD r.blockSize
  if kernelBlockSize = 0 then throw "integer modulo by zero"
  if r.blockSize % kernelBlockSize ≠ 0 then
    throw ("block_size (" ++ toString r.blockSize ++ ") must be a multiple of kernel_block_size (" ++
      toString kernelBlockSize ++ ")")
  let (blocksDimIdx, permuteOrder, blockMemBytes) ← r.checkShape
  if blockMemBytes = 0 then throw "integer division or modulo by zero"
  return r.reshape kernelBlockSize blocksDimIdx permuteOrder blockMemBytes

/-- `num_kv_buffers` of `_get_kv_cache_params`: MLA and hybrid caches have one combined buffer. -/
def managerKvBuffers (r : KvCacheRequest) : Nat := if r.isMla || r.unifiedPool then 1 else 2

/-- `cell_size` of `_get_kv_cache_params`. -/
def cellSize (r : KvCacheRequest) (pageSizeBytes : Nat) : Nat :=
  pageSizeBytes / r.blockSize / r.managerKvBuffers

/-- `block_mem_size` of the manager of the cache. -/
def blockMemSize (r : KvCacheRequest) (out : KvCache) : Nat :=
  r.blockSize * r.cellSize out.pageSizeBytes

end KvCacheRequest

end GpuSharing.Integration
