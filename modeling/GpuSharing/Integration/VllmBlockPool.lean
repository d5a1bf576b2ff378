import Mathlib.Logic.Function.Basic
import GpuSharing.Kvcached.KvCacheManager

namespace GpuSharing.Integration

open Kvcached

/-- What an `ElasticBlockPool` calls on its `KVCacheManager`. `background` is what happens there
between two calls. -/
structure BlockManagerApi (μ : Type) where
  availableSize : μ → Int
  alloc : Int → μ → Option (Except PyError (Option (List BlockId)) × μ)
  free : List BlockId → μ → Except PyError Unit × μ
  background : μ → μ

/-- A `KVCacheManager` over the page allocator `S`. -/
def kvCacheManagerApi {σ : Type} (C : KvCacheManagerConfig) (S : PageAllocatorApi σ) :
    BlockManagerApi (KvCacheManager σ) where
  availableSize := KvCacheManager.availableSize C S
  alloc := KvCacheManager.alloc C S
  free := KvCacheManager.free C S
  background m := { m with pageAllocator := S.background m.pageAllocator }

inductive BlockPoolError
  | manager (e : PyError)
  | valueError (msg : String)
  | assertionError (msg : String)
  | typeError (msg : String)
  | overflowError (msg : String)
  | indexError (msg : String)
  deriving DecidableEq, Repr

/-- `BlockHash` is `bytes`. -/
abbrev BlockHash := List UInt8

abbrev CacheKey := List UInt8

structure ElasticBlockPoolConfig where
  numGpuBlocks : Nat
  enablePrefixCache : Bool
  /-- A negative number is no limit. -/
  maxCachedBlocks : Int := 1000
  numGpuBlocks_pos : 0 < numGpuBlocks := by decide
  deriving DecidableEq

/-- What has happened to a block: the manager handed it out, the pool gave it back while its
`ref_cnt` was `refCnt`, or `cache_full_blocks` stored it. -/
inductive BlockEvent
  | issued (b : BlockId)
  | returned (b : BlockId) (refCnt : Int)
  | cached (b : BlockId) (blockHash : BlockHash) (groupId : Int)
  deriving DecidableEq

/-- A block is its `block_id`. `evictableBlocks` has the oldest block first; the order of the two
indexes is never read. Nothing reads `history`, the newest event first. -/
structure ElasticBlockPool (μ : Type) where
  kvCacheManager : μ
  refCnt : BlockId → Int
  nullBlock : BlockId
  cachedBlocks : Dict CacheKey BlockId
  blockIdToKey : Dict BlockId CacheKey
  evictableBlocks : List BlockId
  history : List BlockEvent

/-- An argument of `cache_full_blocks` passed by position. -/
inductive PyArg
  | hashes (hs : List BlockHash)
  | int (n : Int)
  | other
  deriving DecidableEq

/-- A call of `cache_full_blocks`; `requestHashes` is `request.block_hashes`, if it exists. -/
structure CacheCall where
  requestHashes : Option (List BlockHash)
  blocks : List BlockId
  args : List PyArg := []
  blockHashes : Option (List BlockHash) := none
  numCachedBlocks : Option PyArg := none
  numFullBlocks : Option PyArg := none
  blockSize : Option PyArg := none
  kvCacheGroupId : PyArg := .int 0
  deriving DecidableEq

/-- The second argument of `get_cached_block`. -/
inductive CacheGroups
  | default
  | single (groupId : Int)
  | all (groupIds : List Int)
  deriving DecidableEq

/-- `group_id.to_bytes(4, "big", signed=False)`. -/
def groupBytes (groupId : Int) : Except BlockPoolError (List UInt8) :=
  if groupId < 0 then .error (.overflowError "can't convert negative int to unsigned")
  else if 2^32 ≤ groupId then .error (.overflowError "int too big to convert")
  else
    let n := groupId.toNat
    .ok [.ofNat (n / 2^24), .ofNat (n / 2^16), .ofNat (n / 2^8), .ofNat n]

/-- `_make_cache_key`. -/
def makeCacheKey (blockHash : BlockHash) (groupId : Int) : Except BlockPoolError CacheKey :=
  match groupBytes groupId with
  | .ok bytes => .ok (blockHash ++ bytes)
  | .error e => .error e

/-- `xs[i]`, from the end when `i` is negative. -/
def pyGet {α : Type} (xs : List α) (i : Int) : Option α :=
  if 0 ≤ i then xs[i.toNat]?
  else if 0 ≤ xs.length + i then xs[(xs.length + i).toNat]?
  else none

/-- The first argument if it is there, else the next one passed by position. -/
def takeArg : Option PyArg → List PyArg → Option PyArg × List PyArg
  | some x, args => (some x, args)
  | none, [] => (none, [])
  | none, x :: args => (some x, args)

/-- `int(x)`. -/
def PyArg.toInt : PyArg → Except BlockPoolError Int
  | .int n => .ok n
  | .hashes _ => .error (.typeError ("int() argument must be a string, a bytes-like object or " ++
      "a real number, not 'list'"))
  | .other => .error (.typeError ("int() argument must be a string, a bytes-like object or " ++
      "a real number, not 'function'"))

/-- The hashes passed, `num_cached_blocks`, `num_full_blocks` and `kv_cache_group_id`, whichever
signature the caller follows. -/
def CacheCall.resolve (a : CacheCall) :
    Except BlockPoolError (Option (List BlockHash) × Int × Int × Int) :=
  let hashes := match a.blockHashes, a.args with
    | none, .hashes hs :: rest => (some hs, rest)
    | hs, args => (hs, args)
  let cached := takeArg a.numCachedBlocks hashes.2
  let full := takeArg a.numFullBlocks cached.2
  let size := takeArg a.blockSize full.2
  let group := match size.2 with
    | .int n :: _ => PyArg.int n
    | _ => a.kvCacheGroupId
  match cached.1, full.1 with
  | some c, some f =>
    match c.toInt, f.toInt, group.toInt with
    | .ok c, .ok f, .ok g => .ok (hashes.1, c, f, g)
    | .error e, _, _ => .error e
    | _, .error e, _ => .error e
    | _, _, .error e => .error e
  | _, _ =>
    .error (.typeError "cache_full_blocks requires num_cached_blocks and num_full_blocks")

namespace ElasticBlockPool

variable {μ : Type} (c : ElasticBlockPoolConfig) (M : BlockManagerApi μ)

/-- The block `kv_block_pool[bid]`. -/
def kvBlockPool (bid : Int) : Option BlockId :=
  if 0 ≤ bid then if bid < c.numGpuBlocks then some bid else none
  else if 0 ≤ c.numGpuBlocks + bid then some (c.numGpuBlocks + bid) else none

/-- `__init__`. -/
def init (m : μ) : Option (Except BlockPoolError (ElasticBlockPool μ)) :=
  match M.alloc 1 m with
  | none => none
  | some (.error e, _) => some (.error (.manager e))
  | some (.ok (some [b]), m) =>
    match kvBlockPool c b with
    | some nullBlock => some (.ok {
        kvCacheManager := m
        refCnt := fun _ => 0
        nullBlock
        cachedBlocks := ∅
        blockIdToKey := ∅
        evictableBlocks := []
        history := [.issued b] })
    | none => some (.error (.indexError "list index out of range"))
  | some (.ok _, _) => some (.error (.assertionError ""))

def setRefCnt (b : BlockId) (n : Int) (p : ElasticBlockPool μ) : ElasticBlockPool μ :=
  { p with refCnt := Function.update p.refCnt b n }

/-- `kv_cache_manager.free(ids)`. -/
def giveBack (ids : List BlockId) (p : ElasticBlockPool μ) :
    Except BlockPoolError Unit × ElasticBlockPool μ :=
  let r := M.free ids p.kvCacheManager
  (match r.1 with
    | .ok () => .ok ()
    | .error e => .error (.manager e),
    { p with
      kvCacheManager := r.2
      history := (ids.map fun b => .returned b (p.refCnt b)).reverse ++ p.history })

/-- `key = _block_id_to_key.pop(bid, None)`, and the key out of `_cached_blocks` too. -/
def dropKey (b : BlockId) (p : ElasticBlockPool μ) : ElasticBlockPool μ :=
  match p.blockIdToKey.lookup b with
  | some key => { p with
      blockIdToKey := p.blockIdToKey.erase b
      cachedBlocks := p.cachedBlocks.erase key }
  | none => p

def getCachedBlocks (blockHash : BlockHash) (p : ElasticBlockPool μ) :
    List Int → List BlockId → Except BlockPoolError (Option (List BlockId))
  | [], cachedBlocks => .ok (if cachedBlocks.isEmpty then none else some cachedBlocks)
  | groupId :: groupIds, cachedBlocks =>
    match makeCacheKey blockHash groupId with
    | .error e => .error e
    | .ok key =>
      match p.cachedBlocks.lookup key with
      | none => .ok none
      | some block => getCachedBlocks blockHash p groupIds (cachedBlocks ++ [block])

/-- A single block for the callers that name no group, else a block for each group. -/
def getCachedBlock (blockHash : BlockHash) (groups : CacheGroups) (p : ElasticBlockPool μ) :
    Except BlockPoolError (Option (BlockId ⊕ List BlockId)) :=
  if c.enablePrefixCache then
    match groups with
    | .default =>
      match makeCacheKey blockHash 0 with
      | .error e => .error e
      | .ok key => .ok ((p.cachedBlocks.lookup key).map .inl)
    | .single groupId => (getCachedBlocks blockHash p [groupId] []).map (·.map .inr)
    | .all groupIds => (getCachedBlocks blockHash p groupIds []).map (·.map .inr)
  else .ok none

/-- The loop of `cache_full_blocks`. -/
def cacheLoop (blockHashes : List BlockHash) (groupId : Int) :
    Int → List BlockId → ElasticBlockPool μ → Except BlockPoolError Unit × ElasticBlockPool μ
  | _, [], p => (.ok (), p)
  | blockIdx, block :: blocks, p =>
    if block = p.nullBlock then cacheLoop blockHashes groupId (blockIdx + 1) blocks p
    else match pyGet blockHashes blockIdx with
    | none => (.error (.indexError "list index out of range"), p)
    | some blockHash =>
      match makeCacheKey blockHash groupId with
      | .error e => (.error e, p)
      | .ok key =>
        if key ∈ p.cachedBlocks then cacheLoop blockHashes groupId (blockIdx + 1) blocks p
        else cacheLoop blockHashes groupId (blockIdx + 1) blocks { p with
          cachedBlocks := p.cachedBlocks.insert key block
          blockIdToKey := p.blockIdToKey.insert block key
          history := .cached block blockHash groupId :: p.history }

def cacheFullBlocks (a : CacheCall) (p : ElasticBlockPool μ) :
    Except BlockPoolError Unit × ElasticBlockPool μ :=
  if c.enablePrefixCache then
    match a.resolve with
    | .error e => (.error e, p)
    | .ok (passed, numCachedBlocks, numFullBlocks, groupId) =>
      if numFullBlocks ≤ numCachedBlocks then (.ok (), p)
      else match passed <|> a.requestHashes with
      | none => (.error (.assertionError "Request missing block_hashes attribute"), p)
      | some blockHashes =>
        if blockHashes.length < numFullBlocks then
          (.error (.assertionError (s!"Request has {blockHashes.length} hashes " ++
            s!"but need {numFullBlocks}")), p)
        else
          let newFullBlocks := (a.blocks.take (sliceIndex a.blocks numFullBlocks)).drop
            (sliceIndex a.blocks numCachedBlocks)
          cacheLoop blockHashes groupId numCachedBlocks newFullBlocks p
  else (.ok (), p)

/-- The loop of `_evict_blocks_from_pool`; it makes no more passes than there are blocks. -/
def evictLoop : Nat → List BlockId → ElasticBlockPool μ → List BlockId × ElasticBlockPool μ
  | 0, idsToFree, p => (idsToFree, p)
  | n + 1, idsToFree, p =>
    match p.evictableBlocks with
    | [] => (idsToFree, p)
    | b :: rest => evictLoop n (idsToFree ++ [b]) (dropKey b { p with evictableBlocks := rest })

/-- `if ids: kv_cache_manager.free(ids)`. -/
def giveBackAny (ids : List BlockId) (p : ElasticBlockPool μ) :
    Except BlockPoolError Unit × ElasticBlockPool μ :=
  if ids.isEmpty then (.ok (), p) else giveBack M ids p

/-- `_evict_blocks_from_pool`. No caller reads the count it returns. -/
def evictBlocksFromPool (numToEvict : Int) (p : ElasticBlockPool μ) :
    Except BlockPoolError Unit × ElasticBlockPool μ :=
  let r := evictLoop (min numToEvict p.evictableBlocks.length).toNat [] p
  giveBackAny M r.1 r.2

def getNumFreeBlocks (p : ElasticBlockPool μ) : Int :=
  if c.enablePrefixCache then M.availableSize p.kvCacheManager + p.evictableBlocks.length
  else M.availableSize p.kvCacheManager

/-- The eviction in `get_new_blocks`. -/
def makeRoom (numBlocks : Int) (p : ElasticBlockPool μ) :
    Except BlockPoolError Unit × ElasticBlockPool μ :=
  if c.enablePrefixCache then
    let kvcachedFree := M.availableSize p.kvCacheManager
    if kvcachedFree < numBlocks ∧ p.evictableBlocks ≠ [] then
      evictBlocksFromPool M (numBlocks - kvcachedFree) p
    else (.ok (), p)
  else (.ok (), p)

/-- The last loop of `get_new_blocks`. -/
def refLoop : List BlockId → List BlockId → ElasticBlockPool μ →
    Except BlockPoolError (List BlockId) × ElasticBlockPool μ
  | [], blocks, p => (.ok blocks, p)
  | bid :: bids, blocks, p =>
    match kvBlockPool c bid with
    | none => (.error (.indexError "list index out of range"), p)
    | some block => refLoop bids (blocks ++ [block]) (setRefCnt block 1 p)

/-- `kv_cache_manager.alloc(num_blocks)`, the assertion on it and the loop. -/
def allocBlocks (numBlocks : Int) (p : ElasticBlockPool μ) :
    Option (Except BlockPoolError (List BlockId) × ElasticBlockPool μ) :=
  match M.alloc numBlocks p.kvCacheManager with
  | none => none
  | some (.error e, m) => some (.error (.manager e), { p with kvCacheManager := m })
  | some (.ok none, m) => some (.error (.assertionError ""), { p with kvCacheManager := m })
  | some (.ok (some ids), m) =>
    let p := { p with
      kvCacheManager := m
      history := (ids.map .issued).reverse ++ p.history }
    if ids.length = numBlocks then some (refLoop c ids [] p)
    else some (.error (.assertionError ""), p)

/-- It does not return when `alloc` does not. -/
def getNewBlocks (numBlocks : Int) (p : ElasticBlockPool μ) :
    Option (Except BlockPoolError (List BlockId) × ElasticBlockPool μ) :=
  if getNumFreeBlocks c M p < numBlocks then
    some (.error (.valueError s!"Cannot get {numBlocks} free blocks from the pool"), p)
  else match makeRoom c M numBlocks p with
  | (.error e, p) => some (.error e, p)
  | (.ok (), p) => allocBlocks c M numBlocks p

/-- `ref_cnt += 1`, and out of the evictable blocks. -/
def touchBlock (p : ElasticBlockPool μ) (b : BlockId) : ElasticBlockPool μ :=
  { setRefCnt b (p.refCnt b + 1) p with evictableBlocks := p.evictableBlocks.erase b }

/-- A list of blocks, or a tuple of lists. -/
def touch (blocks : List BlockId ⊕ List (List BlockId)) (p : ElasticBlockPool μ) :
    ElasticBlockPool μ :=
  if c.enablePrefixCache then
    match blocks with
    | .inl bs => bs.foldl touchBlock p
    | .inr bss => bss.foldl (fun p bs => bs.foldl touchBlock p) p
  else p

/-- The loop of `free_blocks`, with `uncached_to_free` as accumulator. -/
def releaseLoop : List (Option BlockId) → List BlockId → ElasticBlockPool μ →
    List BlockId × ElasticBlockPool μ
  | [], uncachedToFree, p => (uncachedToFree, p)
  | none :: blocks, uncachedToFree, p => releaseLoop blocks uncachedToFree p
  | some b :: blocks, uncachedToFree, p =>
    if b = p.nullBlock then releaseLoop blocks uncachedToFree p
    else if p.refCnt b - 1 = 0 then
      if b ∈ p.blockIdToKey then
        releaseLoop blocks uncachedToFree { setRefCnt b (p.refCnt b - 1) p with
          evictableBlocks :=
            if b ∈ p.evictableBlocks then p.evictableBlocks else p.evictableBlocks ++ [b] }
      else releaseLoop blocks (uncachedToFree ++ [b]) (setRefCnt b (p.refCnt b - 1) p)
    else releaseLoop blocks uncachedToFree (setRefCnt b (p.refCnt b - 1) p)

/-- The eviction in `free_blocks`. -/
def trimCache (p : ElasticBlockPool μ) : Except BlockPoolError Unit × ElasticBlockPool μ :=
  if 0 ≤ c.maxCachedBlocks ∧ c.maxCachedBlocks < p.evictableBlocks.length then
    evictBlocksFromPool M (p.evictableBlocks.length - c.maxCachedBlocks) p
  else (.ok (), p)

/-- The blocks of the list that are neither `None` nor the null block. -/
def nonNull (blocks : List (Option BlockId)) (p : ElasticBlockPool μ) : List BlockId :=
  blocks.reduceOption.filter (· ≠ p.nullBlock)

def freeBlocks (orderedBlocks : List (Option BlockId)) (p : ElasticBlockPool μ) :
    Except BlockPoolError Unit × ElasticBlockPool μ :=
  if c.enablePrefixCache then
    let r := releaseLoop orderedBlocks [] p
    match giveBackAny M r.1 r.2 with
    | (.error e, p) => (.error e, p)
    | (.ok (), p) => trimCache c M p
  else giveBackAny M (nonNull orderedBlocks p) p

/-- The loop of `evict_blocks`. -/
def dropLoop : List BlockId → List BlockId → ElasticBlockPool μ → List BlockId × ElasticBlockPool μ
  | [], idsToFree, p => (idsToFree, p)
  | bid :: bids, idsToFree, p =>
    let p := dropKey bid p
    if bid ∈ p.evictableBlocks then
      dropLoop bids (idsToFree ++ [bid]) { p with evictableBlocks := p.evictableBlocks.erase bid }
    else dropLoop bids idsToFree p

/-- `block_ids` in the order the set is iterated in. -/
def evictBlocks (blockIds : List BlockId) (p : ElasticBlockPool μ) :
    Except BlockPoolError Unit × ElasticBlockPool μ :=
  if c.enablePrefixCache then
    let r := dropLoop blockIds [] p
    giveBackAny M r.1 r.2
  else (.ok (), p)

def resetPrefixCache (p : ElasticBlockPool μ) : Except BlockPoolError Bool × ElasticBlockPool μ :=
  if c.enablePrefixCache then
    match giveBackAny M p.evictableBlocks { p with evictableBlocks := [] } with
    | (.error e, p) => (.error e, p)
    | (.ok (), p) => (.ok true, { p with cachedBlocks := ∅, blockIdToKey := ∅ })
  else (.ok true, p)

end ElasticBlockPool

end GpuSharing.Integration
