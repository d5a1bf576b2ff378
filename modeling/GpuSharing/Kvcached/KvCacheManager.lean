import Mathlib.Data.List.Dedup
import GpuSharing.Lib.Dict
import GpuSharing.Kvcached.InternalPage

namespace GpuSharing.Kvcached

/-- What a `KVCacheManager` calls on its page allocator. `background` is what the allocator's
threads and other processes do between two calls. -/
structure PageAllocatorApi (σ : Type) where
  allocPage : σ → Except String PageId × σ
  freePages : List PageId → σ → σ
  resize : Int → σ → Bool × σ
  trim : σ → σ
  startPreallocThread : σ → σ
  background : σ → σ
  getNumFreePages : σ → Int
  getAvailPhysicalPages : σ → Int
  getNumReservedPages : σ → Int
  getResizeTarget : σ → Int

/-- The keys of an `unordered_map` in the order of iteration, given the keys in the order in
which they were written. -/
structure IterationOrder where
  keys : List PageId → List PageId
  nodup : ∀ ps, (keys ps).Nodup
  mem : ∀ ps p, p ∈ keys ps ↔ p ∈ ps

/-- The constructor's arguments and environment constants the methods read; sizes are `int64_t`
where they reach the page allocator. -/
structure KvCacheManagerConfig where
  blockMemSize : Int
  pageSize : Int
  reserveNullBlock : Bool := false
  skipPhysicalFreeCheck : Bool := false
  sanityCheck : Bool := false
  multiProcess : Bool := false
  groupOrder : IterationOrder := ⟨List.dedup, List.nodup_dedup, fun _ _ => List.mem_dedup⟩
  blockMemSize_pos : 0 < blockMemSize := by decide
  pageSize_pos : 0 < pageSize := by decide
  pageSize_lt : pageSize < 2^63 := by decide

/-- `_defer_prealloc_until_first_alloc`. -/
def KvCacheManagerConfig.deferPrealloc (C : KvCacheManagerConfig) : Bool :=
  !C.reserveNullBlock && C.multiProcess

inductive PyError
  | valueError (msg : String)
  | assertionError (msg : String)
  | runtimeError (msg : String)
  | timeoutError (msg : String)
  | attributeError (name : String)
  deriving DecidableEq, Repr

structure KvCacheManager (σ : Type) where
  pageAllocator : σ
  numAvailBlocks : Int
  availPages : Dict PageId InternalPage
  fullPages : Dict PageId InternalPage
  reservedBlocks : List BlockId
  nullBlock : Option (List BlockId)
  inShrink : Bool
  targetNumBlocks : Option Int
  preallocStarted : Bool
  postInitDone : Bool

/-- Where `xs[:k]` and `xs[k:]` cut a list. -/
def sliceIndex (xs : List BlockId) (k : Int) : Nat :=
  if 0 ≤ k then k.toNat else (xs.length + k).toNat

namespace KvCacheManager

variable {σ : Type}

def init (s : σ) : KvCacheManager σ where
  pageAllocator := s
  numAvailBlocks := 0
  availPages := ∅
  fullPages := ∅
  reservedBlocks := []
  nullBlock := none
  inShrink := false
  targetNumBlocks := none
  preallocStarted := false
  postInitDone := false

variable (C : KvCacheManagerConfig) (S : PageAllocatorApi σ)

def startPreallocThread (m : KvCacheManager σ) : KvCacheManager σ :=
  if m.preallocStarted then m
  else { m with pageAllocator := S.startPreallocThread m.pageAllocator, preallocStarted := true }

def availableSize (m : KvCacheManager σ) : Int :=
  let availBlocks := m.numAvailBlocks + m.reservedBlocks.length
  let blocksFromFreePages :=
    if m.inShrink then 0
    else
      let virtualFreePages := S.getNumFreePages m.pageAllocator
      let freePages :=
        if C.skipPhysicalFreeCheck then virtualFreePages
        else min virtualFreePages
          (S.getAvailPhysicalPages m.pageAllocator + S.getNumReservedPages m.pageAllocator)
      freePages * InternalPage.getNumBlocks C.pageSize C.blockMemSize
  availBlocks + blocksFromFreePages

def getNumAllocedBlocks (m : KvCacheManager σ) : Int :=
  let perPage := InternalPage.getNumBlocks C.pageSize C.blockMemSize
  m.fullPages.keys.length * perPage + (m.availPages.keys.length * perPage - m.numAvailBlocks) +
    m.reservedBlocks.length

/-- The page a pass of the loop of `_alloc` takes blocks from; `none` when it parks a new page
without a whole block and continues. -/
def nextPage (m : KvCacheManager σ) :
    Except PyError (Option InternalPage) × KvCacheManager σ :=
  match m.availPages.popitem with
  | some (_, page, rest) => (.ok (some page), { m with availPages := rest })
  | none =>
    match S.allocPage m.pageAllocator with
    | (.error msg, s) => (.error (.runtimeError msg), { m with pageAllocator := s })
    | (.ok p, s) =>
      let page := (InternalPage.mk' p C.pageSize).init C.blockMemSize
      if page.numFreeBlocks = 0 then
        (.ok none, { m with pageAllocator := s, fullPages := m.fullPages.setItem p page })
      else
        (.ok (some page), { m with
          pageAllocator := s
          numAvailBlocks := m.numAvailBlocks + page.numFreeBlocks })

def takeBlocks (numFromPage : Int) (page : InternalPage) (m : KvCacheManager σ) :
    Except PyError (List BlockId) × KvCacheManager σ :=
  match page.alloc numFromPage with
  | .error msg => (.error (.runtimeError msg), m)
  | .ok (ids, page) =>
    let m :=
      if page.full then { m with fullPages := m.fullPages.setItem page.pageId page }
      else { m with availPages := m.availPages.setItem page.pageId page }
    (.ok ids, { m with numAvailBlocks := m.numAvailBlocks - numFromPage })

/-- The loop of `_alloc`; `none` when it makes more passes than the fuel. -/
def allocLoop : Nat → Int → List BlockId → KvCacheManager σ →
    Option (Except PyError (List BlockId) × KvCacheManager σ)
  | fuel, remainingNeed, ret, m =>
    if remainingNeed ≤ 0 then some (.ok ret, m)
    else match fuel with
    | 0 => none
    | fuel + 1 =>
      match nextPage C S m with
      | (.error e, m) => some (.error e, m)
      | (.ok none, m) => allocLoop fuel remainingNeed ret m
      | (.ok (some page), m) =>
        let numFromPage := min page.numFreeBlocks remainingNeed
        match takeBlocks numFromPage page m with
        | (.error e, m) => some (.error e, m)
        | (.ok ids, m) => allocLoop fuel (remainingNeed - numFromPage) (ret ++ ids) m

/-- `_alloc` from its check of `available_size` on. Each pass of the loop takes a block or a
free page. -/
def allocBlocks (needSize : Int) (m : KvCacheManager σ) :
    Option (Except PyError (Option (List BlockId)) × KvCacheManager σ) :=
  if availableSize C S m < needSize then some (.ok none, m)
  else
    let numFromReserved : Int :=
      if m.reservedBlocks.isEmpty then 0 else min m.reservedBlocks.length needSize
    let cut := sliceIndex m.reservedBlocks numFromReserved
    let fuel := (needSize - numFromReserved).toNat + (S.getNumFreePages m.pageAllocator).toNat + 1
    match allocLoop C S fuel (needSize - numFromReserved) (m.reservedBlocks.take cut)
      { m with reservedBlocks := m.reservedBlocks.drop cut } with
    | none => none
    | some (.error e, m) => some (.error e, m)
    | some (.ok ret, m) =>
      some (.ok (some ret), if C.deferPrealloc then startPreallocThread S m else m)

def getPageId (b : BlockId) : PageId := PageAllocator.getPageId C.pageSize b C.blockMemSize

def groupIndicesByPage (ids : List BlockId) : List (PageId × List BlockId) :=
  (C.groupOrder.keys (ids.map (getPageId C))).map fun p => (p, ids.filter (getPageId C · = p))

def takePage (p : PageId) (m : KvCacheManager σ) : Option (InternalPage × KvCacheManager σ) :=
  match m.fullPages.pop p with
  | some (page, rest) => some (page, { m with fullPages := rest })
  | none =>
    match m.availPages.pop p with
    | some (page, rest) => some (page, { m with availPages := rest })
    | none => none

/-- The loop of `free` over the groups, with `pages_to_free` as accumulator. -/
def freeGroups : List (PageId × List BlockId) → List PageId → KvCacheManager σ →
    Except PyError (List PageId) × KvCacheManager σ
  | [], pagesToFree, m => (.ok pagesToFree, m)
  | (p, ids) :: groups, pagesToFree, m =>
    match m.takePage p with
    | none =>
      if C.sanityCheck then
        (.error (.valueError (s!"Page {p} not found in avail_pages or full_pages. " ++
          "This indicates a serious state inconsistency.")), m)
      else freeGroups groups pagesToFree m
    | some (page, m) =>
      let numAvailBlocks := m.numAvailBlocks + ids.length
      let page := page.freeBatch ids
      if page.empty then
        freeGroups groups (pagesToFree ++ [page.pageId])
          { m with numAvailBlocks := numAvailBlocks - page.numFreeBlocks }
      else
        freeGroups groups pagesToFree
          { m with numAvailBlocks, availPages := m.availPages.setItem p page }

/-- The end of `free`: a deferred shrink is tried again once few enough blocks are left. -/
def retryShrink (m : KvCacheManager σ) : Except PyError Unit × KvCacheManager σ :=
  if m.inShrink then
    match m.targetNumBlocks with
    | none => (.error (.assertionError ""), m)
    | some target =>
      if getNumAllocedBlocks C m ≤ target then
        (.ok (), { m with
          pageAllocator := (S.resize (target * C.blockMemSize) m.pageAllocator).2
          inShrink := false
          targetNumBlocks := none })
      else (.ok (), m)
  else (.ok (), m)

def free (ids : List BlockId) (m : KvCacheManager σ) : Except PyError Unit × KvCacheManager σ :=
  if ids.isEmpty then (.ok (), m)
  else match (if C.sanityCheck then ids.find? (· ∈ m.reservedBlocks) else none) with
  | some b =>
    (.error (.valueError s!"Freed index {b} is in  reserved_blocks, which is not allowed."), m)
  | none =>
    match freeGroups C (groupIndicesByPage C ids) [] m with
    | (.error e, m) => (.error e, m)
    | (.ok pagesToFree, m) =>
      retryShrink C S (if pagesToFree.isEmpty then m
        else { m with pageAllocator := S.freePages pagesToFree m.pageAllocator })

def freeReserved (m : KvCacheManager σ) : Except PyError Unit × KvCacheManager σ :=
  if m.reservedBlocks.isEmpty then (.ok (), m)
  else match free C S m.reservedBlocks m with
  | (.error e, m) => (.error e, m)
  | (.ok (), m) => (.ok (), { m with reservedBlocks := [] })

variable {C S} in
theorem freeReserved_nil {m : KvCacheManager σ} (h : m.reservedBlocks = []) :
    freeReserved C S m = (.ok (), m) := by
  unfold freeReserved
  rw [h]
  rfl

/-- Floor division, as Python's `//`. -/
def resize (newMemSize : Int) (m : KvCacheManager σ) : Except PyError Bool × KvCacheManager σ :=
  if newMemSize ≤ 0 then (.error (.assertionError "new_mem_size must be positive"), m)
  else match S.resize newMemSize m.pageAllocator with
  | (true, s) =>
    (.ok true, if m.inShrink then
        { m with pageAllocator := s, inShrink := false, targetNumBlocks := none }
      else { m with pageAllocator := s })
  | (false, s) =>
    if m.reservedBlocks ≠ [] then
      (.error (.assertionError "Reserved blocks must be freed before resizing."),
        { m with pageAllocator := s })
    else
      match freeReserved C S { m with
        pageAllocator := s
        inShrink := true
        targetNumBlocks := some (newMemSize / C.blockMemSize) } with
      | (.error e, m) => (.error e, m)
      | (.ok (), m) => (.ok false, m)

/-- `_alloc`. Its call of `resize` waits for `_post_init`, forever when that is the caller. -/
def alloc (needSize : Int) (m : KvCacheManager σ) :
    Option (Except PyError (Option (List BlockId)) × KvCacheManager σ) :=
  let newMemSize := S.getResizeTarget m.pageAllocator
  if 0 < newMemSize then
    if m.postInitDone then
      match resize C S newMemSize m with
      | (.error e, m) => some (.error e, m)
      | (.ok _, m) => allocBlocks C S needSize m
    else none
  else allocBlocks C S needSize m

def tryToReserve (needSize : Int) (m : KvCacheManager σ) :
    Option (Except PyError Bool × KvCacheManager σ) :=
  if availableSize C S m < needSize then some (.ok false, m)
  else match alloc C S needSize m with
  | none => none
  | some (.error e, m) => some (.error e, m)
  | some (.ok none, m) => some (.ok false, m)
  | some (.ok (some ids), m) =>
    some (.ok true, { m with reservedBlocks := m.reservedBlocks ++ ids })

def trim (m : KvCacheManager σ) : KvCacheManager σ :=
  { m with pageAllocator := S.trim m.pageAllocator }

def reserveNull (m : KvCacheManager σ) : Option (Except PyError Unit × KvCacheManager σ) :=
  if C.reserveNullBlock then
    match alloc C S 1 m with
    | none => none
    | some (.error e, m) => some (.error e, m)
    | some (.ok ids, m) =>
      if ids = some [0] then some (.ok (), { m with nullBlock := ids })
      else some (.error (.runtimeError "Failed to reserve null block at index 0"),
        { m with nullBlock := ids })
  else some (.ok (), { m with nullBlock := none })

/-- `_post_init`, run once by a thread of its own; `created` says whether the KV tensors exist
before the timeout. The event is set on errors too. -/
def postInit (created : Bool) (m : KvCacheManager σ) :
    Option (Except PyError Unit × KvCacheManager σ) :=
  if created then
    match reserveNull C S m with
    | none => none
    | some (.error e, m) => some (.error e, { m with postInitDone := true })
    | some (.ok (), m) =>
      some (.ok (), { (if C.deferPrealloc then m else startPreallocThread S m) with
        postInitDone := true })
  else some (.error (.timeoutError "KV tensors not created after 10.0 seconds"),
    { m with postInitDone := true })

end KvCacheManager

end GpuSharing.Kvcached
