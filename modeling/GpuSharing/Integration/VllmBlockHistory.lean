import GpuSharing.Lib.Transition
import GpuSharing.Integration.VllmBlockPool

namespace GpuSharing.Integration

open Kvcached Transition

/-- The blocks the manager has handed out and not got back. -/
def allocated : List BlockEvent → List BlockId
  | [] => []
  | .issued b :: es => b :: allocated es
  | .returned b _ :: es => (allocated es).erase b
  | .cached _ _ _ :: es => allocated es

/-- What the block was last stored under in its current allocation. -/
def lastCached (b : BlockId) : List BlockEvent → Option (BlockHash × Int)
  | [] => none
  | .issued b' :: es => if b' = b then none else lastCached b es
  | .returned _ _ :: es => lastCached b es
  | .cached b' blockHash groupId :: es =>
    if b' = b then some (blockHash, groupId) else lastCached b es

/-- The manager hands out no block twice at a time. -/
def IssuedFresh : List BlockEvent → Prop
  | [] => True
  | .issued b :: es => b ∉ allocated es ∧ IssuedFresh es
  | .returned _ _ :: es => IssuedFresh es
  | .cached _ _ _ :: es => IssuedFresh es

/-- A block is stored while it is allocated, and under one hash and group in an allocation. -/
def CachedOnce : List BlockEvent → Prop
  | [] => True
  | .issued _ :: es => CachedOnce es
  | .returned _ _ :: es => CachedOnce es
  | .cached b blockHash groupId :: es => b ∈ allocated es ∧
    (lastCached b es = none ∨ lastCached b es = some (blockHash, groupId)) ∧ CachedOnce es

section History

variable {es new : List BlockEvent} {ids : List BlockId} {b : BlockId}

theorem IssuedFresh.tail (h : IssuedFresh (new ++ es)) : IssuedFresh es := by
  induction new with
  | nil => exact h
  | cons e new ih =>
    cases e with
    | issued b => exact ih h.2
    | returned b n => exact ih h
    | cached b x g => exact ih h

theorem CachedOnce.tail (h : CachedOnce (new ++ es)) : CachedOnce es := by
  induction new with
  | nil => exact h
  | cons e new ih =>
    cases e with
    | issued b => exact ih h
    | returned b n => exact ih h
    | cached b x g => exact ih h.2.2

theorem IssuedFresh.nodup (h : IssuedFresh es) : (allocated es).Nodup := by
  induction es with
  | nil => exact List.nodup_nil
  | cons e es ih =>
    cases e with
    | issued b => exact List.nodup_cons.mpr ⟨h.1, ih h.2⟩
    | returned b n => exact (ih h).erase b
    | cached b x g => exact ih h

instance decidableIssuedFresh : ∀ es, Decidable (IssuedFresh es)
  | [] => .isTrue trivial
  | .issued b :: es =>
    have := decidableIssuedFresh es
    inferInstanceAs (Decidable (b ∉ allocated es ∧ IssuedFresh es))
  | .returned _ _ :: es => decidableIssuedFresh es
  | .cached _ _ _ :: es => decidableIssuedFresh es

instance decidableCachedOnce : ∀ es, Decidable (CachedOnce es)
  | [] => .isTrue trivial
  | .issued _ :: es => decidableCachedOnce es
  | .returned _ _ :: es => decidableCachedOnce es
  | .cached b blockHash groupId :: es =>
    have := decidableCachedOnce es
    inferInstanceAs (Decidable (b ∈ allocated es ∧
      (lastCached b es = none ∨ lastCached b es = some (blockHash, groupId)) ∧ CachedOnce es))

theorem allocated_returned (f : BlockId → Int) (ids : List BlockId) (es : List BlockEvent) :
    allocated ((ids.map fun b => .returned b (f b)).reverse ++ es) = (allocated es).diff ids := by
  induction ids generalizing es with
  | nil => rfl
  | cons b ids ih =>
    rw [List.map_cons, List.reverse_cons, List.append_assoc, List.singleton_append, ih,
      List.diff_cons]
    rfl

theorem lastCached_returned (f : BlockId → Int) (ids : List BlockId) (es : List BlockEvent) :
    lastCached b ((ids.map fun b => .returned b (f b)).reverse ++ es) = lastCached b es := by
  induction ids generalizing es with
  | nil => rfl
  | cons b ids ih =>
    rw [List.map_cons, List.reverse_cons, List.append_assoc, List.singleton_append, ih]
    rfl

theorem allocated_issued (ids : List BlockId) (es : List BlockEvent) :
    allocated ((ids.map .issued).reverse ++ es) = ids.reverse ++ allocated es := by
  induction ids generalizing es with
  | nil => rfl
  | cons b ids ih =>
    rw [List.map_cons, List.reverse_cons, List.append_assoc, List.singleton_append, ih,
      List.reverse_cons, List.append_assoc]
    rfl

theorem lastCached_issued (hb : b ∉ ids) (es : List BlockEvent) :
    lastCached b ((ids.map .issued).reverse ++ es) = lastCached b es := by
  induction ids generalizing es with
  | nil => rfl
  | cons b' ids ih =>
    rw [List.mem_cons, not_or] at hb
    rw [List.map_cons, List.reverse_cons, List.append_assoc, List.singleton_append, ih hb.2,
      lastCached, if_neg (Ne.symm hb.1)]

theorem IssuedFresh.notMem (h : IssuedFresh ((ids.map .issued).reverse ++ es)) (hb : b ∈ ids) :
    b ∉ allocated es := by
  induction ids generalizing es with
  | nil => cases hb
  | cons b' ids ih =>
    rw [List.map_cons, List.reverse_cons, List.append_assoc, List.singleton_append] at h
    rcases List.mem_cons.mp hb with rfl | hb
    · exact h.tail.1
    · intro hin
      exact ih h hb (List.mem_cons_of_mem _ hin)

/-- What a block is stored under was stored since the block was issued. -/
theorem lastCached_since {blockHash : BlockHash} {groupId : Int}
    (h : lastCached b (new ++ .issued b :: es) = some (blockHash, groupId)) :
    .cached b blockHash groupId ∈ new := by
  induction new with
  | nil => simp [lastCached] at h
  | cons e new ih =>
    cases e with
    | issued b' =>
      simp only [List.cons_append, lastCached] at h
      split_ifs at h
      exact List.mem_cons_of_mem _ (ih h)
    | returned b' n => exact List.mem_cons_of_mem _ (ih h)
    | cached b' x g =>
      simp only [List.cons_append, lastCached] at h
      split_ifs at h with hb
      · cases h
        rw [hb]
        exact List.mem_cons_self
      · exact List.mem_cons_of_mem _ (ih h)

end History

/-- A call on the pool, or something that happens in the manager between two of them. -/
inductive BlockPoolAct
  | getNewBlocks (numBlocks : Int)
  | cacheFullBlocks (call : CacheCall)
  | touch (blocks : List BlockId ⊕ List (List BlockId))
  | freeBlocks (orderedBlocks : List (Option BlockId))
  | evictBlocks (blockIds : List BlockId)
  | resetPrefixCache
  | background
  deriving DecidableEq

namespace ElasticBlockPool

variable {μ : Type} {c : ElasticBlockPoolConfig} {M : BlockManagerApi μ}
  {p p' : ElasticBlockPool μ}

/-- The pool after a call, whether that returned or raised. -/
def step (c : ElasticBlockPoolConfig) (M : BlockManagerApi μ) (p : ElasticBlockPool μ) :
    BlockPoolAct → Option (ElasticBlockPool μ)
  | .getNewBlocks n => (getNewBlocks c M n p).map (·.2)
  | .cacheFullBlocks call => some (cacheFullBlocks c call p).2
  | .touch blocks => some (touch c blocks p)
  | .freeBlocks blocks => some (freeBlocks c M blocks p).2
  | .evictBlocks ids => some (evictBlocks c M ids p).2
  | .resetPrefixCache => some (resetPrefixCache c M p).2
  | .background => some { p with kvCacheManager := M.background p.kvCacheManager }

/-- What `cache_full_blocks` does for a block that it stores. -/
inductive Stores (p : ElasticBlockPool μ) : ElasticBlockPool μ → Prop
  | store {b : BlockId} {hash : BlockHash} {g : Int} {key : CacheKey} (hnull : b ≠ p.nullBlock)
    (hkey : makeCacheKey hash g = .ok key) (hin : key ∉ p.cachedBlocks) :
    Stores p { p with
      cachedBlocks := p.cachedBlocks.insert key b
      blockIdToKey := p.blockIdToKey.insert b key
      history := .cached b hash g :: p.history }

/-- `cache_full_blocks` keeps what storing one block keeps, also when it raises. -/
theorem cacheLoop_rule {Q : ElasticBlockPool μ → Prop} (hstore : ∀ q q', Q q → Stores q q' → Q q')
    (hashes : List BlockHash) (g i : Int) (blocks : List BlockId) (hp : Q p) :
    Q (cacheLoop hashes g i blocks p).2 := by
  induction blocks generalizing i p with
  | nil => exact hp
  | cons b blocks ih =>
    rw [cacheLoop]
    by_cases hnull : b = p.nullBlock
    · rw [if_pos hnull]
      exact ih _ hp
    · rw [if_neg hnull]
      split
      case h_1 => exact hp
      case h_2 hash _ =>
        split
        case h_1 => exact hp
        case h_2 key hkey =>
          split
          case isTrue => exact ih _ hp
          case isFalse hin => exact ih _ (hstore _ _ hp (.store hnull hkey hin))

theorem cacheFullBlocks_rule {Q : ElasticBlockPool μ → Prop}
    (hstore : ∀ q q', Q q → Stores q q' → Q q') (call : CacheCall) (hp : Q p) :
    Q (cacheFullBlocks c call p).2 := by
  unfold cacheFullBlocks
  split
  case isFalse => exact hp
  case isTrue =>
    split
    case h_1 => exact hp
    case h_2 =>
      split
      case isTrue => exact hp
      case isFalse =>
        split
        case h_1 => exact hp
        case h_2 =>
          split
          case isTrue => exact hp
          case isFalse => exact cacheLoop_rule hstore _ _ _ _ hp

theorem makeRoom_cases (n : Int) (p : ElasticBlockPool μ) :
    (makeRoom c M n p).2 = p ∨ ∃ k, (makeRoom c M n p).2 = (evictBlocksFromPool M k p).2 := by
  unfold makeRoom
  dsimp only
  split_ifs
  · exact .inr ⟨_, rfl⟩
  · exact .inl rfl
  · exact .inl rfl

theorem trimCache_cases (p : ElasticBlockPool μ) :
    (trimCache c M p).2 = p ∨ ∃ k, (trimCache c M p).2 = (evictBlocksFromPool M k p).2 := by
  unfold trimCache
  split_ifs
  · exact .inr ⟨_, rfl⟩
  · exact .inl rfl

theorem refLoop_frame (ids blocks : List BlockId) (p : ElasticBlockPool μ) :
    let q := (refLoop c ids blocks p).2
    (q.kvCacheManager, q.nullBlock, q.cachedBlocks, q.blockIdToKey, q.evictableBlocks,
        q.history) =
      (p.kvCacheManager, p.nullBlock, p.cachedBlocks, p.blockIdToKey, p.evictableBlocks,
        p.history) := by
  induction ids generalizing blocks p with
  | nil => rfl
  | cons b ids ih =>
    rw [refLoop]
    split
    case h_1 => rfl
    case h_2 => exact ih ..

/-- Of what the indexes are about, the second half of `get_new_blocks` changes the history alone. -/
theorem allocBlocks_frame {n : Int} {r : Except BlockPoolError (List BlockId)}
    (h : allocBlocks c M n p = some (r, p')) :
    (p'.nullBlock, p'.cachedBlocks, p'.blockIdToKey, p'.evictableBlocks) =
        (p.nullBlock, p.cachedBlocks, p.blockIdToKey, p.evictableBlocks) ∧
      ∃ ids : List BlockId, p'.history = (ids.map .issued).reverse ++ p.history := by
  unfold allocBlocks at h
  split at h
  case h_1 => cases h
  case h_2 =>
    cases h
    exact ⟨rfl, [], rfl⟩
  case h_3 =>
    cases h
    exact ⟨rfl, [], rfl⟩
  case h_4 ids m _ =>
    dsimp only at h
    split_ifs at h
    · have hframe := refLoop_frame (c := c) ids [] { p with
        kvCacheManager := m
        history := (ids.map .issued).reverse ++ p.history }
      rw [Option.some.inj h] at hframe
      simp only [Prod.mk.injEq] at hframe ⊢
      obtain ⟨-, hnull, hcached, hkeys, hevictable, hhistory⟩ := hframe
      exact ⟨⟨hnull, hcached, hkeys, hevictable⟩, ids, hhistory⟩
    · cases h
      exact ⟨rfl, ids, rfl⟩

/-- `get_new_blocks` refuses, fails in its eviction, or allocates after it. -/
theorem getNewBlocks_cases {n : Int} {r : Except BlockPoolError (List BlockId)}
    (h : getNewBlocks c M n p = some (r, p')) :
    p' = p ∨ p' = (makeRoom c M n p).2 ∨
      allocBlocks c M n (makeRoom c M n p).2 = some (r, p') := by
  unfold getNewBlocks at h
  split_ifs at h
  · cases h
    exact .inl rfl
  · split at h
    case h_1 e q hq =>
      cases h
      rw [hq]
      exact .inr (.inl rfl)
    case h_2 q hq =>
      rw [hq]
      exact .inr (.inr h)

/-- `touch` keeps what touching one block keeps. -/
theorem touch_rule {Q : ElasticBlockPool μ → Prop} (htouch : ∀ q b, Q q → Q (touchBlock q b))
    (blocks : List BlockId ⊕ List (List BlockId)) (hp : Q p) : Q (touch c blocks p) := by
  have hlist : ∀ (bs : List BlockId) (q : ElasticBlockPool μ), Q q → Q (bs.foldl touchBlock q) := by
    intro bs
    induction bs with
    | nil => exact fun _ hq => hq
    | cons b bs ih => exact fun q hq => ih _ (htouch q b hq)
  unfold touch
  split_ifs
  · cases blocks with
    | inl bs => exact hlist bs p hp
    | inr bss =>
      induction bss generalizing p with
      | nil => exact hp
      | cons bs bss ih => exact ih (hlist bs p hp)
  · exact hp

/-- With prefix caching `free_blocks` gives the uncached blocks back and then trims the cache. -/
theorem freeBlocks_cases (blocks : List (Option BlockId)) (p : ElasticBlockPool μ) :
    let r := releaseLoop blocks [] p
    let q := (giveBackAny M r.1 r.2).2
    ((freeBlocks c M blocks p).2 = q ∨ (freeBlocks c M blocks p).2 = (trimCache c M q).2) ∨
      c.enablePrefixCache = false ∧
        (freeBlocks c M blocks p).2 = (giveBackAny M (nonNull blocks p) p).2 := by
  unfold freeBlocks
  split_ifs with henable
  · dsimp only
    split
    case h_1 e q hq =>
      rw [hq]
      exact .inl (.inl rfl)
    case h_2 q hq =>
      rw [hq]
      exact .inl (.inr rfl)
  · exact .inr ⟨by simpa using henable, rfl⟩

@[simp]
theorem dropKey_evictable (b : BlockId) (p : ElasticBlockPool μ) :
    (dropKey b p).evictableBlocks = p.evictableBlocks := by
  unfold dropKey
  split <;> rfl

@[simp]
theorem dropKey_kvCacheManager (b : BlockId) (p : ElasticBlockPool μ) :
    (dropKey b p).kvCacheManager = p.kvCacheManager := by
  unfold dropKey
  split <;> rfl

@[simp]
theorem dropKey_refCnt (b : BlockId) (p : ElasticBlockPool μ) :
    (dropKey b p).refCnt = p.refCnt := by
  unfold dropKey
  split <;> rfl

@[simp]
theorem dropKey_nullBlock (b : BlockId) (p : ElasticBlockPool μ) :
    (dropKey b p).nullBlock = p.nullBlock := by
  unfold dropKey
  split <;> rfl

@[simp]
theorem dropKey_history (b : BlockId) (p : ElasticBlockPool μ) :
    (dropKey b p).history = p.history := by
  unfold dropKey
  split <;> rfl

theorem dropKey_rest (b : BlockId) (rest : List BlockId) (p : ElasticBlockPool μ) :
    dropKey b { p with evictableBlocks := rest } = { dropKey b p with evictableBlocks := rest } := by
  unfold dropKey
  dsimp only
  cases p.blockIdToKey.lookup b <;> rfl

section Loops

variable {Q : List BlockId → ElasticBlockPool μ → Prop}

/-- The loop of `_evict_blocks_from_pool` keeps what evicting one block keeps. -/
theorem evictLoop_rule (hevict : ∀ ids q b, b ∈ q.evictableBlocks → Q ids q →
      Q (ids ++ [b]) { dropKey b q with evictableBlocks := q.evictableBlocks.erase b })
    (n : Nat) (ids : List BlockId) (hp : Q ids p) : Q (evictLoop n ids p).1 (evictLoop n ids p).2 := by
  induction n generalizing ids p with
  | zero => exact hp
  | succ n ih =>
    unfold evictLoop
    split
    case h_1 => exact hp
    case h_2 b rest heq =>
      have hnext := hevict ids p b (heq ▸ List.mem_cons_self) hp
      rw [heq, List.erase_cons_head] at hnext
      rw [dropKey_rest]
      exact ih _ hnext

/-- The loop of `evict_blocks` keeps what evicting a block keeps, and dropping the key of one that is
not evictable. -/
theorem dropLoop_rule (hevict : ∀ ids q b, b ∈ q.evictableBlocks → Q ids q →
      Q (ids ++ [b]) { dropKey b q with evictableBlocks := q.evictableBlocks.erase b })
    (hdrop : ∀ ids q b, b ∉ q.evictableBlocks → Q ids q → Q ids (dropKey b q))
    (bids ids : List BlockId) (hp : Q ids p) :
    Q (dropLoop bids ids p).1 (dropLoop bids ids p).2 := by
  induction bids generalizing ids p with
  | nil => exact hp
  | cons b bids ih =>
    rw [dropLoop, dropKey_evictable]
    split_ifs with hb
    · exact ih _ (hevict ids p b hb hp)
    · exact ih _ (hdrop ids p b hb hp)

/-- What `free_blocks` does for a block that it releases; `ids` are the uncached ones to be given
back. -/
inductive Releases (ids : List BlockId) (p : ElasticBlockPool μ) :
    List BlockId → ElasticBlockPool μ → Prop
  | held {b : BlockId} : Releases ids p ids (setRefCnt b (p.refCnt b - 1) p)
  | cached {b : BlockId} (hkey : b ∈ p.blockIdToKey) :
    Releases ids p ids { setRefCnt b (p.refCnt b - 1) p with
      evictableBlocks :=
        if b ∈ p.evictableBlocks then p.evictableBlocks else p.evictableBlocks ++ [b] }
  | uncached {b : BlockId} (hkey : b ∉ p.blockIdToKey) :
    Releases ids p (ids ++ [b]) (setRefCnt b (p.refCnt b - 1) p)

/-- The loop of `free_blocks` keeps what releasing one block keeps. -/
theorem releaseLoop_rule (hrelease : ∀ ids q ids' q', Q ids q → Releases ids q ids' q' → Q ids' q')
    (blocks : List (Option BlockId)) (ids : List BlockId) (hp : Q ids p) :
    Q (releaseLoop blocks ids p).1 (releaseLoop blocks ids p).2 := by
  induction blocks generalizing ids p with
  | nil => exact hp
  | cons block blocks ih =>
    cases block with
    | none => exact ih ids hp
    | some b =>
      rw [releaseLoop]
      split
      case isTrue => exact ih ids hp
      case isFalse =>
        split
        case isFalse => exact ih _ (hrelease _ _ _ _ hp .held)
        case isTrue =>
          split
          case isTrue hkey => exact ih _ (hrelease _ _ _ _ hp (.cached hkey))
          case isFalse hkey => exact ih _ (hrelease _ _ _ _ hp (.uncached hkey))

end Loops

/-- The null block stays, and the history only grows. -/
structure Extends (p p' : ElasticBlockPool μ) : Prop where
  nullBlock : p'.nullBlock = p.nullBlock
  history : p.history <:+ p'.history

namespace Extends

theorem of_eq (h : (p'.nullBlock, p'.history) = (p.nullBlock, p.history)) : Extends p p' := by
  simp only [Prod.mk.injEq] at h
  exact ⟨h.1, h.2 ▸ List.suffix_refl _⟩

theorem trans {q : ElasticBlockPool μ} (h : Extends p q) (h' : Extends q p') : Extends p p' :=
  ⟨h'.nullBlock.trans h.nullBlock, h.history.trans h'.history⟩

theorem giveBack (ids : List BlockId) (p : ElasticBlockPool μ) :
    Extends p (giveBack M ids p).2 := ⟨rfl, List.suffix_append _ _⟩

theorem giveBackAny (ids : List BlockId) (p : ElasticBlockPool μ) :
    Extends p (giveBackAny M ids p).2 := by
  unfold ElasticBlockPool.giveBackAny
  split_ifs
  · exact of_eq rfl
  · exact giveBack ids p

theorem dropKey (b : BlockId) (p : ElasticBlockPool μ) : Extends p (dropKey b p) := by
  unfold ElasticBlockPool.dropKey
  split <;> exact of_eq rfl

theorem evictLoop (n : Nat) (ids : List BlockId) (p : ElasticBlockPool μ) :
    Extends p (evictLoop n ids p).2 :=
  evictLoop_rule (Q := fun _ q => Extends p q)
    (fun _ q b _ hq => hq.trans ((dropKey b q).trans (of_eq rfl))) n ids (of_eq rfl)

theorem evictBlocksFromPool (n : Int) (p : ElasticBlockPool μ) :
    Extends p (evictBlocksFromPool M n p).2 := (evictLoop ..).trans (giveBackAny ..)

theorem dropLoop (bids ids : List BlockId) (p : ElasticBlockPool μ) :
    Extends p (dropLoop bids ids p).2 :=
  dropLoop_rule (Q := fun _ q => Extends p q)
    (fun _ q b _ hq => hq.trans ((dropKey b q).trans (of_eq rfl)))
    (fun _ q b _ hq => hq.trans (dropKey b q)) bids ids (of_eq rfl)

theorem releases {ids ids' : List BlockId} (h : Releases ids p ids' p') : Extends p p' := by
  cases h <;> exact of_eq rfl

theorem releaseLoop (blocks : List (Option BlockId)) (ids : List BlockId)
    (p : ElasticBlockPool μ) : Extends p (releaseLoop blocks ids p).2 :=
  releaseLoop_rule (Q := fun _ q => Extends p q) (fun _ _ _ _ hq hr => hq.trans (releases hr)) blocks
    ids (of_eq rfl)

theorem cachedOnce (h : Extends p p') (honce : CachedOnce p'.history) : CachedOnce p.history := by
  obtain ⟨new, hnew⟩ := h.history
  exact CachedOnce.tail (hnew ▸ honce)

theorem stores (h : Stores p p') : Extends p p' := by
  cases h
  exact ⟨rfl, List.suffix_cons _ _⟩

theorem cacheFullBlocks (call : CacheCall) (p : ElasticBlockPool μ) :
    Extends p (cacheFullBlocks c call p).2 :=
  cacheFullBlocks_rule (fun _ _ hq hs => hq.trans (stores hs)) call (of_eq rfl)

theorem makeRoom (n : Int) (p : ElasticBlockPool μ) : Extends p (makeRoom c M n p).2 := by
  rcases makeRoom_cases (c := c) (M := M) n p with h | ⟨k, h⟩
  · rw [h]
    exact of_eq rfl
  · rw [h]
    exact evictBlocksFromPool k p

theorem getNewBlocks {n : Int} {r : Except BlockPoolError (List BlockId)}
    (h : getNewBlocks c M n p = some (r, p')) : Extends p p' := by
  rcases getNewBlocks_cases h with rfl | rfl | h
  · exact of_eq rfl
  · exact makeRoom n p
  · refine (makeRoom (c := c) (M := M) n p).trans ?_
    obtain ⟨hframe, ids, hhistory⟩ := allocBlocks_frame h
    simp only [Prod.mk.injEq] at hframe
    exact ⟨hframe.1, hhistory ▸ List.suffix_append _ _⟩

theorem touch (blocks : List BlockId ⊕ List (List BlockId)) (p : ElasticBlockPool μ) :
    Extends p (touch c blocks p) :=
  touch_rule (fun _ _ hq => hq.trans (of_eq rfl)) blocks (of_eq rfl)

theorem trimCache (p : ElasticBlockPool μ) : Extends p (trimCache c M p).2 := by
  rcases trimCache_cases (c := c) (M := M) p with h | ⟨k, h⟩
  · rw [h]
    exact of_eq rfl
  · rw [h]
    exact evictBlocksFromPool k p

theorem freeBlocks (blocks : List (Option BlockId)) (p : ElasticBlockPool μ) :
    Extends p (freeBlocks c M blocks p).2 := by
  have hgive := (releaseLoop blocks [] p).trans
    (giveBackAny (M := M) (ElasticBlockPool.releaseLoop blocks [] p).1 _)
  rcases freeBlocks_cases (c := c) (M := M) blocks p with (h | h) | ⟨-, h⟩
  · rw [h]
    exact hgive
  · rw [h]
    exact hgive.trans (trimCache _)
  · rw [h]
    exact giveBackAny ..

theorem evictBlocks (ids : List BlockId) (p : ElasticBlockPool μ) :
    Extends p (evictBlocks c M ids p).2 := by
  unfold ElasticBlockPool.evictBlocks
  split_ifs
  · exact (dropLoop ids [] p).trans (giveBackAny ..)
  · exact of_eq rfl

theorem resetPrefixCache (p : ElasticBlockPool μ) : Extends p (resetPrefixCache c M p).2 := by
  unfold ElasticBlockPool.resetPrefixCache
  split_ifs
  · have hgive := giveBackAny (M := M) p.evictableBlocks { p with evictableBlocks := [] }
    split
    case h_1 e q hq =>
      rw [hq] at hgive
      exact ⟨hgive.nullBlock, hgive.history⟩
    case h_2 q hq =>
      rw [hq] at hgive
      exact ⟨hgive.nullBlock, hgive.history⟩
  · exact of_eq rfl

end Extends

theorem step_extends {act : BlockPoolAct} (h : step c M p act = some p') : Extends p p' := by
  cases act with
  | getNewBlocks n =>
    obtain ⟨⟨r, q⟩, hget, rfl⟩ := Option.map_eq_some_iff.mp h
    exact Extends.getNewBlocks hget
  | cacheFullBlocks call =>
    cases h
    exact Extends.cacheFullBlocks call p
  | touch blocks =>
    cases h
    exact Extends.touch blocks p
  | freeBlocks blocks =>
    cases h
    exact Extends.freeBlocks blocks p
  | evictBlocks ids =>
    cases h
    exact Extends.evictBlocks ids p
  | resetPrefixCache =>
    cases h
    exact Extends.resetPrefixCache p
  | background =>
    cases h
    exact .of_eq rfl

/-- What holds of the whole history held of it after every step. -/
theorem along_history {Q : List BlockEvent → Prop} (hQ : ∀ new es, Q (new ++ es) → Q es)
    {q : ElasticBlockPool μ} {acts : List BlockPoolAct} (h : run (step c M) p acts = some q)
    (hq : Q q.history) :
    Along (step c M) (fun s act => ∀ t, step c M s act = some t → Q t.history) p acts := by
  refine (along_of_last (Q := fun s => Q s.history) (fun s act t ht hqt => ?_) h hq).2
  obtain ⟨new, hnew⟩ := (step_extends ht).history
  rw [← hnew] at hqt
  exact hQ new _ hqt

end ElasticBlockPool

end GpuSharing.Integration
