import GpuSharing.Integration.VllmBlockHistory

namespace GpuSharing.Integration

open Kvcached

theorem groupBytes_injective {g g' : Int} {bytes : List UInt8} (h : groupBytes g = .ok bytes)
    (h' : groupBytes g' = .ok bytes) : g = g' ∧ bytes.length = 4 := by
  unfold groupBytes at h h'
  split_ifs at h h'
  cases h
  simp only [Except.ok.injEq, List.cons.injEq, ← UInt8.toNat_inj, UInt8.toNat_ofNat'] at h'
  obtain ⟨h3, h2, h1, h0, -⟩ := h'
  exact ⟨by omega, rfl⟩

/-- The key of a block tells its hash and its group. -/
theorem makeCacheKey_injective {x x' : BlockHash} {g g' : Int} {key : CacheKey}
    (h : makeCacheKey x g = .ok key) (h' : makeCacheKey x' g' = .ok key) : x = x' ∧ g = g' := by
  unfold makeCacheKey at h h'
  cases hg : groupBytes g with
  | error e =>
    rw [hg] at h
    cases h
  | ok bytes =>
    cases hg' : groupBytes g' with
    | error e =>
      rw [hg'] at h'
      cases h'
    | ok bytes' =>
      rw [hg] at h
      rw [hg'] at h'
      cases h
      have hlen := (groupBytes_injective hg hg).2
      have hlen' := (groupBytes_injective hg' hg').2
      obtain ⟨rfl, rfl⟩ := List.append_inj' (Except.ok.inj h') (by rw [hlen, hlen'])
      exact ⟨rfl, (groupBytes_injective hg hg').1⟩

namespace ElasticBlockPool

variable {μ : Type} {c : ElasticBlockPoolConfig} {M : BlockManagerApi μ}
  {p p' : ElasticBlockPool μ}

/-- The two indexes are inverse, and their blocks are allocated and stored under their keys. -/
structure Indexed (p : ElasticBlockPool μ) : Prop where
  toKey : ∀ {k b}, p.cachedBlocks.lookup k = some b → p.blockIdToKey.lookup b = some k
  toBlock : ∀ {k b}, p.blockIdToKey.lookup b = some k → p.cachedBlocks.lookup k = some b
  allocated : ∀ {k b}, p.blockIdToKey.lookup b = some k → b ∈ allocated p.history
  current : ∀ {k b}, p.blockIdToKey.lookup b = some k →
    ∃ x g, lastCached b p.history = some (x, g) ∧ makeCacheKey x g = .ok k

namespace Indexed

theorem congr (h : p.Indexed) (hsame : (p'.cachedBlocks, p'.blockIdToKey, p'.history) =
    (p.cachedBlocks, p.blockIdToKey, p.history)) : p'.Indexed := by
  simp only [Prod.mk.injEq] at hsame
  obtain ⟨hc, hk, hh⟩ := hsame
  refine ⟨?_, ?_, ?_, ?_⟩
  · rw [hc, hk]
    exact h.toKey
  · rw [hc, hk]
    exact h.toBlock
  · rw [hk, hh]
    exact h.allocated
  · rw [hk, hh]
    exact h.current

theorem giveBack (h : p.Indexed) {ids : List BlockId}
    (hids : ∀ b ∈ ids, p.blockIdToKey.lookup b = none) :
    (giveBack M ids p).2.Indexed := by
  refine ⟨h.toKey, h.toBlock, ?_, ?_⟩
  · intro k b hk
    change b ∈ Integration.allocated (_ ++ p.history)
    rw [allocated_returned]
    apply List.mem_diff_of_mem (h.allocated hk)
    intro hb
    have hk : p.blockIdToKey.lookup b = some k := hk
    rw [hids b hb] at hk
    cases hk
  · intro k b hk
    change ∃ x g, lastCached b (_ ++ p.history) = _ ∧ _
    rw [lastCached_returned]
    exact h.current hk

theorem giveBackAny (h : p.Indexed) {ids : List BlockId}
    (hids : ∀ b ∈ ids, p.blockIdToKey.lookup b = none) :
    (giveBackAny M ids p).2.Indexed := by
  unfold ElasticBlockPool.giveBackAny
  split_ifs
  · exact h
  · exact h.giveBack hids

theorem dropKey (h : p.Indexed) (b : BlockId) : (dropKey b p).Indexed := by
  unfold ElasticBlockPool.dropKey
  split
  case h_2 => exact h
  case h_1 key hkey =>
    refine ⟨?_, ?_, ?_, ?_⟩
    · intro k b' hk
      obtain ⟨hne, hk⟩ := Dict.lookup_erase_some hk
      have hb' := h.toKey hk
      rwa [AList.lookup_erase_ne]
      rintro rfl
      rw [hkey] at hb'
      exact hne (Option.some.inj hb').symm
    · intro k b' hk
      obtain ⟨hne, hk⟩ := Dict.lookup_erase_some hk
      have hk' := h.toBlock hk
      rwa [AList.lookup_erase_ne]
      rintro rfl
      rw [h.toBlock hkey] at hk'
      exact hne (Option.some.inj hk').symm
    · intro k b' hk
      exact h.allocated (Dict.lookup_erase_some hk).2
    · intro k b' hk
      exact h.current (Dict.lookup_erase_some hk).2

/-- Storing an allocated block under a new key. -/
theorem store (h : p.Indexed) {x : BlockHash} {g : Int} {b : BlockId} {key : CacheKey}
    (hkey : makeCacheKey x g = .ok key) (hnew : key ∉ p.cachedBlocks)
    (honce : CachedOnce (.cached b x g :: p.history)) :
    Indexed { p with
      cachedBlocks := p.cachedBlocks.insert key b
      blockIdToKey := p.blockIdToKey.insert b key
      history := .cached b x g :: p.history } := by
  obtain ⟨hin, hlast, -⟩ := honce
  have hlookup : p.cachedBlocks.lookup key = none := AList.lookup_eq_none.mpr hnew
  -- a block with a key has the key it is stored under now, which is new
  have hfree : p.blockIdToKey.lookup b = none := by
    by_contra hb
    obtain ⟨k, hk⟩ := Option.ne_none_iff_exists'.mp hb
    obtain ⟨x', g', hcur, hk'⟩ := h.current hk
    rcases hlast with hlast | hlast
    · rw [hlast] at hcur
      cases hcur
    · rw [hlast] at hcur
      cases hcur
      rw [hkey] at hk'
      cases hk'
      rw [h.toBlock hk] at hlookup
      cases hlookup
  refine ⟨?_, ?_, ?_, ?_⟩
  · intro k b' hk
    rcases Dict.lookup_insert_some hk with ⟨rfl, rfl⟩ | ⟨hne, hk⟩
    · exact AList.lookup_insert _
    · have hb' := h.toKey hk
      rwa [AList.lookup_insert_ne]
      rintro rfl
      rw [hfree] at hb'
      cases hb'
  · intro k b' hk
    rcases Dict.lookup_insert_some hk with ⟨rfl, rfl⟩ | ⟨hne, hk⟩
    · exact AList.lookup_insert _
    · have hk' := h.toBlock hk
      rwa [AList.lookup_insert_ne]
      rintro rfl
      rw [hlookup] at hk'
      cases hk'
  · intro k b' hk
    rcases Dict.lookup_insert_some hk with ⟨rfl, rfl⟩ | ⟨hne, hk⟩
    · exact hin
    · exact h.allocated hk
  · intro k b' hk
    rcases Dict.lookup_insert_some hk with ⟨rfl, rfl⟩ | ⟨hne, hk⟩
    · exact ⟨x, g, if_pos rfl, hkey⟩
    · change ∃ x' g', (if b = b' then _ else _) = _ ∧ _
      rw [if_neg (Ne.symm hne)]
      exact h.current hk

/-- Blocks that were not allocated are handed out. -/
theorem issue (h : p.Indexed) {m : μ} {ids : List BlockId}
    (hfresh : IssuedFresh ((ids.map .issued).reverse ++ p.history)) :
    Indexed { p with
      kvCacheManager := m
      history := (ids.map .issued).reverse ++ p.history } := by
  refine ⟨h.toKey, h.toBlock, ?_, ?_⟩
  · intro k b hk
    change b ∈ Integration.allocated (_ ++ p.history)
    rw [allocated_issued]
    exact List.mem_append_right _ (h.allocated hk)
  · intro k b hk
    change ∃ x g, lastCached b (_ ++ p.history) = _ ∧ _
    rw [lastCached_issued]
    · exact h.current hk
    · intro hb
      exact hfresh.notMem hb (h.allocated hk)

end Indexed

theorem dropKey_self (b : BlockId) (p : ElasticBlockPool μ) :
    (dropKey b p).blockIdToKey.lookup b = none := by
  unfold dropKey
  split
  case h_1 => exact AList.lookup_erase ..
  case h_2 h => exact h

theorem dropKey_none {b b' : BlockId} (h : p.blockIdToKey.lookup b' = none) :
    (dropKey b p).blockIdToKey.lookup b' = none := by
  by_contra hne
  obtain ⟨k, hk⟩ := Option.ne_none_iff_exists'.mp hne
  unfold dropKey at hk
  split at hk
  case h_1 =>
    rw [(Dict.lookup_erase_some hk).2] at h
    cases h
  case h_2 =>
    rw [hk] at h
    cases h

/-- The blocks a loop has dropped have no key. -/
theorem dropKey_dropped {b : BlockId} {ids : List BlockId}
    (hids : ∀ b ∈ ids, p.blockIdToKey.lookup b = none) :
    ∀ b' ∈ ids ++ [b], (dropKey b p).blockIdToKey.lookup b' = none := by
  intro b' hb'
  rcases List.mem_append.mp hb' with hb' | hb'
  · exact dropKey_none (hids b' hb')
  · rw [List.mem_singleton.mp hb']
    exact dropKey_self b p

/-- The indexes in the loops that evict: the blocks to be given back have no key. -/
def DropsIndexed (ids : List BlockId) (p : ElasticBlockPool μ) : Prop :=
  p.Indexed ∧ ∀ b ∈ ids, p.blockIdToKey.lookup b = none

theorem DropsIndexed.evict {ids : List BlockId} (h : DropsIndexed ids p) (b : BlockId) :
    DropsIndexed (ids ++ [b])
      { dropKey b p with evictableBlocks := p.evictableBlocks.erase b } :=
  ⟨(h.1.dropKey b).congr rfl, dropKey_dropped h.2⟩

theorem evictLoop_indexed (n : Nat) (ids : List BlockId) (h : DropsIndexed ids p) :
    DropsIndexed (evictLoop n ids p).1 (evictLoop n ids p).2 :=
  evictLoop_rule (fun _ _ b _ hq => hq.evict b) n ids h

theorem evictBlocksFromPool_indexed (h : p.Indexed) (n : Int) :
    (evictBlocksFromPool M n p).2.Indexed := by
  obtain ⟨hloop, hids⟩ := evictLoop_indexed (min n p.evictableBlocks.length).toNat [] ⟨h, by simp⟩
  exact hloop.giveBackAny hids

theorem dropLoop_indexed (bids ids : List BlockId) (h : DropsIndexed ids p) :
    DropsIndexed (dropLoop bids ids p).1 (dropLoop bids ids p).2 :=
  dropLoop_rule (fun _ _ b _ hq => hq.evict b)
    (fun _ _ b _ hq => ⟨hq.1.dropKey b, fun b' hb' => dropKey_none (hq.2 b' hb')⟩) bids ids h

theorem releaseLoop_indexed (blocks : List (Option BlockId)) (ids : List BlockId)
    (h : DropsIndexed ids p) : DropsIndexed (releaseLoop blocks ids p).1 (releaseLoop blocks ids p).2 := by
  refine releaseLoop_rule ?_ blocks ids h
  rintro ids q ids' q' ⟨hq, hids⟩ hrelease
  cases hrelease with
  | held => exact ⟨hq.congr rfl, hids⟩
  | cached hkey => exact ⟨hq.congr rfl, hids⟩
  | uncached hkey =>
    refine ⟨hq.congr rfl, ?_⟩
    intro b' hb'
    rcases List.mem_append.mp hb' with hb' | hb'
    · exact hids b' hb'
    · rw [List.mem_singleton.mp hb']
      exact AList.lookup_eq_none.mpr hkey

theorem cacheFullBlocks_indexed {call : CacheCall} (h : p.Indexed)
    (honce : CachedOnce (cacheFullBlocks c call p).2.history) :
    (cacheFullBlocks c call p).2.Indexed := by
  refine cacheFullBlocks_rule (Q := fun q => CachedOnce q.history → q.Indexed) ?_ call
    (fun _ => h) honce
  intro q q' hq hs honce
  have hbefore := (Extends.stores hs).cachedOnce honce
  obtain ⟨-, hkey, hin⟩ := hs
  exact (hq hbefore).store hkey hin honce

theorem makeRoom_indexed (h : p.Indexed) (n : Int) : (makeRoom c M n p).2.Indexed := by
  rcases makeRoom_cases (c := c) (M := M) n p with heq | ⟨k, heq⟩
  · rwa [heq]
  · rw [heq]
    exact evictBlocksFromPool_indexed h k

theorem allocBlocks_indexed {n : Int} {r : Except BlockPoolError (List BlockId)} (h : p.Indexed)
    (halloc : allocBlocks c M n p = some (r, p')) (hfresh : IssuedFresh p'.history) :
    p'.Indexed := by
  obtain ⟨hframe, ids, hhistory⟩ := allocBlocks_frame halloc
  rw [hhistory] at hfresh
  refine (h.issue (m := p.kvCacheManager) hfresh).congr ?_
  simp only [Prod.mk.injEq] at hframe ⊢
  exact ⟨hframe.2.1, hframe.2.2.1, hhistory⟩

theorem getNewBlocks_indexed {n : Int} {r : Except BlockPoolError (List BlockId)} (h : p.Indexed)
    (hget : getNewBlocks c M n p = some (r, p')) (hfresh : IssuedFresh p'.history) :
    p'.Indexed := by
  rcases getNewBlocks_cases hget with rfl | rfl | hget
  · exact h
  · exact makeRoom_indexed h n
  · exact allocBlocks_indexed (makeRoom_indexed h n) hget hfresh

theorem touch_indexed (h : p.Indexed) (blocks : List BlockId ⊕ List (List BlockId)) :
    (touch c blocks p).Indexed :=
  touch_rule (fun _ _ hq => hq.congr rfl) blocks h

theorem trimCache_indexed (h : p.Indexed) : (trimCache c M p).2.Indexed := by
  rcases trimCache_cases (c := c) (M := M) p with heq | ⟨k, heq⟩
  · rwa [heq]
  · rw [heq]
    exact evictBlocksFromPool_indexed h k

theorem freeBlocks_indexed (h : p.Indexed) (blocks : List (Option BlockId))
    (hoff : c.enablePrefixCache = false → p.blockIdToKey = ∅) :
    (freeBlocks c M blocks p).2.Indexed := by
  obtain ⟨hloop, hids⟩ := releaseLoop_indexed blocks [] ⟨h, by simp⟩
  have hgive := hloop.giveBackAny (M := M) hids
  rcases freeBlocks_cases (c := c) (M := M) blocks p with (heq | heq) | ⟨henable, heq⟩
  · rw [heq]
    exact hgive
  · rw [heq]
    exact trimCache_indexed hgive
  · rw [heq]
    apply h.giveBackAny
    intro b _
    rw [hoff henable]
    rfl

theorem evictBlocks_indexed (h : p.Indexed) (ids : List BlockId) :
    (evictBlocks c M ids p).2.Indexed := by
  unfold evictBlocks
  split_ifs
  · obtain ⟨hloop, hids⟩ := dropLoop_indexed ids [] ⟨h, by simp⟩
    exact hloop.giveBackAny hids
  · exact h

/-- `reset_prefix_cache` gives the blocks back before it clears the indexes. -/
theorem resetPrefixCache_indexed (h : p.Indexed) (hret : (resetPrefixCache c M p).1.isOk) :
    (resetPrefixCache c M p).2.Indexed := by
  unfold resetPrefixCache at hret ⊢
  split_ifs at hret ⊢
  · split at hret
    case h_1 => cases hret
    case h_2 => refine ⟨?_, ?_, ?_, ?_⟩ <;> simp
  · exact h

theorem step_indexed {act : BlockPoolAct} (h : p.Indexed)
    (hoff : c.enablePrefixCache = false → p.blockIdToKey = ∅)
    (hstep : step c M p act = some p') (hfresh : IssuedFresh p'.history)
    (honce : CachedOnce p'.history)
    (hret : act = .resetPrefixCache → (resetPrefixCache c M p).1.isOk) : p'.Indexed := by
  cases act with
  | getNewBlocks n =>
    obtain ⟨⟨r, q⟩, hget, rfl⟩ := Option.map_eq_some_iff.mp hstep
    exact getNewBlocks_indexed h hget hfresh
  | cacheFullBlocks call =>
    cases hstep
    exact cacheFullBlocks_indexed h honce
  | touch blocks =>
    cases hstep
    exact touch_indexed h blocks
  | freeBlocks blocks =>
    cases hstep
    exact freeBlocks_indexed h blocks hoff
  | evictBlocks ids =>
    cases hstep
    exact evictBlocks_indexed h ids
  | resetPrefixCache =>
    cases hstep
    exact resetPrefixCache_indexed h (hret rfl)
  | background =>
    cases hstep
    exact h.congr rfl

theorem giveBackAny_frame (ids : List BlockId) (p : ElasticBlockPool μ) :
    (giveBackAny M ids p).2.blockIdToKey = p.blockIdToKey ∧
      (giveBackAny M ids p).2.evictableBlocks = p.evictableBlocks := by
  unfold giveBackAny
  split_ifs <;> exact ⟨rfl, rfl⟩

/-- Without prefix caching nothing gets a key. -/
theorem step_off {act : BlockPoolAct} (henable : c.enablePrefixCache = false)
    (hstep : step c M p act = some p') : p'.blockIdToKey = p.blockIdToKey ∧
      p'.evictableBlocks = p.evictableBlocks := by
  cases act with
  | getNewBlocks n =>
    obtain ⟨⟨r, q⟩, hget, rfl⟩ := Option.map_eq_some_iff.mp hstep
    simp only [getNewBlocks, makeRoom, henable, Bool.false_eq_true, if_false] at hget
    split_ifs at hget
    · cases hget
      exact ⟨rfl, rfl⟩
    · have hframe := (allocBlocks_frame hget).1
      simp only [Prod.mk.injEq] at hframe
      exact hframe.2.2
  | cacheFullBlocks call =>
    cases hstep
    simp [cacheFullBlocks, henable]
  | touch blocks =>
    cases hstep
    simp [touch, henable]
  | freeBlocks blocks =>
    cases hstep
    simp only [freeBlocks, henable, Bool.false_eq_true, if_false]
    exact giveBackAny_frame ..
  | evictBlocks ids =>
    cases hstep
    simp [evictBlocks, henable]
  | resetPrefixCache =>
    cases hstep
    simp [resetPrefixCache, henable]
  | background =>
    cases hstep
    exact ⟨rfl, rfl⟩

end ElasticBlockPool

end GpuSharing.Integration
