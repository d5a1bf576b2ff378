import GpuSharing.Integration.VllmBlockReferences
import GpuSharing.Kvcached.BlockOwnership

namespace GpuSharing.Integration

open Kvcached Transition

/-- A pool and the references vLLM holds to blocks other than the null block. -/
structure PoolSession (μ : Type) where
  pool : ElasticBlockPool μ
  refs : List BlockId

def touchedBlocks : List BlockId ⊕ List (List BlockId) → List BlockId
  | .inl bs => bs
  | .inr bss => bss.flatten

namespace ElasticBlockPool

variable {μ : Type} {c : ElasticBlockPoolConfig} {M : BlockManagerApi μ}
  {Inv : μ → List BlockId → Prop} {Fine : μ → Prop} {p p' : ElasticBlockPool μ}
  {refs : List BlockId}

/-- The blocks `get_cached_block` can return. -/
def hits (p : ElasticBlockPool μ) : List BlockId := p.cachedBlocks.entries.map (·.2)

theorem mem_hits {b : BlockId} : b ∈ p.hits ↔ ∃ k, p.cachedBlocks.lookup k = some b := by
  unfold hits
  rw [List.mem_map]
  constructor
  · rintro ⟨⟨k, b⟩, he, rfl⟩
    exact ⟨k, AList.mem_lookup_iff.mpr he⟩
  · rintro ⟨k, hk⟩
    exact ⟨⟨k, b⟩, AList.mem_lookup_iff.mp hk, rfl⟩

theorem touch_eq (blocks : List BlockId ⊕ List (List BlockId)) (p : ElasticBlockPool μ)
    (henable : c.enablePrefixCache = true) :
    touch c blocks p = (touchedBlocks blocks).foldl touchBlock p := by
  unfold touch
  rw [if_pos henable]
  cases blocks with
  | inl bs => rfl
  | inr bss => exact List.foldl_flatten.symm

/-- The bookkeeping of a pool without prefix caching. -/
structure Uncounted (Inv : μ → List BlockId → Prop) (refs : List BlockId)
    (p : ElasticBlockPool μ) : Prop where
  lends : Inv p.kvCacheManager (allocated p.history)
  perm : (allocated p.history).Perm (p.nullBlock :: refs)
  cachedBlocks : p.cachedBlocks = ∅
  evictableBlocks : p.evictableBlocks = []
  once : ReturnsOnce false p.history

namespace Uncounted

theorem null_refs (hM : M.Lends c.numGpuBlocks Inv Fine) (h : Uncounted Inv refs p) :
    p.nullBlock ∉ refs :=
  (List.nodup_cons.mp (h.perm.nodup_iff.mp (hM.nodup h.lends))).1

theorem getNewBlocks (hM : M.Lends c.numGpuBlocks Inv Fine)
    (henable : c.enablePrefixCache = false) (h : Uncounted Inv refs p) {n : Int}
    {r : Except BlockPoolError (List BlockId)} (hget : getNewBlocks c M n p = some (r, p'))
    (hfine : Fine p'.kvCacheManager) : Uncounted Inv (given r ++ refs) p' := by
  simp only [ElasticBlockPool.getNewBlocks, makeRoom, henable, Bool.false_eq_true, if_false]
    at hget
  split_ifs at hget
  · cases hget
    exact h
  · obtain ⟨hinv, heq⟩ := allocBlocks_spec hM h.lends hget hfine
    have hperm : (given r ++ allocated p.history).Perm
        ((given r).reverse ++ allocated p.history) := (List.reverse_perm _).symm.append_right _
    rw [heq]
    refine ⟨?_, ?_, h.cachedBlocks, h.evictableBlocks, h.once.issued _⟩
    · dsimp only
      rw [allocated_issued]
      exact hM.perm hinv hperm
    · dsimp only
      rw [allocated_issued]
      refine (hperm.symm.trans (h.perm.append_left _)).trans ?_
      exact List.perm_middle

theorem freeBlocks (hM : M.Lends c.numGpuBlocks Inv Fine)
    (henable : c.enablePrefixCache = false) (h : Uncounted Inv refs p)
    {blocks : List (Option BlockId)} (hsub : (nonNull blocks p).Subperm refs) :
    Uncounted Inv (refs.diff (nonNull blocks p)) (freeBlocks c M blocks p).2 := by
  unfold ElasticBlockPool.freeBlocks
  rw [if_neg (by simp [henable])]
  unfold giveBackAny
  by_cases hnil : nonNull blocks p = []
  · rw [hnil]
    exact h
  · rw [if_neg (by simpa using hnil)]
    generalize nonNull blocks p = ids at hsub
    have hn := hM.nodup h.lends
    have hids : ids.Subperm (allocated p.history) :=
      (hsub.trans (List.sublist_cons_self _ _).subperm).trans h.perm.symm.subperm
    obtain ⟨m, hfree, hm⟩ := hM.free h.lends hids
    rw [giveBack, hfree]
    refine ⟨?_, ?_, h.cachedBlocks, h.evictableBlocks, ?_⟩
    · dsimp only
      rwa [allocated_returned]
    · dsimp only
      rw [allocated_returned]
      apply (List.perm_append_left_iff ids).mp
      have hrefs := (append_diff_perm hsub).symm.cons p.nullBlock
      exact (append_diff_perm hids).trans ((h.perm.trans hrefs).trans List.perm_middle.symm)
    · refine h.once.returned ?_ (fun b hb => hids.subset hb) (by simp)
      obtain ⟨l, hperm, hl⟩ := hids
      exact hperm.nodup_iff.mp (hn.sublist hl)

end Uncounted

/-- What every call keeps, with and without prefix caching. -/
def InOrder (c : ElasticBlockPoolConfig) (Inv : μ → List BlockId → Prop) (refs : List BlockId)
    (p : ElasticBlockPool μ) : Prop :=
  if c.enablePrefixCache then Balanced Inv refs [] p else Uncounted Inv refs p

theorem InOrder.lends (h : InOrder c Inv refs p) : Inv p.kvCacheManager (allocated p.history) := by
  unfold InOrder at h
  split_ifs at h
  · exact Balanced.lends h
  · exact Uncounted.lends h

/-- Nothing that happens in the manager touches the pool's own fields. -/
theorem InOrder.withManager (h : InOrder c Inv refs p) {m : μ} (hm : Inv m (allocated p.history)) :
    InOrder c Inv refs { p with kvCacheManager := m } := by
  unfold InOrder at h ⊢
  split_ifs at h ⊢
  · exact { h with
      lends := hm
      kept := h.kept.congr rfl
      indexed := h.indexed.congr rfl }
  · exact { h with lends := hm }

theorem init_inOrder (hM : M.Lends c.numGpuBlocks Inv Fine) {m : μ} (hm : Inv m [])
    (h : init c M m = some (.ok p)) (hfine : Fine p.kvCacheManager) : InOrder c Inv [] p := by
  unfold init at h
  split at h
  case h_1 => cases h
  case h_2 => cases h
  case h_4 => cases h
  case h_3 b m' halloc =>
    split at h
    case h_2 => cases h
    case h_1 nullBlock hpool =>
      cases h
      obtain ⟨hinv, -⟩ := hM.alloc hm halloc hfine
      have hb := hM.range hinv b (List.mem_append_left _ (List.mem_singleton_self b))
      rw [kvBlockPool, if_pos hb.1, if_pos hb.2] at hpool
      cases hpool
      unfold InOrder
      split_ifs
      · refine ⟨hinv, ?_, ?_, ?_, ?_, ?_, ?_, ?_, ?_, ?_, ⟨?_, ?_⟩, ⟨?_, ?_, ?_, ?_⟩, ?_, ?_⟩ <;>
          simp [allocated, IssuedFresh, ReturnsOnce]
      · refine ⟨hinv, ?_, rfl, rfl, ?_⟩
        · exact List.Perm.refl _
        · simp [ReturnsOnce]

end ElasticBlockPool

namespace PoolSession

open ElasticBlockPool

variable {μ : Type} {c : ElasticBlockPoolConfig} {M : BlockManagerApi μ}
  {Inv : μ → List BlockId → Prop} {Fine : μ → Prop} {s t : PoolSession μ}

/-- vLLM takes references to new blocks, to hits and to blocks it holds, and releases each once.
Without prefix caching there are no hits, and it touches no block. -/
def step (c : ElasticBlockPoolConfig) (M : BlockManagerApi μ) (s : PoolSession μ) :
    BlockPoolAct → Option (PoolSession μ)
  | .getNewBlocks n => match getNewBlocks c M n s.pool with
    | some (r, p) => some ⟨p, given r ++ s.refs⟩
    | none => none
  | .touch blocks =>
    if ∀ b ∈ touchedBlocks blocks, b = s.pool.nullBlock ∨ b ∈ s.pool.hits ∨
        c.enablePrefixCache = true ∧ b ∈ s.refs then
      some ⟨touch c blocks s.pool,
        ((touchedBlocks blocks).filter (· ≠ s.pool.nullBlock)).reverse ++ s.refs⟩
    else none
  | .freeBlocks blocks =>
    if (nonNull blocks s.pool).Subperm s.refs then
      some ⟨(freeBlocks c M blocks s.pool).2, s.refs.diff (nonNull blocks s.pool)⟩
    else none
  | act => match ElasticBlockPool.step c M s.pool act with
    | some p => some ⟨p, s.refs⟩
    | none => none

/-- A session only takes steps the pool can take. -/
theorem step_pool {act : BlockPoolAct} (h : step c M s act = some t) :
    ElasticBlockPool.step c M s.pool act = some t.pool := by
  cases act with
  | getNewBlocks n =>
    simp only [step] at h
    split at h
    case h_2 => cases h
    case h_1 r p hget =>
      cases h
      simp [ElasticBlockPool.step, hget]
  | touch blocks =>
    simp only [step] at h
    split_ifs at h
    cases h
    rfl
  | freeBlocks blocks =>
    simp only [step] at h
    split_ifs at h
    cases h
    rfl
  | cacheFullBlocks call =>
    cases h
    rfl
  | evictBlocks ids =>
    cases h
    rfl
  | resetPrefixCache =>
    cases h
    rfl
  | background =>
    cases h
    rfl

theorem step_inOrder {act : BlockPoolAct} (hM : M.Lends c.numGpuBlocks Inv Fine)
    (hs : InOrder c Inv s.refs s.pool) (hstep : step c M s act = some t)
    (hfine : Fine t.pool.kvCacheManager) (honce : CachedOnce t.pool.history) :
    InOrder c Inv t.refs t.pool := by
  unfold InOrder at hs ⊢
  cases act with
  | getNewBlocks n =>
    simp only [step] at hstep
    split at hstep
    case h_2 => cases hstep
    case h_1 r p hget =>
      cases hstep
      split_ifs at hs ⊢ with henable
      · exact hs.getNewBlocks hM hget hfine
      · exact hs.getNewBlocks hM (by simpa using henable) hget hfine
  | cacheFullBlocks call =>
    cases hstep
    split_ifs at hs ⊢ with henable
    · exact hs.cacheFullBlocks honce
    · rw [cacheFullBlocks, if_neg henable]
      exact hs
  | touch blocks =>
    simp only [step] at hstep
    split_ifs at hstep with htouch
    cases hstep
    split_ifs at hs ⊢ with henable
    · dsimp only
      rw [touch_eq _ _ henable]
      apply hs.touchAll
      intro b hb
      rcases htouch b hb with hb | hb | hb
      · exact .inl hb
      · obtain ⟨k, hk⟩ := mem_hits.mp hb
        exact .inr (.inl (Dict.mem_iff_lookup.mpr ⟨k, hs.indexed.toKey hk⟩))
      · exact .inr (.inr hb.2)
    · have hnone : (touchedBlocks blocks).filter (· ≠ s.pool.nullBlock) = [] := by
        rw [List.filter_eq_nil_iff]
        intro b hb
        rcases htouch b hb with hb | hb | hb
        · simpa using hb
        · rw [hits, hs.cachedBlocks] at hb
          cases hb
        · exact absurd hb.1 henable
      dsimp only
      unfold touch
      rw [hnone, if_neg henable]
      exact hs
  | freeBlocks blocks =>
    simp only [step] at hstep
    split_ifs at hstep with hsub
    cases hstep
    split_ifs at hs ⊢ with henable
    · obtain ⟨p', hfree, hp'⟩ := hs.freeBlocks hM henable hsub
      dsimp only
      rwa [hfree]
    · exact hs.freeBlocks hM (by simpa using henable) hsub
  | evictBlocks ids =>
    cases hstep
    split_ifs at hs ⊢ with henable
    · obtain ⟨p', hevict, hp'⟩ := hs.evictBlocks hM ids
      dsimp only
      rwa [hevict]
    · rw [evictBlocks, if_neg henable]
      exact hs
  | resetPrefixCache =>
    cases hstep
    split_ifs at hs ⊢ with henable
    · exact hs.resetPrefixCache hM
    · rw [resetPrefixCache, if_neg henable]
      exact hs
  | background =>
    cases hstep
    exact InOrder.withManager hs (hM.background (InOrder.lends hs))

end PoolSession

namespace KvCacheManagerApi

open KvCacheManager

variable {σ : Type} {C : KvCacheManagerConfig} {S : PageAllocatorApi σ}
  {m m' : KvCacheManager (σ × List PageId)} {out : List BlockId} {numBlocks : Int}

/-- The page ids issued are unique, and their pages lie within `numBlocks` blocks. -/
def IssuedInside (C : KvCacheManagerConfig) (numBlocks : Int)
    (m : KvCacheManager (σ × List PageId)) : Prop :=
  m.IssuedOnce ∧ ∀ p ∈ m.issued, (p + 1) * C.pageSize ≤ numBlocks * C.blockMemSize

/-- A manager without reserved blocks that has handed out the blocks `held`. Blocks an allocation
that raised has lost are no longer anybody's. -/
structure Lending (C : KvCacheManagerConfig) (numBlocks : Int)
    (m : KvCacheManager (σ × List PageId)) (held : List BlockId) : Prop where
  settled : ∃ lost, Settled C m (held ++ lost)
  reserved : m.reservedBlocks = []
  inside : ∀ p ∈ m.issued, 0 ≤ p ∧ (p + 1) * C.pageSize ≤ numBlocks * C.blockMemSize

theorem resize_reserved {n : Int} {r : Except PyError Bool} (hres : m.reservedBlocks = [])
    (h : resize C S.logged n m = (r, m')) : m'.reservedBlocks = [] := by
  unfold resize at h
  by_cases hn : n ≤ 0
  · rw [if_pos hn] at h
    cases h
    exact hres
  · rw [if_neg hn] at h
    split at h
    case h_1 =>
      by_cases hshrink : m.inShrink = true
      · rw [if_pos hshrink] at h
        cases h
        exact hres
      · rw [if_neg hshrink] at h
        cases h
        exact hres
    case h_2 =>
      rw [if_neg (not_not.mpr hres)] at h
      simp only [freeReserved, hres, List.isEmpty_nil, if_true] at h
      cases h
      rfl

theorem allocBlocks_reserved {n : Int} {r : Except PyError (Option (List BlockId))}
    (hm : Settled C m out) (hres : m.reservedBlocks = [])
    (h : allocBlocks C S.logged n m = some (r, m')) (hu : m'.IssuedOnce) :
    m'.reservedBlocks = [] ∧ ∀ ids, r = .ok (some ids) → ids.length = n.toNat := by
  unfold allocBlocks at h
  by_cases hsize : availableSize C S.logged m < n
  · rw [if_pos hsize] at h
    cases h
    exact ⟨hres, by simp⟩
  · rw [if_neg hsize, hres] at h
    simp only [List.isEmpty_nil, if_true, List.take_nil, List.drop_nil, Int.sub_zero] at h
    have hstart : Consistent C { m with reservedBlocks := [] } ([] ++ out) := by
      have hc := hm.consistent
      rw [hres] at hc
      exact ⟨hc.holds, hc.counter, hc.pages, hc.owned⟩
    split at h
    case h_1 => cases h
    case h_2 e m₁ hloop =>
      cases h
      exact ⟨(allocLoop_frame hloop).2.reservedBlocks, by simp⟩
    case h_3 ret m₁ hloop =>
      have hframe : m₁.reservedBlocks = [] := (allocLoop_frame hloop).2.reservedBlocks
      have hlen : m₁.IssuedOnce → ret.length = n.toNat := by
        intro hu₁
        obtain ⟨got, -, hids⟩ := allocLoop_spec hstart hloop hu₁
        simpa using (hids ret rfl).2
      cases h
      by_cases hdefer : C.deferPrealloc = true
      · rw [if_pos hdefer] at hu ⊢
        have hu₁ : m₁.IssuedOnce := by
          rwa [IssuedOnce, startPreallocThread_frame.1] at hu
        constructor
        · unfold startPreallocThread
          split_ifs <;> exact hframe
        · intro ids hr
          cases hr
          exact hlen hu₁
      · rw [if_neg hdefer] at hu ⊢
        refine ⟨hframe, ?_⟩
        intro ids hr
        cases hr
        exact hlen hu

/-- `alloc` hands out as many blocks as it is asked for. -/
theorem alloc_reserved {n : Int} {r : Except PyError (Option (List BlockId))}
    (hm : Settled C m out) (hres : m.reservedBlocks = [])
    (h : alloc C S.logged n m = some (r, m')) (hu : m'.IssuedOnce) :
    m'.reservedBlocks = [] ∧ ∀ ids, r = .ok (some ids) → ids.length = n.toNat := by
  rcases alloc_cases h with ⟨-, h⟩ | ⟨-, -, ⟨e, hresize, rfl⟩ | ⟨ok, m₁, hresize, h⟩⟩
  · exact allocBlocks_reserved hm hres h hu
  · exact ⟨resize_reserved hres hresize, by simp⟩
  · exact allocBlocks_reserved (resize_settled hm hresize).1 (resize_reserved hres hresize) h hu

namespace Lending

theorem nodup {held lost : List BlockId} (h : Settled C m (held ++ lost)) :
    held.Nodup := by
  have hn := h.consistent.nodup
  exact (List.nodup_append.mp (List.nodup_append.mp hn).2.1).1

theorem mem_range {held : List BlockId} (h : Lending C numBlocks m held) {b : BlockId}
    (hb : b ∈ held) : 0 ≤ b ∧ b < numBlocks := by
  obtain ⟨lost, hset⟩ := h.settled
  have hin : b ∈ m.reservedBlocks ++ (held ++ lost) :=
    List.mem_append_right _ (List.mem_append_left _ hb)
  obtain ⟨hp, hrange⟩ := hset.consistent.mem_blockRange hin
  obtain ⟨hnonneg, hlt⟩ := h.inside _ hp
  obtain ⟨hlo, hhi⟩ := (mem_blockRange_iff C hnonneg b).mp hrange
  have hpos := C.blockMemSize_pos
  have hstart : (0 : Int) ≤ b * C.blockMemSize :=
    (Int.mul_nonneg hnonneg C.pageSize_pos.le).trans hlo
  constructor
  · exact nonneg_of_mul_nonneg_left hstart hpos
  · have hend : b + 1 ≤ numBlocks := le_of_mul_le_mul_right (hhi.trans hlt) hpos
    exact hend

/-- Calls that change the allocator or the deferred shrink only. -/
theorem relabel {held : List BlockId} (h : Lending C numBlocks m held) (hk : m'.ShrinkKnown)
    (hsame : (m'.availPages, m'.fullPages, m'.numAvailBlocks, m'.reservedBlocks, m'.issued) =
      (m.availPages, m.fullPages, m.numAvailBlocks, m.reservedBlocks, m.issued)) :
    Lending C numBlocks m' held := by
  obtain ⟨lost, hset⟩ := h.settled
  simp only [Prod.mk.injEq] at hsame
  obtain ⟨-, -, -, hr, hi⟩ := id hsame
  refine ⟨⟨lost, hset.relabel hk (by simpa only [Prod.mk.injEq] using hsame)⟩,
    hr.trans h.reserved, ?_⟩
  rw [hi]
  exact h.inside

theorem known {held : List BlockId} (h : Lending C numBlocks m held) : m.ShrinkKnown := by
  obtain ⟨lost, hset⟩ := h.settled
  exact hset.known

end Lending

/-- A `KVCacheManager` lends distinct blocks as long as the pages it gets are distinct. -/
theorem lends (C : KvCacheManagerConfig) (S : PageAllocatorApi σ) (numBlocks : Int) :
    (kvCacheManagerApi C S.logged).Lends numBlocks (Lending C numBlocks)
      (IssuedInside C numBlocks) where
  nodup h := by
    obtain ⟨lost, hset⟩ := h.settled
    exact Lending.nodup hset
  range h b hb := h.mem_range hb
  perm h hperm := by
    obtain ⟨lost, hset⟩ := h.settled
    refine ⟨⟨lost, ?_, hset.known⟩, h.reserved, h.inside⟩
    exact hset.consistent.perm ((hperm.append_right lost).append_left _)
  alloc {m m' held n r} h halloc hfine := by
    obtain ⟨lost, hset⟩ := h.settled
    obtain ⟨-, got, hgot, hids⟩ := alloc_settled hset halloc hfine.1
    obtain ⟨hres, hlen⟩ := alloc_reserved hset h.reserved halloc hfine.1
    refine ⟨⟨?_, hres, fun p hp => ⟨hfine.1.2 p hp, hfine.2 p hp⟩⟩, ?_⟩
    · cases r with
      | error e =>
        refine ⟨got ++ lost, ?_, hgot.known⟩
        exact hgot.consistent.perm ((List.perm_append_comm_assoc _ _ _).append_left _)
      | ok ids =>
        rw [hids ids rfl, ← List.append_assoc] at hgot
        cases ids with
        | none => exact ⟨lost, hgot⟩
        | some ids => exact ⟨lost, hgot⟩
    · intro ids hr
      have hl := hlen ids hr
      rcases Int.lt_or_le n 0 with hn | hn
      · exact .inl (List.eq_nil_of_length_eq_zero (by omega))
      · exact .inr (by omega)
  free {m held ids} h hids := by
    obtain ⟨lost, hset⟩ := h.settled
    obtain ⟨m', hfree, hm', hafter⟩ :=
      Session.free_accounted (S := S) (s := ⟨m, held⟩) hset hids
    exact ⟨m', hfree, ⟨lost, hm'⟩, hafter.reservedBlocks.trans h.reserved,
      fun p hp => h.inside p (free_issued hfree hp)⟩
  background h := h.relabel h.known rfl

end KvCacheManagerApi

namespace ElasticBlockPool

variable {μ : Type}

/-- The blocks lent are the null block, the other blocks with references and the evictable ones,
and these are the blocks that are cached and have no reference. -/
structure Partitioned (p : ElasticBlockPool μ) : Prop where
  mem : ∀ b, b ∈ allocated p.history ↔
    b = p.nullBlock ∨ (b ≠ p.nullBlock ∧ 0 < p.refCnt b) ∨ b ∈ p.evictableBlocks
  apart : ∀ b ∈ p.evictableBlocks, b ≠ p.nullBlock ∧ p.refCnt b = 0
  evictable : ∀ b, b ∈ p.evictableBlocks ↔
    (∃ k, p.cachedBlocks.lookup k = some b) ∧ p.refCnt b = 0
  nodup : p.evictableBlocks.Nodup

theorem Balanced.partitioned {Inv : μ → List BlockId → Prop} {refs : List BlockId}
    {p : ElasticBlockPool μ} (h : Balanced Inv refs [] p) : p.Partitioned := by
  have hzero : ∀ b, b ≠ p.nullBlock → (p.refCnt b = 0 ↔ b ∉ refs) := by
    intro b hne
    rw [h.counts b hne, ← List.count_eq_zero]
    exact Int.natCast_eq_zero
  have hpos : ∀ b, b ≠ p.nullBlock → (0 < p.refCnt b ↔ b ∈ refs) := by
    intro b hne
    rw [h.counts b hne, ← List.count_pos_iff]
    exact Int.natCast_pos
  have hnull : ∀ b ∈ p.evictableBlocks, b ≠ p.nullBlock :=
    fun b hb => ne_of_mem_of_not_mem hb h.null_evictable
  have hapart : ∀ b ∈ p.evictableBlocks, p.refCnt b = 0 := fun b hb =>
    (hzero b (hnull b hb)).mpr (h.evictable_refs b hb)
  refine ⟨?_, fun b hb => ⟨hnull b hb, hapart b hb⟩, ?_, h.kept.nodup⟩
  · intro b
    rw [h.mem b]
    by_cases heq : b = p.nullBlock
    · simp [heq]
    · simp [heq, hpos b heq]
  · intro b
    constructor
    · intro hb
      obtain ⟨k, hk⟩ := Dict.mem_iff_lookup.mp (h.kept.keyed b hb)
      exact ⟨⟨k, h.indexed.toBlock hk⟩, hapart b hb⟩
    · rintro ⟨⟨k, hk⟩, hb⟩
      obtain ⟨hne, hin⟩ := h.keyed_in (Dict.mem_iff_lookup.mpr ⟨k, h.indexed.toKey hk⟩)
      rcases hin with hin | hin
      · exact absurd hin ((hzero b hne).mp hb)
      · exact hin

end ElasticBlockPool

namespace PoolSession

open ElasticBlockPool KvCacheManager KvCacheManagerApi

variable {σ : Type} {c : ElasticBlockPoolConfig} {C : KvCacheManagerConfig}
  {S : PageAllocatorApi σ}

/-- The page ids issued by the end of the step are unique and of the pool's own pages. -/
def IssuesInside (c : ElasticBlockPoolConfig) (C : KvCacheManagerConfig)
    (S : PageAllocatorApi σ) (s : PoolSession (KvCacheManager (σ × List PageId)))
    (act : BlockPoolAct) : Prop :=
  match step c (kvCacheManagerApi C S.logged) s act with
  | some t => IssuedInside C c.numGpuBlocks t.pool.kvCacheManager
  | none => True

instance (n : Int) (m : KvCacheManager (σ × List PageId)) : Decidable (IssuedInside C n m) := by
  unfold IssuedInside
  infer_instance

instance : ∀ s act, Decidable (IssuesInside c C S s act) := fun s act => by
  unfold IssuesInside
  split <;> infer_instance

theorem init_lending (C : KvCacheManagerConfig) (n : Int) (s₀ : σ) :
    Lending C n (KvCacheManager.init (s₀, [])) [] := by
  obtain ⟨lost, hset⟩ := (Session.start_accounted (C := C) s₀).settled
  exact ⟨⟨lost, hset⟩, rfl, by simp [KvCacheManager.init, issued]⟩

/-- Without a null block of its own a manager hands out nothing in `_post_init`. -/
theorem postInit_lending {created : Bool} {r : Except PyError Unit}
    {m m' : KvCacheManager (σ × List PageId)} {n : Int} {held : List BlockId}
    (hreserve : C.reserveNullBlock = false) (hm : Lending C n m held)
    (h : postInit C S.logged created m = some (r, m')) : Lending C n m' held := by
  unfold postInit reserveNull at h
  simp only [hreserve, Bool.false_eq_true, if_false] at h
  split at h
  case isFalse =>
    cases h
    exact hm.relabel hm.known rfl
  case isTrue =>
    unfold startPreallocThread at h
    split_ifs at h <;> cases h <;> exact hm.relabel hm.known rfl

theorem run_inOrder {s t : PoolSession (KvCacheManager (σ × List PageId))}
    {acts : List BlockPoolAct} (hs : InOrder c (Lending C c.numGpuBlocks) s.refs s.pool)
    (hrun : run (step c (kvCacheManagerApi C S.logged)) s acts = some t)
    (hissued : Along (step c (kvCacheManagerApi C S.logged)) (IssuesInside c C S) s acts)
    (honce : CachedOnce t.pool.history) :
    InOrder c (Lending C c.numGpuBlocks) t.refs t.pool := by
  have hback : ∀ s act t, step c (kvCacheManagerApi C S.logged) s act = some t →
      CachedOnce t.pool.history → CachedOnce s.pool.history := by
    intro s act t ht honce
    obtain ⟨new, hnew⟩ := (step_extends (step_pool ht)).history
    rw [← hnew] at honce
    exact honce.tail
  refine run_invariant_along (I := fun s => InOrder c (Lending C c.numGpuBlocks) s.refs s.pool)
    ?_ hs (along_and.mpr ⟨hissued, (along_of_last hback hrun honce).2⟩) hrun
  rintro s act t hs ⟨hact, honce⟩ ht
  rw [IssuesInside, ht] at hact
  exact step_inOrder (lends C S _) hs ht hact (honce t ht)

/-- In every run of an `ElasticBlockPool` over a `KVCacheManager` in which vLLM releases each
reference once and a block is stored under one key in an allocation: every block given back was
lent and, with prefix caching, had no reference; the blocks lent, which the manager accounts for,
are then partitioned by the pool. Without prefix caching, which counts no references, they are the
null block and the blocks vLLM holds. -/
theorem blocks_partitioned (c : ElasticBlockPoolConfig) (C : KvCacheManagerConfig)
    (S : PageAllocatorApi σ) {created : Bool} {s₀ : σ}
    {p : ElasticBlockPool (KvCacheManager (σ × List PageId))} {acts : List BlockPoolAct}
    {t : PoolSession (KvCacheManager (σ × List PageId))}
    (hreserve : C.reserveNullBlock = false)
    (hstart : startPool c C S.logged (kvCacheManagerApi C S.logged) created (s₀, []) = some p)
    (hrun : run (step c (kvCacheManagerApi C S.logged)) ⟨p, []⟩ acts = some t)
    (hissued₀ : IssuedInside C c.numGpuBlocks p.kvCacheManager)
    (hissued : Along (step c (kvCacheManagerApi C S.logged)) (IssuesInside c C S) ⟨p, []⟩ acts)
    (honce : CachedOnce t.pool.history) :
    Lending C c.numGpuBlocks t.pool.kvCacheManager (allocated t.pool.history) ∧
    (allocated t.pool.history).Nodup ∧ ReturnsOnce c.enablePrefixCache t.pool.history ∧
    (c.enablePrefixCache = true → t.pool.Partitioned ∧
      ∀ b, b ≠ t.pool.nullBlock → t.pool.refCnt b = t.refs.count b) ∧
    (c.enablePrefixCache = false →
      (allocated t.pool.history).Perm (t.pool.nullBlock :: t.refs) ∧
        t.pool.evictableBlocks = []) := by
  obtain ⟨m, r, hpost, hinit⟩ := startPool_init hstart
  have hlends := lends C S c.numGpuBlocks
  have horder := run_inOrder (S := S)
    (init_inOrder hlends (postInit_lending hreserve (init_lending C _ s₀) hpost) hinit hissued₀) hrun hissued honce
  unfold InOrder at horder
  cases henable : c.enablePrefixCache with
  | true =>
    rw [if_pos henable] at horder
    exact ⟨horder.lends, hlends.nodup horder.lends, horder.once,
      fun _ => ⟨horder.partitioned, horder.counts⟩, fun h => by cases h⟩
  | false =>
    rw [if_neg (by simp [henable])] at horder
    exact ⟨horder.lends, hlends.nodup horder.lends, horder.once, fun h => (by cases h),
      fun _ => ⟨horder.perm, horder.evictableBlocks⟩⟩

/-- Block 3 is hit and freed again, block 2 is evicted, and the cache is reset. -/
def shareAndEvict : List BlockPoolAct :=
  [.getNewBlocks 3,
    .cacheFullBlocks ⟨some [[1], [2], [3]], [1, 2, 3], [], none, some (.int 0), some (.int 3), none,
      .int 0⟩,
    .touch (.inl [3]), .freeBlocks [some 3, some 2, some 1], .background, .evictBlocks [2],
    .freeBlocks [some 3], .getNewBlocks 1, .resetPrefixCache]

def pairSessionApi : BlockManagerApi (KvCacheManager (AllocatorProcess × List PageId)) :=
  kvCacheManagerApi pairManager (pairAllocator.api fun _ => (1000, 0)).logged

def pairSessionStart (c : ElasticBlockPoolConfig) :
    Option (ElasticBlockPool (KvCacheManager (AllocatorProcess × List PageId))) :=
  startPool c pairManager (pairAllocator.api fun _ => (1000, 0)).logged pairSessionApi true
    (.init pairAllocator [], [])

theorem blocks_partitioned_pair :
    ∃ p t, pairSessionStart pairPool = some p ∧
      run (step pairPool pairSessionApi) ⟨p, []⟩ shareAndEvict = some t ∧
      t.pool.Partitioned ∧ t.refs = [2] ∧ allocated t.pool.history = [2, 0] := by
  have hstart : pairSessionStart pairPool =
      some ((pairSessionStart pairPool).get (by decide +kernel)) := (Option.some_get _).symm
  have hrun : run (step pairPool pairSessionApi)
      ⟨(pairSessionStart pairPool).get (by decide +kernel), []⟩ shareAndEvict = some _ :=
    (Option.some_get (by decide +kernel)).symm
  have hparts := blocks_partitioned pairPool pairManager _ rfl hstart hrun (by decide +kernel)
    (by decide +kernel) (by decide +kernel)
  exact ⟨_, _, hstart, hrun, (hparts.2.2.2.1 rfl).1, by decide +kernel, by decide +kernel⟩

/-- The pool without prefix caching. -/
def plainPool : ElasticBlockPoolConfig := { pairPool with enablePrefixCache := false }

/-- Without prefix caching a block keeps its count when it is given back. -/
theorem plain_pool_keeps_counts :
    ∃ p t, pairSessionStart plainPool = some p ∧
      run (step plainPool pairSessionApi) ⟨p, []⟩ [.getNewBlocks 1, .freeBlocks [some 1]] =
        some t ∧
      t.pool.nullBlock = 0 ∧ t.pool.refCnt 1 = 1 ∧ 1 ∉ allocated t.pool.history ∧
      .returned 1 1 ∈ t.pool.history ∧ ¬t.pool.Partitioned := by
  have hstart : pairSessionStart plainPool =
      some ((pairSessionStart plainPool).get (by decide +kernel)) := (Option.some_get _).symm
  have hrun : run (step plainPool pairSessionApi)
      ⟨(pairSessionStart plainPool).get (by decide +kernel), []⟩
      [.getNewBlocks 1, .freeBlocks [some 1]] = some _ :=
    (Option.some_get (by decide +kernel)).symm
  refine ⟨_, _, hstart, hrun, by decide +kernel, by decide +kernel, by decide +kernel,
    by decide +kernel, ?_⟩
  intro hparts
  have hin := (hparts.mem 1).mpr (.inr (.inl ⟨by decide +kernel, by decide +kernel⟩))
  exact absurd hin (by decide +kernel)

end PoolSession

end GpuSharing.Integration
