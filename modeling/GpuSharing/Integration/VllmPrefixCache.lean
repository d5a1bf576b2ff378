import GpuSharing.Integration.VllmPrefixIndex
import GpuSharing.Kvcached.AllocatorCalls

namespace GpuSharing.Integration

open Kvcached Transition

/-- The groups a call of `get_cached_block` asks for. -/
def CacheGroups.ids : CacheGroups → List Int
  | .default => [0]
  | .single groupId => [groupId]
  | .all groupIds => groupIds

def hitBlocks : BlockId ⊕ List BlockId → List BlockId
  | .inl b => [b]
  | .inr bs => bs

namespace ElasticBlockPool

variable {μ : Type} {c : ElasticBlockPoolConfig} {M : BlockManagerApi μ}
  {p p' : ElasticBlockPool μ}

/-- The evictable blocks are distinct and have keys. -/
structure Kept (p : ElasticBlockPool μ) : Prop where
  keyed : ∀ b ∈ p.evictableBlocks, b ∈ p.blockIdToKey
  nodup : p.evictableBlocks.Nodup

theorem dropKey_mem {b b' : BlockId} (h : b' ∈ p.blockIdToKey) (hne : b' ≠ b) :
    b' ∈ (dropKey b p).blockIdToKey := by
  unfold dropKey
  split
  case h_1 => exact AList.mem_erase.mpr ⟨hne, h⟩
  case h_2 => exact h

namespace Kept

theorem congr (h : p.Kept) (hsame : (p'.blockIdToKey, p'.evictableBlocks) =
    (p.blockIdToKey, p.evictableBlocks)) : p'.Kept := by
  simp only [Prod.mk.injEq] at hsame
  refine ⟨?_, ?_⟩
  · rw [hsame.1, hsame.2]
    exact h.keyed
  · rw [hsame.2]
    exact h.nodup

theorem giveBackAny (h : p.Kept) (ids : List BlockId) : (giveBackAny M ids p).2.Kept := by
  apply h.congr
  rw [(giveBackAny_frame ids p).1, (giveBackAny_frame ids p).2]

/-- The key of a block goes with the block. -/
theorem drop (h : p.Kept) {b : BlockId} {rest : List BlockId} (hsub : rest.Sublist p.evictableBlocks)
    (hb : b ∉ rest) : Kept { dropKey b p with evictableBlocks := rest } := by
  refine ⟨?_, h.nodup.sublist hsub⟩
  intro b' hb'
  apply dropKey_mem (h.keyed b' (hsub.subset hb'))
  rintro rfl
  exact hb hb'

theorem evict (h : p.Kept) (b : BlockId) :
    Kept { dropKey b p with evictableBlocks := p.evictableBlocks.erase b } :=
  h.drop List.erase_sublist h.nodup.not_mem_erase

theorem evictLoop (n : Nat) (ids : List BlockId) (h : p.Kept) : (evictLoop n ids p).2.Kept :=
  evictLoop_rule (Q := fun _ q => q.Kept) (fun _ _ b _ hq => hq.evict b) n ids h

theorem evictBlocksFromPool (h : p.Kept) (n : Int) : (evictBlocksFromPool M n p).2.Kept :=
  (h.evictLoop _ _).giveBackAny _

theorem dropLoop (bids ids : List BlockId) (h : p.Kept) : (dropLoop bids ids p).2.Kept := by
  refine dropLoop_rule (Q := fun _ q => q.Kept) (fun _ _ b _ hq => hq.evict b) ?_ bids ids h
  intro ids q b hb hq
  refine (hq.drop (List.Sublist.refl _) hb).congr ?_
  rw [dropKey_evictable]

/-- A block joins the evictable ones once. -/
theorem add (h : p.Kept) {b : BlockId} (hkey : b ∈ p.blockIdToKey) : Kept { p with
    evictableBlocks :=
      if b ∈ p.evictableBlocks then p.evictableBlocks else p.evictableBlocks ++ [b] } := by
  by_cases hin : b ∈ p.evictableBlocks
  · simp only [if_pos hin]
    exact h
  · simp only [if_neg hin]
    refine ⟨?_, ?_⟩
    · intro b' hb'
      rcases List.mem_append.mp hb' with hb' | hb'
      · exact h.keyed b' hb'
      · rw [List.mem_singleton.mp hb']
        exact hkey
    · exact List.nodup_append.mpr ⟨h.nodup, List.nodup_singleton _, by
        intro b' hb' d hd
        rw [List.mem_singleton.mp hd]
        exact ne_of_mem_of_not_mem hb' hin⟩

theorem releaseLoop (blocks : List (Option BlockId)) (ids : List BlockId) (h : p.Kept) :
    (releaseLoop blocks ids p).2.Kept := by
  refine releaseLoop_rule (Q := fun _ q => q.Kept) ?_ blocks ids h
  intro ids q ids' q' hq hrelease
  cases hrelease with
  | held => exact hq.congr rfl
  | cached hkey => exact (hq.add hkey).congr rfl
  | uncached hkey => exact hq.congr rfl

theorem cacheFullBlocks (h : p.Kept) (call : CacheCall) : (cacheFullBlocks c call p).2.Kept := by
  refine cacheFullBlocks_rule ?_ call h
  rintro q _ hq ⟨⟩
  refine ⟨?_, hq.nodup⟩
  intro b' hb'
  exact (AList.mem_insert _).mpr (.inr (hq.keyed b' hb'))

theorem makeRoom (h : p.Kept) (n : Int) : (makeRoom c M n p).2.Kept := by
  rcases makeRoom_cases (c := c) (M := M) n p with heq | ⟨k, heq⟩
  · rwa [heq]
  · rw [heq]
    exact h.evictBlocksFromPool k

theorem getNewBlocks (h : p.Kept) {n : Int} {r : Except BlockPoolError (List BlockId)}
    (hget : getNewBlocks c M n p = some (r, p')) : p'.Kept := by
  rcases getNewBlocks_cases hget with rfl | rfl | hget
  · exact h
  · exact h.makeRoom n
  · have hframe := (allocBlocks_frame hget).1
    refine (h.makeRoom (c := c) (M := M) n).congr ?_
    simp only [Prod.mk.injEq] at hframe ⊢
    exact hframe.2.2

theorem touch (h : p.Kept) (blocks : List BlockId ⊕ List (List BlockId)) :
    (touch c blocks p).Kept := by
  refine touch_rule (fun q b hq => ?_) blocks h
  exact ⟨fun b' hb' => hq.keyed b' (List.mem_of_mem_erase hb'), hq.nodup.erase _⟩

theorem trimCache (h : p.Kept) : (trimCache c M p).2.Kept := by
  rcases trimCache_cases (c := c) (M := M) p with heq | ⟨k, heq⟩
  · rwa [heq]
  · rw [heq]
    exact h.evictBlocksFromPool k

theorem freeBlocks (h : p.Kept) (blocks : List (Option BlockId)) :
    (freeBlocks c M blocks p).2.Kept := by
  have hgive := (h.releaseLoop blocks []).giveBackAny (M := M)
    (ElasticBlockPool.releaseLoop blocks [] p).1
  rcases freeBlocks_cases (c := c) (M := M) blocks p with (heq | heq) | ⟨-, heq⟩
  · rw [heq]
    exact hgive
  · rw [heq]
    exact hgive.trimCache
  · rw [heq]
    exact h.giveBackAny _

theorem evictBlocks (h : p.Kept) (ids : List BlockId) : (evictBlocks c M ids p).2.Kept := by
  unfold ElasticBlockPool.evictBlocks
  split_ifs
  · exact (h.dropLoop ids []).giveBackAny _
  · exact h

theorem resetPrefixCache (h : p.Kept) : (resetPrefixCache c M p).2.Kept := by
  unfold ElasticBlockPool.resetPrefixCache
  split_ifs
  · have hgive := giveBackAny_frame (M := M) p.evictableBlocks { p with evictableBlocks := [] }
    split
    case h_1 e q hq =>
      rw [hq] at hgive
      refine ⟨?_, ?_⟩ <;> rw [hgive.2] <;> simp
    case h_2 q hq =>
      rw [hq] at hgive
      refine ⟨?_, ?_⟩ <;> dsimp only <;> rw [hgive.2] <;> simp
  · exact h

theorem step {act : BlockPoolAct} (h : p.Kept) (hstep : step c M p act = some p') : p'.Kept := by
  cases act with
  | getNewBlocks n =>
    obtain ⟨⟨r, q⟩, hget, rfl⟩ := Option.map_eq_some_iff.mp hstep
    exact h.getNewBlocks hget
  | cacheFullBlocks call =>
    cases hstep
    exact h.cacheFullBlocks call
  | touch blocks =>
    cases hstep
    exact h.touch blocks
  | freeBlocks blocks =>
    cases hstep
    exact h.freeBlocks blocks
  | evictBlocks ids =>
    cases hstep
    exact h.evictBlocks ids
  | resetPrefixCache =>
    cases hstep
    exact h.resetPrefixCache
  | background =>
    cases hstep
    exact h.congr rfl

end Kept

/-- The block is allocated, and stored under the hash and the group since it was issued. -/
structure Serves (p : ElasticBlockPool μ) (blockHash : BlockHash) (groupId : Int) (b : BlockId) :
    Prop where
  allocated : b ∈ allocated p.history
  last : lastCached b p.history = some (blockHash, groupId)
  since : ∀ new es, p.history = new ++ .issued b :: es → .cached b blockHash groupId ∈ new

/-- The two indexes are inverse, and every block `get_cached_block` returns serves its group. -/
structure Current (c : ElasticBlockPoolConfig) (p : ElasticBlockPool μ) : Prop where
  inverse : ∀ k b, p.cachedBlocks.lookup k = some b ↔ p.blockIdToKey.lookup b = some k
  serves : ∀ blockHash groups hit, getCachedBlock c blockHash groups p = .ok (some hit) →
    List.Forall₂ (p.Serves blockHash) groups.ids (hitBlocks hit)

theorem Indexed.serves (h : p.Indexed) {x : BlockHash} {g : Int} {key : CacheKey} {b : BlockId}
    (hkey : makeCacheKey x g = .ok key) (hb : p.cachedBlocks.lookup key = some b) :
    p.Serves x g b := by
  have hk := h.toKey hb
  obtain ⟨x', g', hlast, hkey'⟩ := h.current hk
  obtain ⟨rfl, rfl⟩ := makeCacheKey_injective hkey hkey'
  refine ⟨h.allocated hk, hlast, ?_⟩
  intro new es hes
  rw [hes] at hlast
  exact lastCached_since hlast

theorem getCachedBlocks_serves (h : p.Indexed) {x : BlockHash} {gs done : List Int}
    {blocks hit : List BlockId} (hblocks : List.Forall₂ (p.Serves x) done blocks)
    (hget : getCachedBlocks x p gs blocks = .ok (some hit)) :
    List.Forall₂ (p.Serves x) (done ++ gs) hit := by
  induction gs generalizing done blocks with
  | nil =>
    simp only [getCachedBlocks, Except.ok.injEq] at hget
    split_ifs at hget
    cases hget
    rwa [List.append_nil]
  | cons g gs ih =>
    rw [getCachedBlocks] at hget
    split at hget
    case h_1 => cases hget
    case h_2 key hkey =>
      split at hget
      case h_1 => cases hget
      case h_2 b hb =>
        rw [List.append_cons]
        exact ih (List.rel_append hblocks (.cons (h.serves hkey hb) .nil)) hget

theorem Indexed.toCurrent (h : p.Indexed) : p.Current c := by
  refine ⟨fun k b => ⟨h.toKey, h.toBlock⟩, ?_⟩
  have hmany : ∀ {x gs hit}, (getCachedBlocks x p gs []).map (·.map Sum.inr) = .ok (some hit) →
      List.Forall₂ (p.Serves x) gs (hitBlocks hit) := by
    intro x gs hit hget
    cases hr : getCachedBlocks x p gs [] with
    | error e =>
      rw [hr] at hget
      cases hget
    | ok r =>
      rw [hr] at hget
      cases r with
      | none => cases hget
      | some blocks =>
        cases hget
        exact getCachedBlocks_serves h .nil hr
  intro x groups hit hget
  unfold getCachedBlock at hget
  split_ifs at hget
  · cases groups with
    | default =>
      dsimp only at hget
      split at hget
      case h_1 => cases hget
      case h_2 key hkey =>
        obtain ⟨b, hb, rfl⟩ := Option.map_eq_some_iff.mp (Except.ok.inj hget)
        exact .cons (h.serves hkey hb) .nil
    | single g => exact hmany hget
    | all gs => exact hmany hget
  · cases hget

theorem getCachedBlock_single (henable : c.enablePrefixCache = true) {x : BlockHash} {g : Int}
    {key : CacheKey} {b : BlockId} (hkey : makeCacheKey x g = .ok key)
    (hb : p.cachedBlocks.lookup key = some b) :
    getCachedBlock c x (.single g) p = .ok (some (.inr [b])) := by
  simp [getCachedBlock, henable, getCachedBlocks, hkey, hb, Except.map]

/-- `reset_prefix_cache` does not raise, as the manager takes the evictable blocks back. -/
def ResetReturns (c : ElasticBlockPoolConfig) (M : BlockManagerApi μ) (p : ElasticBlockPool μ) :
    BlockPoolAct → Prop
  | .resetPrefixCache => c.enablePrefixCache = true → p.evictableBlocks ≠ [] →
      (M.free p.evictableBlocks p.kvCacheManager).1 = .ok ()
  | _ => True

theorem resetPrefixCache_isOk_iff : (resetPrefixCache c M p).1.isOk ↔
    ResetReturns c M p .resetPrefixCache := by
  unfold resetPrefixCache giveBackAny giveBack ResetReturns
  by_cases henable : c.enablePrefixCache = true
  · by_cases hnil : p.evictableBlocks = []
    · simp [henable, hnil, Except.isOk, Except.toBool]
    · simp only [henable, List.isEmpty_iff, hnil]
      cases hfree : (M.free p.evictableBlocks p.kvCacheManager).1 <;>
        simp [Except.isOk, Except.toBool, hnil]
  · simp [henable, Except.isOk, Except.toBool]

/-- A reset that raises leaves the blocks it gave back in the indexes. -/
theorem resetPrefixCache_stale (h : p.Indexed) (hkept : p.Kept)
    (hnodup : (allocated p.history).Nodup) (hraise : ¬ResetReturns c M p .resetPrefixCache) :
    ¬(resetPrefixCache c M p).2.Current c := by
  unfold ResetReturns at hraise
  push Not at hraise
  obtain ⟨henable, hne, hfree⟩ := hraise
  intro hcur
  obtain ⟨b, hb⟩ := List.exists_mem_of_ne_nil _ hne
  obtain ⟨k, hk⟩ := Dict.mem_iff_lookup.mp (hkept.keyed b hb)
  obtain ⟨x, g, -, hkey⟩ := h.current hk
  have hreset : (resetPrefixCache c M p).2 =
      (giveBack M p.evictableBlocks { p with evictableBlocks := [] }).2 := by
    unfold resetPrefixCache giveBackAny
    rw [if_pos henable, if_neg (by simpa using hne)]
    split
    case h_1 q hq => rw [hq]
    case h_2 q hq =>
      exfalso
      apply hfree
      unfold giveBack at hq
      cases hr : (M.free p.evictableBlocks p.kvCacheManager).1 with
      | ok _ => rfl
      | error e => simp [hr] at hq
  rw [hreset] at hcur
  have hserves := hcur.serves x (.single g) (.inr [b])
    (getCachedBlock_single henable hkey (h.toBlock hk))
  rw [CacheGroups.ids, hitBlocks, List.forall₂_cons] at hserves
  have hin : b ∈ allocated ((p.evictableBlocks.map fun b => .returned b (p.refCnt b)).reverse ++
    p.history) := hserves.1.allocated
  rw [allocated_returned, hnodup.mem_sdiff_iff] at hin
  exact hin.2 hb

/-- What a run without a raising reset keeps. -/
structure Sound (c : ElasticBlockPoolConfig) (p : ElasticBlockPool μ) : Prop where
  indexed : p.Indexed
  kept : p.Kept
  nodup : (allocated p.history).Nodup
  off : c.enablePrefixCache = false → p.blockIdToKey = ∅

theorem init_sound {m : μ} (h : init c M m = some (.ok p)) : p.Sound c := by
  unfold init at h
  split at h
  case h_1 => cases h
  case h_2 => cases h
  case h_4 => cases h
  case h_3 b m _ =>
    split at h
    case h_2 => cases h
    case h_1 =>
      cases h
      refine ⟨⟨?_, ?_, ?_, ?_⟩, ⟨?_, ?_⟩, ?_, ?_⟩ <;> simp [allocated]

theorem step_sound {act : BlockPoolAct} (h : p.Sound c) (hstep : step c M p act = some p')
    (hfresh : IssuedFresh p'.history) (honce : CachedOnce p'.history)
    (hret : ResetReturns c M p act) : p'.Sound c := by
  refine ⟨?_, h.kept.step hstep, hfresh.nodup, ?_⟩
  · apply step_indexed h.indexed h.off hstep hfresh honce
    rintro rfl
    exact resetPrefixCache_isOk_iff.mpr hret
  · intro henable
    rw [(step_off henable hstep).1]
    exact h.off henable

theorem step_current_iff {act : BlockPoolAct} (h : p.Sound c) (hstep : step c M p act = some p')
    (hfresh : IssuedFresh p'.history) (honce : CachedOnce p'.history) :
    p'.Current c ↔ ResetReturns c M p act := by
  constructor
  · intro hcur
    by_contra hraise
    cases act with
    | resetPrefixCache =>
      cases hstep
      exact resetPrefixCache_stale h.indexed h.kept h.nodup hraise hcur
    | _ => exact hraise trivial
  · intro hret
    exact (step_sound h hstep hfresh honce hret).indexed.toCurrent

instance (c : ElasticBlockPoolConfig) (M : BlockManagerApi μ) :
    ∀ p act, Decidable (ResetReturns c M p act) := fun p act => by
  unfold ResetReturns
  split <;> infer_instance

/-- In a run in which the manager hands out no block twice at a time and a block is stored under
one key in an allocation, the indexes are inverse and the blocks found are current all along
exactly if the manager takes the blocks of every reset back without raising. -/
theorem current_iff_reset_returns (c : ElasticBlockPoolConfig) (M : BlockManagerApi μ) {m : μ}
    {p q : ElasticBlockPool μ} {acts : List BlockPoolAct} (hinit : init c M m = some (.ok p))
    (hrun : run (step c M) p acts = some q) (hfresh : IssuedFresh q.history)
    (honce : CachedOnce q.history) :
    p.Current c ∧
    (Along (step c M) (fun s act => ∀ t, step c M s act = some t → t.Current c) p acts ↔
      Along (step c M) (ResetReturns c M) p acts) := by
  have hsound := init_sound hinit
  refine ⟨hsound.indexed.toCurrent, ?_⟩
  refine along_congr (I := Sound c) ?_ ?_ hsound
    (along_and.mpr ⟨along_history (Q := IssuedFresh) (fun _ _ => .tail) hrun hfresh,
      along_history (Q := CachedOnce) (fun _ _ => .tail) hrun honce⟩)
  · intro s act hs hE
    constructor
    · intro hcur
      cases hstep : step c M s act with
      | none => cases act <;> trivial
      | some t =>
        exact (step_current_iff hs hstep (hE.1 t hstep) (hE.2 t hstep)).mp (hcur t hstep)
    · intro hret t hstep
      exact (step_current_iff hs hstep (hE.1 t hstep) (hE.2 t hstep)).mpr hret
  · intro s act t hs hE hret hstep
    exact step_sound hs hstep (hE.1 t hstep) (hE.2 t hstep) hret

end ElasticBlockPool

/-- A new pool over the manager that `get_kv_cache_manager` makes, once that is ready. -/
def startPool {σ : Type} (c : ElasticBlockPoolConfig) (C : KvCacheManagerConfig)
    (S : PageAllocatorApi σ) (M : BlockManagerApi (KvCacheManager σ)) (created : Bool) (s : σ) :
    Option (ElasticBlockPool (KvCacheManager σ)) :=
  match KvCacheManager.postInit C S created (KvCacheManager.init s) with
  | none => none
  | some (_, m) => match ElasticBlockPool.init c M m with
    | some (.ok p) => some p
    | _ => none

theorem startPool_init {σ : Type} {c : ElasticBlockPoolConfig} {C : KvCacheManagerConfig}
    {S : PageAllocatorApi σ} {M : BlockManagerApi (KvCacheManager σ)} {created : Bool} {s : σ}
    {p : ElasticBlockPool (KvCacheManager σ)} (h : startPool c C S M created s = some p) :
    ∃ m r, KvCacheManager.postInit C S created (KvCacheManager.init s) = some (r, m) ∧
      ElasticBlockPool.init c M m = some (.ok p) := by
  unfold startPool at h
  split at h
  case h_1 => cases h
  case h_2 r m hpost =>
    split at h
    case h_1 p hinit =>
      cases h
      exact ⟨m, r, hpost, hinit⟩
    case h_2 => cases h

/-- A manager while the unmap calls of its page allocator fail: `free` raises once a page is to be
unmapped. -/
def failingUnmapApi (C : KvCacheManagerConfig) (c : PageAllocatorConfig)
    (memGetInfo : System → Nat × Nat) : BlockManagerApi (KvCacheManager AllocatorProcess) :=
  { kvCacheManagerApi C (c.api memGetInfo) with
    free := fun ids m =>
      match KvCacheManager.freeGroups C (KvCacheManager.groupIndicesByPage C ids) [] m with
      | (.ok (p :: ps), m') =>
        let a := m'.pageAllocator.engine c (.freePages (p :: ps))
        match a.system.engine with
        | .unmapping _ _ => (.error (.runtimeError "Failed to unmap pages from KV tensors"),
            { m' with pageAllocator := a.engine c (.unmapReturns false) })
        | _ => KvCacheManager.free C (c.api memGetInfo) ids m
      | _ => KvCacheManager.free C (c.api memGetInfo) ids m }

namespace ElasticBlockPool

/-- Three pages of two blocks, with no pages kept in reserve. -/
def pairAllocator : PageAllocatorConfig where
  numLayers := 1
  memSizePerLayer := 24
  pageSize := 8
  numKvBuffers := 1
  minReservedPagesEnv := 0
  maxReservedPagesEnv := 0

def pairManager : KvCacheManagerConfig where
  blockMemSize := 4
  pageSize := 8

def pairPool : ElasticBlockPoolConfig where
  numGpuBlocks := 6
  enablePrefixCache := true

/-- Blocks 1, 2 and 3 are cached and freed, and the cache is reset. -/
def cacheAndReset : List BlockPoolAct :=
  [.getNewBlocks 3,
    .cacheFullBlocks ⟨some [[1], [2], [3]], [1, 2, 3], [], none, some (.int 0), some (.int 3), none, .int 0⟩,
    .freeBlocks [some 3, some 2, some 1], .resetPrefixCache, .getNewBlocks 1]

def pairApi : BlockManagerApi (KvCacheManager AllocatorProcess) :=
  kvCacheManagerApi pairManager (pairAllocator.api fun _ => (1000, 0))

def brokenPairApi : BlockManagerApi (KvCacheManager AllocatorProcess) :=
  failingUnmapApi pairManager pairAllocator fun _ => (1000, 0)

def pairStart (M : BlockManagerApi (KvCacheManager AllocatorProcess)) :
    Option (ElasticBlockPool (KvCacheManager AllocatorProcess)) :=
  startPool pairPool pairManager (pairAllocator.api fun _ => (1000, 0)) M true
    (.init pairAllocator [])

theorem current_iff_reset_returns_pair :
    ∃ p q, pairStart pairApi = some p ∧ run (step pairPool pairApi) p cacheAndReset = some q ∧
      Along (step pairPool pairApi)
        (fun s act => ∀ t, step pairPool pairApi s act = some t → t.Current pairPool) p
        cacheAndReset := by
  have hstart : pairStart pairApi = some ((pairStart pairApi).get (by decide +kernel)) :=
    (Option.some_get _).symm
  have hrun : run (step pairPool pairApi) ((pairStart pairApi).get (by decide +kernel))
      cacheAndReset = some _ := (Option.some_get (by decide +kernel)).symm
  refine ⟨_, _, hstart, hrun, ?_⟩
  obtain ⟨m, r, -, hinit⟩ := startPool_init hstart
  have hiff := current_iff_reset_returns pairPool _ hinit hrun (by decide +kernel)
    (by decide +kernel)
  exact hiff.2.mpr (by decide +kernel)

/-- An unmap call fails during the reset. Block 2 is found though it is not allocated, and block 1,
reissued to another request, is found under its old hash. -/
theorem failed_reset_serves_stale :
    ∃ p q, pairStart brokenPairApi = some p ∧
      run (step pairPool brokenPairApi) p cacheAndReset = some q ∧
      IssuedFresh q.history ∧ CachedOnce q.history ∧
      getCachedBlock pairPool [2] .default q = .ok (some (.inl 2)) ∧ 2 ∉ allocated q.history ∧
      getCachedBlock pairPool [1] .default q = .ok (some (.inl 1)) ∧ q.refCnt 1 = 1 ∧
      lastCached 1 q.history = none ∧ ¬q.Current pairPool := by
  have hstart : pairStart brokenPairApi =
      some ((pairStart brokenPairApi).get (by decide +kernel)) := (Option.some_get _).symm
  have hrun : run (step pairPool brokenPairApi) ((pairStart brokenPairApi).get (by decide +kernel))
      cacheAndReset = some _ := (Option.some_get (by decide +kernel)).symm
  refine ⟨_, _, hstart, hrun, by decide +kernel, by decide +kernel, by decide +kernel,
    by decide +kernel, by decide +kernel, by decide +kernel, by decide +kernel, ?_⟩
  intro hcur
  have hserves := hcur.serves [2] .default (.inl 2) (by decide +kernel)
  rw [CacheGroups.ids, hitBlocks, List.forall₂_cons] at hserves
  exact absurd hserves.1.allocated (by decide +kernel)

end ElasticBlockPool

end GpuSharing.Integration
