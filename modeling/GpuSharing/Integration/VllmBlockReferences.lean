import Mathlib.Data.List.ReduceOption
import GpuSharing.Integration.VllmPrefixCache

namespace GpuSharing.Integration

open Kvcached Transition

/-- Every block given back was allocated, and with prefix caching its `ref_cnt` was 0. -/
def ReturnsOnce (counted : Bool) : List BlockEvent → Prop
  | [] => True
  | .issued _ :: es => ReturnsOnce counted es
  | .cached _ _ _ :: es => ReturnsOnce counted es
  | .returned b n :: es => b ∈ allocated es ∧ (counted = true → n = 0) ∧ ReturnsOnce counted es

/-- The blocks an `alloc` hands out. -/
def lent : Except PyError (Option (List BlockId)) → List BlockId
  | .ok (some ids) => ids
  | _ => []

/-- A manager that lends blocks below `numBlocks`: in every state that meets `Inv m held`, the
blocks `held` are those handed out. A call of `alloc` counts if it leaves the manager `Fine`. -/
structure BlockManagerApi.Lends {μ : Type} (M : BlockManagerApi μ) (numBlocks : Int)
    (Inv : μ → List BlockId → Prop) (Fine : μ → Prop) : Prop where
  nodup : ∀ {m held}, Inv m held → held.Nodup
  range : ∀ {m held}, Inv m held → ∀ b ∈ held, 0 ≤ b ∧ b < numBlocks
  perm : ∀ {m held held'}, Inv m held → held.Perm held' → Inv m held'
  alloc : ∀ {m m' held n r}, Inv m held → M.alloc n m = some (r, m') → Fine m' →
    Inv m' (lent r ++ held) ∧ ∀ ids, r = .ok (some ids) → ids = [] ∨ (ids.length : Int) = n
  free : ∀ {m held ids}, Inv m held → ids.Subperm held →
    ∃ m', M.free ids m = (.ok (), m') ∧ Inv m' (held.diff ids)
  background : ∀ {m held}, Inv m held → Inv (M.background m) held

section History

variable {counted : Bool} {es : List BlockEvent} {ids : List BlockId}

theorem ReturnsOnce.issued (h : ReturnsOnce counted es) (ids : List BlockId) :
    ReturnsOnce counted ((ids.map .issued).reverse ++ es) := by
  induction ids generalizing es with
  | nil => exact h
  | cons b ids ih =>
    rw [List.map_cons, List.reverse_cons, List.append_assoc, List.singleton_append]
    exact ih (show ReturnsOnce counted (.issued b :: es) from h)

theorem ReturnsOnce.returned {f : BlockId → Int} (h : ReturnsOnce counted es) (hn : ids.Nodup)
    (hin : ∀ b ∈ ids, b ∈ allocated es) (hf : counted = true → ∀ b ∈ ids, f b = 0) :
    ReturnsOnce counted ((ids.map fun b => .returned b (f b)).reverse ++ es) := by
  induction ids generalizing es with
  | nil => exact h
  | cons b ids ih =>
    rw [List.map_cons, List.reverse_cons, List.append_assoc, List.singleton_append]
    obtain ⟨hb, hn⟩ := List.nodup_cons.mp hn
    have hreturn : ReturnsOnce counted (.returned b (f b) :: es) :=
      ⟨hin b List.mem_cons_self, fun hc => hf hc b List.mem_cons_self, h⟩
    apply ih hreturn hn
    · intro b' hb'
      exact (List.mem_erase_of_ne (ne_of_mem_of_not_mem hb' hb)).mpr
        (hin b' (List.mem_cons_of_mem _ hb'))
    · intro hc b' hb'
      exact hf hc b' (List.mem_cons_of_mem _ hb')

theorem IssuedFresh.returned (f : BlockId → Int) (h : IssuedFresh es) (ids : List BlockId) :
    IssuedFresh ((ids.map fun b => .returned b (f b)).reverse ++ es) := by
  induction ids generalizing es with
  | nil => exact h
  | cons b ids ih =>
    rw [List.map_cons, List.reverse_cons, List.append_assoc, List.singleton_append]
    exact ih (show IssuedFresh (.returned b (f b) :: es) from h)

theorem IssuedFresh.issued (h : IssuedFresh es) (hn : (ids ++ allocated es).Nodup) :
    IssuedFresh ((ids.map .issued).reverse ++ es) := by
  induction ids generalizing es with
  | nil => exact h
  | cons b ids ih =>
    rw [List.map_cons, List.reverse_cons, List.append_assoc, List.singleton_append]
    rw [List.cons_append, List.nodup_cons] at hn
    refine ih (show IssuedFresh (.issued b :: es) from ⟨?_, h⟩) ?_
    · intro hb
      exact hn.1 (List.mem_append_right _ hb)
    · change (ids ++ b :: allocated es).Nodup
      rw [List.perm_middle.nodup_iff, List.nodup_cons]
      exact hn

end History

namespace ElasticBlockPool

variable {μ : Type} {c : ElasticBlockPoolConfig} {M : BlockManagerApi μ}
  {Inv : μ → List BlockId → Prop} {Fine : μ → Prop} {p p' : ElasticBlockPool μ}
  {refs pending : List BlockId}

/-- The blocks `get_new_blocks` returns. -/
def given : Except BlockPoolError (List BlockId) → List BlockId
  | .ok blocks => blocks
  | .error _ => []

theorem refLoop_ok (ids blocks : List BlockId) (p : ElasticBlockPool μ)
    (hrange : ∀ b ∈ ids, 0 ≤ b ∧ b < c.numGpuBlocks) :
    refLoop c ids blocks p =
      (.ok (blocks ++ ids), { p with refCnt := fun b => if b ∈ ids then 1 else p.refCnt b }) := by
  induction ids generalizing blocks p with
  | nil => simp [refLoop]
  | cons b ids ih =>
    have hb := hrange b List.mem_cons_self
    have hpool : kvBlockPool c b = some b := by
      rw [kvBlockPool, if_pos hb.1, if_pos hb.2]
    rw [refLoop, hpool]
    dsimp only
    rw [ih _ _ fun b' hb' => hrange b' (List.mem_cons_of_mem _ hb'), List.append_assoc,
      List.singleton_append]
    simp only [setRefCnt, List.mem_cons, Prod.mk.injEq, ElasticBlockPool.mk.injEq, and_true,
      true_and]
    funext b'
    by_cases heq : b' = b
    · subst heq
      simp
    · simp [heq]

/-- What `alloc` hands out gets a reference count of one, and is returned. -/
theorem allocBlocks_spec (hM : M.Lends c.numGpuBlocks Inv Fine) {n : Int}
    {r : Except BlockPoolError (List BlockId)}
    (hlends : Inv p.kvCacheManager (allocated p.history))
    (halloc : allocBlocks c M n p = some (r, p')) (hfine : Fine p'.kvCacheManager) :
    Inv p'.kvCacheManager (given r ++ allocated p.history) ∧
    p' = { p with
      kvCacheManager := p'.kvCacheManager
      refCnt := fun b => if b ∈ given r then 1 else p.refCnt b
      history := ((given r).map .issued).reverse ++ p.history } := by
  unfold allocBlocks at halloc
  split at halloc
  case h_1 => cases halloc
  case h_2 e m hm =>
    cases halloc
    exact ⟨(hM.alloc hlends hm hfine).1, by simp [given]⟩
  case h_3 m hm =>
    cases halloc
    exact ⟨(hM.alloc hlends hm hfine).1, by simp [given]⟩
  case h_4 ids m hm =>
    dsimp only at halloc
    split_ifs at halloc with hlen
    · have hm' : p'.kvCacheManager = m := by
        have hframe := refLoop_frame (c := c) ids [] { p with
          kvCacheManager := m
          history := (ids.map .issued).reverse ++ p.history }
        rw [Option.some.inj halloc] at hframe
        exact (Prod.mk.inj hframe).1
      have hinv := (hM.alloc hlends hm (hm' ▸ hfine)).1
      rw [refLoop_ok ids [] _ fun b hb => hM.range hinv b (List.mem_append_left _ hb)] at halloc
      cases halloc
      exact ⟨hinv, rfl⟩
    · cases halloc
      obtain ⟨hinv, hids⟩ := hM.alloc hlends hm hfine
      rcases hids ids rfl with rfl | hids
      · exact ⟨hinv, by simp [given]⟩
      · exact absurd hids hlen

/-- The bookkeeping of a pool with prefix caching while `refs` are held and a call has the blocks
`pending` to give back. -/
structure Balanced (Inv : μ → List BlockId → Prop) (refs pending : List BlockId)
    (p : ElasticBlockPool μ) : Prop where
  lends : Inv p.kvCacheManager (allocated p.history)
  mem : ∀ b, b ∈ allocated p.history ↔
    b = p.nullBlock ∨ b ∈ refs ∨ b ∈ p.evictableBlocks ∨ b ∈ pending
  counts : ∀ b, b ≠ p.nullBlock → p.refCnt b = refs.count b
  null_refs : p.nullBlock ∉ refs
  null_key : p.nullBlock ∉ p.blockIdToKey
  null_pending : p.nullBlock ∉ pending
  evictable_refs : ∀ b ∈ p.evictableBlocks, b ∉ refs
  pending_nodup : pending.Nodup
  pending_refs : ∀ b ∈ pending, b ∉ refs
  pending_key : ∀ b ∈ pending, b ∉ p.blockIdToKey
  kept : p.Kept
  indexed : p.Indexed
  fresh : IssuedFresh p.history
  once : ReturnsOnce true p.history

namespace Balanced

theorem null_evictable (h : Balanced Inv refs pending p) : p.nullBlock ∉ p.evictableBlocks :=
  fun hin => h.null_key (h.kept.keyed _ hin)

theorem pending_evictable (h : Balanced Inv refs pending p) :
    ∀ b ∈ pending, b ∉ p.evictableBlocks :=
  fun b hb hin => h.pending_key b hb (h.kept.keyed b hin)

theorem pending_zero (h : Balanced Inv refs pending p) : ∀ b ∈ pending, p.refCnt b = 0 := by
  intro b hb
  rw [h.counts b (ne_of_mem_of_not_mem hb h.null_pending),
    List.count_eq_zero.mpr (h.pending_refs b hb)]
  rfl

theorem lookup_pending (h : Balanced Inv refs pending p) :
    ∀ b ∈ pending, p.blockIdToKey.lookup b = none :=
  fun b hb => AList.lookup_eq_none.mpr (h.pending_key b hb)

/-- The pending blocks go back to the manager. -/
theorem giveBackAny (hM : M.Lends c.numGpuBlocks Inv Fine) (h : Balanced Inv refs pending p) :
    ∃ p', giveBackAny M pending p = (.ok (), p') ∧ Balanced Inv refs [] p' ∧
      (p'.cachedBlocks, p'.blockIdToKey, p'.evictableBlocks, p'.nullBlock) =
        (p.cachedBlocks, p.blockIdToKey, p.evictableBlocks, p.nullBlock) := by
  have hindexed := h.indexed.giveBackAny (M := M) h.lookup_pending
  unfold ElasticBlockPool.giveBackAny at hindexed ⊢
  by_cases hnil : pending = []
  · subst hnil
    exact ⟨p, rfl, h, rfl⟩
  · rw [if_neg (by simpa using hnil)] at hindexed ⊢
    have hn := hM.nodup h.lends
    have hin : ∀ b ∈ pending, b ∈ allocated p.history := fun b hb =>
      (h.mem b).mpr (.inr (.inr (.inr hb)))
    obtain ⟨m, hfree, hm⟩ := hM.free h.lends (List.subperm_of_subset h.pending_nodup hin)
    rw [giveBack, hfree] at hindexed ⊢
    refine ⟨_, rfl, ⟨?_, ?_, h.counts, h.null_refs, h.null_key, List.not_mem_nil,
      h.evictable_refs, List.nodup_nil, ?_, ?_, h.kept.congr rfl, hindexed,
      h.fresh.returned _ _, h.once.returned h.pending_nodup hin fun _ => h.pending_zero⟩, rfl⟩
    · rwa [allocated_returned]
    · intro b
      dsimp only
      rw [allocated_returned, hn.mem_sdiff_iff, h.mem b]
      have h1 := h.null_pending
      have h2 := h.pending_refs b
      have h3 := h.pending_evictable b
      constructor
      · rintro ⟨hb | hb | hb | hb, hnot⟩
        · exact .inl hb
        · exact .inr (.inl hb)
        · exact .inr (.inr (.inl hb))
        · exact absurd hb hnot
      · rintro (rfl | hb | hb | hb)
        · exact ⟨.inl rfl, h1⟩
        · exact ⟨.inr (.inl hb), fun hp => h2 hp hb⟩
        · exact ⟨.inr (.inr (.inl hb)), fun hp => h3 hp hb⟩
        · cases hb
    · simp
    · simp

theorem notMem_dropKey {b b' : BlockId} (h : b' ∉ p.blockIdToKey) :
    b' ∉ (ElasticBlockPool.dropKey b p).blockIdToKey :=
  AList.lookup_eq_none.mp (dropKey_none (AList.lookup_eq_none.mpr h))

/-- A block that is not evictable loses its key. -/
theorem dropKey (h : Balanced Inv refs pending p) {b : BlockId} (hb : b ∉ p.evictableBlocks) :
    Balanced Inv refs pending (dropKey b p) where
  lends := by simpa using h.lends
  mem := by simpa using h.mem
  counts := by simpa using h.counts
  null_refs := by simpa using h.null_refs
  null_key := by simpa using notMem_dropKey h.null_key
  null_pending := by simpa using h.null_pending
  evictable_refs := by simpa using h.evictable_refs
  pending_nodup := h.pending_nodup
  pending_refs := h.pending_refs
  pending_key b' hb' := notMem_dropKey (h.pending_key b' hb')
  kept := (h.kept.drop (List.Sublist.refl _) hb).congr (by rw [dropKey_evictable])
  indexed := h.indexed.dropKey b
  fresh := by simpa using h.fresh
  once := by simpa using h.once

/-- An evictable block loses its key and is to be given back. -/
theorem evict (h : Balanced Inv refs pending p) {b : BlockId} (hb : b ∈ p.evictableBlocks) :
    Balanced Inv refs (pending ++ [b])
      { ElasticBlockPool.dropKey b p with evictableBlocks := p.evictableBlocks.erase b } where
  lends := by simpa using h.lends
  mem := by
    intro b'
    have hmem : b' ∈ p.evictableBlocks ↔ b' ∈ p.evictableBlocks.erase b ∨ b' = b := by
      rw [h.kept.nodup.mem_erase_iff]
      by_cases heq : b' = b
      · subst heq
        simp [hb]
      · simp [heq]
    simp only [dropKey_history, dropKey_nullBlock, List.mem_append, List.mem_singleton]
    rw [h.mem b', hmem]
    tauto
  counts := by simpa using h.counts
  null_refs := by simpa using h.null_refs
  null_key := by simpa using notMem_dropKey h.null_key
  null_pending := by
    simp only [dropKey_nullBlock, List.mem_append, List.mem_singleton, not_or]
    exact ⟨h.null_pending, fun heq => h.null_evictable (heq ▸ hb)⟩
  evictable_refs b' hb' := h.evictable_refs b' (List.mem_of_mem_erase hb')
  pending_nodup := by
    rw [← List.concat_eq_append, List.nodup_concat]
    exact ⟨fun hin => h.pending_evictable b hin hb, h.pending_nodup⟩
  pending_refs b' hb' := by
    rcases List.mem_append.mp hb' with hb' | hb'
    · exact h.pending_refs b' hb'
    · rw [List.mem_singleton.mp hb']
      exact h.evictable_refs b hb
  pending_key b' hb' := by
    rcases List.mem_append.mp hb' with hb' | hb'
    · exact notMem_dropKey (h.pending_key b' hb')
    · rw [List.mem_singleton.mp hb']
      exact AList.lookup_eq_none.mp (dropKey_self b p)
  kept := h.kept.drop List.erase_sublist h.kept.nodup.not_mem_erase
  indexed := (h.indexed.dropKey b).congr rfl
  fresh := by simpa using h.fresh
  once := by simpa using h.once

theorem evictLoop (n : Nat) (h : Balanced Inv refs pending p) :
    Balanced Inv refs (evictLoop n pending p).1 (evictLoop n pending p).2 :=
  evictLoop_rule (fun _ _ _ hb hq => hq.evict hb) n pending h

theorem dropLoop (bids : List BlockId) (h : Balanced Inv refs pending p) :
    Balanced Inv refs (dropLoop bids pending p).1 (dropLoop bids pending p).2 :=
  dropLoop_rule (fun _ _ _ hb hq => hq.evict hb) (fun _ _ _ hb hq => hq.dropKey hb) bids pending h

theorem evictBlocksFromPool (hM : M.Lends c.numGpuBlocks Inv Fine) (h : Balanced Inv refs [] p)
    (n : Int) : ∃ p', evictBlocksFromPool M n p = (.ok (), p') ∧ Balanced Inv refs [] p' := by
  obtain ⟨p', hgive, hp', -⟩ := (h.evictLoop _).giveBackAny hM
  exact ⟨p', hgive, hp'⟩

theorem makeRoom (hM : M.Lends c.numGpuBlocks Inv Fine) (h : Balanced Inv refs [] p) (n : Int) :
    ∃ p', makeRoom c M n p = (.ok (), p') ∧ Balanced Inv refs [] p' := by
  unfold ElasticBlockPool.makeRoom
  dsimp only
  split_ifs
  · exact h.evictBlocksFromPool hM _
  · exact ⟨p, rfl, h⟩
  · exact ⟨p, rfl, h⟩

theorem trimCache (hM : M.Lends c.numGpuBlocks Inv Fine) (h : Balanced Inv refs [] p) :
    ∃ p', trimCache c M p = (.ok (), p') ∧ Balanced Inv refs [] p' := by
  unfold ElasticBlockPool.trimCache
  split_ifs
  · exact h.evictBlocksFromPool hM _
  · exact ⟨p, rfl, h⟩

theorem evictBlocks (hM : M.Lends c.numGpuBlocks Inv Fine) (h : Balanced Inv refs [] p)
    (ids : List BlockId) :
    ∃ p', evictBlocks c M ids p = (.ok (), p') ∧ Balanced Inv refs [] p' := by
  unfold ElasticBlockPool.evictBlocks
  split_ifs
  · obtain ⟨p', hgive, hp', -⟩ := (h.dropLoop ids).giveBackAny hM
    exact ⟨p', hgive, hp'⟩
  · exact ⟨p, rfl, h⟩

/-- A reference is released. -/
theorem counts_release (h : Balanced Inv refs pending p) {b : BlockId} (hb : b ∈ refs) :
    ∀ b', b' ≠ p.nullBlock →
      (setRefCnt b (p.refCnt b - 1) p).refCnt b' = (refs.erase b).count b' := by
  intro b' hne
  change Function.update p.refCnt b (p.refCnt b - 1) b' = _
  by_cases heq : b' = b
  · subst heq
    have hpos := List.count_pos_iff.mpr hb
    rw [Function.update_self, h.counts b' hne, List.count_erase_self]
    omega
  · rw [Function.update_of_ne heq, h.counts b' hne, List.count_erase_of_ne heq]

theorem mem_release {b : BlockId} (hb : b ∈ refs) (b' : BlockId) :
    b' ∈ refs ↔ b' = b ∨ b' ∈ refs.erase b := by
  rw [(List.perm_cons_erase hb).mem_iff, List.mem_cons]

theorem refs_ne_null (h : Balanced Inv refs pending p) {b : BlockId} (hb : b ∈ refs) :
    b ≠ p.nullBlock := ne_of_mem_of_not_mem hb h.null_refs

theorem release_held (h : Balanced Inv refs pending p) {b : BlockId} (hb : b ∈ refs)
    (hheld : b ∈ refs.erase b) :
    Balanced Inv (refs.erase b) pending (setRefCnt b (p.refCnt b - 1) p) where
  lends := h.lends
  mem b' := by
    rw [show (setRefCnt b (p.refCnt b - 1) p).history = p.history from rfl, h.mem b',
      mem_release hb b']
    by_cases heq : b' = b
    · subst heq
      simp [hheld]
    · simp [heq, setRefCnt]
  counts := h.counts_release hb
  null_refs hn := h.null_refs (List.mem_of_mem_erase hn)
  null_key := h.null_key
  null_pending := h.null_pending
  evictable_refs b' hb' hr := h.evictable_refs b' hb' (List.mem_of_mem_erase hr)
  pending_nodup := h.pending_nodup
  pending_refs b' hb' hr := h.pending_refs b' hb' (List.mem_of_mem_erase hr)
  pending_key := h.pending_key
  kept := h.kept.congr rfl
  indexed := h.indexed.congr rfl
  fresh := h.fresh
  once := h.once

theorem release_cached (h : Balanced Inv refs pending p) {b : BlockId} (hb : b ∈ refs)
    (hlast : b ∉ refs.erase b) (hkey : b ∈ p.blockIdToKey) :
    Balanced Inv (refs.erase b) pending { setRefCnt b (p.refCnt b - 1) p with
      evictableBlocks := p.evictableBlocks ++ [b] } where
  lends := h.lends
  mem b' := by
    simp only [setRefCnt, List.mem_append, List.mem_singleton]
    rw [h.mem b', mem_release hb b']
    tauto
  counts := h.counts_release hb
  null_refs hn := h.null_refs (List.mem_of_mem_erase hn)
  null_key := h.null_key
  null_pending := h.null_pending
  evictable_refs b' hb' hr := by
    rcases List.mem_append.mp hb' with hb' | hb'
    · exact h.evictable_refs b' hb' (List.mem_of_mem_erase hr)
    · rw [List.mem_singleton.mp hb'] at hr
      exact hlast hr
  pending_nodup := h.pending_nodup
  pending_refs b' hb' hr := h.pending_refs b' hb' (List.mem_of_mem_erase hr)
  pending_key := h.pending_key
  kept := by
    refine ⟨?_, ?_⟩
    · intro b' hb'
      rcases List.mem_append.mp hb' with hb' | hb'
      · exact h.kept.keyed b' hb'
      · rw [List.mem_singleton.mp hb']
        exact hkey
    · change (p.evictableBlocks ++ [b]).Nodup
      rw [← List.concat_eq_append, List.nodup_concat]
      exact ⟨fun hin => h.evictable_refs b hin hb, h.kept.nodup⟩
  indexed := h.indexed.congr rfl
  fresh := h.fresh
  once := h.once

theorem release_uncached (h : Balanced Inv refs pending p) {b : BlockId} (hb : b ∈ refs)
    (hlast : b ∉ refs.erase b) (hkey : b ∉ p.blockIdToKey) :
    Balanced Inv (refs.erase b) (pending ++ [b]) (setRefCnt b (p.refCnt b - 1) p) where
  lends := h.lends
  mem b' := by
    simp only [setRefCnt, List.mem_append, List.mem_singleton]
    rw [h.mem b', mem_release hb b']
    tauto
  counts := h.counts_release hb
  null_refs hn := h.null_refs (List.mem_of_mem_erase hn)
  null_key := h.null_key
  null_pending hn := by
    rcases List.mem_append.mp hn with hn | hn
    · exact h.null_pending hn
    · exact h.refs_ne_null hb (List.mem_singleton.mp hn).symm
  evictable_refs b' hb' hr := h.evictable_refs b' hb' (List.mem_of_mem_erase hr)
  pending_nodup := by
    rw [← List.concat_eq_append, List.nodup_concat]
    exact ⟨fun hin => h.pending_refs b hin hb, h.pending_nodup⟩
  pending_refs b' hb' hr := by
    rcases List.mem_append.mp hb' with hb' | hb'
    · exact h.pending_refs b' hb' (List.mem_of_mem_erase hr)
    · rw [List.mem_singleton.mp hb'] at hr
      exact hlast hr
  pending_key b' hb' := by
    rcases List.mem_append.mp hb' with hb' | hb'
    · exact h.pending_key b' hb'
    · rw [List.mem_singleton.mp hb']
      exact hkey
  kept := h.kept.congr rfl
  indexed := h.indexed.congr rfl
  fresh := h.fresh
  once := h.once

theorem nonNull_some {b : BlockId} {blocks : List (Option BlockId)} (hb : b ≠ p.nullBlock) :
    nonNull (some b :: blocks) p = b :: nonNull blocks p := by
  simp [nonNull, hb]

theorem nonNull_null {b : BlockId} {blocks : List (Option BlockId)} (hb : b = p.nullBlock) :
    nonNull (some b :: blocks) p = nonNull blocks p := by
  simp [nonNull, hb]

theorem releaseLoop (blocks : List (Option BlockId)) (h : Balanced Inv refs pending p)
    (hsub : (nonNull blocks p).Subperm refs) :
    Balanced Inv (refs.diff (nonNull blocks p)) (releaseLoop blocks pending p).1
      (releaseLoop blocks pending p).2 := by
  induction blocks generalizing refs pending p with
  | nil => exact h
  | cons block blocks ih =>
    cases block with
    | none => exact ih h hsub
    | some b =>
      rw [ElasticBlockPool.releaseLoop]
      by_cases hnull : b = p.nullBlock
      · rw [nonNull_null hnull] at hsub ⊢
        rw [if_pos hnull]
        exact ih h hsub
      · rw [nonNull_some hnull] at hsub ⊢
        rw [if_neg hnull, List.diff_cons]
        have hb : b ∈ refs := hsub.subset List.mem_cons_self
        have hrest : (nonNull blocks p).Subperm (refs.erase b) := by
          have herase := hsub.erase b
          rwa [List.erase_cons_head] at herase
        have hzero : p.refCnt b - 1 = 0 ↔ b ∉ refs.erase b := by
          rw [h.counts b hnull, ← List.count_eq_zero, List.count_erase_self]
          have hpos := List.count_pos_iff.mpr hb
          omega
        by_cases hlast : b ∈ refs.erase b
        · rw [if_neg (by rwa [hzero, not_not])]
          exact ih (h.release_held hb hlast) hrest
        · rw [if_pos (hzero.mpr hlast)]
          by_cases hkey : b ∈ p.blockIdToKey
          · rw [if_pos hkey, if_neg fun hin => h.evictable_refs b hin hb]
            exact ih (h.release_cached hb hlast hkey) hrest
          · rw [if_neg hkey]
            exact ih (h.release_uncached hb hlast hkey) hrest

theorem freeBlocks (hM : M.Lends c.numGpuBlocks Inv Fine) (henable : c.enablePrefixCache = true)
    (h : Balanced Inv refs [] p) {blocks : List (Option BlockId)}
    (hsub : (nonNull blocks p).Subperm refs) :
    ∃ p', freeBlocks c M blocks p = (.ok (), p') ∧
      Balanced Inv (refs.diff (nonNull blocks p)) [] p' := by
  obtain ⟨q, hgive, hq, -⟩ := (h.releaseLoop blocks hsub).giveBackAny hM
  obtain ⟨p', htrim, hp'⟩ := hq.trimCache hM
  refine ⟨p', ?_, hp'⟩
  unfold ElasticBlockPool.freeBlocks
  rw [if_pos henable]
  dsimp only
  rw [hgive]
  exact htrim

/-- A reference is taken to a block that is held or evictable. -/
theorem touchBlock (h : Balanced Inv refs pending p) {b : BlockId} (hb : b ≠ p.nullBlock)
    (hin : b ∈ refs ∨ b ∈ p.evictableBlocks) :
    Balanced Inv (b :: refs) pending (touchBlock p b) where
  lends := h.lends
  mem b' := by
    rw [show (ElasticBlockPool.touchBlock p b).history = p.history from rfl, h.mem b',
      List.mem_cons]
    change _ ↔ _ ∨ _ ∨ b' ∈ p.evictableBlocks.erase b ∨ _
    rw [h.kept.nodup.mem_erase_iff]
    by_cases heq : b' = b
    · subst heq
      tauto
    · simp [heq, ElasticBlockPool.touchBlock, setRefCnt]
  counts b' hne := by
    change Function.update p.refCnt b (p.refCnt b + 1) b' = _
    by_cases heq : b' = b
    · subst heq
      rw [Function.update_self, h.counts b' hne, List.count_cons_self]
      rfl
    · rw [Function.update_of_ne heq, h.counts b' hne, List.count_cons_of_ne (Ne.symm heq)]
  null_refs hn := by
    rcases List.mem_cons.mp hn with hn | hn
    · exact hb hn.symm
    · exact h.null_refs hn
  null_key := h.null_key
  null_pending := h.null_pending
  evictable_refs b' hb' hr := by
    obtain ⟨hne, hb'⟩ := h.kept.nodup.mem_erase_iff.mp hb'
    rcases List.mem_cons.mp hr with hr | hr
    · exact hne hr
    · exact h.evictable_refs b' hb' hr
  pending_nodup := h.pending_nodup
  pending_refs b' hb' hr := by
    rcases List.mem_cons.mp hr with rfl | hr
    · rcases hin with hin | hin
      · exact h.pending_refs b' hb' hin
      · exact h.pending_evictable b' hb' hin
    · exact h.pending_refs b' hb' hr
  pending_key := h.pending_key
  kept := ⟨fun b' hb' => h.kept.keyed b' (List.mem_of_mem_erase hb'), h.kept.nodup.erase _⟩
  indexed := h.indexed.congr rfl
  fresh := h.fresh
  once := h.once

/-- Nothing depends on the count of the null block. -/
theorem touchNull (h : Balanced Inv refs pending p) :
    Balanced Inv refs pending (ElasticBlockPool.touchBlock p p.nullBlock) := by
  have hsame : p.evictableBlocks.erase p.nullBlock = p.evictableBlocks :=
    List.erase_of_not_mem h.null_evictable
  have hcounts : ∀ b, b ≠ p.nullBlock →
      Function.update p.refCnt p.nullBlock (p.refCnt p.nullBlock + 1) b = refs.count b := by
    intro b hne
    rw [Function.update_of_ne hne, h.counts b hne]
  unfold ElasticBlockPool.touchBlock
  rw [hsame]
  exact { h with counts := hcounts, kept := h.kept.congr rfl, indexed := h.indexed.congr rfl }

/-- A block with a key is held or evictable. -/
theorem keyed_in (h : Balanced Inv refs [] p) {b : BlockId} (hb : b ∈ p.blockIdToKey) :
    b ≠ p.nullBlock ∧ (b ∈ refs ∨ b ∈ p.evictableBlocks) := by
  have hne : b ≠ p.nullBlock := fun heq => h.null_key (heq ▸ hb)
  obtain ⟨k, hk⟩ := Dict.mem_iff_lookup.mp hb
  rcases (h.mem b).mp (h.indexed.allocated hk) with hnull | hin | hin | hin
  · exact absurd hnull hne
  · exact ⟨hne, .inl hin⟩
  · exact ⟨hne, .inr hin⟩
  · cases hin

theorem touchAll (h : Balanced Inv refs [] p) {bs : List BlockId}
    (hbs : ∀ b ∈ bs, b = p.nullBlock ∨ b ∈ p.blockIdToKey ∨ b ∈ refs) :
    Balanced Inv ((bs.filter (· ≠ p.nullBlock)).reverse ++ refs) []
      (bs.foldl ElasticBlockPool.touchBlock p) := by
  induction bs generalizing refs p with
  | nil => exact h
  | cons b bs ih =>
    rw [List.foldl_cons]
    by_cases hnull : b = p.nullBlock
    · rw [List.filter_cons_of_neg (by simpa using hnull)]
      subst hnull
      exact ih h.touchNull fun b' hb' => hbs b' (List.mem_cons_of_mem _ hb')
    · rw [List.filter_cons_of_pos (by simpa using hnull), List.reverse_cons, List.append_assoc,
        List.singleton_append]
      have hin : b ∈ refs ∨ b ∈ p.evictableBlocks := by
        rcases hbs b List.mem_cons_self with hb | hb | hb
        · exact absurd hb hnull
        · exact (h.keyed_in hb).2
        · exact .inl hb
      apply ih (h.touchBlock hnull hin)
      intro b' hb'
      rcases hbs b' (List.mem_cons_of_mem _ hb') with hb' | hb' | hb'
      · exact .inl hb'
      · exact .inr (.inl hb')
      · exact .inr (.inr (List.mem_cons_of_mem _ hb'))

theorem stores (h : Balanced Inv refs [] p) (hs : Stores p p') (honce : CachedOnce p'.history) :
    Balanced Inv refs [] p' := by
  obtain ⟨hnull, hkey, hin⟩ := hs
  have hstore := h.indexed.store hkey hin honce
  exact { h with
    null_key := by
      intro hn
      rcases (AList.mem_insert _).mp hn with hn | hn
      · exact hnull hn.symm
      · exact h.null_key hn
    pending_key := by simp
    kept := ⟨fun b' hb' => (AList.mem_insert _).mpr (.inr (h.kept.keyed b' hb')), h.kept.nodup⟩
    indexed := hstore }

theorem cacheFullBlocks (h : Balanced Inv refs [] p) {call : CacheCall}
    (honce : CachedOnce (cacheFullBlocks c call p).2.history) :
    Balanced Inv refs [] (cacheFullBlocks c call p).2 := by
  refine cacheFullBlocks_rule (Q := fun q => CachedOnce q.history → Balanced Inv refs [] q) ?_ call
    (fun _ => h) honce
  intro q q' hq hs honce
  have hbefore := (Extends.stores hs).cachedOnce honce
  exact (hq hbefore).stores hs honce

theorem allocBlocks (hM : M.Lends c.numGpuBlocks Inv Fine) (h : Balanced Inv refs [] p) {n : Int}
    {r : Except BlockPoolError (List BlockId)} (halloc : allocBlocks c M n p = some (r, p'))
    (hfine : Fine p'.kvCacheManager) : Balanced Inv (given r ++ refs) [] p' := by
  obtain ⟨hinv, heq⟩ := allocBlocks_spec hM h.lends halloc hfine
  have hn := hM.nodup hinv
  have hfresh : IssuedFresh (((given r).map .issued).reverse ++ p.history) := h.fresh.issued hn
  have hindexed := h.indexed.issue (m := p'.kvCacheManager) hfresh
  have hnew : ∀ b ∈ given r, b ∉ allocated p.history := fun b hb => hfresh.notMem hb
  have hnull : p.nullBlock ∉ given r := fun hb => hnew _ hb ((h.mem _).mpr (.inl rfl))
  have hapart : ∀ b ∈ given r, b ∉ refs := fun b hb hr =>
    hnew b hb ((h.mem b).mpr (.inr (.inl hr)))
  rw [heq]
  refine ⟨?_, ?_, ?_, ?_, h.null_key, List.not_mem_nil, ?_, List.nodup_nil, by simp, by simp,
    h.kept.congr rfl, hindexed.congr rfl, hfresh, h.once.issued _⟩
  · dsimp only
    rw [allocated_issued]
    exact hM.perm hinv ((List.reverse_perm _).symm.append_right _)
  · intro b
    dsimp only
    rw [allocated_issued, List.mem_append, List.mem_reverse, List.mem_append, h.mem b]
    tauto
  · intro b hne
    dsimp only
    by_cases hb : b ∈ given r
    · rw [if_pos hb, List.count_append, List.count_eq_zero.mpr (hapart b hb),
        List.count_eq_one_of_mem (List.nodup_append.mp hn).1 hb]
      rfl
    · rw [if_neg hb, List.count_append, List.count_eq_zero.mpr hb, h.counts b hne, Nat.zero_add]
  · intro hb
    rcases List.mem_append.mp hb with hb | hb
    · exact hnull hb
    · exact h.null_refs hb
  · intro b hb hr
    rcases List.mem_append.mp hr with hr | hr
    · exact hnew b hr ((h.mem b).mpr (.inr (.inr (.inl hb))))
    · exact h.evictable_refs b hb hr

theorem getNewBlocks (hM : M.Lends c.numGpuBlocks Inv Fine) (h : Balanced Inv refs [] p) {n : Int}
    {r : Except BlockPoolError (List BlockId)} (hget : getNewBlocks c M n p = some (r, p'))
    (hfine : Fine p'.kvCacheManager) : Balanced Inv (given r ++ refs) [] p' := by
  unfold ElasticBlockPool.getNewBlocks at hget
  split_ifs at hget
  · cases hget
    exact h
  · obtain ⟨q, hroom, hq⟩ := h.makeRoom hM n
    rw [hroom] at hget
    exact hq.allocBlocks hM hget hfine

theorem resetPrefixCache (hM : M.Lends c.numGpuBlocks Inv Fine) (h : Balanced Inv refs [] p) :
    Balanced Inv refs [] (resetPrefixCache c M p).2 := by
  unfold ElasticBlockPool.resetPrefixCache
  split_ifs
  · -- clearing the indexes first leaves the evictable blocks to be given back
    have hclear : Balanced Inv refs p.evictableBlocks { p with
        evictableBlocks := [], cachedBlocks := ∅, blockIdToKey := ∅ } :=
      { lends := h.lends
        mem := by
          intro b
          rw [h.mem b]
          simp
        counts := h.counts
        null_refs := h.null_refs
        null_key := by simp
        null_pending := h.null_evictable
        evictable_refs := by simp
        pending_nodup := h.kept.nodup
        pending_refs := h.evictable_refs
        pending_key := by simp
        kept := ⟨by simp, List.nodup_nil⟩
        indexed := by refine ⟨?_, ?_, ?_, ?_⟩ <;> simp
        fresh := h.fresh
        once := h.once }
    obtain ⟨p', hgive, hp', hsame⟩ := hclear.giveBackAny hM
    have hcommute : ElasticBlockPool.giveBackAny M p.evictableBlocks
        { p with evictableBlocks := [] } = (.ok (), { p' with
          cachedBlocks := p.cachedBlocks, blockIdToKey := p.blockIdToKey }) := by
      unfold ElasticBlockPool.giveBackAny at hgive ⊢
      split_ifs at hgive ⊢
      · cases hgive
        rfl
      · unfold giveBack at hgive ⊢
        simp only [Prod.mk.injEq] at hgive ⊢
        obtain ⟨hok, rfl⟩ := hgive
        exact ⟨hok, rfl⟩
    rw [hcommute]
    simp only [Prod.mk.injEq] at hsame
    obtain ⟨hc, hk, -⟩ := hsame
    dsimp only
    rw [← hc, ← hk]
    exact hp'
  · exact h

end Balanced

end ElasticBlockPool

end GpuSharing.Integration
