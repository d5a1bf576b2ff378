import Mathlib.Algebra.Order.Ring.Int
import Mathlib.Tactic.Ring
import Mathlib.Tactic.Linarith
import GpuSharing.Kvcached.FTensor
import GpuSharing.Kvcached.PageAllocator

namespace GpuSharing.Kvcached

/-- What one `alloc_kv_cache` (or `alloc_mamba_states`) call and the manager of the same group
are built from. A per-layer buffer of K, of V or of both has `perBufferBytes` bytes; the tensors
are created with `numKvBuffers` buffers a layer; the manager counts `managerKvBuffers` of them and
asks for `memSizePerLayer` bytes of each. -/
structure KvPool where
  contiguousLayout : Bool
  unifiedPool : Bool
  numLayers : Nat
  numKvBuffers : Int
  managerKvBuffers : Int
  pageSize : Int
  perBufferBytes : Int
  memSizePerLayer : Int
  numLayers_pos : 0 < numLayers := by decide
  numKvBuffers_pos : 0 < numKvBuffers := by first | exact Int.one_pos | exact Numerals.pos_two | decide
  managerKvBuffers_pos : 0 < managerKvBuffers := by first | exact Int.one_pos | exact Numerals.pos_two | decide
  pageSize_pos : 0 < pageSize := by decide
  perBufferBytes_nonneg : 0 ≤ perBufferBytes := by decide
  memSizePerLayer_nonneg : 0 ≤ memSizePerLayer := by decide
  aligned : pageSize ∣ perBufferBytes := by decide
  contiguous_agrees : contiguousLayout = true → managerKvBuffers = numKvBuffers := by decide

namespace KvPool

def tensors (P : KvPool) : FTensorAllocator :=
  .createKvTensors P.contiguousLayout P.pageSize (P.perBufferBytes * P.numKvBuffers) P.numLayers
    P.numKvBuffers P.unifiedPool

/-- The `PageAllocator` of the manager. -/
def allocator (P : KvPool) : PageAllocatorConfig where
  numLayers := P.numLayers
  memSizePerLayer := P.memSizePerLayer
  pageSize := P.pageSize
  contiguousLayout := P.contiguousLayout
  numKvBuffers := P.managerKvBuffers
  numLayers_pos := Int.natCast_pos.mpr P.numLayers_pos
  memSizePerLayer_nonneg := P.memSizePerLayer_nonneg
  pageSize_pos := P.pageSize_pos
  numKvBuffers_pos := P.managerKvBuffers_pos

/-- `map_pages` in single-process mode. -/
def mapPages (P : KvPool) (k : FTensorAllocator) (ps : List PageId) :
    Option (Bool × FTensorAllocator) :=
  k.mapToKvTensors (ps.map (PageAllocator.pageOffset P.allocator))

def unmapPages (P : KvPool) (k : FTensorAllocator) (ps : List PageId) :
    Option (Bool × FTensorAllocator) :=
  k.unmapFromKvTensors (ps.map (PageAllocator.pageOffset P.allocator))

/-- The tensors of the pool with some slots mapped. -/
def withMapping (P : KvPool) (M : Finset (Nat × Int)) : FTensorAllocator :=
  { P.tensors with mapping := M }

/-- The slots `map_to_kv_tensors` maps for a page, run on fresh tensors. -/
def pageSlots (P : KvPool) (p : PageId) : Finset (Nat × Int) :=
  match P.mapPages (P.withMapping ∅) [p] with
  | some (true, k) => k.mapping
  | _ => ∅

/-- The slot lies in one of the tensors, inside its reserved bytes. -/
def Reserved (P : KvPool) (x : Nat × Int) : Prop :=
  x.1 < (if P.contiguousLayout then 1 else P.numLayers) ∧ 0 ≤ x.2 ∧
    (x.2 + 1) * P.tensors.slotBytes ≤ P.tensors.tensorBytes

/-- Page ids below `N` are mapped to reserved slots of their own, and unmapping a page takes back
exactly those, whatever else is mapped. -/
structure MapsApart (P : KvPool) (N : Int) : Prop where
  maps : ∀ p : Int, 0 ≤ p → p < N → ∀ M,
    P.mapPages (P.withMapping M) [p] = some (true, P.withMapping (M ∪ P.pageSlots p))
  unmaps : ∀ p : Int, 0 ≤ p → p < N → ∀ M, P.pageSlots p ⊆ M →
    P.unmapPages (P.withMapping M) [p] = some (true, P.withMapping (M \ P.pageSlots p))
  inside : ∀ p : Int, 0 ≤ p → p < N → ∀ x ∈ P.pageSlots p, P.Reserved x
  apart : ∀ p q : Int, 0 ≤ p → p < N → 0 ≤ q → q < N → p ≠ q →
    Disjoint (P.pageSlots p) (P.pageSlots q)

/-- The pages below `N` fit. A per-layer pool that is not unified keeps a second half of every
tensor for V, also when there is a single buffer. -/
def Fits (P : KvPool) (N : Int) : Prop :=
  if P.contiguousLayout then N * P.pageSize ≤ P.perBufferBytes
  else if P.unifiedPool then N * P.pageSize ≤ P.perBufferBytes * P.numKvBuffers
  else N ≤ 0 ∨ 2 * P.pageSize ∣ P.perBufferBytes * P.numKvBuffers ∧
    2 * (N * P.pageSize) ≤ P.perBufferBytes * P.numKvBuffers

variable (P : KvPool)

theorem slotBytes_eq : P.tensors.slotBytes =
    if P.contiguousLayout then P.pageSize * P.numLayers * P.numKvBuffers else P.pageSize := rfl

theorem slotBytes_pos : 0 < P.tensors.slotBytes := by
  have hl : (0 : Int) < P.numLayers := Int.natCast_pos.mpr P.numLayers_pos
  rw [slotBytes_eq]
  split_ifs
  · exact Int.mul_pos (Int.mul_pos P.pageSize_pos hl) P.numKvBuffers_pos
  · exact P.pageSize_pos

/-- The size passed to `create_kv_tensors` is a multiple of the page size already. -/
theorem tensorBytes_eq : P.tensors.tensorBytes =
    if P.contiguousLayout then P.perBufferBytes * P.numKvBuffers * P.numLayers
    else P.perBufferBytes * P.numKvBuffers := by
  have hmod : (P.perBufferBytes * P.numKvBuffers).tmod P.pageSize = 0 :=
    Int.tmod_eq_zero_of_dvd (Dvd.dvd.mul_right P.aligned _)
  simp [tensors, FTensorAllocator.createKvTensors, hmod]

/-- The offset of a page is its id times the page size of the tensors. -/
theorem offset_eq (p : PageId) :
    PageAllocator.pageOffset P.allocator p = p * P.tensors.slotBytes := by
  rw [slotBytes_eq]
  unfold PageAllocator.pageOffset allocator
  dsimp only
  split_ifs with hc
  · rw [P.contiguous_agrees hc]
    ring
  · rfl

/-- Half the pages of a tensor, where the V half of a split tensor starts. -/
def halfPages : Int := (P.perBufferBytes * P.numKvBuffers).tdiv (2 * P.pageSize)

/-- The keys the visits of some pages are kept under. -/
def keys (ps : List Int) : List (Nat × Int) :=
  if P.contiguousLayout then ps.map fun p => (0, p)
  else if P.unifiedPool then (List.range P.numLayers).flatMap fun i => ps.map fun p => (i, p)
  else (List.range P.numLayers).flatMap fun i =>
    ps.flatMap fun p => [(i, p), (i, p + P.halfPages)]

/-- The assertion of `get_v_base_offset` passes where it is made. -/
def Halves : Prop :=
  P.contiguousLayout = true ∨ P.unifiedPool = true ∨
    2 * P.pageSize ∣ P.perBufferBytes * P.numKvBuffers

theorem mul_slotBytes_tmod (p : Int) : (p * P.tensors.slotBytes).tmod P.tensors.slotBytes = 0 :=
  Int.mul_tmod_left _ _

theorem mul_slotBytes_tdiv (p : Int) : (p * P.tensors.slotBytes).tdiv P.tensors.slotBytes = p :=
  Int.mul_tdiv_cancel _ P.slotBytes_pos.ne'

theorem vBaseOffset_eq (hc : P.contiguousLayout = false)
    (hd : 2 * P.pageSize ∣ P.perBufferBytes * P.numKvBuffers) :
    P.tensors.getVBaseOffset = some (P.halfPages * P.tensors.slotBytes) := by
  have hbytes : P.tensors.tensorBytes = P.perBufferBytes * P.numKvBuffers := by
    rw [tensorBytes_eq, hc]
    rfl
  have hslot : P.tensors.slotBytes = P.pageSize := by
    rw [slotBytes_eq, hc]
    rfl
  obtain ⟨h, hh⟩ := hd
  have hpos := P.pageSize_pos
  have htwo : (2 * P.pageSize * h).tdiv 2 = h * P.pageSize := by
    rw [show 2 * P.pageSize * h = h * P.pageSize * 2 by ring]
    exact Int.mul_tdiv_cancel _ (by decide)
  have hhalf : P.halfPages = h := by
    unfold halfPages
    rw [hh]
    exact Int.mul_tdiv_cancel_left h (by omega)
  unfold FTensorAllocator.getVBaseOffset
  rw [hbytes, hslot, hhalf, hh, htwo]
  exact if_pos (Int.mul_tmod_right _ _)

theorem visits_keys (hH : P.Halves) (ps : List Int) :
    ∃ vs, P.tensors.visits (ps.map (PageAllocator.pageOffset P.allocator)) = some vs ∧
      (∀ v ∈ vs, P.tensors.Aligned v) ∧ vs.map P.tensors.slot = P.keys ps := by
  have hmod := P.mul_slotBytes_tmod
  have hdiv := P.mul_slotBytes_tdiv
  have hcl : P.tensors.contiguousLayout = P.contiguousLayout := rfl
  have hup : P.tensors.unifiedPool = P.unifiedPool := rfl
  have hnl : P.tensors.numLayers = P.numLayers := rfl
  have hoff : PageAllocator.pageOffset P.allocator = fun p => p * P.tensors.slotBytes :=
    funext P.offset_eq
  simp only [FTensorAllocator.visits, keys, hcl, hup, hnl, hoff]
  cases hc : P.contiguousLayout with
  | true =>
    refine ⟨_, rfl, ?_, ?_⟩
    · simp [FTensorAllocator.Aligned, hmod]
    · simp [FTensorAllocator.slot, hdiv, Function.comp_def]
  | false =>
    cases hu : P.unifiedPool with
    | true =>
      refine ⟨_, rfl, ?_, ?_⟩
      · simp only [List.mem_flatMap, List.mem_map]
        rintro v ⟨i, -, o, ⟨p, -, rfl⟩, rfl⟩
        exact hmod p
      · simp [FTensorAllocator.slot, List.map_flatMap, hdiv, Function.comp_def]
    | false =>
      have hd : 2 * P.pageSize ∣ P.perBufferBytes * P.numKvBuffers := by
        simpa [Halves, hc, hu] using hH
      rw [P.vBaseOffset_eq hc hd]
      refine ⟨_, rfl, ?_, ?_⟩
      · simp only [List.mem_flatMap, List.mem_map]
        rintro v ⟨i, -, o, ⟨p, -, rfl⟩, hv⟩
        simp only [List.mem_cons, List.not_mem_nil, or_false, ← add_mul] at hv
        rcases hv with rfl | rfl <;> exact hmod _
      · simp only [Bool.false_eq_true, if_false, List.map_flatMap, List.flatMap_map,
          List.map_cons, List.map_nil, FTensorAllocator.slot, ← add_mul, hdiv]

theorem visits_none (hH : ¬P.Halves) (os : List Int) : P.tensors.visits os = none := by
  simp only [Halves, not_or, Bool.not_eq_true] at hH
  obtain ⟨hc, hu, hd⟩ := hH
  have hcl : P.tensors.contiguousLayout = P.contiguousLayout := rfl
  have hup : P.tensors.unifiedPool = P.unifiedPool := rfl
  have hps : P.tensors.kPageSize = P.pageSize := rfl
  have hbytes : P.tensors.tensorBytes = P.perBufferBytes * P.numKvBuffers := by
    rw [tensorBytes_eq, hc]
    rfl
  have hmod : ¬(P.perBufferBytes * P.numKvBuffers).tmod (2 * P.pageSize) = 0 :=
    fun h => hd (Int.dvd_of_tmod_eq_zero h)
  simp [FTensorAllocator.visits, hcl, hup, hc, hu, FTensorAllocator.getVBaseOffset, hbytes, hps,
    hmod]

theorem mapPages_eq (hH : P.Halves) (ps : List Int) (M : Finset (Nat × Int)) :
    P.mapPages (P.withMapping M) ps =
      some (true, P.withMapping (M ∪ (P.keys ps).toFinset)) := by
  obtain ⟨vs, hvs, ha, hk⟩ := P.visits_keys hH ps
  have h0 : (P.withMapping M).numLayers ≠ 0 := P.numLayers_pos.ne'
  have hvs : (P.withMapping M).visits _ = some vs := hvs
  rw [mapPages, FTensorAllocator.mapToKvTensors_visits _ h0, hvs, Option.bind_some,
    FTensorAllocator.mapLoop_spec (P.withMapping M) _ _ ha, ← hk]
  rfl

theorem mapPages_none (hH : ¬P.Halves) (ps : List Int) (M : Finset (Nat × Int)) :
    P.mapPages (P.withMapping M) ps = none := by
  have h0 : (P.withMapping M).numLayers ≠ 0 := P.numLayers_pos.ne'
  have hnone : (P.withMapping M).visits (ps.map (PageAllocator.pageOffset P.allocator)) = none :=
    P.visits_none hH _
  rw [mapPages, FTensorAllocator.mapToKvTensors_visits _ h0, hnone, Option.bind_none]

theorem unmapPages_eq (hH : P.Halves) (ps : List Int) (M : Finset (Nat × Int))
    (hn : (P.keys ps).Nodup) (hM : (P.keys ps).toFinset ⊆ M) :
    P.unmapPages (P.withMapping M) ps =
      some (true, P.withMapping (M \ (P.keys ps).toFinset)) := by
  obtain ⟨vs, hvs, ha, hk⟩ := P.visits_keys hH ps
  have h0 : (P.withMapping M).numLayers ≠ 0 := P.numLayers_pos.ne'
  have hvs : (P.withMapping M).visits _ = some vs := hvs
  have hin : ∀ v ∈ vs, (P.withMapping M).slot v ∈ (P.withMapping M).mapping := by
    intro v hv
    refine hM (List.mem_toFinset.mpr ?_)
    rw [← hk]
    exact List.mem_map_of_mem hv
  rw [← hk] at hn
  rw [unmapPages, FTensorAllocator.unmapFromKvTensors_visits _ h0, hvs, Option.bind_some,
    FTensorAllocator.unmapLoop_spec (P.withMapping M) _ _ ha hn hin, ← hk]
  rfl

theorem unmapPages_none (hH : ¬P.Halves) (ps : List Int) (M : Finset (Nat × Int)) :
    P.unmapPages (P.withMapping M) ps = none := by
  have h0 : (P.withMapping M).numLayers ≠ 0 := P.numLayers_pos.ne'
  have hnone : (P.withMapping M).visits (ps.map (PageAllocator.pageOffset P.allocator)) = none :=
    P.visits_none hH _
  rw [unmapPages, FTensorAllocator.unmapFromKvTensors_visits _ h0, hnone, Option.bind_none]

theorem pageSlots_eq (hH : P.Halves) (p : Int) : P.pageSlots p = (P.keys [p]).toFinset := by
  rw [pageSlots, P.mapPages_eq hH [p] ∅, Finset.empty_union]
  rfl

theorem mem_keys {ps : List Int} {x : Nat × Int} :
    x ∈ P.keys ps ↔ x.1 < (if P.contiguousLayout then 1 else P.numLayers) ∧
      ∃ p ∈ ps, x.2 = p ∨
        P.contiguousLayout = false ∧ P.unifiedPool = false ∧ x.2 = p + P.halfPages := by
  obtain ⟨i, k⟩ := x
  unfold keys
  cases hc : P.contiguousLayout with
  | true =>
    simp only [if_true, List.mem_map, Prod.mk.injEq, Bool.true_eq_false, false_and, or_false]
    constructor
    · rintro ⟨p, hp, rfl, rfl⟩
      exact ⟨Nat.zero_lt_one, p, hp, rfl⟩
    · rintro ⟨hi, p, hp, rfl⟩
      exact ⟨k, hp, by omega, rfl⟩
  | false =>
    cases hu : P.unifiedPool with
    | true => simp
    | false =>
      simp only [Bool.false_eq_true, if_false, List.mem_flatMap, List.mem_range, List.mem_cons,
        List.not_mem_nil, or_false, Prod.mk.injEq, true_and]
      constructor
      · rintro ⟨j, hj, p, hp, ⟨rfl, rfl⟩ | ⟨rfl, rfl⟩⟩
        · exact ⟨hj, k, hp, .inl rfl⟩
        · exact ⟨hj, p, hp, .inr rfl⟩
      · rintro ⟨hi, p, hp, rfl | rfl⟩
        · exact ⟨i, hi, k, hp, .inl ⟨rfl, rfl⟩⟩
        · exact ⟨i, hi, p, hp, .inr ⟨rfl, rfl⟩⟩

theorem last_key (p : Int) : ∃ x ∈ P.keys [p],
    x.2 = if P.contiguousLayout ∨ P.unifiedPool then p else p + P.halfPages := by
  have h0 : 0 < if P.contiguousLayout then 1 else P.numLayers := by
    split_ifs
    · exact Nat.zero_lt_one
    · exact P.numLayers_pos
  by_cases h : P.contiguousLayout ∨ P.unifiedPool
  · exact ⟨(0, p), P.mem_keys.mpr ⟨h0, p, by simp, .inl rfl⟩, (if_pos h).symm⟩
  · rw [not_or, Bool.not_eq_true, Bool.not_eq_true] at h
    exact ⟨(0, p + P.halfPages), P.mem_keys.mpr ⟨h0, p, by simp, .inr ⟨h.1, h.2, rfl⟩⟩,
      by simp [h]⟩

/-- No two visits of a call share a key unless a page of the call is the V half of another. -/
theorem keys_nodup {ps : List Int} (hn : ps.Nodup) (hh : P.contiguousLayout = true ∨
      P.unifiedPool = true ∨ ∀ p ∈ ps, ∀ q ∈ ps, p ≠ q + P.halfPages) : (P.keys ps).Nodup := by
  unfold keys
  split_ifs with hc hu
  · exact List.Nodup.map (fun p q h => (Prod.mk.inj h).2) hn
  · refine List.nodup_flatMap.mpr ⟨fun i _ => ?_, ?_⟩
    · exact List.Nodup.map (fun p q h => (Prod.mk.inj h).2) hn
    · refine List.nodup_range.imp fun {i j} hij => ?_
      simp [List.Disjoint, hij.symm]
  · have hne : ∀ p ∈ ps, ∀ q ∈ ps, p ≠ q + P.halfPages := by simpa [hc, hu] using hh
    refine List.nodup_flatMap.mpr ⟨fun i _ => ?_, ?_⟩
    · refine List.nodup_flatMap.mpr ⟨fun p hp => ?_, ?_⟩
      · simpa using fun h => hne p hp p hp (by omega)
      · refine hn.imp_of_mem fun {p q} hp hq hpq => ?_
        have h1 := hne p hp q hq
        have h2 := hne q hq p hp
        simp [List.Disjoint, hpq, hpq.symm, h1, h2]
    · refine List.nodup_range.imp fun {i j} hij => ?_
      simp only [List.Disjoint, List.mem_flatMap, List.mem_cons, List.not_mem_nil, or_false]
      rintro x ⟨p, -, rfl | rfl⟩ ⟨q, -, h | h⟩ <;> exact hij (Prod.mk.inj h).1

/-- A page of id `p` is inside the tensors when the pages up to it fit in one buffer. -/
theorem reserved_iff (x : Nat × Int) : P.Reserved x ↔
    x.1 < (if P.contiguousLayout then 1 else P.numLayers) ∧ 0 ≤ x.2 ∧
      if P.contiguousLayout then (x.2 + 1) * P.pageSize ≤ P.perBufferBytes
      else (x.2 + 1) * P.pageSize ≤ P.perBufferBytes * P.numKvBuffers := by
  have hl : (0 : Int) < P.numLayers := Int.natCast_pos.mpr P.numLayers_pos
  have hf : 0 < P.numKvBuffers * P.numLayers := Int.mul_pos P.numKvBuffers_pos hl
  have hscale : (x.2 + 1) * (P.pageSize * P.numLayers * P.numKvBuffers) ≤
      P.perBufferBytes * P.numKvBuffers * P.numLayers ↔
      (x.2 + 1) * P.pageSize ≤ P.perBufferBytes := by
    rw [show (x.2 + 1) * (P.pageSize * P.numLayers * P.numKvBuffers) =
      (x.2 + 1) * P.pageSize * (P.numKvBuffers * P.numLayers) by ring,
      mul_assoc P.perBufferBytes]
    exact mul_le_mul_iff_left₀ hf
  unfold Reserved
  rw [P.slotBytes_eq, P.tensorBytes_eq]
  split_ifs
  · rw [hscale]
  · rfl

/-- The bytes reserved for one of the buffers the manager counts: a unified pool has K and V in
one buffer. -/
def reservedBytes : Int :=
  if P.contiguousLayout then P.perBufferBytes
  else if P.unifiedPool then P.perBufferBytes * P.numKvBuffers
  else P.perBufferBytes

/-- The bytes at the offset of a page that fits in one buffer are reserved. -/
theorem offset_reserved {p : Int} (h0 : 0 ≤ p) (hp : p < P.reservedBytes.tdiv P.pageSize) :
    0 ≤ PageAllocator.pageOffset P.allocator p ∧
      PageAllocator.pageOffset P.allocator p + P.tensors.slotBytes ≤ P.tensors.tensorBytes := by
  have hps := P.pageSize_pos
  have hV := P.perBufferBytes_nonneg
  have hk := P.numKvBuffers_pos
  have hdvd : P.pageSize ∣ P.reservedBytes := by
    unfold reservedBytes
    split_ifs
    · exact P.aligned
    · exact Dvd.dvd.mul_right P.aligned _
    · exact P.aligned
  have hfull : P.reservedBytes.tdiv P.pageSize * P.pageSize = P.reservedBytes :=
    Int.tdiv_mul_cancel hdvd
  have hin : (p + 1) * P.pageSize ≤ P.reservedBytes := by nlinarith
  have hres : P.Reserved (0, p) := by
    rw [reserved_iff]
    unfold reservedBytes at hin
    refine ⟨?_, h0, ?_⟩
    · split_ifs
      · exact Nat.zero_lt_one
      · exact P.numLayers_pos
    · split_ifs at hin ⊢
      · exact hin
      · exact hin
      · nlinarith
  rw [P.offset_eq]
  refine ⟨Int.mul_nonneg h0 P.slotBytes_pos.le, ?_⟩
  have hend := hres.2.2
  linarith

theorem halves_of_fits {N : Int} (hN : 0 < N) (h : P.Fits N) :
    P.Halves ∧ (P.contiguousLayout = true ∨ P.unifiedPool = true ∨ N ≤ P.halfPages) := by
  have hps := P.pageSize_pos
  unfold Fits at h
  split_ifs at h with hc hu
  · exact ⟨.inl hc, .inl hc⟩
  · exact ⟨.inr (.inl hu), .inr (.inl hu)⟩
  · obtain h | ⟨hd, h⟩ := h
    · omega
    · refine ⟨.inr (.inr hd), .inr (.inr ?_)⟩
      have hhalf : P.halfPages * (2 * P.pageSize) = P.perBufferBytes * P.numKvBuffers :=
        Int.tdiv_mul_cancel hd
      nlinarith

theorem reserved_of_fits {N p : Int} {x : Nat × Int} (h : P.Fits N) (h0 : 0 ≤ p) (hp : p < N)
    (hx : x ∈ P.keys [p]) : P.Reserved x := by
  have hps := P.pageSize_pos
  obtain ⟨-, hhalf⟩ := P.halves_of_fits (by omega) h
  obtain ⟨hx1, q, hq, hx2⟩ := P.mem_keys.mp hx
  obtain rfl := List.mem_singleton.mp hq
  rw [reserved_iff]
  unfold Fits at h
  cases hc : P.contiguousLayout with
  | true =>
    rw [hc] at h hx1 hx2
    obtain hx2 : x.2 = q := by simpa using hx2
    simp only [if_true] at h ⊢
    refine ⟨hx1, by omega, ?_⟩
    nlinarith
  | false =>
    rw [hc] at h hx1 hx2 hhalf
    simp only [Bool.false_eq_true, if_false] at h ⊢
    cases hu : P.unifiedPool with
    | true =>
      rw [hu] at h hx2
      obtain hx2 : x.2 = q := by simpa using hx2
      simp only [if_true] at h
      refine ⟨hx1, by omega, ?_⟩
      nlinarith
    | false =>
      rw [hu] at h hhalf
      simp only [Bool.false_eq_true, if_false, false_or] at h hhalf
      obtain ⟨hd, h⟩ : 2 * P.pageSize ∣ P.perBufferBytes * P.numKvBuffers ∧ _ :=
        h.resolve_left (by omega)
      have hhb : P.halfPages * (2 * P.pageSize) = P.perBufferBytes * P.numKvBuffers :=
        Int.tdiv_mul_cancel hd
      rcases hx2 with hx2 | ⟨-, -, hx2⟩
      · refine ⟨hx1, by omega, ?_⟩
        nlinarith
      · refine ⟨hx1, by omega, ?_⟩
        nlinarith

/-- Pages below `N` are mapped apart exactly when they fit. -/
theorem mapsApart_iff (N : Int) : P.MapsApart N ↔ P.Fits N := by
  have hps := P.pageSize_pos
  have hV := P.perBufferBytes_nonneg
  have hsize : 0 ≤ P.perBufferBytes * P.numKvBuffers :=
    Int.mul_nonneg hV P.numKvBuffers_pos.le
  constructor
  · intro h
    rcases le_or_gt N 0 with hN | hN
    · have hneg : N * P.pageSize ≤ 0 := Int.mul_nonpos_of_nonpos_of_nonneg hN hps.le
      unfold Fits
      split_ifs
      · omega
      · omega
      · exact .inl hN
    · have hH : P.Halves := by
        by_contra hH
        have hmap := h.maps (N - 1) (by omega) (by omega) ∅
        rw [P.mapPages_none hH] at hmap
        cases hmap
      obtain ⟨x, hx, hx2⟩ := P.last_key (N - 1)
      have hin := h.inside (N - 1) (by omega) (by omega) x
        (by rw [P.pageSlots_eq hH]; exact List.mem_toFinset.mpr hx)
      obtain ⟨-, -, hin⟩ := (P.reserved_iff x).mp hin
      unfold Fits
      split_ifs with hc hu
      · simpa [hx2, hc] using hin
      · simpa [hx2, hc, hu] using hin
      · have hd : 2 * P.pageSize ∣ P.perBufferBytes * P.numKvBuffers := by
          simpa [Halves, hc, hu] using hH
        refine .inr ⟨hd, ?_⟩
        have hhalf : P.halfPages * (2 * P.pageSize) = P.perBufferBytes * P.numKvBuffers :=
          Int.tdiv_mul_cancel hd
        simp only [hx2, hc, hu, if_false, or_self, Bool.false_eq_true] at hin
        nlinarith
  · intro h
    rcases le_or_gt N 0 with hN | hN
    · exact ⟨fun p _ _ => by omega, fun p _ _ => by omega, fun p _ _ => by omega,
        fun p q _ _ => by omega⟩
    · obtain ⟨hH, hhalf⟩ := P.halves_of_fits hN h
      have hslots := P.pageSlots_eq hH
      refine ⟨fun p _ _ M => ?_, fun p _ _ M hM => ?_, fun p h0 hp x hx => ?_,
        fun p q h0 hp h0' hq hpq => ?_⟩
      · rw [hslots]
        exact P.mapPages_eq hH [p] M
      · rw [hslots] at hM ⊢
        refine P.unmapPages_eq hH [p] M (P.keys_nodup (List.nodup_singleton p) ?_) hM
        refine hhalf.imp_right (Or.imp_right fun hle => ?_)
        simp only [List.mem_singleton]
        rintro _ rfl _ rfl
        omega
      · rw [hslots, List.mem_toFinset] at hx
        exact P.reserved_of_fits h h0 hp hx
      · rw [hslots, hslots, Finset.disjoint_left]
        intro x hx hx'
        rw [List.mem_toFinset] at hx hx'
        obtain ⟨-, _, hp', hxp⟩ := P.mem_keys.mp hx
        obtain ⟨-, _, hq', hxq⟩ := P.mem_keys.mp hx'
        obtain rfl := List.mem_singleton.mp hp'
        obtain rfl := List.mem_singleton.mp hq'
        rcases hxp with hxp | ⟨hc, hu, hxp⟩ <;> rcases hxq with hxq | ⟨hc', hu', hxq⟩
        · omega
        · simp only [hc', hu', Bool.false_eq_true, false_or] at hhalf
          omega
        · simp only [hc, hu, Bool.false_eq_true, false_or] at hhalf
          omega
        · omega

end KvPool

/-- An MLA cache of four 2 MiB pages in the per-layer layout. -/
def mlaPool : KvPool where
  contiguousLayout := false
  unifiedPool := false
  numLayers := 1
  numKvBuffers := 1
  managerKvBuffers := 1
  pageSize := 2097152
  perBufferBytes := 8388608
  memSizePerLayer := 8388608

/-- Page 0 is mapped over page 2, and page 2 runs past the end of the tensor. -/
theorem mlaPool_aliases :
    mlaPool.allocator.numPages = 4 ∧ (0, 2) ∈ mlaPool.pageSlots 0 ∧ (0, 2) ∈ mlaPool.pageSlots 2 ∧
      (0, 4) ∈ mlaPool.pageSlots 2 ∧ ¬mlaPool.Reserved (0, 4) ∧
      ¬mlaPool.MapsApart mlaPool.allocator.numPages := by
  refine ⟨by decide, by decide, by decide, by decide, by unfold KvPool.Reserved; decide, ?_⟩
  intro h
  have hd := h.apart 0 2 (by decide) (by decide) (by decide) (by decide) (by decide)
  exact absurd hd (by decide)

end GpuSharing.Kvcached
