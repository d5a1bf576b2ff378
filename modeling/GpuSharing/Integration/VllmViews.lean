import GpuSharing.Kvcached.InternalPage
import GpuSharing.Integration.VllmInterfaces

namespace GpuSharing.Integration

open Strided Kvcached

namespace KvCacheRequest

variable {r : KvCacheRequest}

theorem eq_two_cons {l : List Nat} (h : ¬l.length ≤ 2) :
    l = l.getD 0 0 :: l.getD 1 0 :: l.drop 2 := by
  rcases l with _ | ⟨a, _ | ⟨b, rest⟩⟩ <;> simp at h ⊢

theorem eq_three_cons {l : List Nat} (h : ¬l.length ≤ 3) :
    l = l.getD 0 0 :: l.getD 1 0 :: l.getD 2 0 :: l.drop 3 := by
  rcases l with _ | ⟨a, _ | ⟨b, _ | ⟨c, rest⟩⟩⟩ <;> simp at h ⊢

/-- The three shapes that pass the checks: MLA, FlashAttn and FlashInfer. -/
theorem checkShape_ok {dim : Nat} {order : List Nat} {bytes : Nat}
    (h : r.checkShape = .ok (dim, order, bytes)) :
    (r.isMla = true ∧ ∃ n rest, r.kvcacheShape = n :: r.blockSize :: rest ∧ dim = 0 ∧
      order = List.range (rest.length + 2) ∧ bytes = r.blockSize * rest.prod * r.itemsize) ∨
    (r.isMla = false ∧ ∃ n rest, r.kvcacheShape = 2 :: n :: r.blockSize :: rest ∧ dim = 1 ∧
      order = 1 :: 0 :: (List.range (rest.length + 3)).drop 2 ∧
      bytes = r.blockSize * rest.prod * r.itemsize) ∨
    (r.isMla = false ∧ ∃ n rest, r.kvcacheShape = n :: 2 :: r.blockSize :: rest ∧ dim = 0 ∧
      order = List.range (rest.length + 3) ∧ bytes = r.blockSize * rest.prod * r.itemsize) := by
  unfold checkShape at h
  cases hm : r.isMla with
  | true =>
    simp only [hm, if_true] at h
    split_ifs at h with h2 hb
    have hs := eq_two_cons h2
    rw [not_not.mp hb] at hs
    cases h
    refine .inl ⟨rfl, r.kvcacheShape.getD 0 0, r.kvcacheShape.drop 2, hs, rfl, ?_, ?_⟩
    · rw [List.length_drop, Nat.sub_add_cancel (by omega)]
    · rw [hs]
      simp
  | false =>
    simp only [hm, Bool.false_eq_true, if_false] at h
    split_ifs at h with h3 hk
    all_goals
      simp only [not_or, not_and_or, not_not] at h3
      obtain ⟨hlen, hkv, hb⟩ := h3
      have hs := eq_three_cons hlen
      rw [hb] at hs
      cases h
    · rw [hk] at hs
      refine .inr (.inl ⟨rfl, r.kvcacheShape.getD 1 0, r.kvcacheShape.drop 3, hs, rfl, ?_, ?_⟩)
      · rw [List.length_drop, Nat.sub_add_cancel (by omega)]
      · rw [hs]
        simp
    · rw [hkv.resolve_left hk] at hs
      refine .inr (.inr ⟨rfl, r.kvcacheShape.getD 0 0, r.kvcacheShape.drop 3, hs, rfl, ?_, ?_⟩)
      · rw [List.length_drop, Nat.sub_add_cancel (by omega)]
      · rw [hs]
        simp

theorem allocKvCache_ok {out : KvCache} (h : r.allocKvCache = .ok out) :
    (r.unifiedPool && r.contiguousLayout) = false ∧ ∃ kernel dim order bytes, 0 < kernel ∧
      kernel ∣ r.blockSize ∧ r.checkShape = .ok (dim, order, bytes) ∧ 0 < bytes ∧
      out = r.reshape kernel dim order bytes := by
  unfold allocKvCache at h
  simp only [bind, Except.bind, pure, Except.pure, throw, throwThe, MonadExceptOf.throw] at h
  split_ifs at h with hu hk hd
  cases hs : r.checkShape with
  | error e => simp [hs] at h
  | ok v =>
    simp only [hs] at h
    split_ifs at h with hb
    cases h
    exact ⟨by simpa using hu, _, v.1, v.2.1, v.2.2, Nat.pos_of_ne_zero hk,
      Nat.dvd_of_mod_eq_zero (not_not.mp hd), rfl, Nat.pos_of_ne_zero hb, rfl⟩

end KvCacheRequest

/-- How the indices of a view address its buffer: `k` buffers of K and V, `T` tokens an entry and
`R` elements a token. -/
structure Addressing where
  T : Nat
  R : Nat
  kvStride : Nat
  entryStride : Nat
  base : Nat

/-- Every index in bounds addresses a token of an entry, of K or of V. -/
def Addressing.Of (a : Addressing) (v : View) (blocksDimIdx tokenDimIdx k : Nat) : Prop :=
  v.shape.getD tokenDimIdx 0 = a.T ∧ ∀ idx, InBounds idx v.shape → ∃ kv d, kv < k ∧ d < a.R ∧
    idx.getD tokenDimIdx 0 < a.T ∧
    v.element idx = a.base + kv * a.kvStride + idx.getD blocksDimIdx 0 * a.entryStride +
      (idx.getD tokenDimIdx 0 * a.R + d)

theorem addressing_kv_first (a : Addressing) (k n : Nat) (rest : List Nat) (hR : rest.prod = a.R) :
    a.Of ⟨k :: n :: a.T :: rest, a.kvStride :: a.entryStride :: a.R :: rowMajor rest, a.base⟩
      1 2 k := by
  refine ⟨rfl, fun idx hidx => ?_⟩
  obtain ⟨kv, idx, rfl, hkv, hidx⟩ := inBounds_cons hidx
  obtain ⟨e, idx, rfl, -, hidx⟩ := inBounds_cons hidx
  obtain ⟨t, idx, rfl, ht, hidx⟩ := inBounds_cons hidx
  refine ⟨kv, dot idx (rowMajor rest), hkv, hR ▸ dot_rowMajor_lt hidx, ht, ?_⟩
  simp only [View.element, dot_cons, List.getD_cons_succ, List.getD_cons_zero]
  ring

theorem addressing_block_first (a : Addressing) (k n : Nat) (rest : List Nat)
    (hR : rest.prod = a.R) :
    a.Of ⟨n :: k :: a.T :: rest, a.entryStride :: a.kvStride :: a.R :: rowMajor rest, a.base⟩
      0 2 k := by
  refine ⟨rfl, fun idx hidx => ?_⟩
  obtain ⟨e, idx, rfl, -, hidx⟩ := inBounds_cons hidx
  obtain ⟨kv, idx, rfl, hkv, hidx⟩ := inBounds_cons hidx
  obtain ⟨t, idx, rfl, ht, hidx⟩ := inBounds_cons hidx
  refine ⟨kv, dot idx (rowMajor rest), hkv, hR ▸ dot_rowMajor_lt hidx, ht, ?_⟩
  simp only [View.element, dot_cons, List.getD_cons_succ, List.getD_cons_zero]
  ring

theorem addressing_single (a : Addressing) (n : Nat) (rest : List Nat) (hR : rest.prod = a.R) :
    a.Of ⟨n :: a.T :: rest, a.entryStride :: a.R :: rowMajor rest, a.base⟩ 0 1 1 := by
  refine ⟨rfl, fun idx hidx => ?_⟩
  obtain ⟨e, idx, rfl, -, hidx⟩ := inBounds_cons hidx
  obtain ⟨t, idx, rfl, ht, hidx⟩ := inBounds_cons hidx
  refine ⟨0, dot idx (rowMajor rest), Nat.zero_lt_one, hR ▸ dot_rowMajor_lt hidx, ht, ?_⟩
  simp only [View.element, dot_cons, List.getD_cons_succ, List.getD_cons_zero]
  ring

namespace KvCacheRequest

variable {r : KvCacheRequest}

theorem ratio_eq_one {kernel : Nat} (hd : kernel ∣ r.blockSize) (hb : 0 < r.blockSize)
    (h : ¬1 < r.blockSize / kernel) : r.blockSize / kernel = 1 ∧ kernel = r.blockSize := by
  have hpos : 0 < r.blockSize / kernel := Nat.div_pos (Nat.le_of_dvd hb hd)
    (Nat.pos_of_dvd_of_pos hd hb)
  have hone : r.blockSize / kernel = 1 := by omega
  refine ⟨hone, ?_⟩
  have hmul := Nat.div_mul_cancel hd
  rw [hone, Nat.one_mul] at hmul
  exact hmul

/-- What the views of a layer look like. -/
structure AddressedBy (r : KvCacheRequest) (layer : Nat) (a : Addressing) : Prop where
  T_pos : 0 < a.T
  T_dvd : a.T ∣ r.blockSize
  R_pos : 0 < a.R
  contiguous : r.contiguousLayout = true → a.T = r.blockSize ∧
    a.kvStride = r.blockSize * a.R ∧
    a.entryStride = r.numLayers * (r.numKOrV * (r.blockSize * a.R)) ∧
    a.base = layer * (r.numKOrV * (r.blockSize * a.R))
  split : r.contiguousLayout = false → r.unifiedPool = false → a.base = 0 ∧
    a.kvStride = r.gpuMemBytesPerLayerKOrV / r.itemsize ∧ a.entryStride = a.T * a.R
  unified : r.contiguousLayout = false → r.unifiedPool = true → a.base = 0 ∧
    a.kvStride = a.T * a.R ∧ a.entryStride = 2 * (a.T * a.R)

theorem unifiedPool_of_isMla (hm : r.isMla = true) : r.unifiedPool = false := by
  simp only [isMla, beq_iff_eq] at hm
  simp [unifiedPool, hm]

theorem mla_view {kernel n layer numBlocks : Nat} {rest : List Nat} {v : View} (hk : 0 < kernel)
    (hd : kernel ∣ r.blockSize) (hb : 0 < r.blockSize) (hR : 0 < rest.prod) (hm : r.isMla = true)
    (hv : (if r.contiguousLayout then
        r.contiguousView 0 (List.range (rest.length + 2)) (numBlocks :: r.blockSize :: rest) layer
      else r.perLayerView 0 (if 1 < r.blockSize / kernel then
        ((n :: r.blockSize :: rest).set 0 (numBlocks * (r.blockSize / kernel))).set 1 kernel
        else numBlocks :: r.blockSize :: rest)) = v) :
    ∃ a, a.Of v 0 1 1 ∧ r.AddressedBy layer a ∧ a.R = rest.prod := by
  have hone : r.numKOrV = 1 := by simp [numKOrV, hm]
  cases hc : r.contiguousLayout with
  | true =>
    let a : Addressing := ⟨r.blockSize, rest.prod, r.blockSize * rest.prod,
      r.numLayers * (r.numKOrV * (r.blockSize * rest.prod)),
      layer * (r.numKOrV * (r.blockSize * rest.prod))⟩
    refine ⟨a, ?_, ⟨hb, dvd_rfl, hR, fun _ => ⟨rfl, rfl, rfl, rfl⟩, by simp [hc], by simp [hc]⟩, rfl⟩
    have hview : v = ⟨numBlocks :: a.T :: rest, a.entryStride :: a.R :: rowMajor rest, a.base⟩ := by
      rw [← hv, if_pos hc, contiguousView, View.selectSecond]
      rw [permute_range _ _ (by simp [View.dense]) (by simp [View.dense])]
      simp [View.dense, a, hone]
    rw [hview]
    exact addressing_single a numBlocks rest rfl
  | false =>
    let a : Addressing := ⟨kernel, rest.prod, r.gpuMemBytesPerLayerKOrV / r.itemsize,
      kernel * rest.prod, 0⟩
    refine ⟨a, ?_, ⟨hk, hd, hR, by simp [hc], fun _ _ => ⟨rfl, rfl, rfl⟩, fun _ hu => ?_⟩, rfl⟩
    · have hshape : (if 1 < r.blockSize / kernel then
          ((n :: r.blockSize :: rest).set 0 (numBlocks * (r.blockSize / kernel))).set 1 kernel
          else numBlocks :: r.blockSize :: rest) =
          numBlocks * (r.blockSize / kernel) :: kernel :: rest := by
        split_ifs with hratio
        · simp
        · obtain ⟨h1, h2⟩ := ratio_eq_one hd hb hratio
          rw [h1, h2, Nat.mul_one]
      have hview : v = ⟨numBlocks * (r.blockSize / kernel) :: a.T :: rest,
          a.entryStride :: a.R :: rowMajor rest, a.base⟩ := by
        rw [← hv, hc, hshape]
        simp [perLayerView, hm, View.dense, a]
      rw [hview]
      exact addressing_single a _ rest rfl
    · rw [unifiedPool_of_isMla hm] at hu
      cases hu

/-- The addressing of the views with a K/V dimension. -/
def kvAddressing (r : KvCacheRequest) (kernel layer R : Nat) : Addressing :=
  if r.contiguousLayout then
    ⟨r.blockSize, R, r.blockSize * R, r.numLayers * (r.numKOrV * (r.blockSize * R)),
      layer * (r.numKOrV * (r.blockSize * R))⟩
  else if r.unifiedPool then ⟨kernel, R, kernel * R, 2 * (kernel * R), 0⟩
  else ⟨kernel, R, r.gpuMemBytesPerLayerKOrV / r.itemsize, kernel * R, 0⟩

theorem kvAddressing_addressedBy {kernel R : Nat} (layer : Nat) (hk : 0 < kernel)
    (hd : kernel ∣ r.blockSize) (hb : 0 < r.blockSize) (hR : 0 < R) :
    r.AddressedBy layer (r.kvAddressing kernel layer R) ∧ (r.kvAddressing kernel layer R).R = R := by
  unfold kvAddressing
  cases hc : r.contiguousLayout with
  | true =>
    exact ⟨⟨hb, dvd_rfl, hR, fun _ => ⟨rfl, rfl, rfl, rfl⟩, by simp [hc], by simp [hc]⟩, rfl⟩
  | false =>
    cases hu : r.unifiedPool with
    | true =>
      exact ⟨⟨hk, hd, hR, by simp [hc], by simp [hu], fun _ _ => ⟨rfl, rfl, rfl⟩⟩, rfl⟩
    | false =>
      exact ⟨⟨hk, hd, hR, by simp [hc], fun _ _ => ⟨rfl, rfl, rfl⟩, by simp [hu]⟩, rfl⟩

theorem flashAttn_view {kernel n layer numBlocks : Nat} {rest : List Nat} {v : View}
    (hd : kernel ∣ r.blockSize) (hb : 0 < r.blockSize) (hm : r.isMla = false)
    (hv : (if r.contiguousLayout then
        r.contiguousView 1 (1 :: 0 :: (List.range (rest.length + 3)).drop 2)
          (2 :: numBlocks :: r.blockSize :: rest) layer
      else r.perLayerView 1 (if 1 < r.blockSize / kernel then
        ((2 :: n :: r.blockSize :: rest).set 1 (numBlocks * (r.blockSize / kernel))).set 2 kernel
        else 2 :: numBlocks :: r.blockSize :: rest)) = v) :
    (r.kvAddressing kernel layer rest.prod).Of v 1 2 2 := by
  have htwo : r.numKOrV = 2 := by simp [numKOrV, hm]
  unfold kvAddressing
  cases hc : r.contiguousLayout with
  | true =>
    have hview : v = ⟨2 :: numBlocks :: r.blockSize :: rest, r.blockSize * rest.prod ::
        r.numLayers * (2 * (r.blockSize * rest.prod)) :: rest.prod :: rowMajor rest,
        layer * (2 * (r.blockSize * rest.prod))⟩ := by
      rw [← hv, if_pos hc, contiguousView, View.selectSecond]
      simpa [View.dense] using permute_swap numBlocks 2
        (r.numLayers * (2 * (r.blockSize * rest.prod))) (r.blockSize * rest.prod)
        (layer * (2 * (r.blockSize * rest.prod))) (r.blockSize :: rest)
        (rest.prod :: rowMajor rest) (by simp)
    rw [hview]
    simp only [htwo, if_true]
    exact addressing_kv_first ⟨r.blockSize, rest.prod, _, _, _⟩ 2 numBlocks rest rfl
  | false =>
    have hshape : (if 1 < r.blockSize / kernel then
        ((2 :: n :: r.blockSize :: rest).set 1 (numBlocks * (r.blockSize / kernel))).set 2 kernel
        else 2 :: numBlocks :: r.blockSize :: rest) =
        2 :: numBlocks * (r.blockSize / kernel) :: kernel :: rest := by
      split_ifs with hratio
      · simp
      · obtain ⟨h1, h2⟩ := ratio_eq_one hd hb hratio
        rw [h1, h2, Nat.mul_one]
    rw [hc, hshape] at hv
    cases hu : r.unifiedPool with
    | true =>
      obtain rfl : ⟨2 :: numBlocks * (r.blockSize / kernel) :: kernel :: rest,
          kernel * rest.prod :: 2 * (kernel * rest.prod) :: rest.prod :: rowMajor rest, 0⟩ = v := by
        simpa [perLayerView, hm, hu, View.asStrided] using hv
      exact addressing_kv_first ⟨kernel, rest.prod, _, _, 0⟩ 2 _ rest rfl
    | false =>
      obtain rfl : ⟨2 :: numBlocks * (r.blockSize / kernel) :: kernel :: rest,
          r.gpuMemBytesPerLayerKOrV / r.itemsize :: kernel * rest.prod :: rest.prod ::
            rowMajor rest, 0⟩ = v := by
        simpa [perLayerView, hm, hu, View.asStrided] using hv
      exact addressing_kv_first ⟨kernel, rest.prod, _, _, 0⟩ 2 _ rest rfl

theorem flashInfer_view {kernel n layer numBlocks : Nat} {rest : List Nat} {v : View}
    (hd : kernel ∣ r.blockSize) (hb : 0 < r.blockSize) (hm : r.isMla = false)
    (hv : (if r.contiguousLayout then
        r.contiguousView 0 (List.range (rest.length + 3))
          (numBlocks :: 2 :: r.blockSize :: rest) layer
      else r.perLayerView 0 (if 1 < r.blockSize / kernel then
        ((n :: 2 :: r.blockSize :: rest).set 0 (numBlocks * (r.blockSize / kernel))).set 2 kernel
        else numBlocks :: 2 :: r.blockSize :: rest)) = v) :
    (r.kvAddressing kernel layer rest.prod).Of v 0 2 2 := by
  have htwo : r.numKOrV = 2 := by simp [numKOrV, hm]
  unfold kvAddressing
  cases hc : r.contiguousLayout with
  | true =>
    have hview : v = ⟨numBlocks :: 2 :: r.blockSize :: rest,
        r.numLayers * (2 * (r.blockSize * rest.prod)) :: r.blockSize * rest.prod :: rest.prod ::
          rowMajor rest, layer * (2 * (r.blockSize * rest.prod))⟩ := by
      rw [← hv, if_pos hc, contiguousView, View.selectSecond]
      rw [permute_range _ _ (by simp [View.dense]) (by simp [View.dense])]
      simp [View.dense]
    rw [hview]
    simp only [htwo, if_true]
    exact addressing_block_first ⟨r.blockSize, rest.prod, _, _, _⟩ 2 numBlocks rest rfl
  | false =>
    have hshape : (if 1 < r.blockSize / kernel then
        ((n :: 2 :: r.blockSize :: rest).set 0 (numBlocks * (r.blockSize / kernel))).set 2 kernel
        else numBlocks :: 2 :: r.blockSize :: rest) =
        numBlocks * (r.blockSize / kernel) :: 2 :: kernel :: rest := by
      split_ifs with hratio
      · simp
      · obtain ⟨h1, h2⟩ := ratio_eq_one hd hb hratio
        rw [h1, h2, Nat.mul_one]
    rw [hc, hshape] at hv
    cases hu : r.unifiedPool with
    | true =>
      obtain rfl : ⟨numBlocks * (r.blockSize / kernel) :: 2 :: kernel :: rest,
          2 * (kernel * rest.prod) :: kernel * rest.prod :: rest.prod :: rowMajor rest, 0⟩ = v := by
        simpa [perLayerView, hm, hu, View.asStrided] using hv
      exact addressing_block_first ⟨kernel, rest.prod, _, _, 0⟩ 2 _ rest rfl
    | false =>
      obtain rfl : ⟨numBlocks * (r.blockSize / kernel) :: 2 :: kernel :: rest,
          kernel * rest.prod :: r.gpuMemBytesPerLayerKOrV / r.itemsize :: rest.prod ::
            rowMajor rest, 0⟩ = v := by
        simpa [perLayerView, hm, hu, View.asStrided] using hv
      exact addressing_block_first ⟨kernel, rest.prod, _, _, 0⟩ 2 _ rest rfl

theorem pos_of_bytes {b R i : Nat} (h : 0 < b * R * i) : 0 < b ∧ 0 < R ∧ 0 < i :=
  ⟨Nat.pos_of_mul_pos_right (Nat.pos_of_mul_pos_right h),
    Nat.pos_of_mul_pos_left (Nat.pos_of_mul_pos_right h), Nat.pos_of_mul_pos_left h⟩

theorem blockSize_pos {out : KvCache} (h : r.allocKvCache = .ok out) : 0 < r.blockSize := by
  obtain ⟨-, kernel, dim, order, bytes, -, -, hs, hb, -⟩ := allocKvCache_ok h
  obtain ⟨-, n, rest, -, -, -, rfl⟩ | ⟨-, n, rest, -, -, -, rfl⟩ |
    ⟨-, n, rest, -, -, -, rfl⟩ := checkShape_ok hs <;> exact (pos_of_bytes hb).1

/-- Every view of an accepted request is addressed by block, token and buffer as its layout
says. -/
theorem view_addressing {out : KvCache} (h : r.allocKvCache = .ok out) {layer : Nat} {v : View}
    (hv : out.views[layer]? = some v) :
    ∃ a, a.Of v out.blocksDimIdx out.tokenDimIdx r.numKOrV ∧ r.AddressedBy layer a ∧
      out.pageSizeBytes = r.numKOrV * (r.blockSize * a.R) * r.itemsize ∧ 0 < r.itemsize := by
  obtain ⟨-, kernel, dim, order, bytes, hk, hd, hs, hb, rfl⟩ := allocKvCache_ok h
  obtain ⟨hl, hv⟩ := List.getElem?_eq_some_iff.mp hv
  simp only [reshape, List.getElem_map, List.getElem_range] at hv
  obtain ⟨hm, n, rest, hshape, rfl, rfl, rfl⟩ | ⟨hm, n, rest, hshape, rfl, rfl, rfl⟩ |
    ⟨hm, n, rest, hshape, rfl, rfl, rfl⟩ := checkShape_ok hs
  · obtain ⟨hb, hR, hi⟩ := pos_of_bytes hb
    rw [hshape] at hv
    obtain ⟨a, ha, hby, haR⟩ := mla_view (n := n) hk hd hb hR hm (by simpa [hm] using hv)
    refine ⟨a, ?_, hby, ?_, hi⟩
    · simpa [reshape, hm, numKOrV] using ha
    · simp [reshape, hshape, hm, numKOrV, haR]
  · obtain ⟨hb, hR, hi⟩ := pos_of_bytes hb
    rw [hshape] at hv
    have ha := flashAttn_view (n := n) hd hb hm (by simpa [hm] using hv)
    obtain ⟨hby, haR⟩ := kvAddressing_addressedBy layer hk hd hb hR
    refine ⟨_, ?_, hby, ?_, hi⟩
    · simpa [reshape, hm, numKOrV] using ha
    · simp [reshape, hshape, hm, numKOrV, haR]
  · obtain ⟨hb, hR, hi⟩ := pos_of_bytes hb
    rw [hshape] at hv
    have ha := flashInfer_view (n := n) hd hb hm (by simpa [hm] using hv)
    obtain ⟨hby, haR⟩ := kvAddressing_addressedBy layer hk hd hb hR
    refine ⟨_, ?_, hby, ?_, hi⟩
    · simpa [reshape, hm, numKOrV] using ha
    · simp [reshape, hshape, hm, numKOrV, haR]

end KvCacheRequest

end GpuSharing.Integration
