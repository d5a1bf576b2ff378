import GpuSharing.Kvcached.PoolHistory
import GpuSharing.Integration.VllmViews

namespace GpuSharing.Integration

open Strided Kvcached Transition

namespace KvCacheRequest

variable {r : KvCacheRequest} {out : KvCache}

/-- The tensors of the cache and the allocator of its manager, sized for `numBlocks` blocks. -/
def pool (h : r.allocKvCache = .ok out) (numBlocks : Nat) : KvPool where
  contiguousLayout := r.contiguousLayout
  unifiedPool := r.unifiedPool
  numLayers := r.numLayers
  numKvBuffers := r.numKOrV
  managerKvBuffers := r.managerKvBuffers
  pageSize := r.pageSize
  perBufferBytes := r.gpuMemBytesPerLayerKOrV
  memSizePerLayer := numBlocks * r.blockMemSize out
  numLayers_pos := r.numLayers_pos
  numKvBuffers_pos := by unfold numKOrV; split_ifs <;> decide
  managerKvBuffers_pos := by unfold managerKvBuffers; split_ifs <;> decide
  pageSize_pos := Int.natCast_pos.mpr r.pageSize_pos
  perBufferBytes_nonneg := Int.natCast_nonneg _
  memSizePerLayer_nonneg := by positivity
  aligned := Int.natCast_dvd_natCast.mpr (Nat.dvd_mul_left _ _)
  contiguous_agrees := fun hc => by
    have hu := (allocKvCache_ok h).1
    rw [hc, Bool.and_true] at hu
    unfold managerKvBuffers numKOrV
    rw [hu, Bool.or_false]

/-- The token an index of a view stands for. -/
def token (out : KvCache) (v : View) (idx : List Nat) : Nat :=
  idx.getD out.blocksDimIdx 0 * v.shape.getD out.tokenDimIdx 0 + idx.getD out.tokenDimIdx 0

/-- The slot of a byte of the tensor behind the view of a layer. -/
def byteSlot (P : KvPool) (layer x : Nat) : Nat × Int :=
  (if P.contiguousLayout then 0 else layer, (x : Int).tdiv P.tensors.slotBytes)

/-- Every byte that the views address for block `b` lies in a slot of `M`. -/
def Covered (r : KvCacheRequest) (out : KvCache) (P : KvPool) (M : Finset (Nat × Int))
    (b : BlockId) : Prop :=
  ∀ layer v, out.views[layer]? = some v → ∀ idx, InBounds idx v.shape →
    b * r.blockSize ≤ token out v idx → token out v idx < (b + 1) * r.blockSize →
    ∀ y < r.itemsize, byteSlot P layer (v.element idx * r.itemsize + y) ∈ M

theorem blockMemSize_eq {a : Addressing} (hb : 0 < r.blockSize)
    (hp : out.pageSizeBytes = r.numKOrV * (r.blockSize * a.R) * r.itemsize) :
    r.blockMemSize out = (if r.unifiedPool then 2 else 1) * (r.blockSize * a.R * r.itemsize) := by
  have hdiv : out.pageSizeBytes / r.blockSize = r.numKOrV * (a.R * r.itemsize) := by
    rw [hp, show r.numKOrV * (r.blockSize * a.R) * r.itemsize =
      r.blockSize * (r.numKOrV * (a.R * r.itemsize)) by ring]
    exact Nat.mul_div_cancel_left _ hb
  unfold blockMemSize cellSize
  rw [hdiv]
  unfold managerKvBuffers
  cases hm : r.isMla with
  | true =>
    simp only [numKOrV, hm, unifiedPool_of_isMla hm, Bool.true_or, if_true, Nat.div_one,
      Bool.false_eq_true, if_false]
    ring
  | false =>
    cases hu : r.unifiedPool with
    | true =>
      simp only [numKOrV, hm, Bool.or_true, if_true, Nat.div_one, Bool.false_eq_true, if_false]
      ring
    | false =>
      simp only [numKOrV, hm, Bool.or_self, Bool.false_eq_true, if_false,
        Nat.mul_div_cancel_left _ (Nat.zero_lt_two)]
      ring

theorem layer_lt (h : r.allocKvCache = .ok out) {layer : Nat} {v : View}
    (hv : out.views[layer]? = some v) : layer < r.numLayers := by
  obtain ⟨-, kernel, dim, order, bytes, -, -, -, -, rfl⟩ := allocKvCache_ok h
  obtain ⟨hl, -⟩ := List.getElem?_eq_some_iff.mp hv
  simpa [reshape] using hl

/-- In the contiguous layout a block of all layers is one dense run of bytes. -/
theorem contiguous_bytes {L k B b l kv w : Nat} (hl : l < L) (hkv : kv < k) (hw : w < B) :
    b * (B * (L * k)) ≤ b * (L * (k * B)) + l * (k * B) + kv * B + w ∧
      b * (L * (k * B)) + l * (k * B) + kv * B + w < (b + 1) * (B * (L * k)) := by
  have hin : kv * B + w < k * B := mul_add_lt_mul hkv hw
  have hlayer : l * (k * B) + (kv * B + w) < L * (k * B) := mul_add_lt_mul hl hin
  have hm : B * (L * k) = L * (k * B) := by ring
  rw [hm, add_mul, one_mul]
  omega

/-- The bytes of the tokens of block `b` are its bytes. -/
theorem token_bytes {bs R item b τ d y : Nat} (hlo : b * bs ≤ τ) (hhi : τ < (b + 1) * bs)
    (hd : d < R) (hy : y < item) :
    b * (bs * R * item) ≤ (τ * R + d) * item + y ∧
      (τ * R + d) * item + y < (b + 1) * (bs * R * item) := by
  have helem : τ * R + d < (b + 1) * bs * R := mul_add_lt_mul hhi hd
  have hbyte : (τ * R + d) * item + y < (b + 1) * bs * R * item := mul_add_lt_mul helem hy
  have hR : b * bs * R ≤ τ * R := Nat.mul_le_mul_right R hlo
  have hitem : b * bs * R * item ≤ (τ * R + d) * item :=
    Nat.mul_le_mul_right item (hR.trans (Nat.le_add_right _ _))
  have h1 : b * (bs * R * item) = b * bs * R * item := by ring
  have h2 : (b + 1) * (bs * R * item) = (b + 1) * bs * R * item := by ring
  omega

/-- The tokens of block `b` are those of its `q` entries of `T` tokens. -/
theorem entry_of_token {q T b e t : Nat} (ht : t < T) (hlo : b * (q * T) ≤ e * T + t)
    (hhi : e * T + t < (b + 1) * (q * T)) : b * q ≤ e ∧ e < (b + 1) * q := by
  have hT : 0 < T := by omega
  refine ⟨?_, ?_⟩
  · by_contra hlt
    have hle : (e + 1) * T ≤ b * q * T := Nat.mul_le_mul_right T (by omega)
    have h1 : b * (q * T) = b * q * T := by ring
    rw [add_mul, one_mul] at hle
    omega
  · by_contra hge
    have hle : (b + 1) * q * T ≤ e * T := Nat.mul_le_mul_right T (by omega)
    have h1 : (b + 1) * (q * T) = (b + 1) * q * T := by ring
    omega

section Slots

variable {a : Addressing} {layer t d y b p e : Nat}

theorem contiguous_slot {kv : Nat} (hby : r.AddressedBy layer a) (hc : r.contiguousLayout = true)
    (hl : layer < r.numLayers) (hkv : kv < r.numKOrV) (hd : d < a.R) (ht : t < a.T)
    (hy : y < r.itemsize) (hlo : p * r.pageSize ≤ b * (r.blockSize * a.R * r.itemsize))
    (hhi : (b + 1) * (r.blockSize * a.R * r.itemsize) ≤ (p + 1) * r.pageSize)
    (ht1 : b * r.blockSize ≤ e * a.T + t) (ht2 : e * a.T + t < (b + 1) * r.blockSize) :
    ((a.base + kv * a.kvStride + e * a.entryStride + (t * a.R + d)) * r.itemsize + y) /
      (r.pageSize * (r.numLayers * r.numKOrV)) = p := by
  obtain ⟨hT, hkvs, hes, hbase⟩ := hby.contiguous hc
  rw [← Nat.one_mul r.blockSize, ← hT] at ht1 ht2
  obtain ⟨he1, he2⟩ := entry_of_token ht ht1 ht2
  obtain rfl : e = b := by omega
  have hw : (t * a.R + d) * r.itemsize + y < r.blockSize * a.R * r.itemsize :=
    mul_add_lt_mul (mul_add_lt_mul (hT ▸ ht) hd) hy
  refine div_eq_of_block hlo hhi ?_
  have hx : (a.base + kv * a.kvStride + e * a.entryStride + (t * a.R + d)) * r.itemsize + y =
      e * (r.numLayers * (r.numKOrV * (r.blockSize * a.R * r.itemsize))) +
        layer * (r.numKOrV * (r.blockSize * a.R * r.itemsize)) +
        kv * (r.blockSize * a.R * r.itemsize) + ((t * a.R + d) * r.itemsize + y) := by
    rw [hkvs, hes, hbase]
    ring
  rw [hx]
  exact contiguous_bytes hl hkv hw

theorem split_slot (kv : Nat) (hby : r.AddressedBy layer a) (hc : r.contiguousLayout = false)
    (hu : r.unifiedPool = false) (hd : d < a.R) (hy : y < r.itemsize)
    (hlo : p * r.pageSize ≤ b * (r.blockSize * a.R * r.itemsize))
    (hhi : (b + 1) * (r.blockSize * a.R * r.itemsize) ≤ (p + 1) * r.pageSize)
    (ht1 : b * r.blockSize ≤ e * a.T + t) (ht2 : e * a.T + t < (b + 1) * r.blockSize) :
    ((a.base + kv * a.kvStride + e * a.entryStride + (t * a.R + d)) * r.itemsize + y) /
      r.pageSize = kv * (r.gpuMemBytesPerLayerKOrV / r.pageSize) + p := by
  obtain ⟨hbase, hkvs, hes⟩ := hby.split hc hu
  have hitem : r.gpuMemBytesPerLayerKOrV / r.itemsize * r.itemsize = r.gpuMemBytesPerLayerKOrV :=
    Nat.div_mul_cancel (r.itemsize_dvd.trans (Nat.dvd_mul_left _ _))
  have hpages : r.gpuMemBytesPerLayerKOrV / r.pageSize * r.pageSize = r.gpuMemBytesPerLayerKOrV :=
    Nat.div_mul_cancel (Nat.dvd_mul_left _ _)
  have hx : (a.base + kv * a.kvStride + e * a.entryStride + (t * a.R + d)) * r.itemsize + y =
      r.pageSize * (kv * (r.gpuMemBytesPerLayerKOrV / r.pageSize)) +
        (((e * a.T + t) * a.R + d) * r.itemsize + y) := by
    rw [hkvs, hes, hbase]
    calc (0 + kv * (r.gpuMemBytesPerLayerKOrV / r.itemsize) + e * (a.T * a.R) +
          (t * a.R + d)) * r.itemsize + y
        = kv * (r.gpuMemBytesPerLayerKOrV / r.itemsize * r.itemsize) +
          (((e * a.T + t) * a.R + d) * r.itemsize + y) := by ring
      _ = kv * (r.gpuMemBytesPerLayerKOrV / r.pageSize * r.pageSize) +
          (((e * a.T + t) * a.R + d) * r.itemsize + y) := by rw [hitem, hpages]
      _ = _ := by ring
  have hz : (((e * a.T + t) * a.R + d) * r.itemsize + y) / (r.pageSize * 1) = p :=
    div_eq_of_block hlo hhi (by simpa using token_bytes ht1 ht2 hd hy)
  rw [hx, Nat.mul_add_div r.pageSize_pos, ← hz, Nat.mul_one]

theorem unified_slot {kv : Nat} (hby : r.AddressedBy layer a) (hc : r.contiguousLayout = false)
    (hu : r.unifiedPool = true) (hkv : kv < 2) (hd : d < a.R) (ht : t < a.T)
    (hy : y < r.itemsize) (hlo : p * r.pageSize ≤ b * (2 * (r.blockSize * a.R * r.itemsize)))
    (hhi : (b + 1) * (2 * (r.blockSize * a.R * r.itemsize)) ≤ (p + 1) * r.pageSize)
    (ht1 : b * r.blockSize ≤ e * a.T + t) (ht2 : e * a.T + t < (b + 1) * r.blockSize) :
    ((a.base + kv * a.kvStride + e * a.entryStride + (t * a.R + d)) * r.itemsize + y) /
      r.pageSize = p := by
  obtain ⟨hbase, hkvs, hes⟩ := hby.unified hc hu
  obtain ⟨q, hq⟩ := hby.T_dvd
  rw [Nat.mul_comm] at hq
  rw [hq] at ht1 ht2
  obtain ⟨he1, he2⟩ := entry_of_token ht ht1 ht2
  have hw : (t * a.R + d) * r.itemsize + y < a.T * a.R * r.itemsize :=
    mul_add_lt_mul (mul_add_lt_mul ht hd) hy
  have hin : kv * (a.T * a.R * r.itemsize) + ((t * a.R + d) * r.itemsize + y) <
      2 * (a.T * a.R * r.itemsize) := mul_add_lt_mul hkv hw
  obtain ⟨hx1, hx2⟩ := element_mem_range ⟨he1, he2⟩ hin
  have hx : (a.base + kv * a.kvStride + e * a.entryStride + (t * a.R + d)) * r.itemsize + y =
      e * (2 * (a.T * a.R * r.itemsize)) + (kv * (a.T * a.R * r.itemsize) +
        ((t * a.R + d) * r.itemsize + y)) := by
    rw [hkvs, hes, hbase]
    ring
  have hbm (n : Nat) : n * (2 * (r.blockSize * a.R * r.itemsize)) =
      n * q * (2 * (a.T * a.R * r.itemsize)) := by
    rw [hq]
    ring
  rw [← Nat.mul_one r.pageSize]
  refine div_eq_of_block hlo hhi ?_
  rw [hx, Nat.mul_one, hbm, hbm]
  exact ⟨hx1, hx2⟩

end Slots

/-- The bytes of block `b` lie in slots that the map of its page maps. -/
theorem byteSlot_mem_keys (h : r.allocKvCache = .ok out) (numBlocks : Nat)
    {layer : Nat} {v : View} (hv : out.views[layer]? = some v) {idx : List Nat} (hidx : InBounds idx v.shape)
    {b p y : Nat} (hlo : p * r.pageSize ≤ b * r.blockMemSize out)
    (hhi : (b + 1) * r.blockMemSize out ≤ (p + 1) * r.pageSize)
    (ht1 : b * r.blockSize ≤ token out v idx) (ht2 : token out v idx < (b + 1) * r.blockSize)
    (hy : y < r.itemsize) :
    byteSlot (pool h numBlocks) layer (v.element idx * r.itemsize + y) ∈
      (pool h numBlocks).keys [(p : Int)] := by
  have hu := (allocKvCache_ok h).1
  have hl := layer_lt h hv
  obtain ⟨a, ⟨hT, hof⟩, hby, hsize, hitem⟩ := view_addressing h hv
  obtain ⟨kv, d, hkv, hd, ht, hel⟩ := hof idx hidx
  have hb : 0 < r.blockSize := by
    by_contra hb
    rw [Nat.eq_zero_of_not_pos hb] at ht1 ht2
    omega
  rw [blockMemSize_eq hb hsize] at hlo hhi
  unfold token at ht1 ht2
  rw [hT] at ht1 ht2
  have hps : (pool h numBlocks).pageSize = r.pageSize := rfl
  have hnl : (pool h numBlocks).numLayers = r.numLayers := rfl
  have hnk : (pool h numBlocks).numKvBuffers = r.numKOrV := rfl
  have hcl : (pool h numBlocks).contiguousLayout = r.contiguousLayout := rfl
  have hup : (pool h numBlocks).unifiedPool = r.unifiedPool := rfl
  rw [hel, byteSlot, KvPool.slotBytes_eq, KvPool.mem_keys, hps, hnl, hnk, hcl, hup]
  refine ⟨?_, p, List.mem_singleton_self _, ?_⟩
  · split_ifs
    · exact Nat.zero_lt_one
    · exact hl
  cases hc : r.contiguousLayout with
  | true =>
    have hunif : r.unifiedPool = false := by simpa [hc] using hu
    rw [hunif] at hlo hhi
    simp only [Bool.false_eq_true, if_false, Nat.one_mul] at hlo hhi
    have hslot := contiguous_slot hby hc hl hkv hd ht hy hlo hhi ht1 ht2
    have hcast : (r.pageSize : Int) * r.numLayers * r.numKOrV =
        ((r.pageSize * (r.numLayers * r.numKOrV) : Nat) : Int) := by
      push_cast
      ring
    left
    simp only [if_true, hcast, ← Int.ofNat_tdiv, hslot]
  | false =>
    simp only [Bool.false_eq_true, if_false, ← Int.ofNat_tdiv]
    cases hunif : r.unifiedPool with
    | true =>
      rw [hunif, if_pos rfl] at hlo hhi
      have htwo : kv < 2 := hkv.trans_le (by unfold numKOrV; split_ifs <;> omega)
      rw [unified_slot hby hc hunif htwo hd ht hy hlo hhi ht1 ht2]
      exact .inl rfl
    | false =>
      rw [hunif] at hlo hhi
      simp only [Bool.false_eq_true, if_false, Nat.one_mul] at hlo hhi
      rw [split_slot kv hby hc hunif hd hy hlo hhi ht1 ht2]
      rcases Nat.eq_zero_or_pos kv with rfl | hkv0
      · exact .inl (by simp)
      · have hone : kv = 1 ∧ r.numKOrV = 2 := by
          unfold numKOrV at hkv ⊢
          split_ifs at hkv ⊢ <;> omega
        refine .inr ⟨trivial, rfl, ?_⟩
        have hhalf : (pool h numBlocks).halfPages =
            ((r.gpuMemBytesPerLayerKOrV / r.pageSize : Nat) : Int) := by
          unfold KvPool.halfPages
          change ((r.gpuMemBytesPerLayerKOrV : Int) * (r.numKOrV : Int)).tdiv
            (2 * (r.pageSize : Int)) = _
          rw [hone.2, Nat.cast_two, mul_comm,
            Int.mul_tdiv_mul_of_pos _ _ (by decide : (0 : Int) < 2), ← Int.ofNat_tdiv]
        rw [hhalf, hone.1]
        push_cast
        ring

/-- While per-layer tensors that are not unified hold pages of their first half only, the bytes
the views address for a block are mapped whenever its page is. -/
theorem views_covered (h : r.allocKvCache = .ok out) (numBlocks : Nat) (acts : List PoolAct)
    (s : PoolState) (hrun : run (pool h numBlocks).step KvPool.emptyState acts = some s)
    (hb : Along (pool h numBlocks).step (pool h numBlocks).BelowHalf KvPool.emptyState acts)
    (b p : Int) (hp : 0 ≤ p)
    (hin : b ∈ Int.range (InternalPage.getBlockRange p r.pageSize (r.blockMemSize out)).1
      (InternalPage.getBlockRange p r.pageSize (r.blockMemSize out)).2)
    (hm : PageAllocator.getPageId r.pageSize b (r.blockMemSize out) ∈ s.mapped) :
    Covered r out (pool h numBlocks) s.slots b := by
  have hs := KvPool.run_faithful hrun hb
  have hps : (0 : Int) < r.pageSize := Int.natCast_pos.mpr r.pageSize_pos
  intro layer v hv idx hidx ht1 ht2 y hy
  obtain ⟨a, -, hby, hsize, hitem⟩ := view_addressing h hv
  have hbs := blockSize_pos h
  have hbm : 0 < r.blockMemSize out := by
    have hR := hby.R_pos
    rw [blockMemSize_eq hbs hsize]
    split_ifs <;> positivity
  have hbm' : (0 : Int) < r.blockMemSize out := Int.natCast_pos.mpr hbm
  have hw := (InternalPage.mem_blockRange hps hbm' hp b).mp hin
  rw [PageAllocator.getPageId_of_within hps hbm' hp hw] at hm
  obtain ⟨p, rfl⟩ := Int.eq_ofNat_of_zero_le hp
  obtain ⟨b, rfl⟩ : ∃ n : Nat, b = n := by
    refine Int.eq_ofNat_of_zero_le ?_
    have h0 : 0 ≤ b * (r.blockMemSize out : Int) := (by positivity : (0 : Int) ≤ _).trans hw.1
    exact nonneg_of_mul_nonneg_left h0 hbm'
  exact (hs.slots _).mpr ⟨p, hm, byteSlot_mem_keys h numBlocks hv hidx (by exact_mod_cast hw.1)
    (by exact_mod_cast hw.2) (by exact_mod_cast ht1) (by exact_mod_cast ht2) hy⟩

end KvCacheRequest

/-- FlashAttn with 16-token blocks split into 8-token kernel blocks; a block of K or V fills half
a page. -/
def flashAttnRequest : KvCacheRequest where
  kvcacheShape := [2, 8, 16, 1, 32768]
  blockSize := 16
  itemsize := 2
  numLayers := 1
  attentionType := .mha
  kernelBlockSize := some 8
  contiguousLayout := false
  pageSize := 2097152
  gpuMemBytes := 16777216
  numLayers_pos := Nat.one_pos
  pageSize_pos := Numerals.natPos_pageBytes

def flashAttnCache : KvCache := flashAttnRequest.reshape 8 1 [1, 0, 2, 3, 4] 1048576

theorem flashAttnRequest_ok : flashAttnRequest.allocKvCache = .ok flashAttnCache := rfl

/-- Blocks 4 and 5 keep their bytes when page 0 is unmapped. -/
theorem flashAttnRequest_covered :
    KvCacheRequest.Covered flashAttnRequest flashAttnCache
      (KvCacheRequest.pool flashAttnRequest_ok 8)
      ((run (KvCacheRequest.pool flashAttnRequest_ok 8).step KvPool.emptyState
        [.map [0, 2], .unmap [0]]).get (by decide)).slots 4 :=
  KvCacheRequest.views_covered flashAttnRequest_ok 8 [.map [0, 2], .unmap [0]] _
    (Option.some_get _).symm (by decide) 4 2 (by decide) (by decide) (by decide)

/-- The same bytes as one MLA buffer of four pages. -/
def mlaRequest : KvCacheRequest where
  kvcacheShape := [8, 16, 32768]
  blockSize := 16
  itemsize := 2
  numLayers := 1
  attentionType := .mla
  kernelBlockSize := none
  contiguousLayout := false
  pageSize := 2097152
  gpuMemBytes := 8388608
  numLayers_pos := Nat.one_pos
  pageSize_pos := Numerals.natPos_pageBytes

def mlaCache : KvCache := mlaRequest.reshape 16 0 [0, 1, 2] 1048576

theorem mlaRequest_ok : mlaRequest.allocKvCache = .ok mlaCache := rfl

/-- Page 0 takes the slot of page 2 away when it is unmapped: block 4 of the mapped page 2 is not
backed any more. -/
theorem mlaRequest_uncovered :
    ∃ s, run (KvCacheRequest.pool mlaRequest_ok 8).step KvPool.emptyState
        [.map [0], .map [2], .unmap [0]] = some s ∧
      4 ∈ Int.range (InternalPage.getBlockRange 2 2097152 (mlaRequest.blockMemSize mlaCache)).1
        (InternalPage.getBlockRange 2 2097152 (mlaRequest.blockMemSize mlaCache)).2 ∧
      PageAllocator.getPageId 2097152 4 (mlaRequest.blockMemSize mlaCache) ∈ s.mapped ∧
      ¬KvCacheRequest.Covered mlaRequest mlaCache (KvCacheRequest.pool mlaRequest_ok 8) s.slots 4 := by
  refine ⟨_, (Option.some_get (by decide)).symm, by decide, by decide, fun hc => ?_⟩
  have hidx : InBounds [4, 0, 0] [8, 16, 32768] :=
    .cons (by decide) (.cons (by decide) (.cons (by decide) .nil))
  have hslot := hc 0 ⟨[8, 16, 32768], [524288, 32768, 1], 0⟩ rfl [4, 0, 0] hidx (by decide)
    (by decide) 0 (by decide)
  exact absurd hslot (by decide)

end GpuSharing.Integration
