import Mathlib.Data.Set.Disjoint
import Mathlib.Order.CompletePartialOrder
import GpuSharing.Integration.SglangInterfaces
import GpuSharing.Kvcached.InternalPage
import GpuSharing.Kvcached.PoolHistory

namespace GpuSharing.Integration

open Strided Packing Kvcached Transition

theorem exists_mapM {α β ε : Type} {f : α → Except ε β} {l : List α}
    (h : ∀ a ∈ l, ∃ b, f a = .ok b) : ∃ out, l.mapM f = .ok out := by
  induction l with
  | nil => exact ⟨[], rfl⟩
  | cons a l ih =>
    obtain ⟨hhead, hrest⟩ := List.forall_mem_cons.mp h
    obtain ⟨b, hb⟩ := hhead
    obtain ⟨out, hout⟩ := ih hrest
    exact ⟨b :: out, by rw [List.mapM_cons, hb, hout]; rfl⟩

theorem forall₂_of_mapM {α β ε : Type} {f : α → Except ε β} {l : List α} {out : List β}
    (h : l.mapM f = .ok out) : List.Forall₂ (fun a b => f a = .ok b) l out := by
  induction l generalizing out with
  | nil =>
    cases h
    exact .nil
  | cons a l ih =>
    rw [List.mapM_cons] at h
    cases hf : f a with
    | error e =>
      rw [hf] at h
      cases h
    | ok b =>
      cases hl : l.mapM f with
      | error e =>
        rw [hf, hl] at h
        cases h
      | ok bs =>
        rw [hf, hl] at h
        cases h
        exact .cons hf (ih hl)

theorem getElem?_of_mapM {α β ε : Type} {f : α → Except ε β} {l : List α} {out : List β}
    (h : l.mapM f = .ok out) {i : Nat} {b : β} (hb : out[i]? = some b) :
    ∃ a, l[i]? = some a ∧ f a = .ok b := by
  obtain ⟨hi, rfl⟩ := List.getElem?_eq_some_iff.mp hb
  have hall := forall₂_of_mapM h
  have hi' : i < l.length := hall.length_eq.symm ▸ hi
  exact ⟨_, List.getElem?_eq_getElem hi', hall.get hi' hi⟩

/-- A state tensor as it lies in a cell. -/
structure StateKind where
  shape : List Nat
  itemsize : Nat
  offset : Nat

def StateKind.region (k : StateKind) : Region := ⟨k.offset, k.shape.prod * k.itemsize⟩

namespace MambaRequest

variable {r : MambaRequest} {out : MambaCache}

def kinds (r : MambaRequest) : List StateKind :=
  (r.convShapes.zip r.convOffsets).map (fun s => ⟨s.1, r.convItemsize, s.2⟩) ++
    [⟨r.temporalShape, r.ssmItemsize, r.temporalOffset⟩]

theorem packed_conv (itemsize : Nat) (shapes : List (List Nat)) (offsets : List Nat) :
    ((shapes.zip offsets).map fun s => (⟨s.1, itemsize, s.2⟩ : StateKind)).map StateKind.region =
      List.zipWith Region.mk offsets (shapes.map fun shape => shape.prod * itemsize) := by
  rw [List.map_map, List.zipWith_map_right, List.zipWith_comm, List.zip, List.map_zipWith]
  rfl

/-- The states follow one another in a cell. -/
theorem kinds_packed (r : MambaRequest) :
    Packed 0 (r.kinds.map StateKind.region) r.rawCellSize := by
  have hmax : 0 < max r.convItemsize r.ssmItemsize := lt_max_of_lt_left r.convItemsize_pos
  rw [kinds, List.map_append, packed_conv]
  refine (packed_pack r.convItemsize_pos 0 _).append (.cons ?_ (.nil ?_))
  · exact le_alignUp _ r.ssmItemsize_pos
  · exact le_alignUp _ hmax

theorem length_kinds (r : MambaRequest) : r.kinds.length = r.convShapes.length + 1 := by
  simp [kinds, convOffsets, packConv, length_pack]

theorem mapM_kinds {β : Type} {f : StateKind → Except MambaError β} {conv : List β} {temporal : β}
    (hc : (r.convShapes.zip r.convOffsets).mapM (fun s => f ⟨s.1, r.convItemsize, s.2⟩) = .ok conv)
    (ht : f ⟨r.temporalShape, r.ssmItemsize, r.temporalOffset⟩ = .ok temporal) :
    r.kinds.mapM f = .ok (conv ++ [temporal]) := by
  rw [kinds, List.mapM_append, List.mapM_map, Function.comp_def, hc, List.mapM_cons, ht,
    List.mapM_nil]
  rfl

/-- What an accepted call returns: one view of every state, or one for each layer. -/
theorem allocMambaStates_ok (h : r.allocMambaStates = .ok out) :
    r.rawCellSize ≤ r.pageSize ∧ out.layout = r.layoutInfo ∧
      ((r.contiguousLayout = true ∧ ∃ conv temporal, out.states = .contiguous conv temporal ∧
        r.kinds.mapM (fun k => r.viewStateContig k.shape k.itemsize k.offset) =
          .ok (conv ++ [temporal])) ∨
      (r.contiguousLayout = false ∧ ∃ conv temporal, out.states = .perLayer conv temporal ∧
        r.kinds.mapM (fun k => (List.range r.numMambaLayers).mapM fun layer =>
          r.viewStatePerLayer layer k.shape k.itemsize k.offset) = .ok (conv ++ [temporal]))) := by
  unfold allocMambaStates at h
  simp only [bind, Except.bind, pure, Except.pure, throw, throwThe, MonadExceptOf.throw] at h
  split_ifs at h with hi hg hs hl
  · split at h
    · cases h
    rename_i conv hc
    split at h
    · cases h
    rename_i temporal ht
    cases h
    exact ⟨by omega, rfl, .inl ⟨hl, conv, temporal, rfl, mapM_kinds hc ht⟩⟩
  · split at h
    · cases h
    rename_i conv hc
    split at h
    · cases h
    rename_i temporal ht
    cases h
    exact ⟨by omega, rfl, .inr ⟨by simpa using hl, conv, temporal, rfl, mapM_kinds hc ht⟩⟩

/-- Every layer has a tensor of every state. -/
theorem exists_atLayerIdx (h : r.allocMambaStates = .ok out) {layer kind : Nat}
    (hl : layer < r.numMambaLayers) (hk : kind ≤ r.convShapes.length) :
    ∃ t, out.states.atLayerIdx layer kind = some t := by
  have hkind : kind < r.kinds.length := by
    rw [length_kinds]
    omega
  obtain ⟨-, -, ⟨hc, conv, temporal, hs, hm⟩ | ⟨hc, conv, temporal, hs, hm⟩⟩ :=
    allocMambaStates_ok h
  · have hlen : kind < (conv ++ [temporal]).length := (forall₂_of_mapM hm).length_eq ▸ hkind
    have hview := (forall₂_of_mapM hm).get hkind hlen
    unfold viewStateContig at hview
    split_ifs at hview
    have hshape : (conv ++ [temporal])[kind].view.shape = r.numMambaLayers :: r.numSlots :: _ :=
      (congrArg (fun t => t.view.shape) (Except.ok.inj hview)).symm
    rw [hs]
    simp [MambaStates.atLayerIdx, List.getElem?_eq_getElem hlen, View.select, hshape, hl]
  · have hlen : kind < (conv ++ [temporal]).length := (forall₂_of_mapM hm).length_eq ▸ hkind
    have hviews := (forall₂_of_mapM hm).get hkind hlen
    have hlayer : layer < ((conv ++ [temporal]).get ⟨kind, hlen⟩).length := by
      rw [← (forall₂_of_mapM hviews).length_eq, List.length_range]
      exact hl
    refine ⟨((conv ++ [temporal]).get ⟨kind, hlen⟩).get ⟨layer, hlayer⟩, ?_⟩
    rw [hs]
    simp [MambaStates.atLayerIdx, List.getElem?_eq_getElem hlen]

theorem exists_viewStateContig {dtypeSize offset : Nat} (ho : dtypeSize ∣ offset)
    (hc : dtypeSize ∣ r.cellSize) (shape : List Nat) :
    ∃ t, r.viewStateContig shape dtypeSize offset = .ok t := by
  unfold viewStateContig
  rw [Nat.mod_eq_zero_of_dvd ho, Nat.mod_eq_zero_of_dvd hc]
  exact ⟨_, if_neg (by simp)⟩

theorem exists_viewStatePerLayer {dtypeSize offset : Nat} (ho : dtypeSize ∣ offset)
    (hc : dtypeSize ∣ r.cellSize) (shape : List Nat) (layer : Nat) :
    ∃ t, r.viewStatePerLayer layer shape dtypeSize offset = .ok t := by
  unfold viewStatePerLayer
  rw [Nat.mod_eq_zero_of_dvd ho, Nat.mod_eq_zero_of_dvd hc]
  exact ⟨_, if_neg (by simp)⟩

/-- A request whose cell fits in a page is accepted when the cells keep the elements aligned. -/
theorem exists_allocMambaStates (hi : r.kvcachedInitialized = true) (hg : r.cudaAvailable = true)
    (hfit : r.rawCellSize ≤ r.pageSize) (hconv : r.convItemsize ∣ r.cellSize)
    (hssm : r.ssmItemsize ∣ r.cellSize) : ∃ out, r.allocMambaStates = .ok out := by
  have hoffset : ∀ s ∈ r.convShapes.zip r.convOffsets, r.convItemsize ∣ s.2 :=
    fun s hs => dvd_of_mem_pack (List.of_mem_zip hs).2
  have htemporal : r.ssmItemsize ∣ r.temporalOffset := dvd_alignUp _ _
  unfold allocMambaStates
  rw [hi, hg, if_neg (by simp), if_neg (by simp), if_neg (by omega)]
  cases r.contiguousLayout with
  | true =>
    obtain ⟨conv, hc⟩ := exists_mapM fun s hs =>
      exists_viewStateContig (hoffset s hs) hconv s.1
    obtain ⟨temporal, ht⟩ := exists_viewStateContig htemporal hssm r.temporalShape
    rw [if_pos rfl, hc, ht]
    exact ⟨_, rfl⟩
  | false =>
    obtain ⟨conv, hc⟩ := exists_mapM fun s hs => exists_mapM fun layer _ =>
      exists_viewStatePerLayer (hoffset s hs) hconv s.1 layer
    obtain ⟨temporal, ht⟩ := exists_mapM fun layer _ =>
      exists_viewStatePerLayer htemporal hssm r.temporalShape layer
    rw [if_neg (by simp), hc, ht]
    exact ⟨_, rfl⟩

/-- The number of the cell of a slot in the raw tensor of a layer. -/
def cellIndex (r : MambaRequest) (layer slot : Nat) : Nat :=
  if r.contiguousLayout then slot * r.numMambaLayers + layer else slot

/-- Where the elements of the tensor of a layer lie: the cell of a slot, and a state in it. -/
structure LayerTensor (r : MambaRequest) (layer : Nat) (k : StateKind) (t : StateTensor) :
    Prop where
  layer_lt : layer < r.numMambaLayers
  raw : t.raw = if r.contiguousLayout then 0 else layer
  itemsize : t.itemsize = k.itemsize
  shape : t.view.shape = r.numSlots :: k.shape
  address : ∀ slot idx, t.view.element (slot :: idx) * t.itemsize =
    r.cellIndex layer slot * r.cellSize + (k.offset + dot idx (rowMajor k.shape) * k.itemsize)

theorem viewStateContig_layer (hc : r.contiguousLayout = true) {k : StateKind} {t : StateTensor}
    (h : r.viewStateContig k.shape k.itemsize k.offset = .ok t) {layer : Nat} {v : View}
    (hv : t.view.select layer = some v) : r.LayerTensor layer k { t with view := v } := by
  unfold viewStateContig at h
  split_ifs at h with hd
  rw [not_or, not_not, not_not] at hd
  cases h
  unfold View.select at hv
  split_ifs at hv with hl
  cases hv
  have hoff := Nat.div_mul_cancel (Nat.dvd_of_mod_eq_zero hd.1)
  have hcell := Nat.div_mul_cancel (Nat.dvd_of_mod_eq_zero hd.2)
  have hrow := Nat.div_mul_cancel
    ((Nat.dvd_of_mod_eq_zero hd.2).trans (Nat.dvd_mul_left _ r.numMambaLayers))
  refine ⟨hl, (if_pos hc).symm, rfl, rfl, fun slot idx => ?_⟩
  rw [cellIndex, if_pos hc]
  simp only [View.element, innerStride_eq, List.drop_succ_cons, List.drop_zero, List.getD_cons_zero,
    dot_cons]
  calc _ = slot * (r.numMambaLayers * r.cellSize / k.itemsize * k.itemsize) +
        layer * (r.cellSize / k.itemsize * k.itemsize) + (k.offset / k.itemsize * k.itemsize +
          dot idx (rowMajor k.shape) * k.itemsize) := by ring
    _ = _ := by
      rw [hoff, hcell, hrow]
      ring

theorem viewStatePerLayer_layer (hc : r.contiguousLayout = false) {k : StateKind} {t : StateTensor}
    {layer : Nat} (hl : layer < r.numMambaLayers)
    (h : r.viewStatePerLayer layer k.shape k.itemsize k.offset = .ok t) :
    r.LayerTensor layer k t := by
  unfold viewStatePerLayer at h
  split_ifs at h with hd
  rw [not_or, not_not, not_not] at hd
  cases h
  have hoff := Nat.div_mul_cancel (Nat.dvd_of_mod_eq_zero hd.1)
  have hcell := Nat.div_mul_cancel (Nat.dvd_of_mod_eq_zero hd.2)
  refine ⟨hl, by simp [hc], rfl, rfl, fun slot idx => ?_⟩
  simp only [cellIndex, hc, Bool.false_eq_true, if_false, View.element, innerStride_eq, dot_cons]
  calc _ = slot * (r.cellSize / k.itemsize * k.itemsize) + (k.offset / k.itemsize * k.itemsize +
          dot idx (rowMajor k.shape) * k.itemsize) := by ring
    _ = _ := by rw [hoff, hcell]

theorem atLayerIdx_ok (h : r.allocMambaStates = .ok out) {layer kind : Nat} {t : StateTensor}
    (ht : out.states.atLayerIdx layer kind = some t) :
    ∃ k, r.kinds[kind]? = some k ∧ r.LayerTensor layer k t := by
  obtain ⟨-, -, ⟨hc, conv, temporal, hs, hm⟩ | ⟨hc, conv, temporal, hs, hm⟩⟩ :=
    allocMambaStates_ok h
  · rw [hs] at ht
    obtain ⟨t', ht', v, hv, htv⟩ : ∃ t', (conv ++ [temporal])[kind]? = some t' ∧
        ∃ v, t'.view.select layer = some v ∧ { t' with view := v } = t := by
      simpa [MambaStates.atLayerIdx, Option.bind_eq_some_iff] using ht
    obtain ⟨k, hk, hview⟩ := getElem?_of_mapM hm ht'
    exact ⟨k, hk, htv ▸ viewStateContig_layer hc hview hv⟩
  · rw [hs] at ht
    obtain ⟨ts, hts, ht'⟩ : ∃ ts, (conv ++ [temporal])[kind]? = some ts ∧ ts[layer]? = some t := by
      simpa [MambaStates.atLayerIdx, Option.bind_eq_some_iff] using ht
    obtain ⟨k, hk, hviews⟩ := getElem?_of_mapM hm hts
    obtain ⟨l, hl, hview⟩ := getElem?_of_mapM hviews ht'
    obtain ⟨hlt, hl⟩ := List.getElem?_eq_some_iff.mp hl
    rw [List.getElem_range] at hl
    rw [List.length_range] at hlt
    exact ⟨k, hk, viewStatePerLayer_layer hc hlt (hl ▸ hview)⟩

theorem cellSize_spec (h : r.rawCellSize ≤ r.pageSize) :
    r.cellSize ∣ r.pageSize ∧ r.rawCellSize ≤ r.cellSize := smallestDivisorGe_spec h

/-- A byte of a state lies in the region of the state in the cell of its slot and layer. -/
theorem mem_bytes (h : r.allocMambaStates = .ok out) {layer kind slot : Nat} {a : Nat × Nat}
    (ha : a ∈ out.states.bytes layer kind slot) :
    ∃ k x, r.kinds[kind]? = some k ∧ k.region.Contains x ∧ layer < r.numMambaLayers ∧
      slot < r.numSlots ∧
      a = (if r.contiguousLayout then 0 else layer, r.cellIndex layer slot * r.cellSize + x) := by
  obtain ⟨t, ht, hraw, idx, hidx, y, hy, hbyte⟩ := ha
  obtain ⟨k, hk, hlt⟩ := atLayerIdx_ok h ht
  rw [hlt.shape] at hidx
  obtain ⟨_, _, hcons, hslot, hin⟩ := inBounds_cons hidx
  cases hcons
  have hinner : dot idx (rowMajor k.shape) * k.itemsize + y < k.shape.prod * k.itemsize :=
    mul_add_lt_mul (dot_rowMajor_lt hin) (hlt.itemsize ▸ hy)
  refine ⟨k, k.offset + dot idx (rowMajor k.shape) * k.itemsize + y, hk, ⟨?_, ?_⟩, hlt.layer_lt,
    hslot, ?_⟩
  · exact Nat.le_add_right_of_le (Nat.le_add_right _ _)
  · unfold StateKind.region
    dsimp only
    omega
  · refine Prod.ext (hraw.trans hlt.raw) ?_
    rw [hbyte, hlt.address, Nat.add_assoc]

theorem contains_lt_cellSize (h : r.rawCellSize ≤ r.pageSize) {kind x : Nat} {k : StateKind}
    (hk : r.kinds[kind]? = some k) (hx : k.region.Contains x) : x < r.cellSize := by
  have hmem : k.region ∈ r.kinds.map StateKind.region :=
    List.mem_map_of_mem (List.mem_of_getElem? hk)
  exact (r.kinds_packed.inside hmem hx).2.trans_le (cellSize_spec h).2

theorem cellIndex_inj {layer layer' slot slot' : Nat} (hl : layer < r.numMambaLayers)
    (hl' : layer' < r.numMambaLayers)
    (hraw : (if r.contiguousLayout then 0 else layer) = if r.contiguousLayout then 0 else layer')
    (h : r.cellIndex layer slot = r.cellIndex layer' slot') : layer = layer' ∧ slot = slot' := by
  unfold cellIndex at h
  split_ifs at h hraw with hc
  · exact (cell_unique hl hl' h).symm
  · exact ⟨hraw, h⟩

/-- Distinct triples of a layer, a state and a slot share no byte. -/
theorem bytes_disjoint (h : r.allocMambaStates = .ok out) {layer kind slot layer' kind' slot' : Nat}
    (hne : (layer, kind, slot) ≠ (layer', kind', slot')) :
    Disjoint (out.states.bytes layer kind slot) (out.states.bytes layer' kind' slot') := by
  rw [Set.disjoint_left]
  intro a ha ha'
  have hraw := (allocMambaStates_ok h).1
  obtain ⟨k, x, hk, hx, hl, -, rfl⟩ := mem_bytes h ha
  obtain ⟨k', x', hk', hx', hl', -, heq⟩ := mem_bytes h ha'
  obtain ⟨hlayer, hbyte⟩ := Prod.mk.inj heq
  obtain ⟨hcell, rfl⟩ := cell_unique (contains_lt_cellSize hraw hk hx)
    (contains_lt_cellSize hraw hk' hx') hbyte
  obtain ⟨rfl, rfl⟩ := cellIndex_inj hl hl' hlayer hcell
  have hkind : kind = kind' := by
    refine r.kinds_packed.eq_of_contains ?_ ?_ hx hx'
    · rw [List.getElem?_map, hk, Option.map_some]
    · rw [List.getElem?_map, hk', Option.map_some]
  exact hne (by rw [hkind])

/-- A cell lies inside one page, since its size divides that of a page. -/
theorem cell_within {cell ps : Nat} (hps : 0 < ps) (hd : cell ∣ ps) (slot : Nat) :
    slot * cell / ps * ps ≤ slot * cell ∧ (slot + 1) * cell ≤ (slot * cell / ps + 1) * ps := by
  refine ⟨Nat.div_mul_le_self _ _, ?_⟩
  obtain ⟨q, rfl⟩ := hd
  have hlt : slot * cell < (slot * cell / (cell * q) + 1) * q * cell :=
    calc slot * cell < (slot * cell / (cell * q) + 1) * (cell * q) :=
          Nat.lt_mul_of_div_lt (Nat.lt_succ_self _) hps
      _ = _ := by ring
  calc (slot + 1) * cell ≤ (slot * cell / (cell * q) + 1) * q * cell :=
        Nat.mul_le_mul_right cell (Nat.lt_of_mul_lt_mul_right hlt)
    _ = _ := by ring

/-- The cells of a slot that a raw tensor holds side by side. -/
def cellsPerSlot (r : MambaRequest) : Nat := if r.contiguousLayout then r.numMambaLayers else 1

theorem cellIndex_eq {layer : Nat} (hl : layer < r.numMambaLayers) (slot : Nat) :
    ∃ j < r.cellsPerSlot, r.cellIndex layer slot = slot * r.cellsPerSlot + j := by
  unfold cellIndex cellsPerSlot
  split_ifs
  · exact ⟨layer, hl, rfl⟩
  · exact ⟨0, Nat.zero_lt_one, (Nat.mul_one slot).symm⟩

theorem slotBytes_pool (hL : 0 < r.numMambaLayers) :
    (r.pool hL).tensors.slotBytes = ((r.pageSize * r.cellsPerSlot : Nat) : Int) := by
  have hps : (r.pool hL).pageSize = r.pageSize := rfl
  have hnl : (r.pool hL).numLayers = r.numMambaLayers := rfl
  have hnk : (r.pool hL).numKvBuffers = 1 := rfl
  have hcl : (r.pool hL).contiguousLayout = r.contiguousLayout := rfl
  rw [KvPool.slotBytes_eq, hps, hnl, hnk, hcl, mul_one, cellsPerSlot]
  split_ifs
  · exact (Nat.cast_mul _ _).symm
  · rw [Nat.mul_one]

theorem tensorBytes_pool (hL : 0 < r.numMambaLayers) :
    (r.pool hL).tensors.tensorBytes = ((r.perLayerBytesAligned * r.cellsPerSlot : Nat) : Int) := by
  have hpb : (r.pool hL).perBufferBytes = r.perLayerBytesAligned := rfl
  have hnl : (r.pool hL).numLayers = r.numMambaLayers := rfl
  have hnk : (r.pool hL).numKvBuffers = 1 := rfl
  have hcl : (r.pool hL).contiguousLayout = r.contiguousLayout := rfl
  rw [KvPool.tensorBytes_eq, hpb, hnl, hnk, hcl, mul_one, cellsPerSlot]
  split_ifs
  · exact (Nat.cast_mul _ _).symm
  · rw [Nat.mul_one]

/-- The views end within the raw tensors. -/
theorem bytes_inside (h : r.allocMambaStates = .ok out) (hL : 0 < r.numMambaLayers)
    {layer kind slot : Nat} {a : Nat × Nat} (ha : a ∈ out.states.bytes layer kind slot) :
    (a.2 : Int) < (r.pool hL).tensors.tensorBytes := by
  have hraw := (allocMambaStates_ok h).1
  obtain ⟨k, x, hk, hx, hl, hs, rfl⟩ := mem_bytes h ha
  obtain ⟨j, hj, hcell⟩ := cellIndex_eq hl slot
  have hin : (slot * r.cellsPerSlot + j) * r.cellSize + x <
      r.numSlots * r.cellsPerSlot * r.cellSize :=
    mul_add_lt_mul (mul_add_lt_mul hs hj) (contains_lt_cellSize hraw hk hx)
  have haligned : r.numSlots * r.cellSize ≤ r.perLayerBytesAligned := le_alignUp _ r.pageSize_pos
  rw [tensorBytes_pool, hcell]
  refine Int.ofNat_lt.mpr (hin.trans_le ?_)
  calc r.numSlots * r.cellsPerSlot * r.cellSize = r.numSlots * r.cellSize * r.cellsPerSlot := by
        ring
    _ ≤ r.perLayerBytesAligned * r.cellsPerSlot := Nat.mul_le_mul_right _ haligned

/-- The page of the block that is the slot. -/
def slotPage (r : MambaRequest) (out : MambaCache) (slot : Nat) : PageId :=
  PageAllocator.getPageId r.pageSize slot out.layout.cellSize

theorem slotPage_eq (h : r.allocMambaStates = .ok out) (slot : Nat) :
    r.slotPage out slot = ((slot * r.cellSize / r.pageSize : Nat) : Int) := by
  rw [slotPage, (allocMambaStates_ok h).2.1, PageAllocator.getPageId, Int.ofNat_tdiv]
  rfl

/-- A byte of a state of the slot lies in a page slot that is mapped with the page of the slot. -/
theorem slot_mem_keys (h : r.allocMambaStates = .ok out) (hL : 0 < r.numMambaLayers)
    {layer kind slot : Nat} {a : Nat × Nat} (ha : a ∈ out.states.bytes layer kind slot) :
    (r.pool hL).tensors.slot (a.1, (a.2 : Int)) ∈ (r.pool hL).keys [r.slotPage out slot] := by
  have hraw := (allocMambaStates_ok h).1
  obtain ⟨k, x, hk, hx, hl, -, rfl⟩ := mem_bytes h ha
  obtain ⟨j, hj, hcell⟩ := cellIndex_eq hl slot
  obtain ⟨hlo, hhi⟩ := cell_within r.pageSize_pos (cellSize_spec hraw).1 slot
  -- the cells of all slots that share the page are on it
  have hdiv : (r.cellIndex layer slot * r.cellSize + x) / (r.pageSize * r.cellsPerSlot) =
      slot * r.cellSize / r.pageSize := by
    have hin : j * r.cellSize + x < r.cellsPerSlot * r.cellSize :=
      mul_add_lt_mul hj (contains_lt_cellSize hraw hk hx)
    have hsplit : r.cellIndex layer slot * r.cellSize + x =
        slot * (r.cellSize * r.cellsPerSlot) + (j * r.cellSize + x) := by
      rw [hcell]
      ring
    refine div_eq_of_block hlo hhi ⟨hsplit.ge.trans' (Nat.le_add_right _ _), ?_⟩
    calc r.cellIndex layer slot * r.cellSize + x
        < slot * (r.cellSize * r.cellsPerSlot) + r.cellsPerSlot * r.cellSize :=
          hsplit.trans_lt (Nat.add_lt_add_left hin _)
      _ = (slot + 1) * (r.cellSize * r.cellsPerSlot) := by ring
  have hcl : (r.pool hL).contiguousLayout = r.contiguousLayout := rfl
  rw [KvPool.mem_keys, slotPage_eq h, FTensorAllocator.slot, slotBytes_pool, ← Int.ofNat_tdiv, hdiv,
    hcl]
  refine ⟨?_, _, List.mem_singleton_self _, .inl rfl⟩
  dsimp only
  split_ifs
  · exact Nat.zero_lt_one
  · exact hl

/-- No tensor of the pool keeps a second half for V. -/
theorem whole_pool (hL : 0 < r.numMambaLayers) :
    (r.pool hL).contiguousLayout = true ∨ (r.pool hL).unifiedPool = true := by
  have hcl : (r.pool hL).contiguousLayout = r.contiguousLayout := rfl
  have hup : (r.pool hL).unifiedPool = !r.contiguousLayout := rfl
  rw [hcl, hup]
  cases r.contiguousLayout
  · exact .inr rfl
  · exact .inl rfl

theorem halves_pool (hL : 0 < r.numMambaLayers) : (r.pool hL).Halves :=
  (whole_pool hL).imp_right .inl

/-- The bytes of a slot stay mapped as long as its page is, in every run of maps and unmaps. -/
theorem states_mapped (h : r.allocMambaStates = .ok out) (hL : 0 < r.numMambaLayers)
    {acts : List PoolAct} {s : PoolState}
    (hrun : run (r.pool hL).step KvPool.emptyState acts = some s) {layer kind slot : Nat}
    (hm : r.slotPage out slot ∈ s.mapped) {a : Nat × Nat}
    (ha : a ∈ out.states.bytes layer kind slot) :
    (r.pool hL).tensors.slot (a.1, (a.2 : Int)) ∈ s.slots := by
  have hbelow : Along (r.pool hL).step (r.pool hL).BelowHalf KvPool.emptyState acts := by
    refine along_of_mem (fun act _ t => ?_) _
    cases act with
    | map ps => exact (whole_pool hL).imp_right .inl
    | unmap ps => trivial
  exact ((KvPool.run_faithful hrun hbelow).slots _).mpr ⟨_, hm, slot_mem_keys h hL ha⟩

/-- A slot is one of the blocks of its page. -/
theorem slot_mem_blockRange (h : r.allocMambaStates = .ok out) (slot : Nat) :
    (slot : Int) ∈ Int.range
      (InternalPage.getBlockRange (r.slotPage out slot) r.pageSize out.layout.cellSize).1
      (InternalPage.getBlockRange (r.slotPage out slot) r.pageSize out.layout.cellSize).2 := by
  obtain ⟨hraw, hlayout, -⟩ := allocMambaStates_ok h
  have hd := (cellSize_spec hraw).1
  obtain ⟨hlo, hhi⟩ := cell_within r.pageSize_pos hd slot
  have hps : (0 : Int) < r.pageSize := Int.natCast_pos.mpr r.pageSize_pos
  have hcell : (0 : Int) < r.cellSize :=
    Int.natCast_pos.mpr (Nat.pos_of_dvd_of_pos hd r.pageSize_pos)
  have hcs : out.layout.cellSize = r.cellSize := by
    rw [hlayout]
    rfl
  rw [hcs, slotPage_eq h, InternalPage.mem_blockRange hps hcell (Int.natCast_nonneg _)]
  exact ⟨by exact_mod_cast hlo, by exact_mod_cast hhi⟩

/-- The states of an accepted call share no byte, and mapping the page of a slot backs the bytes
of its states. -/
theorem states_apart_and_mapped (r : MambaRequest) (out : MambaCache)
    (h : r.allocMambaStates = .ok out) :
    (∀ layer kind slot layer' kind' slot', (layer, kind, slot) ≠ (layer', kind', slot') →
      Disjoint (out.states.bytes layer kind slot) (out.states.bytes layer' kind' slot')) ∧
    ∀ layer (hl : layer < r.numMambaLayers) kind slot,
      (slot : Int) ∈ Int.range
        (InternalPage.getBlockRange (r.slotPage out slot) r.pageSize out.layout.cellSize).1
        (InternalPage.getBlockRange (r.slotPage out slot) r.pageSize out.layout.cellSize).2 ∧
      ∀ M ps, r.slotPage out slot ∈ ps → ∃ M',
        (r.pool (Nat.zero_lt_of_lt hl)).mapPages ((r.pool (Nat.zero_lt_of_lt hl)).withMapping M) ps =
          some (true, (r.pool (Nat.zero_lt_of_lt hl)).withMapping M') ∧
        ∀ a ∈ out.states.bytes layer kind slot,
          (r.pool (Nat.zero_lt_of_lt hl)).tensors.slot (a.1, (a.2 : Int)) ∈ M' := by
  refine ⟨fun _ _ _ _ _ _ => bytes_disjoint h, fun layer hl kind slot => ?_⟩
  have hL : 0 < r.numMambaLayers := Nat.zero_lt_of_lt hl
  refine ⟨slot_mem_blockRange h slot, fun M ps hps => ?_⟩
  refine ⟨_, (r.pool hL).mapPages_eq (halves_pool hL) ps M, fun a ha => ?_⟩
  have hkey := (KvPool.mem_keys_singleton ps).mpr ⟨_, hps, slot_mem_keys h hL ha⟩
  exact Finset.mem_union_right M (List.mem_toFinset.mpr hkey)

end MambaRequest

/-- Two layers with two conv states of 16-bit elements and a temporal state of 32-bit ones; 128
slots share a page. -/
def hybridMamba : MambaRequest where
  numSlots := 200
  numMambaLayers := 2
  convShapes := [[96, 3], [17, 3]]
  temporalShape := [8, 16, 16]
  convItemsize := 2
  ssmItemsize := 4
  kvcachedInitialized := true
  cudaAvailable := true
  contiguousLayout := true
  pageSize := 2097152
  convItemsize_pos := Nat.two_pos

def hybridCache : MambaCache where
  states := .contiguous
    [⟨0, 2, ⟨[2, 200, 96, 3], [8192, 16384, 3, 1], 0⟩⟩,
      ⟨0, 2, ⟨[2, 200, 17, 3], [8192, 16384, 3, 1], 288⟩⟩]
    ⟨0, 4, ⟨[2, 200, 8, 16, 16], [4096, 8192, 256, 16, 1], 170⟩⟩
  layout := ⟨16384, 200, 2, [0, 576], 680, true⟩

theorem hybridMamba_ok : hybridMamba.allocMambaStates = .ok hybridCache := by decide +kernel

/-- Slot 130 lies on page 1. -/
theorem hybridMamba_apart_and_mapped :
    Disjoint (hybridCache.states.bytes 0 1 130) (hybridCache.states.bytes 0 2 130) ∧
      ∃ M, (hybridMamba.pool (by decide)).mapPages ((hybridMamba.pool (by decide)).withMapping ∅)
        [1] = some (true, (hybridMamba.pool (by decide)).withMapping M) ∧
      ∀ a ∈ hybridCache.states.bytes 1 2 130,
        (hybridMamba.pool (by decide)).tensors.slot (a.1, (a.2 : Int)) ∈ M := by
  obtain ⟨hapart, hmapped⟩ :=
    MambaRequest.states_apart_and_mapped hybridMamba hybridCache hybridMamba_ok
  refine ⟨hapart 0 1 130 0 2 130 (by decide), ?_⟩
  exact (hmapped 1 (by decide) 2 130).2 ∅ [1] (by decide)

end GpuSharing.Integration
