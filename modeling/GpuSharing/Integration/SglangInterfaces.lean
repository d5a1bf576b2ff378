import Mathlib.Data.Nat.Sqrt
import Mathlib.Data.Set.Basic
import Mathlib.Order.Bounds.Basic
import GpuSharing.Lib.Packing
import GpuSharing.Lib.StridedView
import GpuSharing.Kvcached.KvPool

namespace GpuSharing.Integration

open Strided Packing Kvcached

inductive MambaError
  | runtimeError (message : String)
  | assertionError (message : String)
  deriving DecidableEq, Repr

/-- The arguments of `alloc_mamba_states` and the globals it reads. -/
structure MambaRequest where
  numSlots : Nat
  numMambaLayers : Nat
  convShapes : List (List Nat)
  temporalShape : List Nat
  convItemsize : Nat
  ssmItemsize : Nat
  kvcachedInitialized : Bool
  cudaAvailable : Bool
  contiguousLayout : Bool
  pageSize : Nat
  convItemsize_pos : 0 < convItemsize := by decide
  ssmItemsize_pos : 0 < ssmItemsize := by decide
  pageSize_pos : 0 < pageSize := by decide

/-- A torch tensor over the bytes of the raw tensor `raw`. -/
structure StateTensor where
  raw : Nat
  itemsize : Nat
  view : View
  deriving DecidableEq, Repr

/-- The tensors of a state kind have all layers in one dimension, or there is one for a layer. -/
inductive MambaStates
  | contiguous (conv : List StateTensor) (temporal : StateTensor)
  | perLayer (conv : List (List StateTensor)) (temporal : List StateTensor)
  deriving DecidableEq, Repr

/-- `layout_info`. -/
structure MambaLayout where
  cellSize : Nat
  numSlots : Nat
  numMambaLayers : Nat
  convOffsets : List Nat
  temporalOffset : Nat
  isContiguous : Bool
  deriving DecidableEq, Repr

structure MambaCache where
  states : MambaStates
  layout : MambaLayout
  deriving DecidableEq, Repr

/-- One round of the loop of `_smallest_divisor_ge`. -/
def divisorStep (n lower best i : Nat) : Nat :=
  if n % i = 0 then
    let best := if lower ≤ i then min best i else best
    if lower ≤ n / i then min best (n / i) else best
  else best

/-- The loop runs while `i * i ≤ n`. -/
def smallestDivisorGe (n lower : Nat) : Nat :=
  ((List.range' 1 n).takeWhile fun i => i * i ≤ n).foldl (divisorStep n lower) n

theorem divisorStep_le (n lower best i : Nat) : divisorStep n lower best i ≤ best := by
  unfold divisorStep
  dsimp only
  split_ifs <;> omega

theorem foldl_divisorStep_le (n lower best : Nat) (is : List Nat) :
    is.foldl (divisorStep n lower) best ≤ best := by
  induction is generalizing best with
  | nil => exact le_refl _
  | cons i is ih => exact (ih _).trans (divisorStep_le n lower best i)

/-- Once the loop has been at `i`, neither `i` nor its cofactor beats the result. -/
theorem foldl_divisorStep_le_of_mem {n lower best i : Nat} {is : List Nat} (hi : i ∈ is)
    (hd : n % i = 0) : (lower ≤ i → is.foldl (divisorStep n lower) best ≤ i) ∧
      (lower ≤ n / i → is.foldl (divisorStep n lower) best ≤ n / i) := by
  induction is generalizing best with
  | nil => simp at hi
  | cons j is ih =>
    rcases List.mem_cons.mp hi with rfl | hi
    · have hrest := foldl_divisorStep_le n lower (divisorStep n lower best i) is
      have hstep : (lower ≤ i → divisorStep n lower best i ≤ i) ∧
          (lower ≤ n / i → divisorStep n lower best i ≤ n / i) := by
        unfold divisorStep
        rw [if_pos hd]
        dsimp only
        split_ifs <;> omega
      exact ⟨fun h => hrest.trans (hstep.1 h), fun h => hrest.trans (hstep.2 h)⟩
    · exact ih hi

theorem divisorStep_keeps {n lower best i : Nat} (h : best ∣ n ∧ lower ≤ best) :
    divisorStep n lower best i ∣ n ∧ lower ≤ divisorStep n lower best i := by
  have keep {b c : Nat} (hb : b ∣ n ∧ lower ≤ b) (hc : c ∣ n) :
      (if lower ≤ c then min b c else b) ∣ n ∧ lower ≤ (if lower ≤ c then min b c else b) := by
    split_ifs with hl
    · exact min_rec' (fun d => d ∣ n ∧ lower ≤ d) hb ⟨hc, hl⟩
    · exact hb
  unfold divisorStep
  by_cases hd : n % i = 0
  · have hdvd := Nat.dvd_of_mod_eq_zero hd
    rw [if_pos hd]
    exact keep (keep h hdvd) (Nat.div_dvd_of_dvd hdvd)
  · rwa [if_neg hd]

theorem smallestDivisorGe_spec {n lower : Nat} (h : lower ≤ n) :
    smallestDivisorGe n lower ∣ n ∧ lower ≤ smallestDivisorGe n lower :=
  List.foldlRecOn _ _ (motive := fun d => d ∣ n ∧ lower ≤ d) ⟨Nat.dvd_refl n, h⟩
    fun _ hb _ _ => divisorStep_keeps hb

theorem mem_takeWhile_square {n i : Nat} (hle : i * i ≤ n) (start len : Nat) (h1 : start ≤ i)
    (h2 : i < start + len) : i ∈ (List.range' start len).takeWhile fun i => i * i ≤ n := by
  induction len generalizing start with
  | zero => omega
  | succ len ih =>
    have hs : start * start ≤ n := (Nat.mul_self_le_mul_self h1).trans hle
    rw [List.range'_succ, List.takeWhile_cons_of_pos (by simpa using hs)]
    rcases Nat.eq_or_lt_of_le h1 with rfl | h
    · exact List.mem_cons_self
    · exact List.mem_cons_of_mem _ (ih (start + 1) h (by omega))

/-- A divisor up to the square root is met itself, one above it as a cofactor. -/
theorem smallestDivisorGe_le {n lower d : Nat} (hn : 0 < n) (hd : d ∣ n) (hl : lower ≤ d) :
    smallestDivisorGe n lower ≤ d := by
  have visited {i : Nat} (hi : 0 < i) (hle : i * i ≤ n) :
      i ∈ (List.range' 1 n).takeWhile fun i => i * i ≤ n := by
    have hin : i ≤ i * i := Nat.le_mul_self i
    exact mem_takeWhile_square hle 1 n hi (by omega)
  obtain ⟨e, rfl⟩ := hd
  have hd0 : 0 < d := Nat.pos_of_mul_pos_right hn
  have he0 : 0 < e := Nat.pos_of_mul_pos_left hn
  rcases Nat.le_total d e with hde | hed
  · have hmem := visited hd0 (Nat.mul_le_mul_left d hde)
    exact (foldl_divisorStep_le_of_mem hmem (Nat.mul_mod_right d e)).1 hl
  · have hmem := visited he0 (Nat.mul_le_mul_right e hed)
    have hcof : d * e / e = d := Nat.mul_div_cancel d he0
    calc smallestDivisorGe (d * e) lower ≤ d * e / e :=
          (foldl_divisorStep_le_of_mem hmem (Nat.mul_mod_left d e)).2 (hl.trans hcof.ge)
      _ = d := hcof

/-- `_smallest_divisor_ge` from `best` and `i` on, for at most `fuel` rounds; `none` when its loop has
not ended by then. -/
def divisorLoop (n lower : Nat) : Nat → Nat → Nat → Option Nat
  | 0, best, i => if i * i ≤ n then none else some best
  | fuel + 1, best, i =>
    if i * i ≤ n then divisorLoop n lower fuel (divisorStep n lower best i) (i + 1) else some best

/-- The loop is over when it has passed the square root. -/
theorem divisorLoop_eq {n lower fuel i : Nat} (hend : n < (i + fuel) * (i + fuel)) (best : Nat) :
    divisorLoop n lower fuel best i = some
      (((List.range' i fuel).takeWhile fun i => i * i ≤ n).foldl (divisorStep n lower) best) := by
  induction fuel generalizing best i with
  | zero => exact if_neg (Nat.not_le.mpr hend)
  | succ fuel ih =>
    rw [divisorLoop, List.range'_succ]
    split_ifs with hi
    · rw [ih (by rwa [Nat.add_right_comm]), List.takeWhile_cons_of_pos (by simpa using hi)]
      rfl
    · rw [List.takeWhile_cons_of_neg (by simpa using hi)]
      rfl

/-- Once the loop has ended, more rounds change nothing. -/
theorem divisorLoop_mono {n lower fuel fuel' best i d : Nat}
    (h : divisorLoop n lower fuel best i = some d) (hle : fuel ≤ fuel') :
    divisorLoop n lower fuel' best i = some d := by
  induction fuel generalizing fuel' best i with
  | zero =>
    rw [divisorLoop] at h
    split_ifs at h with hi
    cases fuel' <;> simpa [divisorLoop, hi] using h
  | succ fuel ih =>
    obtain ⟨fuel', rfl⟩ := Nat.exists_eq_add_of_le' (Nat.one_le_of_lt hle)
    rw [divisorLoop] at h ⊢
    split_ifs at h ⊢
    · exact ih h (Nat.le_of_succ_le_succ hle)
    · exact h

theorem divisorLoop_of_square_lt {n fuel : Nat} (lower : Nat)
    (hfuel : n < (fuel + 1) * (fuel + 1)) :
    divisorLoop n lower fuel n 1 = some (smallestDivisorGe n lower) := by
  have hsquare : n < (1 + n) * (1 + n) := by nlinarith
  have hall : divisorLoop n lower n n 1 = some (smallestDivisorGe n lower) := divisorLoop_eq hsquare n
  have hend : divisorLoop n lower fuel n 1 = some _ :=
    divisorLoop_eq (by rwa [Nat.add_comm 1]) n
  have hmax := divisorLoop_mono hend (Nat.le_max_left fuel n)
  rw [divisorLoop_mono hall (Nat.le_max_right fuel n)] at hmax
  rw [hend, ← hmax]

/-- The loop of `_smallest_divisor_ge` ends within as many rounds as the square root, and returns
the least divisor that is at least `lower`. -/
theorem smallestDivisorGe_least {n lower fuel : Nat} (hlower : 1 ≤ lower) (hn : lower ≤ n)
    (hfuel : n.sqrt ≤ fuel) :
    divisorLoop n lower fuel n 1 = some (smallestDivisorGe n lower) ∧
      IsLeast {d | d ∣ n ∧ lower ≤ d} (smallestDivisorGe n lower) := by
  have hsquare : n < (fuel + 1) * (fuel + 1) :=
    calc n < (n.sqrt + 1) * (n.sqrt + 1) := Nat.lt_succ_sqrt n
      _ ≤ (fuel + 1) * (fuel + 1) := Nat.mul_self_le_mul_self (Nat.succ_le_succ hfuel)
  refine ⟨divisorLoop_of_square_lt lower hsquare, smallestDivisorGe_spec hn, ?_⟩
  rintro d ⟨hd, hl⟩
  exact smallestDivisorGe_le (Nat.lt_of_lt_of_le hlower hn) hd hl

/-- A page of 6 MiB and a cell of 1.1 MB. -/
theorem smallestDivisorGe_least_page : divisorLoop 6291456 1100000 2508 6291456 1 =
      some (smallestDivisorGe 6291456 1100000) ∧
    IsLeast {d | d ∣ 6291456 ∧ 1100000 ≤ d} (smallestDivisorGe 6291456 1100000) :=
  smallestDivisorGe_least (by decide) (by decide) (Nat.le_of_lt_succ (Nat.sqrt_lt.mpr (by decide)))

/-- `inner_stride` and `running`, from the last dimension to the first. -/
def innerStride (shape : List Nat) : List Nat × Nat :=
  shape.foldr (fun d s => (s.2 :: s.1, s.2 * d)) ([], 1)

theorem innerStride_eq (shape : List Nat) : innerStride shape = (rowMajor shape, shape.prod) := by
  induction shape with
  | nil => rfl
  | cons d shape ih =>
    have hstep : innerStride (d :: shape) =
        ((innerStride shape).2 :: (innerStride shape).1, (innerStride shape).2 * d) := rfl
    rw [hstep, ih, rowMajor_cons, List.prod_cons, Nat.mul_comm]

namespace MambaRequest

/-- The loop over the conv states: their offsets, and where the last one ends. -/
def packConv (r : MambaRequest) : List Nat × Nat :=
  pack r.convItemsize 0 (r.convShapes.map fun shape => shape.prod * r.convItemsize)

def convOffsets (r : MambaRequest) : List Nat := r.packConv.1

def temporalOffset (r : MambaRequest) : Nat := alignUp r.packConv.2 r.ssmItemsize

def rawCellSize (r : MambaRequest) : Nat :=
  alignUp (r.temporalOffset + r.temporalShape.prod * r.ssmItemsize)
    (max r.convItemsize r.ssmItemsize)

def cellSize (r : MambaRequest) : Nat := smallestDivisorGe r.pageSize r.rawCellSize

def perLayerBytesAligned (r : MambaRequest) : Nat := alignUp (r.numSlots * r.cellSize) r.pageSize

def layoutInfo (r : MambaRequest) : MambaLayout where
  cellSize := r.cellSize
  numSlots := r.numSlots
  numMambaLayers := r.numMambaLayers
  convOffsets := r.convOffsets
  temporalOffset := r.temporalOffset
  isContiguous := r.contiguousLayout

/-- `_view_state_contig`. -/
def viewStateContig (r : MambaRequest) (shape : List Nat) (dtypeSize offsetBytes : Nat) :
    Except MambaError StateTensor :=
  if offsetBytes % dtypeSize ≠ 0 ∨ r.cellSize % dtypeSize ≠ 0 then .error (.assertionError "")
  else .ok
    { raw := 0
      itemsize := dtypeSize
      view :=
        { shape := r.numMambaLayers :: r.numSlots :: shape
          strides := r.cellSize / dtypeSize :: r.numMambaLayers * r.cellSize / dtypeSize ::
            (innerStride shape).1
          offset := offsetBytes / dtypeSize } }

/-- `_view_state_per_layer`. -/
def viewStatePerLayer (r : MambaRequest) (layer : Nat) (shape : List Nat)
    (dtypeSize offsetBytes : Nat) : Except MambaError StateTensor :=
  if offsetBytes % dtypeSize ≠ 0 ∨ r.cellSize % dtypeSize ≠ 0 then .error (.assertionError "")
  else .ok
    { raw := layer
      itemsize := dtypeSize
      view :=
        { shape := r.numSlots :: shape
          strides := r.cellSize / dtypeSize :: (innerStride shape).1
          offset := offsetBytes / dtypeSize } }

def allocMambaStates (r : MambaRequest) : Except MambaError MambaCache := do
  if !r.kvcachedInitialized then
    throw (.runtimeError "kvcached is not initialized. Please call init_kvcached() first.")
  if !r.cudaAvailable then throw (.assertionError "CUDA is not available.")
  if r.pageSize < r.rawCellSize then
    throw (.runtimeError ("Mamba per-slot super-cell (" ++ toString r.rawCellSize ++
      " bytes) exceeds kvcached PAGE_SIZE (" ++ toString r.pageSize ++ " bytes). Raise " ++
      "KVCACHED_PAGE_SIZE_MB so a single physical page can back at least one slot."))
  if r.contiguousLayout then
    let conv ← (r.convShapes.zip r.convOffsets).mapM fun s =>
      r.viewStateContig s.1 r.convItemsize s.2
    let temporal ← r.viewStateContig r.temporalShape r.ssmItemsize r.temporalOffset
    return ⟨.contiguous conv temporal, r.layoutInfo⟩
  else
    let conv ← (r.convShapes.zip r.convOffsets).mapM fun s =>
      (List.range r.numMambaLayers).mapM fun layer =>
        r.viewStatePerLayer layer s.1 r.convItemsize s.2
    let temporal ← (List.range r.numMambaLayers).mapM fun layer =>
      r.viewStatePerLayer layer r.temporalShape r.ssmItemsize r.temporalOffset
    return ⟨.perLayer conv temporal, r.layoutInfo⟩

end MambaRequest

namespace MambaStates

/-- The tensor of a layer, the conv states before the temporal one: `at_layer_idx`. -/
def atLayerIdx (states : MambaStates) (layer kind : Nat) : Option StateTensor :=
  match states with
  | .contiguous conv temporal => do
    let t ← (conv ++ [temporal])[kind]?
    let view ← t.view.select layer
    return { t with view }
  | .perLayer conv temporal => do
    let ts ← (conv ++ [temporal])[kind]?
    ts[layer]?

/-- The bytes behind the elements of a slot: the raw tensor and the place in it. -/
def bytes (states : MambaStates) (layer kind slot : Nat) : Set (Nat × Nat) :=
  {a | ∃ t, states.atLayerIdx layer kind = some t ∧ a.1 = t.raw ∧ ∃ idx,
    InBounds (slot :: idx) t.view.shape ∧ ∃ y < t.itemsize,
      a.2 = t.view.element (slot :: idx) * t.itemsize + y}

end MambaStates

namespace MambaRequest

/-- The raw tensors, and the allocator of the manager that `ElasticMambaPool` builds for them:
slots are its blocks. -/
def pool (r : MambaRequest) (h : 0 < r.numMambaLayers) : KvPool where
  contiguousLayout := r.contiguousLayout
  unifiedPool := !r.contiguousLayout
  numLayers := r.numMambaLayers
  numKvBuffers := 1
  managerKvBuffers := 1
  pageSize := r.pageSize
  perBufferBytes := r.perLayerBytesAligned
  memSizePerLayer := r.numSlots * r.cellSize
  numLayers_pos := h
  pageSize_pos := Int.natCast_pos.mpr r.pageSize_pos
  perBufferBytes_nonneg := Int.natCast_nonneg _
  memSizePerLayer_nonneg := by positivity
  aligned := Int.natCast_dvd_natCast.mpr (dvd_alignUp _ _)
  contiguous_agrees := fun _ => rfl

end MambaRequest

end GpuSharing.Integration
