import Mathlib.Data.Finset.Basic
import Mathlib.Data.Finset.Lattice.Lemmas
import Mathlib.Data.Int.Range

namespace GpuSharing.Kvcached

/-- An `FTensor` of the allocator and a byte offset in it. -/
abbrev Visit := Nat × Int

/-- The KV tensors of one `FTensorAllocator`. All its `FTensor`s have the same size and the same
page size, and `mapping` gathers their mappings: tensor `t` holds a page at key `i` when
`(t, i)` is in it. -/
structure FTensorAllocator where
  contiguousLayout : Bool
  unifiedPool : Bool
  numLayers : Nat
  kPageSize : Int
  tensorBytes : Int
  slotBytes : Int
  mapping : Finset (Nat × Int)
  deriving DecidableEq

namespace FTensorAllocator

def createKvTensors (contiguousLayout : Bool) (kPageSize size : Int) (numLayers : Nat)
    (numKvBuffers : Int) (unifiedPool : Bool) : FTensorAllocator :=
  let alignedSize :=
    if size.tmod kPageSize ≠ 0 then (size + kPageSize - 1).tdiv kPageSize * kPageSize else size
  { contiguousLayout, unifiedPool, numLayers, kPageSize
    tensorBytes := if contiguousLayout then alignedSize * numLayers else alignedSize
    slotBytes := if contiguousLayout then kPageSize * numLayers * numKvBuffers else kPageSize
    mapping := ∅ }

/-- `FTensor::map`; `none` when its alignment assertion fails. -/
def ftensorMap (k : FTensorAllocator) (v : Visit) : Option (Bool × FTensorAllocator) :=
  if v.2.tmod k.slotBytes = 0 then
    some (true, { k with mapping := insert (v.1, v.2.tdiv k.slotBytes) k.mapping })
  else none

/-- `FTensor::unmap` reports a page that is not mapped. -/
def ftensorUnmap (k : FTensorAllocator) (v : Visit) : Option (Bool × FTensorAllocator) :=
  if v.2.tmod k.slotBytes = 0 then
    if (v.1, v.2.tdiv k.slotBytes) ∈ k.mapping then
      some (true, { k with mapping := k.mapping.erase (v.1, v.2.tdiv k.slotBytes) })
    else some (false, k)
  else none

/-- `get_v_base_offset`, with its assertion. -/
def getVBaseOffset (k : FTensorAllocator) : Option Int :=
  if k.tensorBytes.tmod (2 * k.kPageSize) = 0 then some (k.tensorBytes.tdiv 2) else none

def rollbackMapped : FTensorAllocator → List Visit → Option FTensorAllocator
  | k, [] => some k
  | k, v :: vs => do
    let (_, k) ← k.ftensorUnmap v
    k.rollbackMapped vs

def rollbackUnmapped : FTensorAllocator → List Visit → Option FTensorAllocator
  | k, [] => some k
  | k, v :: vs => do
    let (_, k) ← k.ftensorMap v
    k.rollbackUnmapped vs

/-- `map_or_rollback` over the visits of a call; `done` is `mapped_offsets`, newest first. -/
def mapLoop : FTensorAllocator → List Visit → List Visit → Option (Bool × FTensorAllocator)
  | k, _, [] => some (true, k)
  | k, done, v :: vs => do
    let (ok, k) ← k.ftensorMap v
    if ok then k.mapLoop (v :: done) vs
    else return (false, ← k.rollbackMapped done)

/-- `unmap_or_rollback` over the visits of a call. -/
def unmapLoop : FTensorAllocator → List Visit → List Visit → Option (Bool × FTensorAllocator)
  | k, _, [] => some (true, k)
  | k, done, v :: vs => do
    let (ok, k) ← k.ftensorUnmap v
    if ok then k.unmapLoop (v :: done) vs
    else return (false, ← k.rollbackUnmapped done)

/-- `map_to_kv_tensors`: the visits of the layout at hand, in the order of its loops. -/
def mapToKvTensors (k : FTensorAllocator) (offsets : List Int) :
    Option (Bool × FTensorAllocator) :=
  if k.numLayers = 0 then some (false, k)
  else if k.contiguousLayout then k.mapLoop [] (offsets.map fun offset => (0, offset))
  else if k.unifiedPool then
    k.mapLoop [] ((List.range k.numLayers).flatMap fun i => offsets.map fun offset => (i, offset))
  else do
    let vBaseOffset ← k.getVBaseOffset
    k.mapLoop [] ((List.range k.numLayers).flatMap fun i =>
      offsets.flatMap fun offset => [(i, offset), (i, offset + vBaseOffset)])

def unmapFromKvTensors (k : FTensorAllocator) (offsets : List Int) :
    Option (Bool × FTensorAllocator) :=
  if k.numLayers = 0 then some (false, k)
  else if k.contiguousLayout then k.unmapLoop [] (offsets.map fun offset => (0, offset))
  else if k.unifiedPool then
    k.unmapLoop [] ((List.range k.numLayers).flatMap fun i => offsets.map fun offset => (i, offset))
  else do
    let vBaseOffset ← k.getVBaseOffset
    k.unmapLoop [] ((List.range k.numLayers).flatMap fun i =>
      offsets.flatMap fun offset => [(i, offset), (i, offset + vBaseOffset)])

/-- The key under which `FTensor::map` and `FTensor::unmap` keep a visit. -/
def slot (k : FTensorAllocator) (v : Visit) : Nat × Int := (v.1, v.2.tdiv k.slotBytes)

def Aligned (k : FTensorAllocator) (v : Visit) : Prop := v.2.tmod k.slotBytes = 0

theorem mapLoop_spec (k : FTensorAllocator) (done vs : List Visit)
    (ha : ∀ v ∈ vs, k.Aligned v) :
    k.mapLoop done vs =
      some (true, { k with mapping := k.mapping ∪ (vs.map k.slot).toFinset }) := by
  induction vs generalizing k done with
  | nil => simp [mapLoop]
  | cons v vs ih =>
    have hv : v.2.tmod k.slotBytes = 0 := ha v (by simp)
    have htail := ih { k with mapping := insert (k.slot v) k.mapping } (v :: done)
      fun w hw => ha w (by simp [hw])
    simp only [mapLoop, ftensorMap, if_pos hv, Option.bind_eq_bind, Option.bind_some, if_true]
    refine htail.trans ?_
    have hset : insert (k.slot v) k.mapping ∪ (vs.map k.slot).toFinset =
        k.mapping ∪ ((v :: vs).map k.slot).toFinset := by
      ext x
      simp only [Finset.mem_union, Finset.mem_insert, List.map_cons, List.toFinset_cons]
      tauto
    exact congrArg (fun m => some (true, { k with mapping := m })) hset

theorem unmapLoop_spec (k : FTensorAllocator) (done vs : List Visit)
    (ha : ∀ v ∈ vs, k.Aligned v) (hn : (vs.map k.slot).Nodup)
    (hm : ∀ v ∈ vs, k.slot v ∈ k.mapping) :
    k.unmapLoop done vs =
      some (true, { k with mapping := k.mapping \ (vs.map k.slot).toFinset }) := by
  induction vs generalizing k done with
  | nil => simp [unmapLoop]
  | cons v vs ih =>
    have hv : v.2.tmod k.slotBytes = 0 := ha v (by simp)
    have hin : (v.1, v.2.tdiv k.slotBytes) ∈ k.mapping := hm v (by simp)
    rw [List.map_cons, List.nodup_cons] at hn
    have htail := ih { k with mapping := k.mapping.erase (k.slot v) } (v :: done)
      (fun w hw => ha w (by simp [hw])) hn.2 (fun w hw => ?_)
    · simp only [unmapLoop, ftensorUnmap, if_pos hv, if_pos hin, Option.bind_eq_bind,
        Option.bind_some, if_true]
      refine htail.trans ?_
      have hset : k.mapping.erase (k.slot v) \ (vs.map k.slot).toFinset =
          k.mapping \ ((v :: vs).map k.slot).toFinset := by
        ext x
        simp only [Finset.mem_sdiff, Finset.mem_erase, List.map_cons, List.toFinset_cons,
          Finset.mem_insert]
        tauto
      exact congrArg (fun m => some (true, { k with mapping := m })) hset
    · refine Finset.mem_erase.mpr ⟨fun he => hn.1 ?_, hm w (by simp [hw])⟩
      rw [← he]
      exact List.mem_map_of_mem hw

/-- The `map` or `unmap` calls that the offsets lead to. -/
def visits (k : FTensorAllocator) (offsets : List Int) : Option (List Visit) :=
  if k.contiguousLayout then some (offsets.map fun offset => (0, offset))
  else if k.unifiedPool then
    some ((List.range k.numLayers).flatMap fun i => offsets.map fun offset => (i, offset))
  else k.getVBaseOffset.map fun v => (List.range k.numLayers).flatMap fun i =>
    offsets.flatMap fun offset => [(i, offset), (i, offset + v)]

theorem mapToKvTensors_visits (k : FTensorAllocator) (h0 : k.numLayers ≠ 0)
    (offsets : List Int) :
    k.mapToKvTensors offsets = (k.visits offsets).bind (k.mapLoop []) := by
  unfold mapToKvTensors visits
  rw [if_neg h0]
  split_ifs
  · rfl
  · rfl
  · cases k.getVBaseOffset <;> rfl

theorem unmapFromKvTensors_visits (k : FTensorAllocator) (h0 : k.numLayers ≠ 0)
    (offsets : List Int) :
    k.unmapFromKvTensors offsets = (k.visits offsets).bind (k.unmapLoop []) := by
  unfold unmapFromKvTensors visits
  rw [if_neg h0]
  split_ifs
  · rfl
  · rfl
  · cases k.getVBaseOffset <;> rfl

end FTensorAllocator

end GpuSharing.Kvcached
