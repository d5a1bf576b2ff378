import Mathlib.Data.Finset.SDiff
import GpuSharing.Kvcached.FTensor

namespace GpuSharing.Kvcached.FTensorAllocator

variable {k k' : FTensorAllocator} {done vs : List Visit}

theorem rollbackUnmapped_spec (k : FTensorAllocator) (ha : ∀ v ∈ done, k.Aligned v) :
    k.rollbackUnmapped done =
      some { k with mapping := k.mapping ∪ (done.map k.slot).toFinset } := by
  induction done generalizing k with
  | nil => simp [rollbackUnmapped]
  | cons v done ih =>
    have hv : v.2.tmod k.slotBytes = 0 := ha v List.mem_cons_self
    have htail := ih { k with mapping := insert (k.slot v) k.mapping }
      fun w hw => ha w (List.mem_cons_of_mem _ hw)
    simp only [rollbackUnmapped, ftensorMap, if_pos hv, Option.bind_eq_bind, Option.bind_some]
    refine htail.trans ?_
    have hset : insert (k.slot v) k.mapping ∪ (done.map k.slot).toFinset =
        k.mapping ∪ ((v :: done).map k.slot).toFinset := by
      rw [List.map_cons, List.toFinset_cons, Finset.insert_union, Finset.union_insert]
    exact congrArg (fun m => some { k with mapping := m }) hset

/-- The loop of `unmap_from_kv_tensors` fails only after it has mapped again what it had unmapped. -/
theorem unmapLoop_false (ha : ∀ v ∈ done, k.Aligned v)
    (h : k.unmapLoop done vs = some (false, k')) :
    k' = { k with mapping := k.mapping ∪ (done.map k.slot).toFinset } := by
  induction vs generalizing k done with
  | nil => cases h
  | cons v vs ih =>
    by_cases hv : v.2.tmod k.slotBytes = 0
    · by_cases hin : (v.1, v.2.tdiv k.slotBytes) ∈ k.mapping
      · simp only [unmapLoop, ftensorUnmap, if_pos hv, if_pos hin, Option.bind_eq_bind,
          Option.bind_some, if_true] at h
        have hrest := ih (k := { k with mapping := k.mapping.erase (k.slot v) })
          (by
            intro w hw
            rcases List.mem_cons.mp hw with rfl | hw
            · exact hv
            · exact ha w hw) h
        refine hrest.trans ?_
        have hset : k.mapping.erase (k.slot v) ∪ ((v :: done).map k.slot).toFinset =
            k.mapping ∪ (done.map k.slot).toFinset := by
          rw [List.map_cons, List.toFinset_cons, Finset.union_insert, ← Finset.insert_union,
            Finset.insert_erase (show k.slot v ∈ k.mapping from hin)]
        exact congrArg (fun m => { k with mapping := m }) hset
      · simp only [unmapLoop, ftensorUnmap, if_pos hv, if_neg hin, Option.bind_eq_bind,
          Option.bind_some, Bool.false_eq_true, if_false, rollbackUnmapped_spec k ha] at h
        cases h
        rfl
    · simp [unmapLoop, ftensorUnmap, hv] at h

/-- `FTensor::map` has no failure to report, so the loop of `map_to_kv_tensors` has none either. -/
theorem mapLoop_ok {ok : Bool} (h : k.mapLoop done vs = some (ok, k')) : ok = true := by
  induction vs generalizing k done with
  | nil =>
    cases h
    rfl
  | cons v vs ih =>
    by_cases hv : v.2.tmod k.slotBytes = 0
    · simp only [mapLoop, ftensorMap, if_pos hv, Option.bind_eq_bind, Option.bind_some,
        if_true] at h
      exact ih h
    · simp [mapLoop, ftensorMap, hv] at h

/-- What the rollback of `map_to_kv_tensors` would undo: it takes the visits it has skipped for those
it has mapped. -/
theorem rollbackMapped_spec (k : FTensorAllocator) (ha : ∀ v ∈ done, k.Aligned v) :
    k.rollbackMapped done =
      some { k with mapping := k.mapping \ (done.map k.slot).toFinset } := by
  induction done generalizing k with
  | nil => simp [rollbackMapped]
  | cons v done ih =>
    have hv : v.2.tmod k.slotBytes = 0 := ha v List.mem_cons_self
    have hrest : ∀ w ∈ done, k.Aligned w := fun w hw => ha w (List.mem_cons_of_mem _ hw)
    by_cases hin : (v.1, v.2.tdiv k.slotBytes) ∈ k.mapping
    · simp only [rollbackMapped, ftensorUnmap, if_pos hv, if_pos hin, Option.bind_eq_bind,
        Option.bind_some]
      refine (ih { k with mapping := k.mapping.erase (k.slot v) } hrest).trans ?_
      have hset : k.mapping.erase (k.slot v) \ (done.map k.slot).toFinset =
          k.mapping \ ((v :: done).map k.slot).toFinset := by
        rw [List.map_cons, List.toFinset_cons, Finset.sdiff_insert, Finset.erase_sdiff_comm]
      exact congrArg (fun m => some { k with mapping := m }) hset
    · simp only [rollbackMapped, ftensorUnmap, if_pos hv, if_neg hin, Option.bind_eq_bind,
        Option.bind_some]
      refine (ih k hrest).trans ?_
      have hset : k.mapping \ (done.map k.slot).toFinset =
          k.mapping \ ((v :: done).map k.slot).toFinset := by
        rw [List.map_cons, List.toFinset_cons, Finset.sdiff_insert, Finset.erase_eq_of_notMem]
        exact fun h => hin (Finset.mem_sdiff.mp h).1
      exact congrArg (fun m => some { k with mapping := m }) hset

/-- A rollback after the visits would restore the slots exactly when none of them was mapped. -/
theorem mapLoop_rollback_iff (k : FTensorAllocator) (ha : ∀ v ∈ vs, k.Aligned v) :
    (∃ k₁, k.mapLoop [] vs = some (true, k₁) ∧ k₁.rollbackMapped vs.reverse = some k) ↔
      ∀ v ∈ vs, k.slot v ∉ k.mapping := by
  rw [mapLoop_spec k [] vs ha]
  have hreverse : ∀ v ∈ vs.reverse, k.Aligned v := fun v hv => ha v (List.mem_reverse.mp hv)
  have hback := rollbackMapped_spec { k with mapping := k.mapping ∪ (vs.map k.slot).toFinset }
    hreverse
  have hset : (k.mapping ∪ (vs.map k.slot).toFinset) \ (vs.reverse.map k.slot).toFinset =
      k.mapping \ (vs.map k.slot).toFinset := by
    rw [List.map_reverse, List.toFinset_reverse, Finset.union_sdiff_right]
  constructor
  · rintro ⟨k₁, hk₁, hrestored⟩ v hv hin
    cases hk₁
    have heq : (k.mapping ∪ (vs.map k.slot).toFinset) \ (vs.reverse.map k.slot).toFinset =
        k.mapping := congrArg mapping (Option.some.inj (hback.symm.trans hrestored))
    have hmem : k.slot v ∈ k.mapping \ (vs.map k.slot).toFinset := by
      rw [← hset, heq]
      exact hin
    exact (Finset.mem_sdiff.mp hmem).2 (List.mem_toFinset.mpr (List.mem_map_of_mem hv))
  · intro hnone
    refine ⟨_, rfl, hback.trans ?_⟩
    have hkeep : k.mapping \ (vs.map k.slot).toFinset = k.mapping := by
      rw [Finset.sdiff_eq_self_iff_disjoint, Finset.disjoint_right]
      intro x hx
      obtain ⟨v, hv, rfl⟩ := List.mem_map.mp (List.mem_toFinset.mp hx)
      exact hnone v hv
    exact congrArg (fun m => some { k with mapping := m }) (hset.trans hkeep)

/-- A call that reports a failure leaves the slots mapped that were mapped before it. -/
theorem failed_call_restores (k k' : FTensorAllocator) (offsets : List Int) :
    (k.unmapFromKvTensors offsets = some (false, k') → k' = k) ∧
      (k.mapToKvTensors offsets = some (false, k') → k' = k) := by
  by_cases h0 : k.numLayers = 0
  · constructor
    · intro h
      rw [unmapFromKvTensors, if_pos h0] at h
      cases h
      rfl
    · intro h
      rw [mapToKvTensors, if_pos h0] at h
      cases h
      rfl
  · rw [unmapFromKvTensors_visits k h0, mapToKvTensors_visits k h0]
    cases k.visits offsets with
    | none => simp
    | some vs =>
      constructor
      · intro h
        simpa using unmapLoop_false (by simp) h
      · intro h
        cases mapLoop_ok h

/-- Two layers of two pages of one byte, in tensors of their own; layer 1 lacks page 1. -/
def halfMapped : FTensorAllocator :=
  { createKvTensors false 1 2 2 1 true with mapping := {(0, 0), (0, 1), (1, 0)} }

/-- Three slots are unmapped before the fourth turns out not to be mapped. -/
theorem failed_call_restores_halfMapped :
    ∃ k', halfMapped.unmapFromKvTensors [0, 1] = some (false, k') ∧ k' = halfMapped := by
  have hfails : halfMapped.unmapFromKvTensors [0, 1] = some (false, halfMapped) := by
    decide
  exact ⟨_, hfails, (failed_call_restores halfMapped halfMapped [0, 1]).1 hfails⟩

end GpuSharing.Kvcached.FTensorAllocator
