import Mathlib.Data.List.Rotate

namespace GpuSharing.Rotation

variable {α : Type} {xs : List α}

/-- Take the element that the index points at and move the index on, both round the list. -/
def turn (xs : List α) (idx : Nat) : Option α × Nat :=
  (xs[idx % xs.length]?, (idx + 1) % xs.length)

/-- The index after `n` turns. -/
def after (xs : List α) (idx : Nat) : Nat → Nat
  | 0 => idx
  | n + 1 => after xs (turn xs idx).2 n

/-- What `n` turns take. -/
def turns (xs : List α) (idx : Nat) : Nat → List (Option α)
  | 0 => []
  | n + 1 => (turn xs idx).1 :: turns xs (turn xs idx).2 n

/-- The first turns of a round go through the list from where the index points. -/
theorem turns_eq (xs : List α) (idx n : Nat) :
    turns xs idx n = (List.range n).map fun k => xs[(idx + k) % xs.length]? := by
  induction n generalizing idx with
  | zero => rfl
  | succ n ih =>
    rw [turns, ih, List.range_succ_eq_map, List.map_cons, List.map_map]
    congr 1
    apply List.map_congr_left
    intro k _
    rw [turn, Function.comp, Nat.mod_add_mod, Nat.add_right_comm, Nat.add_assoc]

/-- A whole round is the list turned to where the index points. -/
theorem turns_round (xs : List α) (idx : Nat) :
    turns xs idx xs.length = (xs.rotate idx).map some := by
  rw [turns_eq]
  apply List.ext_getElem
  · simp
  · intro k hk _
    have hlen : k < xs.length := by simpa using hk
    have hpos : (idx + k) % xs.length < xs.length := Nat.mod_lt _ (by omega)
    simp [List.getElem_rotate, Nat.add_comm k idx, hpos]

/-- From every index a round takes every element once. -/
theorem turns_perm (xs : List α) (idx : Nat) : (turns xs idx xs.length).Perm (xs.map some) := by
  rw [turns_round]
  exact (xs.rotate_perm idx).map some

theorem turn_after (xs : List α) (idx n : Nat) :
    (turn xs (after xs idx n)).1 = xs[(idx + n) % xs.length]? := by
  induction n generalizing idx with
  | zero => rfl
  | succ n ih =>
    rw [after, ih, turn, Nat.mod_add_mod, Nat.add_right_comm, Nat.add_assoc]

/-- Every element is taken at some turn. -/
theorem exists_turn {x : α} (h : x ∈ xs) (idx : Nat) :
    ∃ n, (turn xs (after xs idx n)).1 = some x := by
  have hin := (turns_perm xs idx).mem_iff.mpr (List.mem_map_of_mem h)
  rw [turns_eq] at hin
  obtain ⟨n, -, hn⟩ := List.mem_map.mp hin
  exact ⟨n, (turn_after xs idx n).trans hn⟩

theorem exists_turn_eq (hne : xs ≠ []) (idx : Nat) : ∃ x ∈ xs, (turn xs idx).1 = some x := by
  have hlt : idx % xs.length < xs.length := Nat.mod_lt _ (List.length_pos_iff.mpr hne)
  exact ⟨_, List.getElem_mem hlt, List.getElem?_eq_getElem hlt⟩

end GpuSharing.Rotation
