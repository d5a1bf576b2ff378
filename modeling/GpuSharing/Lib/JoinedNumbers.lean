import Mathlib.Data.List.Basic

namespace GpuSharing.JoinedNumbers

/-- Numerals with a separator between them. -/
def join (separator : List Char) : List Nat → List Char
  | [] => []
  | [n] => Nat.toDigits 10 n
  | n :: ns => Nat.toDigits 10 n ++ separator ++ join separator ns

variable {separator : List Char} {n m : Nat} {ns ms : List Nat}

theorem toList_intercalate (separator : String) (ns : List Nat) :
    (separator.intercalate (ns.map toString)).toList = join separator.toList ns := by
  induction ns with
  | nil => simp [join]
  | cons n ns ih =>
    cases ns with
    | nil => simp [join]
    | cons m ns =>
      rw [List.map_cons, List.map_cons, String.intercalate_cons_cons, String.toList_append,
        String.toList_append, ← List.map_cons, ih]
      simp [join]

theorem isDigit_of_mem {c : Char} (hc : c ∈ Nat.toDigits 10 n) : c.isDigit = true :=
  Nat.isDigit_of_mem_toDigits (by decide) (by decide) hc

theorem toDigits_injective (h : Nat.toDigits 10 n = Nat.toDigits 10 m) : n = m := by
  rw [← Nat.ofDigitChars_ten_toDigits (n := n), h, Nat.ofDigitChars_ten_toDigits]

/-- What follows the first numeral. -/
def after (separator : List Char) (ns : List Nat) : List Char :=
  if ns = [] then [] else separator ++ join separator ns

theorem join_cons (n : Nat) (ns : List Nat) :
    join separator (n :: ns) = Nat.toDigits 10 n ++ after separator ns := by
  cases ns with
  | nil => simp [join, after]
  | cons m ns => simp [join, after]

theorem join_ne_nil (n : Nat) (ns : List Nat) : join separator (n :: ns) ≠ [] := by
  have hdigits : Nat.toDigits 10 n ≠ [] := List.length_pos_iff.mp Nat.length_toDigits_pos
  rw [join_cons]
  simp [hdigits]

/-- A separator that does not begin with a digit keeps the numerals apart. -/
theorem takeWhile_join (hsep : ∃ c cs, separator = c :: cs ∧ c.isDigit = false) (n : Nat)
    (ns : List Nat) : (join separator (n :: ns)).takeWhile Char.isDigit = Nat.toDigits 10 n := by
  obtain ⟨c, cs, rfl, hc⟩ := hsep
  rw [join_cons, List.takeWhile_append_of_pos fun _ => isDigit_of_mem]
  by_cases hns : ns = [] <;> simp [after, hns, hc]

theorem join_injective (hsep : ∃ c cs, separator = c :: cs ∧ c.isDigit = false) :
    Function.Injective (join separator) := by
  intro ns ms h
  induction ns generalizing ms with
  | nil =>
    cases ms with
    | nil => rfl
    | cons m ms => exact absurd h.symm (join_ne_nil m ms)
  | cons n ns ih =>
    cases ms with
    | nil => exact absurd h (join_ne_nil n ns)
    | cons m ms =>
      have hfirst := congrArg (List.takeWhile Char.isDigit) h
      rw [takeWhile_join hsep, takeWhile_join hsep] at hfirst
      rw [join_cons, join_cons, hfirst, List.append_cancel_left_eq] at h
      obtain ⟨c, cs, hcons, -⟩ := hsep
      rw [toDigits_injective hfirst]
      by_cases hns : ns = [] <;> by_cases hms : ms = []
      · rw [hns, hms]
      · simp [after, hns, hms, hcons] at h
      · simp [after, hns, hms, hcons] at h
      · rw [after, after, if_neg hns, if_neg hms, List.append_cancel_left_eq] at h
        rw [ih h]

end GpuSharing.JoinedNumbers
