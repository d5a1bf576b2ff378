import Mathlib.Algebra.Order.Ring.Rat
import Mathlib.Data.List.Basic
import Mathlib.Tactic.Linarith

namespace GpuSharing.Windows

variable {α β : Type}

/-- The `k` elements from the one at `start` on. -/
def window (xs : List α) (k start : Nat) : List α := (xs.drop start).take k

/-- All the runs of `k` elements. -/
def windows (k : Nat) (xs : List α) : List (List α) :=
  (List.range (xs.length + 1 - k)).map (window xs k)

theorem mem_windows {k : Nat} {xs w : List α} (hk : k ≤ xs.length) :
    w ∈ windows k xs ↔ ∃ start, start + k ≤ xs.length ∧ window xs k start = w := by
  simp only [windows, List.mem_map, List.mem_range]
  refine exists_congr fun start => and_congr_left fun _ => ?_
  omega

theorem length_window {xs : List α} {k start : Nat} (h : start + k ≤ xs.length) :
    (window xs k start).length = k := by
  rw [window, List.length_take, List.length_drop]
  omega

theorem window_map (f : α → β) (xs : List α) (k start : Nat) :
    window (xs.map f) k start = (window xs k start).map f := by
  rw [window, window, ← List.map_drop, ← List.map_take]

theorem window_succ {xs : List α} {k start : Nat} (h : start < xs.length) :
    window xs (k + 1) start = xs[start] :: window xs k (start + 1) := by
  rw [window, window, List.drop_eq_getElem_cons h, List.take_succ_cons]

/-- In a list in increasing order, the numbers that follow one of it are all in the list only as those
that stand behind it. -/
theorem window_eq_range' {s : List Nat} (hs : s.Pairwise (· < ·)) {k start : Nat} {first : Nat}
    (hfirst : s[start]? = some first) (hk : start + k ≤ s.length) :
    window s k start = List.range' first k ↔ ∀ id ∈ List.range' first k, id ∈ s := by
  constructor
  · intro h id hid
    rw [← h] at hid
    exact List.mem_of_mem_drop (List.mem_of_mem_take hid)
  · intro h
    induction k generalizing start first with
    | zero => simp [window]
    | succ k ih =>
      obtain ⟨hlt, rfl⟩ := List.getElem?_eq_some_iff.mp hfirst
      rw [window_succ hlt, List.range'_succ]
      cases k with
      | zero => simp [window]
      | succ k =>
        have hnextlt : start + 1 < s.length := by omega
        -- the next number is in the list, so it is the next element
        have hmem : s[start] + 1 ∈ s := h _ (by rw [List.mem_range'_1]; omega)
        obtain ⟨q, hq, heq⟩ := List.mem_iff_getElem.mp hmem
        have hstep : s[start] < s[start + 1] :=
          List.pairwise_iff_getElem.mp hs _ _ hlt hnextlt (Nat.lt_succ_self _)
        have hqstart : start < q := by
          by_contra hle
          rcases Nat.lt_or_eq_of_le (Nat.le_of_not_lt hle) with hlt' | rfl
          · have := List.pairwise_iff_getElem.mp hs _ _ hq hlt hlt'
            omega
          · omega
        have hnext : s[start + 1] = s[start] + 1 := by
          rcases Nat.lt_or_eq_of_le (Nat.succ_le_of_lt hqstart) with hlt' | rfl
          · have := List.pairwise_iff_getElem.mp hs _ _ hnextlt hq hlt'
            omega
          · exact heq
        have hrest : ∀ id ∈ List.range' (s[start] + 1) (k + 1), id ∈ s := fun id hid =>
          h id (by rw [List.range'_succ]; exact List.mem_cons_of_mem _ hid)
        rw [ih (by rw [List.getElem?_eq_getElem hnextlt, hnext]) (by omega) hrest]

/-- `i` is the first of the numbers below `m` with the largest value. -/
structure FirstMax (value : Nat → ℚ) (m i : Nat) : Prop where
  lt : i < m
  le : ∀ j < m, value j ≤ value i
  first : ∀ j < i, value j < value i

theorem FirstMax.unique {value : Nat → ℚ} {m i j : Nat} (hi : FirstMax value m i)
    (hj : FirstMax value m j) : i = j := by
  rcases lt_trichotomy i j with h | h | h
  · exact absurd (hj.first i h) (not_lt.mpr (hi.le j hj.lt))
  · exact h
  · exact absurd (hi.first j h) (not_lt.mpr (hj.le i hi.lt))

/-- A step of a scan that keeps the number with the largest value so far. -/
def keepLarger (value : Nat → ℚ) (best : Nat × ℚ) (i : Nat) : Nat × ℚ :=
  if best.2 < value i then (i, value i) else best

/-- A scan over values that are not negative finds the first maximum. -/
theorem foldl_keepLarger {value : Nat → ℚ} (h : ∀ i, 0 ≤ value i) (m : Nat) :
    FirstMax value (m + 1) ((List.range (m + 1)).foldl (keepLarger value) (0, 0)).1 ∧
      ((List.range (m + 1)).foldl (keepLarger value) (0, 0)).2 =
        value ((List.range (m + 1)).foldl (keepLarger value) (0, 0)).1 := by
  induction m with
  | zero =>
    have hfirst : FirstMax value 1 0 := ⟨Nat.one_pos, fun j hj => by
      rw [Nat.lt_one_iff.mp hj], fun j hj => absurd hj (Nat.not_lt_zero j)⟩
    simp only [Nat.zero_add, List.range_one, List.foldl_cons, List.foldl_nil, keepLarger]
    split
    · exact ⟨hfirst, rfl⟩
    · rename_i hle
      exact ⟨hfirst, le_antisymm (h 0) (not_lt.mp hle)⟩
  | succ m ih =>
    rw [List.range_succ, List.foldl_append, List.foldl_cons, List.foldl_nil]
    obtain ⟨hbest, hvalue⟩ := ih
    generalize (List.range (m + 1)).foldl (keepLarger value) (0, 0) = best at hbest hvalue
    rw [keepLarger, hvalue]
    split
    · rename_i hlt
      refine ⟨⟨Nat.lt_succ_self _, fun j hj => ?_, fun j hj => ?_⟩, rfl⟩
      · rcases Nat.lt_or_eq_of_le (Nat.le_of_lt_succ hj) with hlt' | rfl
        · exact (hbest.le j hlt').trans hlt.le
        · exact le_rfl
      · exact (hbest.le j hj).trans_lt hlt
    · rename_i hle
      refine ⟨⟨hbest.lt.trans (Nat.lt_succ_self _), fun j hj => ?_, hbest.first⟩, hvalue⟩
      rcases Nat.lt_or_eq_of_le (Nat.le_of_lt_succ hj) with hlt' | rfl
      · exact hbest.le j hlt'
      · exact not_lt.mp hle

end GpuSharing.Windows
