import Mathlib.Algebra.Order.Floor.Semiring
import Mathlib.Tactic.Linarith
import Mathlib.Tactic.Ring

namespace GpuSharing.Interpolation

variable {K : Type} [Field K] [LinearOrder K] [FloorSemiring K]

/-- The value at `x` on the line through the values of a sequence on both sides of `x`. -/
def interpolate (f : ℕ → K) (x : K) : K := f ⌊x⌋₊ + (f (⌊x⌋₊ + 1) - f ⌊x⌋₊) * (x - ⌊x⌋₊)

variable [IsStrictOrderedRing K] {f : ℕ → K} {x y : K}

theorem interpolate_natCast (f : ℕ → K) (n : ℕ) : interpolate f n = f n := by
  rw [interpolate, Nat.floor_natCast, sub_self, mul_zero, add_zero]

/-- An interpolated value of a rising sequence is at least the value before it. -/
theorem le_interpolate (hf : Monotone f) (hx : 0 ≤ x) : f ⌊x⌋₊ ≤ interpolate f x := by
  have hrise : 0 ≤ f (⌊x⌋₊ + 1) - f ⌊x⌋₊ := sub_nonneg.mpr (hf (Nat.le_succ _))
  have hpast : 0 ≤ x - ⌊x⌋₊ := sub_nonneg.mpr (Nat.floor_le hx)
  exact le_add_of_nonneg_right (mul_nonneg hrise hpast)

/-- An interpolated value of a rising sequence is at most the value after it. -/
theorem interpolate_le (hf : Monotone f) (x : K) : interpolate f x ≤ f (⌊x⌋₊ + 1) := by
  have hrise : 0 ≤ f (⌊x⌋₊ + 1) - f ⌊x⌋₊ := sub_nonneg.mpr (hf (Nat.le_succ _))
  have hpast : x - ⌊x⌋₊ ≤ 1 := by
    have := (Nat.lt_floor_add_one x).le
    linarith
  calc interpolate f x ≤ f ⌊x⌋₊ + (f (⌊x⌋₊ + 1) - f ⌊x⌋₊) * 1 :=
        add_le_add_right (mul_le_mul_of_nonneg_left hpast hrise) _
    _ = f (⌊x⌋₊ + 1) := by ring

/-- The interpolation of a rising sequence rises. -/
theorem interpolate_mono (hf : Monotone f) (hx : 0 ≤ x) (hxy : x ≤ y) :
    interpolate f x ≤ interpolate f y := by
  obtain heq | hlt := (Nat.floor_mono hxy).eq_or_lt
  · -- both lie on one piece
    have hrise : 0 ≤ f (⌊y⌋₊ + 1) - f ⌊y⌋₊ := sub_nonneg.mpr (hf (Nat.le_succ _))
    have hstep := mul_le_mul_of_nonneg_left (sub_le_sub_right hxy (⌊y⌋₊ : K)) hrise
    rw [interpolate, interpolate, heq]
    exact add_le_add_right hstep _
  · -- a value of the sequence lies between
    calc interpolate f x ≤ f (⌊x⌋₊ + 1) := interpolate_le hf x
      _ ≤ f ⌊y⌋₊ := hf hlt
      _ ≤ interpolate f y := le_interpolate hf (hx.trans hxy)

theorem interpolate_mem_Icc (hf : Monotone f) {n : ℕ} (hx : 0 ≤ x) (hn : x ≤ n) :
    f 0 ≤ interpolate f x ∧ interpolate f x ≤ f n := by
  constructor
  · calc f 0 ≤ f ⌊x⌋₊ := hf (Nat.zero_le _)
      _ ≤ interpolate f x := le_interpolate hf hx
  · calc interpolate f x ≤ interpolate f n := interpolate_mono hf hx hn
      _ = f n := interpolate_natCast f n

end GpuSharing.Interpolation
