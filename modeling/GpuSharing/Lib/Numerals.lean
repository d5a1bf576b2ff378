import Mathlib.Algebra.Group.Int.Defs
import Mathlib.Algebra.Ring.Nat

/-! Facts about single numerals, by name: definitions that rest on them share one proof. -/

namespace GpuSharing.Numerals

theorem neZero_one : NeZero 1 := ⟨by decide⟩

theorem neZero_two : NeZero 2 := ⟨by decide⟩

theorem neZero_three : NeZero 3 := ⟨by decide⟩

theorem nonneg_two : (0 : Int) ≤ 2 := by decide

theorem nonneg_three : (0 : Int) ≤ 3 := by decide

theorem nonneg_twentyFour : (0 : Int) ≤ 24 := by decide

theorem pos_two : (0 : Int) < 2 := by decide

theorem pos_three : (0 : Int) < 3 := by decide

theorem pos_four : (0 : Int) < 4 := by decide

theorem pos_eight : (0 : Int) < 8 := by decide

theorem eight_lt : (8 : Int) < 2^63 := by decide

theorem pos_mib : (0 : Int) < 2^20 := by decide

/-- The page size of two MiB. -/
theorem pos_page : (0 : Int) < 2^21 := by decide

theorem page_lt : (2^21 : Int) < 2^63 := by decide

theorem nonneg_eightPages : (0 : Int) ≤ 8 * 2^21 := by decide

theorem pos_pageBytes : (0 : Int) < 2097152 := by decide

theorem natPos_pageBytes : 0 < 2097152 := by decide

end GpuSharing.Numerals
