import Mathlib.Data.Rat.Floor

namespace GpuSharing

/-- A number of JavaScript, computed with exactly instead of rounded. Its zero is the positive one. -/
inductive Number
  | finite (q : ℚ)
  | infinity (negative : Bool)
  | nan
  deriving DecidableEq, Repr

namespace Number

def add : Number → Number → Number
  | .finite p, .finite q => .finite (p + q)
  | .infinity a, .infinity b => if a = b then .infinity a else .nan
  | .infinity a, .finite _ | .finite _, .infinity a => .infinity a
  | _, _ => .nan

def mul : Number → Number → Number
  | .finite p, .finite q => .finite (p * q)
  | .infinity a, .infinity b => .infinity (a != b)
  | .infinity a, .finite q | .finite q, .infinity a =>
    if q = 0 then .nan else .infinity (a != decide (q < 0))
  | _, _ => .nan

def div : Number → Number → Number
  | .finite p, .finite q =>
    if q ≠ 0 then .finite (p / q) else if p = 0 then .nan else .infinity (p < 0)
  | .infinity a, .finite q => .infinity (a != decide (q < 0))
  | .finite _, .infinity _ => .finite 0
  | _, _ => .nan

def neg : Number → Number
  | .finite q => .finite (-q)
  | .infinity a => .infinity !a
  | .nan => .nan

def sub (x y : Number) : Number := x.add y.neg

def max : Number → Number → Number
  | .finite p, .finite q => .finite (Max.max p q)
  | .infinity true, y | y, .infinity true => y
  | .infinity false, .nan | .nan, _ | _, .nan => .nan
  | .infinity false, _ | _, .infinity false => .infinity false

/-- The nearest integer, the greater one of two. -/
def round : Number → Number
  | .finite q => .finite ⌊q + 1 / 2⌋
  | x => x

def IsPositive : Number → Prop
  | .finite q => 0 < q
  | .infinity a => a = false
  | .nan => False

instance decidableIsPositive : ∀ x : Number, Decidable x.IsPositive
  | .finite q => inferInstanceAs (Decidable (0 < q))
  | .infinity a => inferInstanceAs (Decidable (a = false))
  | .nan => .isFalse id

theorem div_zero_ne_finite (p q : ℚ) : div (.finite p) (.finite 0) ≠ .finite q := by
  by_cases hp : p = 0 <;> simp [div, hp]

end Number

end GpuSharing
