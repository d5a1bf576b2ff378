import Mathlib.Algebra.BigOperators.Group.List.Basic
import Mathlib.Tactic.Ring

namespace GpuSharing.Strided

/-- A strided view of a flat buffer; `offset` and `strides` count elements. -/
structure View where
  shape : List Nat
  strides : List Nat
  offset : Nat
  deriving DecidableEq, Repr

/-- Strides of a dense tensor in row-major order. -/
def rowMajor : List Nat → List Nat
  | [] => []
  | _ :: ns => ns.prod :: rowMajor ns

def dot : List Nat → List Nat → Nat
  | i :: is, s :: ss => i * s + dot is ss
  | _, _ => 0

def InBounds (idx shape : List Nat) : Prop := List.Forall₂ (· < ·) idx shape

namespace View

/-- `t[:n].view(shape)` of a flat tensor. -/
def dense (shape : List Nat) : View := ⟨shape, rowMajor shape, 0⟩

/-- `torch.as_strided`. -/
def asStrided (shape strides : List Nat) : View := ⟨shape, strides, 0⟩

/-- `t[i]`; an index outside the first dimension is an error. -/
def select (v : View) (i : Nat) : Option View :=
  if i < v.shape.getD 0 0 then
    some ⟨v.shape.drop 1, v.strides.drop 1, v.offset + i * v.strides.getD 0 0⟩
  else none

/-- `t[:, i]`. -/
def selectSecond (v : View) (i : Nat) : View where
  shape := v.shape.eraseIdx 1
  strides := v.strides.eraseIdx 1
  offset := v.offset + i * v.strides.getD 1 0

def permute (v : View) (order : List Nat) : View where
  shape := order.map (v.shape.getD · 0)
  strides := order.map (v.strides.getD · 0)
  offset := v.offset

/-- The element of the buffer at an index of the view. -/
def element (v : View) (idx : List Nat) : Nat := v.offset + dot idx v.strides

end View

@[simp] theorem dot_cons (i s : Nat) (is ss : List Nat) :
    dot (i :: is) (s :: ss) = i * s + dot is ss := rfl

@[simp] theorem dot_nil (ss : List Nat) : dot [] ss = 0 := by cases ss <;> rfl

@[simp] theorem rowMajor_cons (n : Nat) (ns : List Nat) :
    rowMajor (n :: ns) = ns.prod :: rowMajor ns := rfl

theorem inBounds_cons {idx : List Nat} {n : Nat} {ns : List Nat} (h : InBounds idx (n :: ns)) :
    ∃ i is, idx = i :: is ∧ i < n ∧ InBounds is ns := by
  cases h with
  | cons hi hs => exact ⟨_, _, rfl, hi, hs⟩

/-- `i * m + r` lies below `n * m` for `i < n` and `r < m`. -/
theorem mul_add_lt_mul {i n r m : Nat} (hi : i < n) (hr : r < m) : i * m + r < n * m :=
  calc i * m + r < i * m + m := Nat.add_lt_add_left hr _
    _ = (i + 1) * m := by ring
    _ ≤ n * m := Nat.mul_le_mul_right m hi

/-- A row-major index stays inside the tensor. -/
theorem dot_rowMajor_lt {idx shape : List Nat} (h : InBounds idx shape) :
    dot idx (rowMajor shape) < shape.prod := by
  induction h with
  | nil => simp [rowMajor]
  | cons hi _ ih =>
    rw [rowMajor_cons, dot_cons, List.prod_cons]
    exact mul_add_lt_mul hi ih

/-- Elements of the items `[lo, hi)`, `m` elements each, fill `[lo * m, hi * m)`. -/
theorem element_mem_range {i r m lo hi : Nat} (h : lo ≤ i ∧ i < hi) (hr : r < m) :
    lo * m ≤ i * m + r ∧ i * m + r < hi * m :=
  ⟨(Nat.mul_le_mul_right m h.1).trans (Nat.le_add_right _ _), mul_add_lt_mul h.2 hr⟩

/-- Items of `s` units each: those of block `b`, which lies inside page `p`, are on that page. -/
theorem div_eq_of_block {p ps b bm s x : Nat} (hlo : p * ps ≤ b * bm)
    (hhi : (b + 1) * bm ≤ (p + 1) * ps) (hx : b * (bm * s) ≤ x ∧ x < (b + 1) * (bm * s)) :
    x / (ps * s) = p := by
  refine Nat.div_eq_of_lt_le ?_ ?_
  · calc p * (ps * s) = p * ps * s := by ring
      _ ≤ b * bm * s := Nat.mul_le_mul_right s hlo
      _ ≤ x := by rw [mul_assoc]; exact hx.1
  · calc x < (b + 1) * bm * s := by rw [mul_assoc]; exact hx.2
      _ ≤ (p + 1) * ps * s := Nat.mul_le_mul_right s hhi
      _ = (p + 1) * (ps * s) := by ring

private theorem map_range_drop (l : List Nat) (k : Nat) :
    ((List.range l.length).drop k).map (l.getD · 0) = l.drop k := by
  apply List.ext_getElem
  · simp
  · intro i h1 h2
    have hi : k + i < l.length := by
      rw [List.length_drop] at h2
      omega
    simp [List.getElem?_eq_getElem hi]

/-- `permute(1, 0, 2, ..)` swaps the first two dimensions. -/
theorem permute_swap (a b s t o : Nat) (xs ss : List Nat) (hs : ss.length = xs.length) :
    (View.mk (a :: b :: xs) (s :: t :: ss) o).permute
      (1 :: 0 :: (List.range (xs.length + 2)).drop 2) = ⟨b :: a :: xs, t :: s :: ss, o⟩ := by
  have hshape := map_range_drop (a :: b :: xs) 2
  have hstrides := map_range_drop (s :: t :: ss) 2
  simp only [List.length_cons, List.drop_succ_cons, List.drop_zero, hs] at hshape hstrides
  simp only [View.permute, List.map_cons, hshape, hstrides, List.getD_cons_succ,
    List.getD_cons_zero]

@[simp] theorem length_rowMajor (shape : List Nat) : (rowMajor shape).length = shape.length := by
  induction shape with
  | nil => rfl
  | cons n ns ih => rw [rowMajor_cons, List.length_cons, List.length_cons, ih]

theorem permute_range (v : View) (n : Nat) (hn : v.shape.length = n)
    (hs : v.strides.length = n) : v.permute (List.range n) = v := by
  cases v with
  | mk shape strides offset =>
    have hshape := map_range_drop shape 0
    have hstrides := map_range_drop strides 0
    simp only at hn hs
    simp only [hn, hs, List.drop_zero] at hshape hstrides
    simp only [View.permute, hshape, hstrides]

end GpuSharing.Strided
