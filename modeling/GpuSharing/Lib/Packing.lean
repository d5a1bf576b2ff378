import Mathlib.Algebra.Order.Ring.Nat
import Mathlib.Data.List.Forall2
import Mathlib.Tactic.Ring

namespace GpuSharing.Packing

/-- `x` rounded up to a multiple of `a`. -/
def alignUp (x a : Nat) : Nat := (x + a - 1) / a * a

theorem dvd_alignUp (x a : Nat) : a ∣ alignUp x a := Nat.dvd_mul_left _ _

theorem le_alignUp (x : Nat) {a : Nat} (ha : 0 < a) : x ≤ alignUp x a := by
  have hlt := Nat.lt_mul_div_succ (x + a - 1) ha
  rw [Nat.mul_add, Nat.mul_one, Nat.mul_comm] at hlt
  unfold alignUp
  omega

/-- The bytes `[offset, offset + bytes)` of a cell. -/
structure Region where
  offset : Nat
  bytes : Nat
  deriving DecidableEq, Repr

def Region.Contains (r : Region) (x : Nat) : Prop := r.offset ≤ x ∧ x < r.offset + r.bytes

/-- The regions follow one another from `lo` on and end by `hi`. -/
inductive Packed : Nat → List Region → Nat → Prop
  | nil {lo hi : Nat} (h : lo ≤ hi) : Packed lo [] hi
  | cons {lo hi : Nat} {r : Region} {rs : List Region} (h : lo ≤ r.offset)
      (hrs : Packed (r.offset + r.bytes) rs hi) : Packed lo (r :: rs) hi

namespace Packed

variable {lo mid hi x : Nat} {r : Region} {rs rs' : List Region}

theorem le (h : Packed lo rs hi) : lo ≤ hi := by
  induction h with
  | nil h => exact h
  | cons h _ ih => omega

theorem append (h : Packed lo rs mid) (h' : Packed mid rs' hi) : Packed lo (rs ++ rs') hi := by
  induction h with
  | nil hle =>
    cases h' with
    | nil hle' => exact .nil (hle.trans hle')
    | cons hr hrs => exact .cons (hle.trans hr) hrs
  | cons hr _ ih => exact .cons hr (ih h')

theorem inside (h : Packed lo rs hi) (hr : r ∈ rs) (hx : r.Contains x) : lo ≤ x ∧ x < hi := by
  induction h with
  | nil => simp at hr
  | cons hlo hrs ih =>
    have hend := hrs.le
    rcases List.mem_cons.mp hr with rfl | hr
    · obtain ⟨h1, h2⟩ := hx
      omega
    · obtain ⟨h1, h2⟩ := ih hr
      omega

/-- A byte lies in one of the regions at most. -/
theorem eq_of_contains (h : Packed lo rs hi) {i j : Nat} {s : Region} (hi : rs[i]? = some r)
    (hj : rs[j]? = some s) (hr : r.Contains x) (hs : s.Contains x) : i = j := by
  induction h generalizing i j with
  | nil => simp at hi
  | cons _ hrs ih =>
    -- the first region ends where the later ones may begin
    cases i with
    | zero =>
      cases j with
      | zero => rfl
      | succ j =>
        rw [List.getElem?_cons_zero, Option.some.injEq] at hi
        have hin := hrs.inside (List.mem_of_getElem? hj) hs
        obtain ⟨-, h2⟩ := hi ▸ hr
        omega
    | succ i =>
      cases j with
      | zero =>
        rw [List.getElem?_cons_zero, Option.some.injEq] at hj
        have hin := hrs.inside (List.mem_of_getElem? hi) hr
        obtain ⟨-, h2⟩ := hj ▸ hs
        omega
      | succ j => exact congrArg Nat.succ (ih hi hj)

end Packed

/-- Items of the given sizes one after another from `offset` on, each at a multiple of `a`: their
offsets, and where the last one ends. -/
def pack (a : Nat) : Nat → List Nat → List Nat × Nat
  | offset, [] => ([], offset)
  | offset, size :: sizes =>
    let start := alignUp offset a
    let rest := pack a (start + size) sizes
    (start :: rest.1, rest.2)

theorem length_pack (a offset : Nat) (sizes : List Nat) :
    (pack a offset sizes).1.length = sizes.length := by
  induction sizes generalizing offset with
  | nil => rfl
  | cons size sizes ih => simp only [pack, List.length_cons, ih]

theorem dvd_of_mem_pack {a offset o : Nat} {sizes : List Nat}
    (ho : o ∈ (pack a offset sizes).1) : a ∣ o := by
  induction sizes generalizing offset with
  | nil => simp [pack] at ho
  | cons size sizes ih =>
    rcases List.mem_cons.mp ho with rfl | ho
    · exact dvd_alignUp _ _
    · exact ih ho

theorem packed_pack {a : Nat} (ha : 0 < a) (offset : Nat) (sizes : List Nat) :
    Packed offset (List.zipWith Region.mk (pack a offset sizes).1 sizes)
      (pack a offset sizes).2 := by
  induction sizes generalizing offset with
  | nil => exact .nil (le_refl _)
  | cons size sizes ih => exact .cons (le_alignUp offset ha) (ih _)

/-- A byte of a row of cells determines its cell and its place in it. -/
theorem cell_unique {m i j x y : Nat} (hx : x < m) (hy : y < m) (h : i * m + x = j * m + y) :
    i = j ∧ x = y := by
  have hm : 0 < m := Nat.zero_lt_of_lt hx
  have hi : (i * m + x) / m = i := by
    rw [Nat.mul_comm, Nat.mul_add_div hm, Nat.div_eq_of_lt hx, Nat.add_zero]
  have hj : (j * m + y) / m = j := by
    rw [Nat.mul_comm, Nat.mul_add_div hm, Nat.div_eq_of_lt hy, Nat.add_zero]
  have hij : i = j := by rw [← hi, h, hj]
  subst hij
  exact ⟨rfl, Nat.add_left_cancel h⟩

end GpuSharing.Packing
