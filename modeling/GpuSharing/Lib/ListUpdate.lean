import Mathlib.Data.List.Basic

namespace GpuSharing.ListUpdate

variable {α : Type} {l : List α} {k : Nat} {x y z : α}

/-- What one element that changes does to a count. -/
theorem countP_set_add (hk : l[k]? = some x) (y : α) (p : α → Bool) :
    (l.set k y).countP p + (if p x then 1 else 0) = l.countP p + if p y then 1 else 0 := by
  obtain ⟨hlt, hget⟩ := List.getElem?_eq_some_iff.mp hk
  have hle : (if p l[k] = true then 1 else 0) ≤ l.countP p :=
    List.boole_getElem_le_countP (p := p) hlt
  rw [List.countP_set hlt, ← hget]
  omega

theorem mem_set_of_ne (hk : l[k]? = some x) (hmem : z ∈ l) (hne : z ≠ x) (y : α) :
    z ∈ l.set k y := by
  obtain ⟨j, hj⟩ := List.mem_iff_getElem?.mp hmem
  have hjk : k ≠ j := by
    rintro rfl
    exact hne (Option.some.inj (hj.symm.trans hk))
  exact List.mem_iff_getElem?.mpr ⟨j, by rw [List.getElem?_set_ne hjk, hj]⟩

theorem mem_set_self (hk : l[k]? = some x) (y : α) : y ∈ l.set k y :=
  List.mem_set (List.getElem?_eq_some_iff.mp hk).1 y

/-- A property of all elements is kept by a set whose new element has it if the old one did. -/
theorem forall_set {p : α → Prop} (h : ∀ z ∈ l, p z) (hk : l[k]? = some x) (hy : p x → p y) :
    ∀ z ∈ l.set k y, p z := by
  intro z hz
  rcases List.mem_or_eq_of_mem_set hz with hz | rfl
  · exact h z hz
  · exact hy (h x (List.mem_of_getElem? hk))

end GpuSharing.ListUpdate
