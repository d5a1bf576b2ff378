import Mathlib.Data.Multiset.Filter

namespace GpuSharing.Matching

variable {α β : Type} {r : α → β → Prop} {s : Multiset α} {t : Multiset β}
  {p : α → Prop} {q : β → Prop} [DecidablePred p] [DecidablePred q]

theorem rel_coe_of_forall₂ {l : List α} {m : List β} (h : List.Forall₂ r l m) :
    Multiset.Rel r ↑l ↑m := by
  induction h with
  | nil => exact .zero
  | cons hab _ ih => exact .cons hab ih

/-- A one-to-one matching restricts to the elements that matched ones agree to select. -/
theorem rel_filter (h : Multiset.Rel r s t) (hpq : ∀ a b, r a b → (p a ↔ q b)) :
    Multiset.Rel r (s.filter p) (t.filter q) := by
  induction h with
  | zero =>
    rw [Multiset.filter_zero, Multiset.filter_zero]
    exact .zero
  | @cons a b s t hab _ ih =>
    by_cases ha : p a
    · rw [Multiset.filter_cons_of_pos _ ha, Multiset.filter_cons_of_pos _ ((hpq a b hab).mp ha)]
      exact .cons hab ih
    · have hb : ¬q b := fun hb => ha ((hpq a b hab).mpr hb)
      rw [Multiset.filter_cons_of_neg _ ha, Multiset.filter_cons_of_neg _ hb]
      exact ih

/-- New elements that match exactly what `q` leaves out can be added to a matching, and only a
matching of the old ones with the rest can be completed so. -/
theorem rel_add_iff (hpq : ∀ a b, r a b → (p a ↔ q b)) {new : Multiset α}
    (hp : ∀ a ∈ new, ¬p a) (hnew : Multiset.Rel r new (t.filter fun b => ¬q b)) :
    Multiset.Rel r (new + s) t ↔ Multiset.Rel r s (t.filter q) := by
  have hsplit : (t.filter fun b => ¬q b) + t.filter q = t := by
    rw [Multiset.add_comm]
    exact Multiset.filter_add_not q t
  constructor
  · intro h
    have hold := rel_filter h hpq
    have hrest := rel_filter h fun a b hab => not_congr (hpq a b hab)
    rw [Multiset.filter_add, Multiset.filter_eq_nil.mpr hp, Multiset.zero_add] at hold
    rw [Multiset.filter_add, Multiset.filter_eq_self.mpr hp] at hrest
    have hcard := Multiset.card_eq_card_of_rel hrest
    have hcard' := Multiset.card_eq_card_of_rel hnew
    -- the new elements use up what is left out, so that every old one is selected
    have hnone : s.filter (fun a => ¬p a) = 0 := by
      rw [Multiset.card_add] at hcard
      apply Multiset.card_eq_zero.mp
      omega
    have hall : s.filter p = s := by
      apply Multiset.filter_eq_self.mpr
      intro a ha
      exact Decidable.of_not_not (Multiset.filter_eq_nil.mp hnone a ha)
    rwa [hall] at hold
  · intro h
    rw [← hsplit]
    exact hnew.add h

end GpuSharing.Matching
