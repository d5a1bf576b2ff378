import Mathlib.Algebra.Order.BigOperators.Group.List
import Mathlib.Algebra.Order.Ring.Rat
import Mathlib.Tactic.Linarith
import GpuSharing.Lib.Dict

namespace GpuSharing.Ledger

variable {α : Type} {amount : α → ℚ} {p q : α → Bool} {entries kept : List α}

/-- The sum of the amounts of the entries that `p` selects. -/
def total (amount : α → ℚ) (p : α → Bool) (entries : List α) : ℚ :=
  ((entries.filter p).map amount).sum

@[simp] theorem total_nil : total amount p [] = 0 := rfl

theorem total_cons (e : α) :
    total amount p (e :: entries) = (if p e then amount e else 0) + total amount p entries := by
  cases h : p e <;> simp [total, h]

theorem total_cons_of_neg {e : α} (h : ¬p e) :
    total amount p (e :: entries) = total amount p entries := by
  rw [total_cons, if_neg h, zero_add]

theorem total_append {more : List α} :
    total amount p (entries ++ more) = total amount p entries + total amount p more := by
  simp [total]

theorem total_congr {amount' : α → ℚ} (h : ∀ e ∈ entries, p e = q e ∧ amount e = amount' e) :
    total amount p entries = total amount' q entries := by
  induction entries with
  | nil => rfl
  | cons e entries ih =>
    obtain ⟨hp, ha⟩ := h e List.mem_cons_self
    rw [total_cons, total_cons, hp, ha, ih fun x hx => h x (List.mem_cons_of_mem e hx)]

theorem total_nonneg (h : ∀ e ∈ entries, 0 ≤ amount e) : 0 ≤ total amount p entries := by
  refine List.sum_nonneg fun x hx => ?_
  obtain ⟨e, he, rfl⟩ := List.mem_map.mp hx
  exact h e (List.mem_filter.mp he).1

/-- Taking entries out does not raise a total. -/
theorem total_le_of_sublist (hsub : kept.Sublist entries) (h : ∀ e ∈ entries, 0 ≤ amount e) :
    total amount p kept ≤ total amount p entries := by
  induction hsub with
  | slnil => exact le_rfl
  | cons e _ ih =>
    have htail := ih fun x hx => h x (List.mem_cons_of_mem _ hx)
    have hhead := h e List.mem_cons_self
    rw [total_cons]
    split_ifs <;> linarith
  | cons_cons e _ ih =>
    have htail := ih fun x hx => h x (List.mem_cons_of_mem _ hx)
    rw [total_cons, total_cons]
    linarith

/-- A total over more entries is larger. -/
theorem total_le_of_imp (himp : ∀ e ∈ entries, p e → q e) (h : ∀ e ∈ entries, 0 ≤ amount e) :
    total amount p entries ≤ total amount q entries := by
  induction entries with
  | nil => exact le_rfl
  | cons e entries ih =>
    have htail := ih (fun x hx => himp x (List.mem_cons_of_mem _ hx))
      fun x hx => h x (List.mem_cons_of_mem _ hx)
    have hhead := h e List.mem_cons_self
    rw [total_cons, total_cons]
    by_cases hp : p e
    · rw [if_pos hp, if_pos (himp e List.mem_cons_self hp)]
      linarith
    · rw [if_neg hp]
      split_ifs <;> linarith

/-- A total over smaller amounts is smaller. -/
theorem total_le_of_le {amount' : α → ℚ} (h : ∀ e ∈ entries, p e → amount e ≤ amount' e) :
    total amount p entries ≤ total amount' p entries := by
  apply List.sum_le_sum
  intro e he
  obtain ⟨hmem, hp⟩ := List.mem_filter.mp he
  exact h e hmem hp

/-- An entry that occurs once adds to the total what its own amount gains. -/
theorem total_le_add {amount' : α → ℚ} (hn : entries.Nodup) {e : α} {extra : ℚ} (hextra : 0 ≤ extra)
    (he : amount' e ≤ amount e + extra) (h : ∀ x ∈ entries, x ≠ e → amount' x ≤ amount x) :
    total amount' p entries ≤ total amount p entries + extra := by
  induction entries with
  | nil => simpa using hextra
  | cons x entries ih =>
    obtain ⟨hx, hn⟩ := List.nodup_cons.mp hn
    have htail := fun y hy => h y (List.mem_cons_of_mem x hy)
    rw [total_cons, total_cons]
    by_cases hxe : x = e
    · subst hxe
      have hrest : total amount' p entries ≤ total amount p entries := by
        apply total_le_of_le
        intro y hy _
        exact htail y hy fun heq => hx (heq ▸ hy)
      split_ifs <;> linarith
    · have hrest := ih hn htail
      have hhead := h x List.mem_cons_self hxe
      split_ifs <;> linarith

/-- Keys that occur once and cover all entries split a total. -/
theorem total_eq_sum {κ : Type} [DecidableEq κ] (key : α → κ) {keys : List κ} (hn : keys.Nodup)
    (h : ∀ e ∈ entries, p e → key e ∈ keys) (hp : ∀ e ∈ entries, key e ∈ keys → p e) :
    total amount p entries
      = (keys.map fun k => total amount (fun e => decide (key e = k)) entries).sum := by
  induction entries with
  | nil => simp
  | cons e entries ih =>
    have htail := ih (fun x hx => h x (List.mem_cons_of_mem _ hx))
      fun x hx => hp x (List.mem_cons_of_mem _ hx)
    have hone : (keys.map fun k => if decide (key e = k) then amount e else 0).sum
        = if p e then amount e else 0 := by
      simp only [decide_eq_true_eq, eq_comm (a := key e)]
      rw [List.sum_map_ite_eq]
      by_cases he : p e
      · rw [if_pos he, List.count_eq_one_of_mem hn (h e List.mem_cons_self he)]
        simp
      · have hmem : key e ∉ keys := fun hk => he (hp e List.mem_cons_self hk)
        rw [if_neg he, List.count_eq_zero_of_not_mem hmem]
        simp
    simp only [total_cons]
    rw [htail, ← hone, ← List.sum_map_add]

theorem total_perm {more : List α} (h : entries.Perm more) :
    total amount p entries = total amount p more := ((h.filter p).map amount).sum_eq

section Dict

variable {κ : Type} {d : Dict κ ℚ} {k : κ} {v : ℚ}

/-- The sum of the amounts that a dictionary holds. -/
def held (d : Dict κ ℚ) : ℚ := total (fun e : Sigma fun _ : κ => ℚ => e.2) (fun _ => true) d.entries

@[simp] theorem held_empty : held (∅ : Dict κ ℚ) = 0 := rfl

variable [DecidableEq κ]

theorem held_setItem (h : k ∉ d) : held (Dict.setItem d k v) = v + held d := by
  rw [held, Dict.entries_setItem h, total_cons, if_pos rfl, held]

theorem held_erase (h : d.lookup k = some v) : held d = v + held (AList.erase k d) := by
  have hpop : Dict.pop d k = some (v, AList.erase k d) := Dict.pop_eq_some.mpr ⟨h, rfl⟩
  rw [held, total_perm (Dict.pop_some hpop), total_cons, if_pos rfl, held]

end Dict

end GpuSharing.Ledger
