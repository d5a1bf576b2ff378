import Mathlib.Data.List.Basic

namespace GpuSharing.LastUse

variable {α : Type} {log xs ys : List α} {a b : α}

/-- The last use of `a` in the log comes before a use of `b`. -/
def Before (log : List α) (a b : α) : Prop :=
  ∃ l₁ l₂, log = l₁ ++ l₂ ∧ a ∈ l₁ ∧ a ∉ l₂ ∧ b ∈ l₂

/-- The elements have been used, the one whose last use is oldest first. -/
structure InOrder (log xs : List α) : Prop where
  used : ∀ x ∈ xs, x ∈ log
  pairwise : xs.Pairwise (Before log)

theorem Before.concat {x : α} (h : Before log a b) (hne : a ≠ x) : Before (log ++ [x]) a b := by
  obtain ⟨l₁, l₂, rfl, ha, hnot, hb⟩ := h
  refine ⟨l₁, l₂ ++ [x], List.append_assoc .., ha, ?_, List.mem_append_left _ hb⟩
  simp [hnot, hne]

theorem before_concat (ha : a ∈ log) (hne : a ≠ b) : Before (log ++ [b]) a b :=
  ⟨log, [b], rfl, ha, by simpa using hne, List.mem_singleton_self b⟩

namespace InOrder

theorem nil (log : List α) : InOrder log [] := ⟨by simp, List.Pairwise.nil⟩

theorem sublist (h : InOrder log ys) (hsub : xs.Sublist ys) : InOrder log xs :=
  ⟨fun x hx => h.used x (hsub.subset hx), h.pairwise.sublist hsub⟩

/-- An element that is not among them is used. -/
theorem use (h : InOrder log xs) (hb : b ∉ xs) : InOrder (log ++ [b]) xs where
  used x hx := List.mem_append_left _ (h.used x hx)
  pairwise := h.pairwise.imp_of_mem fun hx _ hbefore =>
    hbefore.concat (ne_of_mem_of_not_mem hx hb)

/-- An element that is used is the newest one. -/
theorem push (h : InOrder log xs) (hb : b ∉ xs) : InOrder (log ++ [b]) (xs ++ [b]) where
  used x hx := by
    rcases List.mem_append.mp hx with hx | hx
    · exact (h.use hb).used x hx
    · exact List.mem_append_right _ hx
  pairwise := by
    rw [List.pairwise_append]
    refine ⟨(h.use hb).pairwise, List.pairwise_singleton _ _, fun x hx y hy => ?_⟩
    rw [List.mem_singleton.mp hy]
    exact before_concat (h.used x hx) (ne_of_mem_of_not_mem hx hb)

theorem nodup (h : InOrder log xs) : xs.Nodup := by
  refine h.pairwise.imp ?_
  rintro a _ ⟨l₁, l₂, -, -, hnot, hin⟩ rfl
  exact hnot hin

/-- What is dropped from the front was last used before what stays. -/
theorem before_of_append (h : InOrder log (xs ++ ys)) (ha : a ∈ xs) (hb : b ∈ ys) :
    Before log a b := (List.pairwise_append.mp h.pairwise).2.2 a ha b hb

end InOrder

end GpuSharing.LastUse
