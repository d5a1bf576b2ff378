import Mathlib.Data.List.Basic

namespace GpuSharing.Transition

variable {σ ℓ : Type}

/-- Run a partial step function along a list of labels; `none` when one of them is not enabled. -/
def run (step : σ → ℓ → Option σ) : σ → List ℓ → Option σ
  | s, [] => some s
  | s, l :: ls => match step s l with
    | some t => run step t ls
    | none => none

/-- Every step of the run from `s` along `ls` meets `C`, a condition on the state before the
step and on its label. -/
def Along (step : σ → ℓ → Option σ) (C : σ → ℓ → Prop) : σ → List ℓ → Prop
  | _, [] => True
  | s, l :: ls => C s l ∧ match step s l with
    | some t => Along step C t ls
    | none => True

variable {step : σ → ℓ → Option σ} {C D : σ → ℓ → Prop}

theorem run_cons {s u : σ} {l : ℓ} {ls : List ℓ} :
    run step s (l :: ls) = some u ↔ ∃ t, step s l = some t ∧ run step t ls = some u := by
  cases h : step s l <;> simp [run, h]

theorem run_append {s u : σ} {ls ms : List ℓ} :
    run step s (ls ++ ms) = some u ↔ ∃ t, run step s ls = some t ∧ run step t ms = some u := by
  induction ls generalizing s with
  | nil => simp [run]
  | cons l ls ih =>
    simp only [List.cons_append, run_cons, ih]
    constructor
    · rintro ⟨t, ht, v, hv, hu⟩
      exact ⟨v, ⟨t, ht, hv⟩, hu⟩
    · rintro ⟨v, ⟨t, ht, hv⟩, hu⟩
      exact ⟨t, ht, v, hv, hu⟩

theorem along_cons {s t : σ} {l : ℓ} {ls : List ℓ} (ht : step s l = some t) :
    Along step C s (l :: ls) ↔ C s l ∧ Along step C t ls := by
  simp [Along, ht]

theorem along_singleton {s : σ} {l : ℓ} : Along step C s [l] ↔ C s l := by
  cases ht : step s l <;> simp [Along, ht]

theorem along_append {s t : σ} {ls ms : List ℓ} (hrun : run step s ls = some t) :
    Along step C s (ls ++ ms) ↔ Along step C s ls ∧ Along step C t ms := by
  induction ls generalizing s with
  | nil =>
    cases hrun
    exact (and_iff_right trivial).symm
  | cons l ls ih =>
    obtain ⟨u, hu, hrun⟩ := run_cons.mp hrun
    rw [List.cons_append, along_cons hu, along_cons hu, ih hrun, and_assoc]

theorem along_mono (hCD : ∀ s l, C s l → D s l) {s : σ} {ls : List ℓ}
    (h : Along step C s ls) : Along step D s ls := by
  induction ls generalizing s with
  | nil => trivial
  | cons l ls ih =>
    refine ⟨hCD _ _ h.1, ?_⟩
    cases ht : step s l with
    | none => trivial
    | some t => exact ih ((along_cons ht).mp h).2

theorem along_and {s : σ} {ls : List ℓ} :
    Along step (fun s l => C s l ∧ D s l) s ls ↔ Along step C s ls ∧ Along step D s ls := by
  induction ls generalizing s with
  | nil => simp [Along]
  | cons l ls ih =>
    cases ht : step s l with
    | none => simp [Along, ht]
    | some t =>
      simp only [along_cons ht, ih]
      tauto

theorem along_of_mem {ls : List ℓ} (hC : ∀ l ∈ ls, ∀ s, C s l) (s : σ) : Along step C s ls := by
  induction ls generalizing s with
  | nil => trivial
  | cons l ls ih =>
    refine ⟨hC l List.mem_cons_self s, ?_⟩
    cases step s l with
    | none => trivial
    | some t => exact ih (fun l hl => hC l (List.mem_cons_of_mem _ hl)) t

/-- Every step of a run is enabled. -/
theorem along_enabled {s u : σ} {ls : List ℓ} (hrun : run step s ls = some u) :
    Along step (fun s l => ∃ t, step s l = some t) s ls := by
  induction ls generalizing s with
  | nil => trivial
  | cons l ls ih =>
    obtain ⟨t, ht, hrun⟩ := run_cons.mp hrun
    exact (along_cons ht).mpr ⟨⟨t, ht⟩, ih hrun⟩

/-- Two conditions agree along a run when they agree in every state that meets an invariant kept by
the steps that meet the second one. `E` holds all along the run. -/
theorem along_congr {E : σ → ℓ → Prop} {I : σ → Prop}
    (hiff : ∀ s l, I s → E s l → (C s l ↔ D s l))
    (hstep : ∀ s l t, I s → E s l → D s l → step s l = some t → I t)
    {s : σ} {ls : List ℓ} (hs : I s) (hE : Along step E s ls) :
    Along step C s ls ↔ Along step D s ls := by
  induction ls generalizing s with
  | nil => exact Iff.rfl
  | cons l ls ih =>
    cases ht : step s l with
    | none => simp [Along, ht, hiff s l hs hE.1]
    | some t =>
      rw [along_cons ht] at hE ⊢
      rw [along_cons ht, hiff s l hs hE.1]
      exact and_congr_right fun hD => ih (hstep s l t hs hE.1 hD ht) hE.2

/-- A property that a state has whenever its successors have it holds all along a run at whose end it
holds. -/
theorem along_of_last {Q : σ → Prop} (hback : ∀ s l t, step s l = some t → Q t → Q s)
    {s u : σ} {ls : List ℓ} (hrun : run step s ls = some u) (hq : Q u) :
    Q s ∧ Along step (fun s l => ∀ t, step s l = some t → Q t) s ls := by
  induction ls generalizing s with
  | nil =>
    cases hrun
    exact ⟨hq, trivial⟩
  | cons l ls ih =>
    obtain ⟨t, ht, hrun⟩ := run_cons.mp hrun
    obtain ⟨hqt, hrest⟩ := ih hrun
    refine ⟨hback s l t ht hqt, (along_cons ht).mpr ⟨fun v hv => ?_, hrest⟩⟩
    rw [ht] at hv
    cases hv
    exact hqt

/-- A property of states holds after every step of a run exactly when the steps meet a condition,
if one step from a state that has the property keeps it exactly then. -/
theorem along_next_iff {E : σ → ℓ → Prop} {I Q : σ → Prop}
    (hiff : ∀ s l t, I s → Q s → E s l → step s l = some t → (Q t ↔ D s l))
    (hstep : ∀ s l t, I s → E s l → step s l = some t → I t)
    {s u : σ} {ls : List ℓ} (hs : I s) (hq : Q s) (hE : Along step E s ls)
    (hrun : run step s ls = some u) :
    Along step (fun s l => ∀ t, step s l = some t → Q t) s ls ↔ Along step D s ls := by
  induction ls generalizing s with
  | nil => exact Iff.rfl
  | cons l ls ih =>
    obtain ⟨t, ht, hrun⟩ := run_cons.mp hrun
    obtain ⟨he, hE⟩ := (along_cons ht).mp hE
    have hnext : (∀ v, step s l = some v → Q v) ↔ Q t := by simp [ht]
    have hD := hiff s l t hs hq he ht
    rw [along_cons ht, along_cons ht, hnext, hD]
    exact and_congr_right fun hd => ih (hstep s l t hs he ht) (hD.mpr hd) hE hrun

/-- A condition met all along a run implies another one, by an invariant that it keeps. -/
theorem along_imp {I : σ → Prop} (himp : ∀ s l, I s → C s l → D s l)
    (hstep : ∀ s l t, I s → C s l → step s l = some t → I t) {s : σ} {ls : List ℓ} (hs : I s)
    (hC : Along step C s ls) : Along step D s ls := by
  induction ls generalizing s with
  | nil => trivial
  | cons l ls ih =>
    refine ⟨himp s l hs hC.1, ?_⟩
    cases ht : step s l with
    | none => trivial
    | some t => exact ih (hstep s l t hs hC.1 ht) ((along_cons ht).mp hC).2

/-- A condition that an invariant implies is met all along every run. -/
theorem along_of_invariant {I : σ → Prop} (hI : ∀ s l, I s → C s l)
    (hstep : ∀ s l t, I s → step s l = some t → I t) {s : σ} {ls : List ℓ} (hs : I s) :
    Along step C s ls :=
  along_imp (fun s l h _ => hI s l h) (fun s l t h _ ht => hstep s l t h ht) hs
    (along_of_mem (C := fun _ _ => True) (fun _ _ _ => trivial) s)

/-- The induction over a run: an invariant kept by every step that meets `C` holds at the end of
every run all of whose steps meet `C`. -/
theorem run_invariant_along {I : σ → Prop}
    (hstep : ∀ s l t, I s → C s l → step s l = some t → I t)
    {s t : σ} {ls : List ℓ} (hs : I s) (hC : Along step C s ls)
    (hrun : run step s ls = some t) : I t := by
  induction ls generalizing s with
  | nil =>
    cases hrun
    exact hs
  | cons l ls ih =>
    obtain ⟨u, hu, hrun⟩ := run_cons.mp hrun
    obtain ⟨hc, hC⟩ := (along_cons hu).mp hC
    exact ih (hstep s l u hs hc hu) hC hrun

theorem run_invariant {I : σ → Prop} (hstep : ∀ s l t, I s → step s l = some t → I t)
    {s t : σ} {ls : List ℓ} (hs : I s) (hrun : run step s ls = some t) : I t :=
  run_invariant_along (C := fun _ _ => True) (fun s l t h _ ht => hstep s l t h ht) hs
    (along_of_mem (fun _ _ _ => trivial) _) hrun

/-- When a step that meets `D` keeps a state good, one that does not makes it bad, and bad states stay
bad, then a run from a good state ends in a good one exactly when all its steps meet `D`. -/
theorem along_or_bad {G B : σ → Prop}
    (hgood : ∀ s l t, G s → D s l → step s l = some t → G t)
    (hbad : ∀ s l t, G s → ¬D s l → step s l = some t → B t)
    (hkeep : ∀ s l t, B s → step s l = some t → B t)
    {s u : σ} {ls : List ℓ} (hs : G s) (hrun : run step s ls = some u) :
    Along step D s ls ∧ G u ∨ ¬Along step D s ls ∧ B u := by
  induction ls generalizing s with
  | nil =>
    cases hrun
    exact .inl ⟨trivial, hs⟩
  | cons l ls ih =>
    obtain ⟨t, ht, hrun⟩ := run_cons.mp hrun
    rw [along_cons ht]
    by_cases hd : D s l
    · rcases ih (hgood s l t hs hd ht) hrun with ⟨hall, hu⟩ | ⟨hnot, hu⟩
      · exact .inl ⟨⟨hd, hall⟩, hu⟩
      · exact .inr ⟨fun h => hnot h.2, hu⟩
    · refine .inr ⟨fun h => hd h.1, ?_⟩
      exact run_invariant hkeep (hbad s l t hs hd ht) hrun

instance decidableAlong [∀ s l, Decidable (C s l)] : ∀ s ls, Decidable (Along step C s ls)
  | _, [] => .isTrue trivial
  | s, l :: ls =>
    have _tail : Decidable (match step s l with
        | some t => Along step C t ls
        | none => True) :=
      match step s l with
      | some t => decidableAlong t ls
      | none => .isTrue trivial
    inferInstanceAs (Decidable (_ ∧ _))

end GpuSharing.Transition
