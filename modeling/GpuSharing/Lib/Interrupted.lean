import Mathlib.Data.List.Basic

namespace GpuSharing.Interrupted

variable {σ α : Type}

/-- Where a step raises: with its effect still to come, or already made. -/
inductive Fault
  | before
  | after
  deriving DecidableEq, Repr

/-- All states on the way, the last of them, and whether a step has raised. -/
structure Outcome (σ : Type) where
  seen : List σ
  last : σ
  raised : Bool

/-- Steps one after another, until one raises. -/
def run (effect : α → σ → σ) (fault : α → Option Fault) : List α → σ → Outcome σ
  | [], s => ⟨[s], s, false⟩
  | a :: as, s => match fault a with
    | some .before => ⟨[s], s, true⟩
    | some .after => ⟨[s, effect a s], effect a s, true⟩
    | none =>
      let o := run effect fault as (effect a s)
      ⟨s :: o.seen, o.last, o.raised⟩

variable {effect : α → σ → σ} {fault : α → Option Fault} {as bs : List α} {s : σ}

theorem run_cons_none {a : α} (h : fault a = none) : run effect fault (a :: as) s =
    ⟨s :: (run effect fault as (effect a s)).seen, (run effect fault as (effect a s)).last,
      (run effect fault as (effect a s)).raised⟩ := by
  simp only [run, h]

theorem raised_iff : (run effect fault as s).raised = true ↔ ∃ a ∈ as, fault a ≠ none := by
  induction as generalizing s with
  | nil => simp [run]
  | cons a as ih =>
    cases h : fault a with
    | none =>
      rw [run_cons_none h]
      simp [ih, h]
    | some f => cases f <;> simp [run, h]

theorem last_mem_seen : (run effect fault as s).last ∈ (run effect fault as s).seen := by
  induction as generalizing s with
  | nil => exact List.mem_singleton_self s
  | cons a as ih =>
    cases h : fault a with
    | none =>
      rw [run_cons_none h]
      exact List.mem_cons_of_mem _ ih
    | some f => cases f <;> simp [run, h]

/-- A property that every step keeps holds in all states seen. -/
theorem run_invariant {I : σ → Prop} (hstep : ∀ a ∈ as, ∀ t, I t → I (effect a t)) (hs : I s) :
    ∀ t ∈ (run effect fault as s).seen, I t := by
  induction as generalizing s with
  | nil => simpa [run] using hs
  | cons a as ih =>
    obtain ⟨hhead, hrest⟩ := List.forall_mem_cons.mp hstep
    cases h : fault a with
    | none =>
      rw [run_cons_none h]
      exact List.forall_mem_cons.mpr ⟨hs, ih hrest (hhead s hs)⟩
    | some f =>
      cases f with
      | before => simpa [run, h] using hs
      | after => simpa [run, h] using ⟨hs, hhead s hs⟩

theorem start_mem_seen : s ∈ (run effect fault as s).seen := by
  cases as with
  | nil => exact List.mem_singleton_self s
  | cons a as =>
    cases h : fault a with
    | none =>
      rw [run_cons_none h]
      exact List.mem_cons_self
    | some f => cases f <;> simp [run, h]

/-- Steps that do not raise are followed by the other ones. -/
theorem run_append (effect : α → σ → σ) (bs : List α) (s : σ) (h : ∀ a ∈ as, fault a = none) :
    let o := run effect fault as s
    let u := run effect fault bs o.last
    (run effect fault (as ++ bs) s).last = u.last ∧
      (run effect fault (as ++ bs) s).raised = u.raised ∧
      ∀ t, t ∈ (run effect fault (as ++ bs) s).seen ↔ t ∈ o.seen ∨ t ∈ u.seen := by
  induction as generalizing s with
  | nil =>
    refine ⟨rfl, rfl, fun t => ?_⟩
    have hstart : s ∈ (run effect fault bs s).seen := start_mem_seen
    simp only [List.nil_append, run, List.mem_singleton]
    constructor
    · exact .inr
    · rintro (rfl | ht)
      · exact hstart
      · exact ht
  | cons a as ih =>
    obtain ⟨hhead, hrest⟩ := List.forall_mem_cons.mp h
    obtain ⟨hlast, hraised, hseen⟩ := ih (effect a s) hrest
    rw [List.cons_append, run_cons_none hhead, run_cons_none hhead]
    refine ⟨hlast, hraised, fun t => ?_⟩
    rw [List.mem_cons, List.mem_cons, hseen, or_assoc]

/-- A step that raises hides the ones behind it. -/
theorem run_append_raised (h : ∃ a ∈ as, fault a ≠ none) :
    run effect fault (as ++ bs) s = run effect fault as s := by
  induction as generalizing s with
  | nil =>
    obtain ⟨a, ha, _⟩ := h
    cases ha
  | cons a as ih =>
    cases hfault : fault a with
    | none =>
      obtain ⟨b, hb, hraises⟩ := h
      have htail : b ∈ as := by
        rcases List.mem_cons.mp hb with rfl | hb
        · exact absurd hfault hraises
        · exact hb
      rw [List.cons_append, run_cons_none hfault, run_cons_none hfault, ih ⟨b, htail, hraises⟩]
    | some f => cases f <;> simp [run, hfault]

end GpuSharing.Interrupted
