import GpuSharing.Lib.Transition

namespace GpuSharing.Sardeenz.BenchmarkRuns

open Transition

inductive BenchmarkStatus
  | pending
  | running
  | completed
  | failed
  | cancelled
  deriving DecidableEq, Repr

/-- The columns of a run's row that the runner and `cancelBenchmark` both write, besides times and
counts. -/
structure Row where
  status : BenchmarkStatus
  errorMessage : Option String
  deriving DecidableEq, Repr

/-- What `startBenchmark` reads of the run and of its scenarios. -/
structure BenchmarkConfig where
  scenarios : Nat
  hasWarmup : Bool
  isolated : Bool
  deriving DecidableEq, Repr

/-- A status that the runner writes. -/
inductive RunnerWrite
  | running
  | completed
  | failed (errorMessage : String)
  deriving DecidableEq, Repr

/-- Where `startBenchmark` awaits: its first `getRunWithDetails`, an `updateRunStatus` that the
database has carried out or not, the warm-ups, the measured phases (of the scenarios left, when they
run one by one), or the second `getRunWithDetails`. -/
inductive Pc
  | loading
  | writing (w : RunnerWrite) (applied : Bool)
  | warmup
  | measuring (left : Nat)
  | reloading
  | done
  deriving DecidableEq, Repr

/-- A run with its row, as long as it is not deleted. `registered` says whether its controller is in
`runningBenchmarks`, and `cancels` counts the status writes of `cancelBenchmark` that are still to be
carried out. -/
structure Benchmark where
  row : Option Row
  pc : Pc
  registered : Bool
  aborted : Bool
  cancels : Nat
  deriving DecidableEq, Repr

/-- `applies` and `cancelApplies` are the database's; `resumes`, `warmedUp`, `measured` and `reloads`
end what the runner awaits, and `throws` rejects it. `warmedUp` has the errors of the warm-ups that
failed, and `delete` is the deletion of the row. -/
inductive BenchmarkAct
  | loads
  | applies
  | resumes
  | warmedUp (errors : List String)
  | measured
  | reloads
  | throws (errorMessage : String)
  | cancel
  | cancelApplies
  | cancelFails
  | delete
  deriving DecidableEq, Repr

def RunnerWrite.apply : RunnerWrite → Row → Row
  | .running, row => { row with status := .running }
  | .completed, row => { row with status := .completed }
  | .failed errorMessage, _ => ⟨.failed, some errorMessage⟩

namespace Benchmark

variable (cfg : BenchmarkConfig)

/-- A run that was just created, and for which `startBenchmark` is called. -/
def created : Benchmark where
  row := some ⟨.pending, none⟩
  pc := .loading
  registered := false
  aborted := false
  cancels := 0

/-- The `finally` clause. -/
def finish (s : Benchmark) : Benchmark := { s with pc := .done, registered := false }

/-- The `catch` clause up to its write. -/
def fail (s : Benchmark) (errorMessage : String) : Benchmark :=
  { s with pc := .writing (.failed errorMessage) false }

/-- The measured phases, of so many scenarios that are left. -/
def measure (s : Benchmark) (left : Nat) : Benchmark :=
  if cfg.isolated then
    { s with pc := if left = 0 ∨ s.aborted = true then .reloading else .measuring left }
  else { s with pc := .measuring left }

/-- What follows the write of a status. -/
def afterWrite (s : Benchmark) : RunnerWrite → Benchmark
  | .running => if cfg.hasWarmup then { s with pc := .warmup } else s.measure cfg cfg.scenarios
  | .completed | .failed _ => s.finish

def afterWarmup (s : Benchmark) (errors : List String) : Benchmark :=
  if errors ≠ [] then s.fail ("Warmup failed: " ++ "; ".intercalate errors)
  else if s.aborted then s.fail "Benchmark cancelled during warmup"
  else s.measure cfg cfg.scenarios

def step (s : Benchmark) : BenchmarkAct → Option Benchmark
  | .loads => match s.pc with
    | .loading =>
      if s.row.any (·.status = .pending) then
        some { s with pc := .writing .running false, registered := true }
      else some { s with pc := .done }
    | _ => none
  | .applies => match s.pc with
    | .writing w false => some { s with pc := .writing w true, row := s.row.map w.apply }
    | _ => none
  | .resumes => match s.pc with
    | .writing w true => some (s.afterWrite cfg w)
    | _ => none
  | .warmedUp errors => match s.pc with
    | .warmup => some (s.afterWarmup cfg errors)
    | _ => none
  | .measured => match s.pc with
    | .measuring left =>
      some (if cfg.isolated then s.measure cfg (left - 1) else { s with pc := .reloading })
    | _ => none
  | .reloads => match s.pc with
    | .reloading =>
      some (if s.row.isSome then { s with pc := .writing .completed false } else s.finish)
    | _ => none
  | .throws errorMessage => match s.pc with
    | .loading => some { s with pc := .done }
    | .writing (.failed _) _ => some s.finish
    | .done => none
    | _ => some (s.fail errorMessage)
  | .cancel =>
    if s.registered then
      some { s with aborted := true, registered := false, cancels := s.cancels + 1 }
    else some s
  | .cancelApplies =>
    if 0 < s.cancels then
      some { s with
        cancels := s.cancels - 1
        row := s.row.map fun _ => ⟨.cancelled, some "Cancelled by user"⟩ }
    else none
  | .cancelFails => if 0 < s.cancels then some { s with cancels := s.cancels - 1 } else none
  | .delete => some { s with row := none }

/-- The row has been deleted, or its status is that of `cancelBenchmark`. -/
def StaysCancelled (s : Benchmark) : Prop := ∀ row, s.row = some row → row.status = .cancelled

/-- A status `cancelled` that the step writes is there in every continuation of the run, until the row
is deleted. -/
def Lasts (s : Benchmark) : BenchmarkAct → Prop
  | .cancelApplies => ∀ t more u, s.step cfg .cancelApplies = some t →
      run (step cfg) t more = some u → u.StaysCancelled
  | _ => True

/-- The runner has no status left to write. -/
def Pc.Last : Pc → Prop
  | .done => True
  | .writing (.failed _) true => True
  | _ => False

instance : DecidablePred Pc.Last
  | .done => .isTrue trivial
  | .writing (.failed _) true => .isTrue trivial
  | .writing (.failed _) false | .writing .running _ | .writing .completed _ | .loading | .warmup
    | .measuring _ | .reloading => .isFalse id

/-- A status `cancelled` that is written for a row that is there comes after the runner's last one. -/
def AfterLast (s : Benchmark) : BenchmarkAct → Prop
  | .cancelApplies => s.row ≠ none → Pc.Last s.pc
  | _ => True

instance (s : Benchmark) : DecidablePred s.AfterLast
  | .cancelApplies => inferInstanceAs (Decidable (s.row ≠ none → Pc.Last s.pc))
  | .loads | .applies | .resumes | .warmedUp _ | .measured | .reloads | .throws _ | .cancel
    | .cancelFails | .delete => .isTrue trivial

section

variable {cfg : BenchmarkConfig} {s t : Benchmark} {a : BenchmarkAct}

/-- `cancelBenchmark` finds a run only after its runner has registered it. -/
structure Registered (s : Benchmark) : Prop where
  registered : s.registered = true → s.pc ≠ .loading
  cancels : 0 < s.cancels → s.pc ≠ .loading

theorem registered_of_pc (h : s.pc ≠ .loading) : s.Registered := ⟨fun _ => h, fun _ => h⟩

theorem pc_measure {left : Nat} : (s.measure cfg left).pc = .reloading ∨
    (s.measure cfg left).pc = .measuring left := by
  unfold measure
  split
  · dsimp only
    split
    · exact .inl rfl
    · exact .inr rfl
  · exact .inr rfl

theorem measure_ne_loading {left : Nat} : (s.measure cfg left).pc ≠ .loading := by
  have hpc : (s.measure cfg left).pc = _ ∨ _ := pc_measure
  rcases hpc with h | h <;> simp [h]

theorem Registered.step (h : s.Registered) (ht : s.step cfg a = some t) : t.Registered := by
  cases a with
  | cancel =>
    simp only [Benchmark.step] at ht
    split at ht
    · rename_i hreg
      cases ht
      exact registered_of_pc (h.registered hreg)
    · cases ht
      exact h
  | cancelApplies =>
    simp only [Benchmark.step, Option.ite_none_right_eq_some] at ht
    obtain ⟨hpos, heq⟩ := ht
    cases heq
    exact registered_of_pc (h.cancels hpos)
  | cancelFails =>
    simp only [Benchmark.step, Option.ite_none_right_eq_some] at ht
    obtain ⟨hpos, heq⟩ := ht
    cases heq
    exact registered_of_pc (h.cancels hpos)
  | delete =>
    cases ht
    exact ⟨h.registered, h.cancels⟩
  | loads =>
    refine registered_of_pc ?_
    simp only [Benchmark.step] at ht
    split at ht
    · split at ht <;> cases ht <;> simp
    · cases ht
  | applies =>
    refine registered_of_pc ?_
    simp only [Benchmark.step] at ht
    split at ht <;> cases ht
    simp
  | resumes =>
    refine registered_of_pc ?_
    simp only [Benchmark.step] at ht
    split at ht
    · rename_i w _
      cases ht
      cases w with
      | running =>
        simp only [afterWrite]
        split
        · simp
        · exact measure_ne_loading
      | completed => simp [afterWrite, finish]
      | failed errorMessage => simp [afterWrite, finish]
    · cases ht
  | warmedUp errors =>
    refine registered_of_pc ?_
    simp only [Benchmark.step] at ht
    split at ht
    · cases ht
      simp only [afterWarmup]
      split
      · simp [fail]
      · split
        · simp [fail]
        · exact measure_ne_loading
    · cases ht
  | measured =>
    refine registered_of_pc ?_
    simp only [Benchmark.step] at ht
    split at ht
    · cases ht
      split
      · exact measure_ne_loading
      · simp
    · cases ht
  | reloads =>
    refine registered_of_pc ?_
    simp only [Benchmark.step] at ht
    split at ht
    · cases ht
      split <;> simp [finish]
    · cases ht
  | throws errorMessage =>
    refine registered_of_pc ?_
    simp only [Benchmark.step] at ht
    split at ht <;> cases ht <;> simp [finish, fail]

@[simp] theorem row_measure {left : Nat} : (s.measure cfg left).row = s.row := by
  unfold measure
  split <;> rfl

theorem row_afterWrite {w : RunnerWrite} : (s.afterWrite cfg w).row = s.row := by
  cases w with
  | running =>
    simp only [afterWrite]
    split <;> simp
  | completed | failed errorMessage => rfl

theorem row_afterWarmup {errors : List String} : (s.afterWarmup cfg errors).row = s.row := by
  simp only [afterWarmup]
  split
  · rfl
  · split <;> simp [fail]

/-- The row changes by a write of the runner, by one of `cancelBenchmark`, and by its deletion. -/
theorem row_step (ht : s.step cfg a = some t) : t.row = s.row ∨
    (∃ w, a = .applies ∧ s.pc = .writing w false ∧ t.row = s.row.map w.apply) ∨
    a = .cancelApplies ∧ t.row = s.row.map (fun _ => ⟨.cancelled, some "Cancelled by user"⟩) ∨
    a = .delete ∧ t.row = none := by
  cases a with
  | applies =>
    simp only [Benchmark.step] at ht
    split at ht <;> cases ht
    exact .inr (.inl ⟨_, rfl, ‹_›, rfl⟩)
  | cancelApplies =>
    simp only [Benchmark.step, Option.ite_none_right_eq_some] at ht
    obtain ⟨-, heq⟩ := ht
    cases heq
    exact .inr (.inr (.inl ⟨rfl, rfl⟩))
  | delete =>
    cases ht
    exact .inr (.inr (.inr ⟨rfl, rfl⟩))
  | loads =>
    simp only [Benchmark.step] at ht
    split at ht
    · split at ht <;> cases ht <;> exact .inl rfl
    · cases ht
  | resumes =>
    simp only [Benchmark.step] at ht
    split at ht <;> cases ht
    exact .inl row_afterWrite
  | warmedUp errors =>
    simp only [Benchmark.step] at ht
    split at ht <;> cases ht
    exact .inl row_afterWarmup
  | measured =>
    simp only [Benchmark.step] at ht
    split at ht <;> cases ht
    split <;> simp
  | reloads =>
    simp only [Benchmark.step] at ht
    split at ht <;> cases ht
    split <;> simp [finish]
  | throws errorMessage =>
    simp only [Benchmark.step] at ht
    split at ht <;> cases ht <;> exact .inl rfl
  | cancel =>
    simp only [Benchmark.step] at ht
    split at ht <;> cases ht <;> exact .inl rfl
  | cancelFails =>
    simp only [Benchmark.step, Option.ite_none_right_eq_some] at ht
    obtain ⟨-, heq⟩ := ht
    cases heq
    exact .inl rfl

/-- A deleted row never comes back. -/
theorem deleted_step (h : s.row = none) (ht : s.step cfg a = some t) : t.row = none := by
  rcases row_step ht with hsame | ⟨w, -, -, hrow⟩ | ⟨-, hrow⟩ | ⟨-, hrow⟩
  · rw [hsame, h]
  · rw [hrow, h, Option.map_none]
  · rw [hrow, h, Option.map_none]
  · exact hrow

theorem pc_of_last (h : Pc.Last s.pc) :
    s.pc = .done ∨ ∃ errorMessage, s.pc = .writing (.failed errorMessage) true := by
  cases hpc : s.pc with
  | done => exact .inl rfl
  | writing w applied => cases w <;> cases applied <;> simp_all [Pc.Last]
  | loading | warmup | measuring left | reloading => simp [hpc, Pc.Last] at h

theorem last_pc_step (h : Pc.Last s.pc) (ht : s.step cfg a = some t) : Pc.Last t.pc := by
  have hpc := pc_of_last h
  cases a with
  | cancel =>
    simp only [Benchmark.step] at ht
    split at ht <;> cases ht <;> exact h
  | cancelApplies | cancelFails =>
    simp only [Benchmark.step, Option.ite_none_right_eq_some] at ht
    obtain ⟨-, heq⟩ := ht
    cases heq
    exact h
  | delete =>
    cases ht
    exact h
  | loads | applies | warmedUp errors | measured | reloads =>
    rcases hpc with hpc | ⟨errorMessage, hpc⟩ <;> simp [Benchmark.step, hpc] at ht
  | resumes | throws text =>
    rcases hpc with hpc | ⟨errorMessage, hpc⟩
    · simp [Benchmark.step, hpc] at ht
    · simp only [Benchmark.step, hpc, afterWrite, Option.some.injEq] at ht
      cases ht
      trivial

/-- When the runner has no status left to write, what it still does keeps the row as it is. -/
theorem last_step (h : Pc.Last s.pc ∧ s.StaysCancelled) (ht : s.step cfg a = some t) :
    Pc.Last t.pc ∧ t.StaysCancelled := by
  obtain ⟨hlast, hcancelled⟩ := h
  refine ⟨last_pc_step hlast ht, fun row hr => ?_⟩
  rcases row_step ht with hsame | ⟨w, -, hpc, -⟩ | ⟨-, hrow⟩ | ⟨-, hrow⟩
  · exact hcancelled row (hsame ▸ hr)
  · rcases pc_of_last hlast with hdone | ⟨errorMessage, hfailed⟩
    · rw [hpc] at hdone
      cases hdone
    · rw [hpc] at hfailed
      cases hfailed
  · rw [hrow] at hr
    obtain ⟨_, -, rfl⟩ := Option.map_eq_some_iff.mp hr
    rfl
  · rw [hrow] at hr
    cases hr

variable (cfg) in
/-- A runner that has not written its last status may still write one: the one that it is writing, or
`failed` when what it awaits is rejected. -/
theorem overwritten (hloading : s.pc ≠ .loading) (hlast : ¬Pc.Last s.pc) {row : Row}
    (hrow : s.row = some row) :
    ∃ more u, run (step cfg) s more = some u ∧ ¬u.StaysCancelled := by
  have hfails : ∀ text, s.step cfg (.throws text) = some (s.fail text) →
      ∃ more u, run (step cfg) s more = some u ∧ ¬u.StaysCancelled := by
    intro text hthrow
    refine ⟨[.throws text, .applies], _,
      run_cons.mpr ⟨_, hthrow, run_cons.mpr ⟨_, rfl, rfl⟩⟩, fun hstays => ?_⟩
    have := hstays _ (congrArg (Option.map _) hrow)
    cases this
  cases hpc : s.pc with
  | loading => exact absurd hpc hloading
  | done => simp [hpc, Pc.Last] at hlast
  | warmup | measuring left | reloading =>
    exact hfails "connection lost" (by simp only [Benchmark.step, hpc])
  | writing w applied =>
    cases applied with
    | false =>
      have hstep : s.step cfg .applies =
          some { s with pc := .writing w true, row := s.row.map w.apply } := by
        simp only [Benchmark.step, hpc]
      refine ⟨[.applies], _, run_cons.mpr ⟨_, hstep, rfl⟩, fun hstays => ?_⟩
      have := hstays _ (congrArg (Option.map _) hrow)
      cases w <;> cases this
    | true =>
      cases w with
      | failed errorMessage => simp [hpc, Pc.Last] at hlast
      | running | completed =>
        exact hfails "connection lost" (by simp only [Benchmark.step, hpc])

theorem Registered.lasts_iff (h : s.Registered) (ha : ∃ t, s.step cfg a = some t) :
    s.Lasts cfg a ↔ s.AfterLast a := by
  cases a with
  | cancelApplies =>
    obtain ⟨t, ht⟩ := ha
    have heq := ht
    simp only [Benchmark.step, Option.ite_none_right_eq_some] at heq
    obtain ⟨hpos, heq⟩ := heq
    simp only [Lasts, AfterLast]
    constructor
    · intro hlasts hrow
      by_contra hlast
      obtain ⟨row, hrow⟩ := Option.ne_none_iff_exists'.mp hrow
      have hrowt : t.row = some ⟨.cancelled, some "Cancelled by user"⟩ := by
        cases heq
        simp [hrow]
      have hpct : t.pc = s.pc := by
        cases heq
        rfl
      obtain ⟨more, u, hrun, hbad⟩ :=
        overwritten cfg (hpct ▸ h.cancels hpos) (hpct ▸ hlast) hrowt
      exact hbad (hlasts t more u ht hrun)
    · intro hlast t' more u ht' hrun
      rw [ht] at ht'
      cases ht'
      by_cases hrow : s.row = none
      · have hgone : t.row = none := by
          cases heq
          simp [hrow]
        have hend := run_invariant (I := fun s => s.row = none)
          (fun _ _ _ hs hstep => deleted_step hs hstep) hgone hrun
        intro row hr
        rw [hend] at hr
        cases hr
      · have hstart : Pc.Last t.pc ∧ t.StaysCancelled := by
          cases heq
          refine ⟨hlast hrow, fun row hr => ?_⟩
          obtain ⟨_, -, rfl⟩ := Option.map_eq_some_iff.mp hr
          rfl
        exact (run_invariant (fun _ _ _ hs hstep => last_step hs hstep) hstart hrun).2
  | loads | applies | resumes | warmedUp errors | measured | reloads | throws errorMessage | cancel
    | cancelFails | delete => exact Iff.rfl

end

/-- In every run, a status `cancelled` that is written lasts in every continuation exactly when it is
written after the runner's last status. -/
theorem cancelled_lasts_iff (cfg : BenchmarkConfig) (acts : List BenchmarkAct) {s : Benchmark}
    (hrun : run (step cfg) created acts = some s) :
    Along (step cfg) (Lasts cfg) created acts ↔ Along (step cfg) AfterLast created acts :=
  along_congr (I := Registered) (E := fun s a => ∃ t, s.step cfg a = some t)
    (fun _ _ h ha => h.lasts_iff ha) (fun _ _ _ h _ _ ht => h.step ht)
    ⟨by simp [created], by simp [created]⟩ (along_enabled hrun)

/-- A cancel whose write the database carries out only when the runner has finished. -/
theorem cancelled_lasts_late : Along (step ⟨1, true, false⟩) (Lasts ⟨1, true, false⟩) created
    [.loads, .applies, .resumes, .warmedUp [], .cancel, .measured, .reloads, .applies, .resumes,
      .cancelApplies] :=
  (cancelled_lasts_iff ⟨1, true, false⟩ _ rfl).mpr (by decide)

def cancelledRun : List BenchmarkAct := [.loads, .applies, .resumes, .cancel, .cancelApplies]

/-- A run that is cancelled while its requests are measured is completed nevertheless. -/
theorem cancelled_run_completed :
    ((run (step ⟨1, false, false⟩) created (cancelledRun ++ [.measured, .reloads, .applies])).map
      (·.row)) = some (some ⟨.completed, some "Cancelled by user"⟩) ∧
    ¬Along (step ⟨1, false, false⟩) (Lasts ⟨1, false, false⟩) created cancelledRun := by
  refine ⟨by decide, fun h => ?_⟩
  have hrun : run (step ⟨1, false, false⟩) created [.loads, .applies, .resumes, .cancel] =
    some ⟨some ⟨.running, none⟩, .measuring 1, false, true, 1⟩ := rfl
  have hcancel := along_singleton.mp ((along_append hrun).mp h).2
  have hstays := hcancel _ [.measured, .reloads, .applies] _ rfl rfl
  exact absurd (hstays _ rfl) (by decide)

end Benchmark

end GpuSharing.Sardeenz.BenchmarkRuns
