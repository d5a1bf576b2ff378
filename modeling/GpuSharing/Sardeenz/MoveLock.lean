import GpuSharing.Sardeenz.MoveStore

namespace GpuSharing.Sardeenz.MoveStore

variable {Id : Type}

/-- Whoever can still act on a move has the lock for it. -/
def LockHeld (s : MoveStore Id) : Prop :=
  ∀ m ∈ s.created, ¬(s.move m).quiet → s.activeMove = some m

/-- No executor and no cancel call is under way. -/
def Quiet (s : MoveStore Id) : Prop := ∀ m ∈ s.created, (s.move m).quiet

/-- Every call of `cancelMove` finds its move completing, completed, failed or pruned. -/
def CancelsIdle (s : MoveStore Id) : MoveAct Id → Prop
  | .event m (.cancel _) => ¬(s.recorded m ∧ (s.move m).phase.cancellable)
  | _ => True

instance [DecidableEq Id] (s : MoveStore Id) : Decidable (LockHeld s) := by
  unfold LockHeld
  infer_instance

instance (s : MoveStore Id) (a : MoveAct Id) : Decidable (CancelsIdle s a) := by
  unfold CancelsIdle
  split <;> infer_instance

/-- The phase that an executor has recorded where it stands. -/
def phaseAt : ExecutorPc → MoveOperationPhase → Bool
  | .launching, p => p = .spawning
  | .waiting, p => p = .spawning
  | .draining, p => p = .draining
  | .unloading, p => p = .completing
  | .rollingBack, p => !p.terminal
  | .finished, p => p.terminal

/-- A move that no cancel call has touched. -/
structure Undisturbed (recorded : Bool) (m : Move) : Prop where
  phase : phaseAt m.pc m.phase
  recorded : m.pc ≠ .finished → recorded
  noForces : m.forces = 0
  noReverts : m.reverts = 0

/-- The executors run one after the other, each under the lock. -/
structure Serial (s : MoveStore Id) : Prop where
  undisturbed : ∀ m ∈ s.created, Undisturbed (s.recorded m) (s.move m)
  lockHeld : LockHeld s

variable {s t : MoveStore Id} {a : MoveAct Id} {acts : List (MoveAct Id)} {m n : Id} {e e' : Move}
  {ev : MoveEvent} {recorded completes : Bool}

theorem Undisturbed.quiet_iff (h : Undisturbed recorded e) : e.quiet ↔ e.pc = .finished := by
  simp [Move.quiet, h.noForces, h.noReverts]

/-- At most one move is not quiet. -/
theorem LockHeld.quiet_of_ne (h : LockHeld s) (hm : m ∈ s.created) (hmove : ¬(s.move m).quiet)
    (hn : n ∈ s.created) (hne : n ≠ m) : (s.move n).quiet := by
  by_contra hquiet
  have hactive := h n hn hquiet
  rw [h m hm hmove] at hactive
  exact hne (Option.some.inj hactive).symm

theorem Undisturbed.of_quiet (h : Undisturbed recorded e) (hq : e.quiet)
    (other : Bool) : Undisturbed other e :=
  ⟨h.phase, fun hpc => absurd (h.quiet_iff.mp hq) hpc, h.noForces, h.noReverts⟩

theorem empty_serial : Serial (empty : MoveStore Id) := by
  constructor <;> simp [empty, LockHeld]

variable [DecidableEq Id]

/-- The recorded phases only advance, and the lock is held for whoever can still act. -/
def Serialized (s : MoveStore Id) (a : MoveAct Id) : Prop :=
  ∀ t, step s a = some t →
    (∀ m ∈ s.created, (t.move m).phase = (s.move m).phase ∨
      (s.move m).phase.rank < (t.move m).phase.rank) ∧ LockHeld t

/-- A cancel call that finds nothing to cancel changes nothing. -/
theorem cancelMove_idle {force : Bool} (h : ¬(recorded ∧ e.phase.cancellable)) :
    e.cancelMove recorded force = (e, false) := if_neg h

/-- What a step does to an undisturbed move: the phase only advances, and the step completes the
move exactly when the executor comes to its end. -/
theorem Undisturbed.next (h : Undisturbed recorded e)
    (hidle : ∀ force, ev = .cancel force → ¬(recorded ∧ e.phase.cancellable))
    (hnext : e.next recorded ev = some (e', completes)) :
    Undisturbed recorded e' ∧ (e'.phase = e.phase ∨ e.phase.rank < e'.phase.rank) ∧
      (completes ↔ e.pc ≠ .finished ∧ e'.pc = .finished) ∧ (e.pc = .finished → e' = e) := by
  obtain ⟨hphase, hrecorded, hforces, hreverts⟩ := h
  cases ev with
  | cancel force =>
    rw [Move.next, cancelMove_idle (hidle force rfl)] at hnext
    cases hnext
    exact ⟨⟨hphase, hrecorded, hforces, hreverts⟩, .inl rfl, by simp, fun _ => rfl⟩
  | forceEnds => simp [Move.next, hforces] at hnext
  | revertEnds => simp [Move.next, hreverts] at hnext
  | rollbackEnds =>
    simp only [Move.next] at hnext
    split_ifs at hnext with hpc
    have hrec : recorded = true := hrecorded (by rw [hpc]; decide)
    subst hrec
    cases hnext
    have hopen : ¬e.phase.terminal := by simpa [hpc, phaseAt] using hphase
    refine ⟨⟨rfl, by simp, hforces, hreverts⟩, .inr ?_, by simp [hpc], by simp [hpc]⟩
    exact MoveOperationPhase.rank_lt_failed hopen
  | _ =>
    -- the executor is under way, and its move is recorded
    simp only [Move.next] at hnext
    split_ifs at hnext with hpc
    have hrec : recorded = true := hrecorded (by rw [hpc]; decide)
    subst hrec
    obtain ⟨phase, targetKnown, pc, forces, reverts⟩ := e
    dsimp only at *
    subst hpc
    simp only [phaseAt, decide_eq_true_eq] at hphase
    subst hphase hforces hreverts
    cases targetKnown <;> cases hnext <;>
      exact ⟨⟨by decide, by decide, rfl, rfl⟩, by decide, by decide, by simp⟩

theorem step_event_serial (h : Serial s) (hidle : CancelsIdle s (.event m ev))
    (hstep : step s (.event m ev) = some t) : Serial t ∧
      ∀ n ∈ s.created, (t.move n).phase = (s.move n).phase ∨
        (s.move n).phase.rank < (t.move n).phase.rank := by
  obtain ⟨hm, e, completes, hnext, rfl⟩ := step_event_some.mp hstep
  have hbefore := h.undisturbed m hm
  obtain ⟨hafter, hphase, hcompletes, hkept⟩ := hbefore.next (by
    intro force hev
    subst hev
    exact hidle) hnext
  have hphases : ∀ n ∈ s.created, ((s.put m e).move n).phase = (s.move n).phase ∨
      (s.move n).phase.rank < ((s.put m e).move n).phase.rank := by
    intro n _
    by_cases hnm : n = m
    · subst hnm
      rw [put_move_self]
      exact hphase
    · rw [put_move_of_ne hnm]
      exact .inl rfl
  cases completes with
  | false =>
    refine ⟨⟨fun n hn => ?_, fun n hn hquiet => ?_⟩, hphases⟩
    · by_cases hnm : n = m
      · subst hnm
        simpa using hafter
      · simpa [put_move_of_ne hnm] using h.undisturbed n hn
    · by_cases hnm : n = m
      · subst hnm
        apply h.lockHeld n hn
        rw [hbefore.quiet_iff]
        intro hfinished
        rw [hkept hfinished] at hquiet
        simp [hbefore.quiet_iff.mpr hfinished] at hquiet
      · exact h.lockHeld n hn (by simpa [put_move_of_ne hnm] using hquiet)
  | true =>
    obtain ⟨hbusy, hfinished⟩ := hcompletes.mp rfl
    have hnotquiet : ¬(s.move m).quiet := fun hq => hbusy (hbefore.quiet_iff.mp hq)
    have hothers : ∀ n ∈ s.created, ((s.put m e).move n).quiet := by
      intro n hn
      by_cases hnm : n = m
      · subst hnm
        rw [put_move_self]
        exact hafter.quiet_iff.mpr hfinished
      · rw [put_move_of_ne hnm]
        exact h.lockHeld.quiet_of_ne hm hnotquiet hn hnm
    refine ⟨⟨fun n hn => ?_, fun n hn hquiet => absurd (hothers n hn) hquiet⟩, hphases⟩
    have hq := hothers n hn
    by_cases hnm : n = m
    · subst hnm
      simp only [if_true, completeMove_move, put_move_self] at hq ⊢
      exact Undisturbed.of_quiet hafter hq _
    · simp only [if_true, completeMove_move, put_move_of_ne hnm] at hq ⊢
      exact Undisturbed.of_quiet (h.undisturbed n hn) hq _

theorem step_request_serial {startedAt : Int} {found : Bool} (h : Serial s)
    (hstep : step s (.request m startedAt found) = some t) : Serial t ∧
      ∀ n ∈ s.created, (t.move n).phase = (s.move n).phase := by
  obtain ⟨hm, ⟨-, rfl⟩ | ⟨hlock, rfl⟩⟩ := step_request_some.mp hstep
  · exact ⟨h, fun _ _ => rfl⟩
  · have hne : ∀ n ∈ s.created, n ≠ m := fun n hn heq => hm (heq ▸ hn)
    have hquiet : ∀ n ∈ s.created, (s.move n).quiet := by
      intro n hn
      by_contra hq
      rw [h.lockHeld n hn hq] at hlock
      cases hlock
    have hkept : ∀ (e : Move), ∀ n ∈ s.created,
        (((s.create m startedAt).put m e).move n) = s.move n := by
      intro e n hn
      rw [put_move_of_ne (hne n hn), create_move_of_ne (hne n hn)]
    cases found with
    | true =>
      refine ⟨⟨fun n hn => ?_, fun n hn hq => ?_⟩, fun n hn => congrArg Move.phase (hkept _ n hn)⟩
      · rcases List.mem_append.mp hn with hn | hn
        · have hrecorded : ((s.create m startedAt).execute m true).recorded n = s.recorded n := by
            show (s.create m startedAt).recorded n = s.recorded n
            exact create_recorded_of_ne (hne n hn)
          rw [hrecorded, execute, if_pos rfl, hkept _ n hn]
          exact h.undisturbed n hn
        · cases List.mem_singleton.mp hn
          rw [execute, if_pos rfl, put_move_self]
          exact ⟨rfl, fun _ => by simp, rfl, rfl⟩
      · rcases List.mem_append.mp hn with hn | hn
        · rw [execute, if_pos rfl, hkept _ n hn] at hq
          exact absurd (hquiet n hn) hq
        · cases List.mem_singleton.mp hn
          rfl
    | false =>
      have hq : ∀ n ∈ s.created ++ [m], (((s.create m startedAt).execute m false).move n).quiet := by
        intro n hn
        rcases List.mem_append.mp hn with hn | hn
        · exact (hkept _ n hn).symm ▸ hquiet n hn
        · cases List.mem_singleton.mp hn
          simp [execute, Move.quiet, Move.start]
      refine ⟨⟨fun n hn => ?_, fun n hn hnq => absurd (hq n hn) hnq⟩,
        fun n hn => congrArg Move.phase (hkept _ n hn)⟩
      rcases List.mem_append.mp hn with hmem | hmem
      · have heq : ((s.create m startedAt).execute m false).move n = s.move n := hkept _ n hmem
        rw [heq]
        exact (h.undisturbed n hmem).of_quiet (hquiet n hmem) _
      · cases List.mem_singleton.mp hmem
        have heq : ((s.create m startedAt).execute m false).move m =
            { Move.start with phase := .failed } := put_move_self
        rw [heq]
        exact ⟨rfl, fun hpc => absurd rfl hpc, rfl, rfl⟩

theorem step_serial (h : Serial s) (hidle : CancelsIdle s a) (hstep : step s a = some t) :
    Serial t ∧ ∀ m ∈ s.created, (t.move m).phase = (s.move m).phase ∨
      (s.move m).phase.rank < (t.move m).phase.rank := by
  cases a with
  | request m startedAt found =>
    obtain ⟨hserial, hphases⟩ := step_request_serial h hstep
    exact ⟨hserial, fun m hm => .inl (hphases m hm)⟩
  | event m ev => exact step_event_serial h hidle hstep

/-- A cancel call is under way beside the executor. -/
structure Overlap (e : Move) : Prop where
  executing : e.pc ≠ .finished
  cancelling : 0 < e.forces + e.reverts

theorem overlap_not_quiet (h : Overlap e) : ¬e.quiet := by
  simp only [Move.quiet, decide_eq_true_eq]
  exact fun hq => h.executing hq.1

/-- Whichever of the two ends first completes the move under the other. -/
theorem Overlap.next (h : Overlap e) (hnext : e.next recorded ev = some (e', completes)) :
    (completes → ¬e'.quiet) ∧ (¬completes → Overlap e') := by
  obtain ⟨hpc, hcount⟩ := h
  have key : (completes → e'.pc ≠ .finished ∨ 0 < e'.forces + e'.reverts) ∧
      (¬completes → e'.pc ≠ .finished ∧ 0 < e'.forces + e'.reverts) := by
    cases ev <;> (simp only [Move.next, Move.rollback, Move.cancelMove, Move.write] at hnext; grind)
  refine ⟨fun hc => ?_, fun hc => ⟨(key.2 hc).1, (key.2 hc).2⟩⟩
  simp only [Move.quiet, decide_eq_true_eq]
  rcases key.1 hc with hexecuting | hcancelling
  · exact fun hq => hexecuting hq.1
  · omega

theorem overlap_of_accepted {force : Bool} (hpc : e.pc ≠ .finished)
    (haccepts : recorded ∧ e.phase.cancellable) (h : e.cancelMove recorded force = (e', completes)) :
    (completes → ¬e'.quiet) ∧ (¬completes → Overlap e') := by
  rw [Move.cancelMove, if_pos haccepts] at h
  split_ifs at h with hforce hknown
  · cases h
    exact ⟨by simp, fun _ => ⟨hpc, by dsimp only; omega⟩⟩
  · cases h
    exact ⟨by simp, fun _ => ⟨hpc, by dsimp only; omega⟩⟩
  · cases h
    have hkept : (e.write recorded .failed).pc = e.pc := by
      unfold Move.write
      split_ifs <;> rfl
    exact ⟨fun _ => by simp [Move.quiet, hkept, hpc], by simp⟩

/-- A move under two hands keeps them as long as the lock is held for it. -/
theorem step_overlap (hm : m ∈ s.created) (ho : Overlap (s.move m)) (h : LockHeld s)
    (hstep : step s a = some t) (ht : LockHeld t) : m ∈ t.created ∧ Overlap (t.move m) := by
  have hbusy := overlap_not_quiet ho
  cases a with
  | request n startedAt found =>
    obtain ⟨-, ⟨-, rfl⟩ | ⟨hlock, -⟩⟩ := step_request_some.mp hstep
    · exact ⟨hm, ho⟩
    · rw [h m hm hbusy] at hlock
      cases hlock
  | event n ev =>
    obtain ⟨hn, e, completes, hnext, rfl⟩ := step_event_some.mp hstep
    by_cases hnm : n = m
    · subst hnm
      obtain ⟨hends, hgoes⟩ := ho.next hnext
      cases completes with
      | false => exact ⟨hm, by simpa using hgoes (by simp)⟩
      | true =>
        -- the lock is released although the other one is under way
        have hactive := ht n hm (by simpa using hends rfl)
        simp [completeMove_activeMove, h n hm hbusy] at hactive
    · have hkept : ((if completes then (s.put n e).completeMove n else s.put n e).move m) =
          s.move m := by
        cases completes <;> exact put_move_of_ne (Ne.symm hnm)
      refine ⟨?_, hkept ▸ ho⟩
      cases completes <;> exact hm

/-- Two hands on one move are there to the end, or the lock is released under one of them. -/
theorem run_overlap (hm : m ∈ s.created) (ho : Overlap (s.move m)) (h : LockHeld s)
    (hs : Transition.Along step Serialized s acts) (hrun : run s acts = some t) :
    ¬Quiet t := by
  have hlast : m ∈ t.created ∧ Overlap (t.move m) ∧ LockHeld t := by
    refine Transition.run_invariant_along
      (I := fun s => m ∈ s.created ∧ Overlap (s.move m) ∧ LockHeld s) ?_ ⟨hm, ho, h⟩ hs hrun
    rintro s a t ⟨hm, ho, h⟩ hone hstep
    have ht := (hone t hstep).2
    obtain ⟨hm', ho'⟩ := step_overlap hm ho h hstep ht
    exact ⟨hm', ho', ht⟩
  exact fun hq => overlap_not_quiet hlast.2.1 (hq m hlast.1)

/-- An accepted cancel call puts two hands on its move, or releases the lock under the executor. -/
theorem accepted_overlap {force : Bool} (h : Serial s) (hu : step s (.event m (.cancel force)) = some t)
    (haccepts : s.recorded m ∧ (s.move m).phase.cancellable) (ht : LockHeld t) :
    m ∈ t.created ∧ Overlap (t.move m) := by
  obtain ⟨hm, e, completes, hnext, rfl⟩ := step_event_some.mp hu
  have hpc : (s.move m).pc ≠ .finished := by
    intro hpc
    have hphase := (h.undisturbed m hm).phase
    have hopen := haccepts.2
    simp_all [phaseAt, MoveOperationPhase.cancellable]
  have hbusy : ¬(s.move m).quiet := by
    simp only [Move.quiet, decide_eq_true_eq]
    exact fun hq => hpc hq.1
  obtain ⟨hends, hgoes⟩ := overlap_of_accepted hpc haccepts (Option.some.inj hnext)
  cases completes with
  | false => exact ⟨hm, by simpa using hgoes (by simp)⟩
  | true =>
    have hactive := ht m hm (by simpa using hends rfl)
    simp [completeMove_activeMove, h.lockHeld m hm hbusy] at hactive

/-- A run that comes to its end, with the moves serialized all along, has no cancel call that found
something to cancel. -/
theorem idle_of_serialized (h : Serial s) (hs : Transition.Along step Serialized s acts)
    (hrun : run s acts = some t) (hq : Quiet t) : Transition.Along step CancelsIdle s acts := by
  induction acts generalizing s with
  | nil => trivial
  | cons a acts ih =>
    obtain ⟨u, hu, htail⟩ := Transition.run_cons.mp hrun
    obtain ⟨hone, hrest⟩ := (Transition.along_cons hu).mp hs
    have hidle : CancelsIdle s a := by
      by_contra haccepts
      cases a with
      | request m startedAt found => exact haccepts trivial
      | event m ev =>
        cases ev with
        | cancel force =>
          have hlock := (hone u hu).2
          obtain ⟨hm, ho⟩ := accepted_overlap h hu (not_not.mp haccepts) hlock
          exact run_overlap hm ho hlock hrest htail hq
        | _ => exact haccepts trivial
    exact (Transition.along_cons hu).mpr ⟨hidle, ih (step_serial h hidle hu).1 hrest htail⟩

/-- The moves are serialized in every run without an effective cancel call, and in no other run that
comes to its end. -/
theorem serialized_iff (acts : List (MoveAct Id)) :
    (Transition.Along step CancelsIdle empty acts → Transition.Along step Serialized empty acts) ∧
    (∀ s, run empty acts = some s → Quiet s → Transition.Along step Serialized empty acts →
      Transition.Along step CancelsIdle empty acts) := by
  constructor
  · intro hidle
    refine Transition.along_imp (I := Serial) (fun s a h hidle t ht => ?_)
      (fun s a t h hidle ht => (step_serial h hidle ht).1) empty_serial hidle
    obtain ⟨hserial, hphases⟩ := step_serial h hidle ht
    exact ⟨hphases, hserial.lockHeld⟩
  · intro s hrun hq hs
    exact idle_of_serialized empty_serial hs hrun hq

section Examples

/-- A move is cancelled while its executor awaits the launch; a second one begins, and the first
executor goes on. -/
def cancelDuringLaunch : List (MoveAct Nat) :=
  [.request 0 0 true, .event 0 (.cancel false), .request 1 1 true, .event 0 .launchReturns]

theorem executors_overlap : ∃ s, run empty cancelDuringLaunch = some s ∧
    (s.move 0).phase = .failed ∧ (s.move 0).pc = .waiting ∧ (s.move 1).pc = .launching ∧
      ¬Serialized s (.event 0 .waitReturns) := by
  refine ⟨(run empty cancelDuringLaunch).get (by decide +kernel), (Option.some_get _).symm,
    by decide +kernel, by decide +kernel, by decide +kernel, fun hs => ?_⟩
  have hnext := (hs _ (Option.some_get (by decide +kernel)).symm).1 0 (by decide +kernel)
  exact absurd hnext (by decide +kernel)

/-- One move after the other; the second is rolled back, and the cancel call comes too late. -/
def movesInTurn : List (MoveAct Nat) :=
  [.request 0 0 true, .event 0 .launchReturns, .event 0 .waitReturns, .request 1 1 true,
    .event 0 .drainEnds, .event 0 (.cancel true), .event 0 .unloadReturns, .request 2 2 true,
    .event 2 .launchReturns, .event 2 .waitRejects, .event 2 .rollbackEnds]

theorem serialized_inTurn : Transition.Along step Serialized empty movesInTurn :=
  (serialized_iff movesInTurn).1 (by decide +kernel)

end Examples

end GpuSharing.Sardeenz.MoveStore
