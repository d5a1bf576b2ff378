import Mathlib.Data.List.Sort
import Mathlib.Logic.Function.Basic
import GpuSharing.Lib.Transition

namespace GpuSharing.Sardeenz

inductive MoveOperationPhase
  | validating
  | spawning
  | switching
  | draining
  | completing
  | completed
  | failed
  deriving DecidableEq, Repr

namespace MoveOperationPhase

def rank : MoveOperationPhase → Nat
  | .validating => 0
  | .spawning => 1
  | .switching => 2
  | .draining => 3
  | .completing => 4
  | .completed => 5
  | .failed => 5

def terminal (p : MoveOperationPhase) : Bool := p = .completed ∨ p = .failed

/-- The phases in which `cancelMove` goes on to a revert or a forced completion. -/
def cancellable (p : MoveOperationPhase) : Bool := !p.terminal ∧ p ≠ .completing

theorem not_cancellable {p : MoveOperationPhase} (h : p.terminal) : ¬p.cancellable := by
  simp [cancellable, h]

theorem rank_lt_failed {p : MoveOperationPhase} (h : ¬p.terminal) : p.rank < failed.rank := by
  cases p <;> simp_all [terminal, rank]

end MoveOperationPhase

/-- Where the executor of a move stands: what it awaits. -/
inductive ExecutorPc
  | launching
  | waiting
  | draining
  | unloading
  | rollingBack
  | finished
  deriving DecidableEq, Repr

/-- A move with all that acts on it: its operation, with whether the target's id is recorded in it,
its executor, and the cancel calls that await an unload, of the source (`forces`) or of the target
(`reverts`). -/
structure Move where
  phase : MoveOperationPhase
  targetKnown : Bool
  pc : ExecutorPc
  forces : Nat
  reverts : Nat
  deriving DecidableEq, Repr

/-- What happens to a move: the awaited calls of its executor return or reject, `cancelMove` is
called, and the awaited calls of `forceComplete` and `revertToSource` come to their end. -/
inductive MoveEvent
  | launchReturns
  | launchRejects
  | waitReturns
  | waitRejects
  | drainEnds
  | unloadReturns
  | unloadRejects
  | rollbackEnds
  | cancel (force : Bool)
  | forceEnds
  | revertEnds
  deriving DecidableEq, Repr

namespace Move

/-- The executor and the calls of `cancelMove` have come to their end. -/
def quiet (m : Move) : Bool := m.pc = .finished ∧ m.forces = 0 ∧ m.reverts = 0

def start : Move where
  phase := .validating
  targetKnown := false
  pc := .finished
  forces := 0
  reverts := 0

/-- A phase is written only while the operation is in the store. -/
def write (recorded : Bool) (m : Move) (phase : MoveOperationPhase) : Move :=
  if recorded then { m with phase := phase } else m

/-- The executor's catch block up to its await. The second component is whether the step completes
the move in the store. -/
def rollback (recorded : Bool) (m : Move) : Move × Bool :=
  if m.targetKnown then ({ m with pc := .rollingBack }, false)
  else ({ m.write recorded .failed with pc := .finished }, true)

/-- `cancelMove` up to its await. -/
def cancelMove (recorded force : Bool) (m : Move) : Move × Bool :=
  if recorded ∧ m.phase.cancellable then
    if force then ({ m with forces := m.forces + 1 }, false)
    else if m.targetKnown then ({ m with reverts := m.reverts + 1 }, false)
    else (m.write recorded .failed, true)
  else (m, false)

/-- One step of what acts on the move, from one await to the next. -/
def next (recorded : Bool) (m : Move) : MoveEvent → Option (Move × Bool)
  | .launchReturns =>
    if m.pc = .launching then
      some ({ m with pc := .waiting, targetKnown := recorded || m.targetKnown }, false)
    else none
  | .launchRejects => if m.pc = .launching then some (m.rollback recorded) else none
  | .waitReturns =>
    if m.pc = .waiting then
      some ({ (m.write recorded .switching).write recorded .draining with pc := .draining }, false)
    else none
  | .waitRejects => if m.pc = .waiting then some (m.rollback recorded) else none
  | .drainEnds =>
    if m.pc = .draining then some ({ m.write recorded .completing with pc := .unloading }, false)
    else none
  | .unloadReturns =>
    if m.pc = .unloading then some ({ m.write recorded .completed with pc := .finished }, true)
    else none
  | .unloadRejects => if m.pc = .unloading then some (m.rollback recorded) else none
  | .rollbackEnds =>
    if m.pc = .rollingBack then some ({ m.write recorded .failed with pc := .finished }, true)
    else none
  | .cancel force => some (m.cancelMove recorded force)
  | .forceEnds =>
    if 0 < m.forces then some ({ m.write recorded .completed with forces := m.forces - 1 }, true)
    else none
  | .revertEnds =>
    if 0 < m.reverts then some ({ m.write recorded .failed with reverts := m.reverts - 1 }, true)
    else none

/-- What the executor of a recorded move has recorded where it stands. -/
structure Ordered (m : Move) : Prop where
  known : m.pc ≠ .launching → m.pc ≠ .finished → m.targetKnown
  unknown : m.pc = .launching → ¬m.targetKnown
  unloading : m.pc = .unloading → ¬m.phase.cancellable
  finished : m.pc = .finished → m.phase.terminal

variable {m m' : Move} {ev : MoveEvent} {completes : Bool}

theorem ordered_of_rollback {p : Prop} [Decidable p]
    (h : (if p then some (m.rollback true) else none) = some (m', completes)) : m'.Ordered := by
  rw [rollback] at h
  split_ifs at h with hp hknown
  · cases h
    exact ⟨fun _ _ => hknown, by simp, by simp, by simp⟩
  · cases h
    exact ⟨by simp, by simp, by simp, fun _ => rfl⟩

theorem Ordered.cancelMove (h : m.Ordered) (force : Bool) : (m.cancelMove true force).1.Ordered := by
  rw [Move.cancelMove]
  split_ifs
  · exact ⟨h.known, h.unknown, h.unloading, h.finished⟩
  · exact ⟨h.known, h.unknown, h.unloading, h.finished⟩
  · exact ⟨h.known, h.unknown, fun _ => MoveOperationPhase.not_cancellable rfl, fun _ => rfl⟩
  · exact h

theorem Ordered.next (h : m.Ordered) (hnext : m.next true ev = some (m', completes)) :
    m'.Ordered := by
  cases ev with
  | launchReturns =>
    simp only [Move.next] at hnext
    split_ifs at hnext
    cases hnext
    exact ⟨fun _ _ => rfl, by simp, by simp, by simp⟩
  | launchRejects => exact ordered_of_rollback hnext
  | waitReturns =>
    simp only [Move.next] at hnext
    split_ifs at hnext with hpc
    cases hnext
    have hknown := h.known (by simp [hpc]) (by simp [hpc])
    exact ⟨fun _ _ => hknown, by simp, by simp, by simp⟩
  | waitRejects => exact ordered_of_rollback hnext
  | drainEnds =>
    simp only [Move.next] at hnext
    split_ifs at hnext with hpc
    cases hnext
    have hknown := h.known (by simp [hpc]) (by simp [hpc])
    exact ⟨fun _ _ => hknown, by simp, fun _ => Bool.false_ne_true, by simp⟩
  | unloadReturns =>
    simp only [Move.next] at hnext
    split_ifs at hnext
    cases hnext
    exact ⟨by simp, by simp, by simp, fun _ => rfl⟩
  | unloadRejects => exact ordered_of_rollback hnext
  | rollbackEnds =>
    simp only [Move.next] at hnext
    split_ifs at hnext
    cases hnext
    exact ⟨by simp, by simp, by simp, fun _ => rfl⟩
  | cancel force =>
    have hcancel := h.cancelMove force
    rw [Option.some.inj hnext] at hcancel
    exact hcancel
  | forceEnds =>
    simp only [Move.next] at hnext
    split_ifs at hnext
    cases hnext
    exact ⟨h.known, h.unknown, fun _ => MoveOperationPhase.not_cancellable rfl, fun _ => rfl⟩
  | revertEnds =>
    simp only [Move.next] at hnext
    split_ifs at hnext
    cases hnext
    exact ⟨h.known, h.unknown, fun _ => MoveOperationPhase.not_cancellable rfl, fun _ => rfl⟩

/-- A revert begins with a cancel call that finds something to cancel. -/
theorem next_reverts (hnext : m.next true ev = some (m', completes)) (h : 0 < m'.reverts) :
    0 < m.reverts ∨ ev = .cancel false ∧ m.phase.cancellable := by
  cases ev <;>
    (simp only [next, rollback, cancelMove] at hnext; grind [write])

/-- A move is completed as failed by its executor or by a revert. -/
theorem next_failed (hnext : m.next true ev = some (m', true)) (h : m'.phase = .failed) :
    m'.pc = .finished ∨ 0 < m.reverts ∨ ev = .cancel false ∧ m.phase.cancellable := by
  cases ev <;>
    (simp only [next, rollback, cancelMove] at hnext; grind [write])

theorem next_finished (hnext : m.next true ev = some (m', completes)) (h : m.pc = .finished) :
    m'.pc = .finished := by
  cases ev <;> (simp only [next, rollback, cancelMove] at hnext; grind [write])

theorem next_known (hnext : m.next true ev = some (m', completes)) (h : m'.targetKnown) :
    m.targetKnown ∨ ev = .launchReturns := by
  cases ev <;> (simp only [next, rollback, cancelMove] at hnext; grind [write])

end Move

/-- The moves created so far, in the order of their creation, and the move lock. A move that has
been pruned is not recorded any more, and its executor and cancel calls keep their operation. -/
structure MoveStore (Id : Type) where
  created : List Id
  recorded : Id → Bool
  startedAt : Id → Int
  move : Id → Move
  activeMove : Option Id

/-- A request comes to the creation of its move, with whether its executor finds the source instance
and the target pod; or something happens to a move. -/
inductive MoveAct (Id : Type)
  | request (m : Id) (startedAt : Int) (found : Bool)
  | event (m : Id) (ev : MoveEvent)
  deriving DecidableEq, Repr

namespace MoveStore

variable {Id : Type} [DecidableEq Id]

def empty : MoveStore Id where
  created := []
  recorded _ := false
  startedAt _ := 0
  move _ := Move.start
  activeMove := none

def put (s : MoveStore Id) (m : Id) (e : Move) : MoveStore Id :=
  { s with move := Function.update s.move m e }

def create (s : MoveStore Id) (m : Id) (startedAt : Int) : MoveStore Id where
  created := s.created ++ [m]
  recorded := Function.update s.recorded m true
  startedAt := Function.update s.startedAt m startedAt
  move := Function.update s.move m Move.start
  activeMove := some m

def releaseLock (s : MoveStore Id) (m : Id) : MoveStore Id :=
  { s with activeMove := if s.activeMove = some m then none else s.activeMove }

/-- The completed and failed operations, the one that started last first. -/
def completedOperations (s : MoveStore Id) : List Id :=
  (s.created.filter fun m => s.recorded m ∧ (s.move m).phase.terminal).insertionSort
    fun m n => s.startedAt n ≤ s.startedAt m

def pruneCompletedOperations (s : MoveStore Id) : MoveStore Id :=
  { s with recorded := fun m => s.recorded m ∧ m ∉ s.completedOperations.drop 10 }

/-- What `complete` does after it has written the phase. -/
def completeMove (s : MoveStore Id) (m : Id) : MoveStore Id :=
  (s.releaseLock m).pruneCompletedOperations

/-- The first part of `executeMoveAsync` and `executeCrossPodMoveAsync`, which follows the creation
of the move without an await. -/
def execute (s : MoveStore Id) (m : Id) (found : Bool) : MoveStore Id :=
  if found then s.put m { Move.start with phase := .spawning, pc := .launching }
  else (s.put m { Move.start with phase := .failed }).completeMove m

def step (s : MoveStore Id) : MoveAct Id → Option (MoveStore Id)
  | .request m startedAt found =>
    if m ∈ s.created then none
    else match s.activeMove with
      | some _ => some s
      | none => some ((s.create m startedAt).execute m found)
  | .event m ev =>
    if m ∈ s.created then
      match (s.move m).next (s.recorded m) ev with
      | some (e, completes) => some (if completes then (s.put m e).completeMove m else s.put m e)
      | none => none
    else none

abbrev run : MoveStore Id → List (MoveAct Id) → Option (MoveStore Id) := Transition.run step

variable {s t : MoveStore Id} {a : MoveAct Id} {m n : Id} {e : Move} {ev : MoveEvent}

@[simp] theorem put_move_self : (s.put m e).move m = e := Function.update_self ..

theorem put_move_of_ne (h : n ≠ m) : (s.put m e).move n = s.move n := Function.update_of_ne h ..

@[simp] theorem put_created : (s.put m e).created = s.created := rfl

@[simp] theorem put_recorded : (s.put m e).recorded = s.recorded := rfl

@[simp] theorem put_activeMove : (s.put m e).activeMove = s.activeMove := rfl

@[simp] theorem create_created {startedAt : Int} :
    (s.create m startedAt).created = s.created ++ [m] := rfl

@[simp] theorem create_activeMove {startedAt : Int} :
    (s.create m startedAt).activeMove = some m := rfl

@[simp] theorem create_recorded_self {startedAt : Int} : (s.create m startedAt).recorded m = true :=
  Function.update_self ..

theorem create_move_of_ne {startedAt : Int} (h : n ≠ m) :
    (s.create m startedAt).move n = s.move n :=
  Function.update_of_ne h ..

theorem create_recorded_of_ne {startedAt : Int} (h : n ≠ m) :
    (s.create m startedAt).recorded n = s.recorded n :=
  Function.update_of_ne h ..

@[simp] theorem completeMove_created : (s.completeMove m).created = s.created := rfl

@[simp] theorem completeMove_move : (s.completeMove m).move = s.move := rfl

theorem completeMove_activeMove :
    (s.completeMove m).activeMove = if s.activeMove = some m then none else s.activeMove := rfl

/-- Only operations in a terminal phase are pruned. -/
theorem completeMove_recorded (hm : s.recorded n) (h : ¬(s.move n).phase.terminal) :
    (s.completeMove m).recorded n := by
  have hnot : n ∉ (s.releaseLock m).completedOperations := by
    intro hmem
    have hmem := (List.mem_insertionSort _).mp hmem
    simp only [List.mem_filter, decide_eq_true_eq] at hmem
    exact h hmem.2.2
  have hdrop : n ∉ (s.releaseLock m).completedOperations.drop 10 :=
    fun hmem => hnot (List.mem_of_mem_drop hmem)
  have hrecorded : (s.releaseLock m).recorded n := hm
  simp [completeMove, pruneCompletedOperations, hdrop, hrecorded]

/-- What a step on a move does. -/
theorem step_event_some : step s (.event m ev) = some t ↔
    m ∈ s.created ∧ ∃ e completes, (s.move m).next (s.recorded m) ev = some (e, completes) ∧
      (if completes then (s.put m e).completeMove m else s.put m e) = t := by
  simp only [step]
  cases (s.move m).next (s.recorded m) ev with
  | none => simp
  | some r =>
    obtain ⟨e, completes⟩ := r
    cases completes <;> simp

theorem step_request_some {startedAt : Int} {found : Bool} :
    step s (.request m startedAt found) = some t ↔
      m ∉ s.created ∧ ((∃ n, s.activeMove = some n) ∧ s = t ∨
        s.activeMove = none ∧ (s.create m startedAt).execute m found = t) := by
  simp only [step]
  cases s.activeMove <;> simp [ite_eq_iff]

end MoveStore

end GpuSharing.Sardeenz
