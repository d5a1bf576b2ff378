import GpuSharing.Sardeenz.KvAdmission
import GpuSharing.Sardeenz.MoveStore

namespace GpuSharing.Sardeenz

inductive MoveKind
  | samePod
  | crossPod
  deriving DecidableEq, Repr

/-- The source instance, whose process does not die by itself. `stopping` is set when an unload of
it has begun. -/
structure MoveSource where
  stored : Bool
  stopping : Bool
  routable : Bool
  deriving DecidableEq, Repr

/-- The target instance, on this pod or on the target pod. `alive` is whether its process is alive.
-/
structure MoveTarget where
  launched : Bool
  stored : Bool
  status : ModelStatus
  alive : Bool
  stopping : Bool
  deriving DecidableEq, Repr

namespace MoveTarget

def unlaunched : MoveTarget := ⟨false, false, .starting, false, false⟩

/-- The target can serve requests, and no unload of it has begun. -/
def live (t : MoveTarget) : Bool := t.stored ∧ t.status = .running ∧ t.alive ∧ !t.stopping

def launch (t : MoveTarget) : MoveTarget :=
  { t with launched := true, stored := true, status := .starting, alive := true }

/-- `unloadModel` up to its await. An instance without a process is removed at once. -/
def beginUnload (t : MoveTarget) : MoveTarget :=
  if t.stored then
    if t.alive then { t with stopping := true, status := .stopping } else { t with stored := false }
  else t

/-- An unload that has been carried out. -/
def unload (t : MoveTarget) : MoveTarget := { t with stored := false, alive := false }

/-- A live process has an instance in the store, and that one has been launched. -/
structure Known (t : MoveTarget) : Prop where
  stored : t.alive → t.stored
  launched : t.stored → t.launched

variable {t : MoveTarget}

theorem Known.launch : t.launch.Known := ⟨fun _ => rfl, fun _ => rfl⟩

theorem Known.beginUnload (h : t.Known) : t.beginUnload.Known := by
  unfold MoveTarget.beginUnload
  split_ifs with hstored halive
  · exact ⟨h.stored, h.launched⟩
  · exact ⟨fun ha => absurd ha halive, nofun⟩
  · exact h

theorem Known.unload : t.unload.Known := ⟨nofun, nofun⟩

theorem Known.down_beginUnload (h : t.Known) : ¬t.beginUnload.alive ∨ t.beginUnload.stopping := by
  unfold MoveTarget.beginUnload
  split_ifs with hstored halive
  · exact .inr rfl
  · exact .inl halive
  · exact .inl fun halive => hstored (h.stored halive)

@[simp] theorem launched_beginUnload : t.beginUnload.launched = t.launched := by
  unfold MoveTarget.beginUnload
  split_ifs <;> rfl

@[simp] theorem launched_unload : t.unload.launched = t.launched := rfl

end MoveTarget

/-- A move with the instances it is about. `loading` is whether a launch of the target is under way,
`cancelled` whether `cancelMove` has gone on to a revert, and `failedRecorded` whether the move has
been completed as failed. -/
structure Mover where
  kind : MoveKind
  op : Move
  source : MoveSource
  target : MoveTarget
  loading : Bool
  cancelled : Bool
  failedRecorded : Bool
  deriving DecidableEq, Repr

/-- What happens to the move, with whether the unload that comes to its end with it has been carried
out, or to the instances: the target is launched, becomes ready or fails, the load request to the
target pod comes to nothing, the launch of the target parks the source or restores it. -/
inductive MoverEvent
  | move (ev : MoveEvent) (unloaded : Bool)
  | targetLaunched
  | targetReady
  | targetFails
  | loadEnds
  | parkSource
  | restoreSource
  deriving DecidableEq, Repr

namespace Mover

/-- The executor of a new move awaits the launch of the target. -/
def start (kind : MoveKind) (routable : Bool) : Mover where
  kind := kind
  op := { Move.start with phase := .spawning, pc := .launching }
  source := ⟨true, false, routable⟩
  target := MoveTarget.unlaunched
  loading := true
  cancelled := false
  failedRecorded := false

/-- `modelStore.setRoutable` of the source. -/
def setRoutable (s : Mover) (routable : Bool) : Mover :=
  { s with source := { s.source with routable := if s.source.stored then routable else s.source.routable } }

/-- `unloadModel` of the source up to its await. -/
def unloadSource (s : Mover) : Mover :=
  { s with source := { s.source with stopping := s.source.stopping || s.source.stored } }

/-- An unload of the source that has been carried out. -/
def removeSource (s : Mover) (unloaded : Bool) : Mover :=
  { s with source := { s.source with stored := s.source.stored && !unloaded } }

/-- `unloadModel` of the target's id on this pod, up to its await. -/
def unloadTarget (s : Mover) : Mover :=
  if s.kind = .samePod ∧ s.op.targetKnown then { s with target := s.target.beginUnload } else s

/-- What the event needs of the instances. A rejected launch on this pod has left no process. -/
def enabled (s : Mover) : MoveEvent → Bool
  | .launchReturns => s.target.launched
  | .launchRejects => s.kind = .crossPod ∨ !s.target.launched
  | .waitReturns =>
    if s.kind = .samePod then s.target.stored ∧ s.target.status = .running else s.target.launched
  | _ => true

/-- What the event does to the instances. On another pod the target is unloaded by a request, and
the unload of its id on this pod finds nothing. -/
def effect (s : Mover) (unloaded : Bool) : MoveEvent → Mover
  | .launchRejects =>
    { (s.setRoutable true).unloadTarget with loading := s.loading && s.kind = .crossPod }
  | .waitReturns => s.setRoutable false
  | .waitRejects => (s.setRoutable true).unloadTarget
  | .drainEnds => s.unloadSource
  | .unloadReturns => s.removeSource true
  | .unloadRejects => ((s.removeSource unloaded).setRoutable true).unloadTarget
  | .rollbackEnds => { s with target := if unloaded then s.target.unload else s.target }
  | .cancel force =>
    if s.op.phase.cancellable then
      if force then s.unloadSource
      else { (s.setRoutable true).unloadTarget with cancelled := true }
    else s
  | .forceEnds => s.removeSource unloaded
  | .revertEnds =>
    { s with target := if s.kind = .samePod ∧ unloaded then s.target.unload else s.target }
  | .launchReturns => s

def step (s : Mover) : MoverEvent → Option Mover
  | .move ev unloaded =>
    if s.enabled ev then
      match s.op.next true ev with
      | some (op, completes) =>
        some { s.effect unloaded ev with
          op := op
          failedRecorded := s.failedRecorded || (completes && op.phase = .failed) }
      | none => none
    else none
  | .targetLaunched =>
    if s.loading ∧ !s.target.launched then
      some { s with target := s.target.launch, loading := false }
    else none
  | .targetReady =>
    if s.target.stored then some { s with target := { s.target with status := .running } } else none
  | .targetFails =>
    if s.target.alive ∧ !s.target.stopping then
      some { s with target := { s.target with alive := false, status := .failed } }
    else none
  | .loadEnds => if s.kind = .crossPod ∧ s.loading then some { s with loading := false } else none
  | .parkSource =>
    if s.kind = .samePod ∧ s.op.pc = .launching ∧ !s.source.stopping then some (s.setRoutable false)
    else none
  | .restoreSource => if s.kind = .samePod then some (s.setRoutable true) else none

abbrev run : Mover → List MoverEvent → Option Mover := Transition.run step

variable {s t : Mover} {ev : MoveEvent} {unloaded : Bool}

theorem step_move_some : step s (.move ev unloaded) = some t ↔
    s.enabled ev ∧ ∃ op completes, s.op.next true ev = some (op, completes) ∧
      { s.effect unloaded ev with
        op := op
        failedRecorded := s.failedRecorded || (completes && op.phase = .failed) } = t := by
  simp only [step]
  cases s.op.next true ev with
  | none => simp
  | some r =>
    obtain ⟨op, completes⟩ := r
    cases completes <;> simp

theorem unloadTarget_of_unknown (h : ¬s.op.targetKnown) : s.unloadTarget = s :=
  if_neg fun hlocal => h hlocal.2

/-- What an event does to the target: an unload of it begins or has been carried out. -/
theorem effect_target : (s.effect unloaded ev).target = s.target ∨
    (s.effect unloaded ev).target = s.target.beginUnload ∨
    (s.effect unloaded ev).target = s.target.unload := by
  cases ev <;> grind [effect, setRoutable, unloadTarget, unloadSource, removeSource]

theorem effect_loading (h : (s.effect unloaded ev).loading) : s.loading := by
  cases ev <;> grind [effect, setRoutable, unloadTarget, unloadSource, removeSource]

theorem effect_cancelled : (s.effect unloaded ev).cancelled ↔
    s.cancelled ∨ ev = .cancel false ∧ s.op.phase.cancellable := by
  cases ev <;> grind [effect, setRoutable, unloadTarget, unloadSource, removeSource]

/-- What holds of the move and its target in every run. -/
structure Linked (s : Mover) : Prop where
  op : s.op.Ordered
  target : s.target.Known
  loaded : s.target.launched → ¬s.loading
  known : s.op.targetKnown → s.target.launched
  reverting : 0 < s.op.reverts → s.cancelled
  failed : s.failedRecorded → s.cancelled ∨ s.op.pc = .finished

theorem linked_start (kind : MoveKind) (routable : Bool) : Linked (start kind routable) := by
  refine ⟨⟨?_, ?_, ?_, ?_⟩, ⟨?_, ?_⟩, ?_, ?_, ?_, ?_⟩ <;>
    simp [start, Move.start, MoveTarget.unlaunched]

theorem Linked.move (h : Linked s) (hstep : step s (.move ev unloaded) = some t) : Linked t := by
  obtain ⟨hen, op, completes, hnext, rfl⟩ := step_move_some.mp hstep
  have hlaunched : (s.effect unloaded ev).target.launched = s.target.launched := by
    rcases effect_target with heq | heq | heq <;> rw [heq] <;> simp
  refine ⟨h.op.next hnext, ?_, ?_, ?_, ?_, ?_⟩
  · rcases effect_target with heq | heq | heq <;> dsimp only <;> rw [heq]
    · exact h.target
    · exact h.target.beginUnload
    · exact MoveTarget.Known.unload
  · intro hl hloading
    rw [hlaunched] at hl
    exact h.loaded hl (effect_loading hloading)
  · intro hknown
    rw [hlaunched]
    rcases Move.next_known hnext hknown with hknown | rfl
    · exact h.known hknown
    · exact hen
  · intro hreverts
    apply effect_cancelled.mpr
    rcases Move.next_reverts hnext hreverts with hreverts | haccepted
    · exact .inl (h.reverting hreverts)
    · exact .inr haccepted
  · intro hfailed
    simp only [Bool.or_eq_true, Bool.and_eq_true, decide_eq_true_eq] at hfailed
    rcases hfailed with hbefore | ⟨rfl, hphase⟩
    · rcases h.failed hbefore with hcancelled | hfinished
      · exact .inl (effect_cancelled.mpr (.inl hcancelled))
      · exact .inr (Move.next_finished hnext hfinished)
    · rcases Move.next_failed hnext hphase with hfinished | hreverts | haccepted
      · exact .inr hfinished
      · exact .inl (effect_cancelled.mpr (.inl (h.reverting hreverts)))
      · exact .inl (effect_cancelled.mpr (.inr haccepted))

theorem Linked.step {ev : MoverEvent} (h : Linked s) (hstep : step s ev = some t) : Linked t := by
  obtain ⟨hop, htarget, hloaded, hknown, hreverting, hfailed⟩ := h
  cases ev with
  | move ev unloaded => exact Linked.move ⟨hop, htarget, hloaded, hknown, hreverting, hfailed⟩ hstep
  | targetLaunched =>
    simp only [Mover.step] at hstep
    split_ifs at hstep
    cases hstep
    exact ⟨hop, MoveTarget.Known.launch, by simp, fun _ => rfl, hreverting, hfailed⟩
  | targetReady =>
    simp only [Mover.step] at hstep
    split_ifs at hstep
    cases hstep
    exact ⟨hop, ⟨htarget.stored, htarget.launched⟩, hloaded, hknown, hreverting, hfailed⟩
  | targetFails =>
    simp only [Mover.step] at hstep
    split_ifs at hstep
    cases hstep
    exact ⟨hop, ⟨nofun, htarget.launched⟩, hloaded, hknown, hreverting, hfailed⟩
  | loadEnds =>
    simp only [Mover.step] at hstep
    split_ifs at hstep
    cases hstep
    exact ⟨hop, htarget, by simp, hknown, hreverting, hfailed⟩
  | parkSource =>
    simp only [Mover.step] at hstep
    split_ifs at hstep
    cases hstep
    exact ⟨hop, htarget, hloaded, hknown, hreverting, hfailed⟩
  | restoreSource =>
    simp only [Mover.step] at hstep
    split_ifs at hstep
    cases hstep
    exact ⟨hop, htarget, hloaded, hknown, hreverting, hfailed⟩

end Mover

end GpuSharing.Sardeenz
