import Mathlib.Data.List.Sort
import GpuSharing.Lib.KeyedFold
import GpuSharing.Sardeenz.KvAdmission

namespace GpuSharing.Sardeenz.LaunchRecovery

inductive LoadConflictPolicy
  | sameModelSiblings
  | sleepIdleOverlapping
  | none
  deriving DecidableEq, Repr

/-- The fields of a `ModelInstance` that a launch context, a sleep or a wake reads or writes. Times
are in milliseconds. -/
structure ModelInstance where
  modelName : String
  status : ModelStatus
  gpuIds : List Nat
  topologyGpuIds : List Nat
  sleepModeEnabled : Bool
  sleepLevel : Option Nat
  routable : Bool
  lastActivityAt : Option Int
  readyAt : Option Int
  loadedAt : Int
  loadConflictPolicy : LoadConflictPolicy
  loadConflictIdleThresholdSeconds : Option Int
  deriving DecidableEq, Repr

def hasGpuOverlap (leftGpuIds rightGpuIds : List Nat) : Bool :=
  leftGpuIds.any (· ∈ rightGpuIds)

namespace ModelInstance

def getSchedulingGpuIds (e : ModelInstance) : List Nat :=
  if e.topologyGpuIds = [] then e.gpuIds else e.topologyGpuIds

def hasSchedulingOverlap (left right : ModelInstance) : Bool :=
  hasGpuOverlap left.getSchedulingGpuIds right.getSchedulingGpuIds

def getLastRelevantActivityAt (e : ModelInstance) : Int :=
  (e.lastActivityAt.orElse fun _ => e.readyAt).getD e.loadedAt

end ModelInstance

structure LaunchRecoveryStep (Id : Type) where
  instanceId : Id
  wakeOnFailure : Bool
  restoreRoutable : Bool
  deriving DecidableEq, Repr

inductive LaunchError (Id : Type)
  | overlapStarting (ids : List Id)
  | siblingNotSleepCapable (ids : List Id)
  | notFound (i : Id)
  | sleepModeDisabled
  | cannotSleep (status : ModelStatus)
  | sleepFailed
  | notSleeping
  | wakeFailed
  | drainFailed
  deriving DecidableEq, Repr

def statusText : ModelStatus → String
  | .starting => "starting"
  | .running => "running"
  | .sleeping => "sleeping"
  | .stopping => "stopping"
  | .failed => "failed"

/-- The message of an error, with the text of the engine's answer. -/
def LaunchError.text {Id : Type} [ToString Id] (errorText : String) : LaunchError Id → String
  | .overlapStarting ids =>
    "Cannot load overlapping instance while overlapping instances are still starting: "
      ++ ", ".intercalate (ids.map toString)
  | .siblingNotSleepCapable ids =>
    "Cannot safely load overlapping instance because sibling instances are not sleep-capable: "
      ++ ", ".intercalate (ids.map toString)
  | .notFound i => "Model instance " ++ toString i ++ " not found"
  | .sleepModeDisabled => "Model was not loaded with sleep mode enabled"
  | .cannotSleep status => "Cannot sleep model: current status is " ++ statusText status
  | .sleepFailed => "Failed to put model to sleep: " ++ errorText
  | .notSleeping => "Model is not sleeping"
  | .wakeFailed => "Failed to wake model: " ++ errorText
  | .drainFailed => errorText

/-- The step at which a launch fails: a wait for a drain, the sleep of the parked instance `i`, the
spawn, the startup timeout, the exit or an error of the process. -/
inductive FailingStep (Id : Type)
  | drain
  | sleep (i : Id)
  | spawn
  | startup
  | exit
  | error
  deriving DecidableEq, Repr

/-- What a launch reads of the clock and of the metrics store. -/
structure Surroundings (Id : Type) where
  now : Int
  hasActiveConnections : Id → Bool

/-- The model store, with its ids in the order of insertion, and the recovery plans. -/
structure ManagerState (Id : Type) where
  ids : List Id
  nodup : ids.Nodup
  entry : Id → ModelInstance
  launchRecoveryPlans : Id → List (LaunchRecoveryStep Id)

namespace ManagerState

variable {Id : Type} [DecidableEq Id]

def get (s : ManagerState Id) (i : Id) : Option ModelInstance :=
  if i ∈ s.ids then some (s.entry i) else none

theorem nodup_set (s : ManagerState Id) (i : Id) :
    (if i ∈ s.ids then s.ids else s.ids ++ [i]).Nodup := by
  split_ifs with hi
  · exact s.nodup
  · refine List.nodup_append.mpr ⟨s.nodup, List.nodup_singleton i, ?_⟩
    intro j hj k hk hjk
    apply hi
    rwa [← List.mem_singleton.mp hk, ← hjk]

/-- `modelStore.set`. -/
def set (s : ManagerState Id) (i : Id) (e : ModelInstance) : ManagerState Id where
  ids := if i ∈ s.ids then s.ids else s.ids ++ [i]
  nodup := nodup_set s i
  entry := Function.update s.entry i e
  launchRecoveryPlans := s.launchRecoveryPlans

def setPlan (s : ManagerState Id) (i : Id) (plan : List (LaunchRecoveryStep Id)) : ManagerState Id :=
  { s with launchRecoveryPlans := Function.update s.launchRecoveryPlans i plan }

def setRoutable (s : ManagerState Id) (i : Id) (routable : Bool) : ManagerState Id :=
  match s.get i with
  | some e => s.set i { e with routable := routable }
  | none => s

def setStatus (s : ManagerState Id) (i : Id) (status : ModelStatus) : ManagerState Id :=
  match s.get i with
  | some e => s.set i { e with status := status }
  | none => s

variable {s : ManagerState Id} {i j : Id} {e : ModelInstance}

theorem get_of_mem (h : i ∈ s.ids) : s.get i = some (s.entry i) := if_pos h

@[simp] theorem get_set_self : (s.set i e).get i = some e := by
  simp only [get, set, Function.update_self]
  split_ifs with h h' <;> simp_all

theorem get_set_of_ne (h : j ≠ i) : (s.set i e).get j = s.get j := by
  simp only [get, set, Function.update_of_ne h]
  split_ifs <;> simp_all

@[simp] theorem get_setPlan {plan : List (LaunchRecoveryStep Id)} :
    (s.setPlan i plan).get j = s.get j := rfl

theorem get_setRoutable_self {routable : Bool} :
    (s.setRoutable i routable).get i = (s.get i).map fun e => { e with routable := routable } := by
  unfold setRoutable
  cases h : s.get i with
  | none => simp [h]
  | some e => simp

theorem get_setRoutable_of_ne {routable : Bool} (h : j ≠ i) :
    (s.setRoutable i routable).get j = s.get j := by
  unfold setRoutable
  cases s.get i with
  | none => rfl
  | some e => exact get_set_of_ne h

theorem get_setStatus_of_ne {status : ModelStatus} (h : j ≠ i) :
    (s.setStatus i status).get j = s.get j := by
  unfold setStatus
  cases s.get i with
  | none => rfl
  | some e => exact get_set_of_ne h

@[simp] theorem plans_set : (s.set i e).launchRecoveryPlans = s.launchRecoveryPlans := rfl

@[simp] theorem plans_setRoutable {routable : Bool} :
    (s.setRoutable i routable).launchRecoveryPlans = s.launchRecoveryPlans := by
  unfold setRoutable
  cases s.get i <;> rfl

end ManagerState

section Source

variable {Id : Type} [DecidableEq Id]

/-- `sleepModel`, with whether the engine's answer to the request is ok. -/
def sleepModel (s : ManagerState Id) (i : Id) (ok : Bool) :
    Except (LaunchError Id) (ManagerState Id) :=
  match s.get i with
  | none => .error (.notFound i)
  | some e =>
    if !e.sleepModeEnabled then .error .sleepModeDisabled
    else if e.status ≠ .running then .error (.cannotSleep e.status)
    else if ok then .ok (s.set i { e with status := .sleeping, sleepLevel := some 1 })
    else .error .sleepFailed

/-- `wakeModel` without options. -/
def wakeModel (now : Int) (s : ManagerState Id) (i : Id) (ok : Bool) :
    Except (LaunchError Id) (ManagerState Id) :=
  match s.get i with
  | none => .error (.notFound i)
  | some e =>
    if e.status ≠ .sleeping then .error .notSleeping
    else if ok then
      .ok (s.set i { e with
        status := .running, routable := true, sleepLevel := none, lastActivityAt := some now })
    else .error .wakeFailed

/-- The instances of the same name with a GPU in common. -/
def siblings (s : ManagerState Id) (i : Id) (e : ModelInstance) : List Id :=
  s.ids.filter fun j =>
    (s.entry j).modelName = e.modelName ∧ j ≠ i ∧ hasGpuOverlap (s.entry j).gpuIds e.gpuIds

def overlappingInstances (s : ManagerState Id) (i : Id) (e : ModelInstance) : List Id :=
  s.ids.filter fun j => j ≠ i ∧ (s.entry j).hasSchedulingOverlap e

def runningSiblings (s : ManagerState Id) (i : Id) (e : ModelInstance) : List Id :=
  (siblings s i e).filter fun j => (s.entry j).status = .running

/-- The idle overlapping instances, the one that is idle for the longest time first. -/
def idleCandidates (w : Surroundings Id) (s : ManagerState Id) (i : Id) (e : ModelInstance) :
    List Id :=
  ((overlappingInstances s i e).filter fun j =>
    (s.entry j).status = .running ∧ (s.entry j).sleepModeEnabled ∧ j ∉ runningSiblings s i e ∧
      !w.hasActiveConnections j ∧
      w.now - (s.entry j).getLastRelevantActivityAt
        ≥ e.loadConflictIdleThresholdSeconds.getD 600 * 1000).insertionSort fun j k =>
    (s.entry j).getLastRelevantActivityAt ≤ (s.entry k).getLastRelevantActivityAt

/-- The instances that `prepareLaunchContext` parks, in their order. -/
def instancesToPark (w : Surroundings Id) (s : ManagerState Id) (i : Id) (e : ModelInstance) :
    Except (LaunchError Id) (List Id) :=
  if !e.sleepModeEnabled then .ok []
  else if siblings s i e = [] ∧ e.loadConflictPolicy ≠ .sleepIdleOverlapping then .ok []
  else
    let startingOverlaps :=
      (overlappingInstances s i e).filter fun j => (s.entry j).status = .starting
    let nonSleepCapableSiblings :=
      (runningSiblings s i e).filter fun j => !(s.entry j).sleepModeEnabled
    if startingOverlaps ≠ [] then .error (.overlapStarting startingOverlaps)
    else if nonSleepCapableSiblings ≠ [] then
      .error (.siblingNotSleepCapable nonSleepCapableSiblings)
    else if e.loadConflictPolicy = .sleepIdleOverlapping then
      .ok (runningSiblings s i e ++ idleCandidates w s i e)
    else .ok (runningSiblings s i e)

/-- The parked instances are put to sleep one after the other, up to the first failure. -/
def sleepEach (ok : Id → Bool) : ManagerState Id → List Id →
    ManagerState Id × Option (LaunchError Id)
  | s, [] => (s, none)
  | s, j :: js =>
    match sleepModel s j (ok j) with
    | .ok t => sleepEach ok t js
    | .error err => (s, some err)

def recoveryStep (s : ManagerState Id) (j : Id) : LaunchRecoveryStep Id where
  instanceId := j
  wakeOnFailure := true
  restoreRoutable := (s.entry j).routable

/-- `waitForDrain` gives up waiting at its timeout; `drain` stands for any other end of one. -/
def prepareLaunchContext (w : Surroundings Id) (s : ManagerState Id) (i : Id) (e : ModelInstance)
    (step : FailingStep Id) : ManagerState Id × Option (LaunchError Id) :=
  match instancesToPark w s i e with
  | .error err => (s, some err)
  | .ok [] => (s, none)
  | .ok parked =>
    let planned := s.setPlan i (parked.map (recoveryStep s))
    let unroutable := parked.foldl (fun t j => t.setRoutable j false) planned
    if step = .drain then (unroutable, some .drainFailed)
    else sleepEach (fun j => step ≠ .sleep j) unroutable parked

/-- One step of a recovery; its wake request succeeds. -/
def restoreStep (now : Int) (s : ManagerState Id) (step : LaunchRecoveryStep Id) :
    ManagerState Id :=
  match s.get step.instanceId with
  | none => s
  | some current =>
    let woken :=
      if step.wakeOnFailure ∧ current.status = .sleeping then
        match wakeModel now s step.instanceId true with
        | .ok t => t
        | .error _ => s
      else s
    if step.restoreRoutable then woken.setRoutable step.instanceId true else woken

def restoreLaunchContext (now : Int) (s : ManagerState Id) (i : Id) : ManagerState Id :=
  (s.launchRecoveryPlans i).foldl (restoreStep now) (s.setPlan i [])

/-- The catch block of `launchModel`. -/
def handleSpawnFailure (now : Int) (s : ManagerState Id) (i : Id) (e : ModelInstance) :
    ManagerState Id :=
  restoreLaunchContext now (s.set i { e with status := .failed }) i

/-- The catch block of `monitorModelStartup`. -/
def handleStartupFailure (now : Int) (s : ManagerState Id) (i : Id) : ManagerState Id :=
  (restoreLaunchContext now s i).setStatus i .failed

def handleProcessExit (now : Int) (s : ManagerState Id) (i : Id) : ManagerState Id :=
  match s.get i with
  | none => s
  | some e => if e.status ≠ .stopping then (restoreLaunchContext now s i).setStatus i .failed else s

def handleProcessError (now : Int) (s : ManagerState Id) (i : Id) : ManagerState Id :=
  match s.get i with
  | none => s
  | some _ => (restoreLaunchContext now s i).setStatus i .failed

/-- The launch of `i` with everything that recovers from its failure at the step; `none` when it
does not come to the step. The process that is killed after a failed startup exits, and the monitor
of a process that has gone comes to its timeout. -/
def failedLaunch (w : Surroundings Id) (s : ManagerState Id) (i : Id) (e : ModelInstance)
    (step : FailingStep Id) : Option (ManagerState Id) :=
  match prepareLaunchContext w s i e step with
  | (t, some _) => some (handleSpawnFailure w.now t i e)
  | (t, none) =>
    let spawned := t.set i { e with status := .starting }
    match step with
    | .spawn => some (handleSpawnFailure w.now t i e)
    | .startup => some (handleProcessExit w.now (handleStartupFailure w.now spawned i) i)
    | .exit => some (handleStartupFailure w.now (handleProcessExit w.now spawned i) i)
    | .error => some (handleStartupFailure w.now (handleProcessError w.now spawned i) i)
    | _ => none

end Source

variable {Id : Type} [DecidableEq Id] {w : Surroundings Id} {s t u : ManagerState Id} {i j : Id}
  {e x : ModelInstance} {step : FailingStep Id} {parked : List Id} {now : Int}

section Parking

/-- What a parked instance is when its launch comes to its end. -/
def parkedEntry (slept : List Id) (s : ManagerState Id) (j : Id) : ModelInstance :=
  if j ∈ slept then
    { s.entry j with status := .sleeping, sleepLevel := some 1, routable := false }
  else { s.entry j with routable := false }

/-- The parked instances that have been put to sleep when the launch fails at the step. -/
def sleptBefore (step : FailingStep Id) (parked : List Id) : List Id :=
  if step = .drain then [] else parked.takeWhile fun j => step ≠ .sleep j

/-- An instance that a launch may park. -/
structure Parkable (s : ManagerState Id) (i j : Id) : Prop where
  stored : j ∈ s.ids
  other : j ≠ i
  running : (s.entry j).status = .running
  sleepCapable : (s.entry j).sleepModeEnabled

theorem instancesToPark_ok (h : instancesToPark w s i e = .ok parked) :
    parked.Nodup ∧ ∀ j ∈ parked, Parkable s i j := by
  have hsiblings : (runningSiblings s i e).Nodup := (s.nodup.filter _).filter _
  have hnone : ([] : List Id).Nodup ∧ ∀ j ∈ ([] : List Id), Parkable s i j :=
    ⟨List.nodup_nil, fun _ hj => absurd hj List.not_mem_nil⟩
  simp only [instancesToPark] at h
  split_ifs at h with hmode halone hstarting hcapable hpolicy
  · cases h
    exact hnone
  · cases h
    exact hnone
  all_goals
    have hsafe : ∀ j ∈ runningSiblings s i e, Parkable s i j := by
      intro j hj
      have hmem := hj
      simp only [runningSiblings, siblings, List.mem_filter, decide_eq_true_eq] at hmem
      obtain ⟨⟨hstored, -, hne, -⟩, hrunning⟩ := hmem
      refine ⟨hstored, hne, hrunning, ?_⟩
      have := List.filter_eq_nil_iff.mp (not_not.mp hcapable) j hj
      simpa using this
  · -- the idle candidates come after the siblings
    cases h
    have hidle : ∀ j ∈ idleCandidates w s i e, Parkable s i j ∧ j ∉ runningSiblings s i e := by
      intro j hj
      have hmem := (List.mem_insertionSort _).mp hj
      simp only [overlappingInstances, List.mem_filter, decide_eq_true_eq] at hmem
      obtain ⟨⟨hstored, hne, -⟩, hrunning, hcap, hnew, -⟩ := hmem
      exact ⟨⟨hstored, hne, hrunning, hcap⟩, hnew⟩
    constructor
    · refine List.nodup_append.mpr ⟨hsiblings, ?_, ?_⟩
      · exact (List.perm_insertionSort _ _).nodup_iff.mpr ((s.nodup.filter _).filter _)
      · intro j hj k hk hjk
        exact (hidle k hk).2 (hjk ▸ hj)
    · intro j hj
      rcases List.mem_append.mp hj with hj | hj
      · exact hsafe j hj
      · exact (hidle j hj).1
  · cases h
    exact ⟨hsiblings, hsafe⟩

/-- The sleeps succeed up to the failing one, and change nothing else. -/
theorem sleepEach_spec (ok : Id → Bool) (hn : parked.Nodup)
    (h : ∀ j ∈ parked, ∃ x, s.get j = some x ∧ x.sleepModeEnabled ∧ x.status = .running) :
    (∀ j ∈ parked.takeWhile ok, (sleepEach ok s parked).1.get j =
      (s.get j).map fun x => { x with status := .sleeping, sleepLevel := some 1 }) ∧
    (∀ j, j ∉ parked.takeWhile ok → (sleepEach ok s parked).1.get j = s.get j) ∧
    (sleepEach ok s parked).1.launchRecoveryPlans = s.launchRecoveryPlans ∧
    ((sleepEach ok s parked).2 = none ↔ ∀ j ∈ parked, ok j) := by
  induction parked generalizing s with
  | nil => simp [sleepEach]
  | cons j js ih =>
    obtain ⟨hj, hn⟩ := List.nodup_cons.mp hn
    obtain ⟨x, hget, hmode, hrunning⟩ := h j List.mem_cons_self
    cases hok : ok j with
    | false =>
      have hfail : sleepModel s j false = .error .sleepFailed := by
        simp [sleepModel, hget, hmode, hrunning]
      simp [sleepEach, hok, hfail]
    | true =>
      let t := s.set j { x with status := .sleeping, sleepLevel := some 1 }
      have hsleep : sleepModel s j true = .ok t := by
        simp [sleepModel, hget, hmode, hrunning, t]
      have hother : ∀ k ∈ js, t.get k = s.get k := by
        intro k hk
        exact ManagerState.get_set_of_ne fun heq => hj (heq ▸ hk)
      obtain ⟨hslept, hkept, hplans, herr⟩ := ih hn (s := t) (by
        intro k hk
        rw [hother k hk]
        exact h k (List.mem_cons_of_mem j hk))
      have hstep : sleepEach ok s (j :: js) = sleepEach ok t js := by
        simp [sleepEach, hok, hsleep]
      have hjslept : j ∉ js.takeWhile ok := fun hmem => hj ((List.takeWhile_sublist ok).subset hmem)
      rw [hstep, List.takeWhile_cons_of_pos hok]
      refine ⟨fun k hk => ?_, fun k hk => ?_, hplans, ?_⟩
      · rcases List.mem_cons.mp hk with rfl | hk
        · rw [hkept k hjslept, ManagerState.get_set_self, hget]
          rfl
        · rw [hslept k hk, hother k ((List.takeWhile_sublist ok).subset hk)]
      · simp only [List.mem_cons, not_or] at hk
        rw [hkept k hk.2, ManagerState.get_set_of_ne hk.1]
      · rw [herr]
        simp [hok]

end Parking

section Recovery

/-- What a step of the recovery makes of its instance. -/
def recovered (now : Int) (step : LaunchRecoveryStep Id) (x : ModelInstance) : ModelInstance :=
  let woken : ModelInstance :=
    if step.wakeOnFailure ∧ x.status = .sleeping then
      { x with status := .running, routable := true, sleepLevel := none, lastActivityAt := some now }
    else x
  if step.restoreRoutable then { woken with routable := true } else woken

theorem restoreStep_of_ne {step : LaunchRecoveryStep Id} (h : j ≠ step.instanceId) :
    (restoreStep now s step).get j = s.get j := by
  unfold restoreStep
  cases hget : s.get step.instanceId with
  | none => rfl
  | some x =>
    have hset : ∀ x, (s.set step.instanceId x).get j = s.get j := fun x =>
      ManagerState.get_set_of_ne h
    have hroutable : ∀ t : ManagerState Id, (t.setRoutable step.instanceId true).get j = t.get j :=
      fun t => ManagerState.get_setRoutable_of_ne h
    simp only [wakeModel, hget]
    split_ifs <;> simp_all

theorem restoreStep_self {step : LaunchRecoveryStep Id} :
    (restoreStep now s step).get step.instanceId =
      (s.get step.instanceId).map (recovered now step) := by
  unfold restoreStep
  cases hget : s.get step.instanceId with
  | none => simpa using hget
  | some x =>
    simp only [wakeModel, hget, recovered, Option.map_some]
    split_ifs <;> simp_all [ManagerState.get_setRoutable_self]

theorem plans_restoreStep {step : LaunchRecoveryStep Id} :
    (restoreStep now s step).launchRecoveryPlans = s.launchRecoveryPlans := by
  unfold restoreStep
  cases hget : s.get step.instanceId with
  | none => rfl
  | some x =>
    simp only [wakeModel, hget]
    split_ifs <;> simp_all

/-- The plan is deleted on its first use. -/
theorem plan_restoreLaunchContext :
    (restoreLaunchContext now s i).launchRecoveryPlans i = [] := by
  have hkeep : (restoreLaunchContext now s i).launchRecoveryPlans =
      (s.setPlan i []).launchRecoveryPlans :=
    KeyedFold.foldl_field (fun t l => plans_restoreStep) _ _
  rw [hkeep]
  exact Function.update_self ..

/-- Without a plan there is nothing to restore. -/
theorem get_restoreLaunchContext_of_noPlan (h : s.launchRecoveryPlans i = []) :
    (restoreLaunchContext now s i).get j = s.get j := by
  rw [restoreLaunchContext, h]
  rfl

theorem get_restoreLaunchContext (now : Int) {plan : List (LaunchRecoveryStep Id)}
    (hplan : s.launchRecoveryPlans i = plan) (hn : (plan.map (·.instanceId)).Nodup)
    {step : LaunchRecoveryStep Id} (hstep : step ∈ plan) :
    (restoreLaunchContext now s i).get step.instanceId =
      (s.get step.instanceId).map (recovered now step) := by
  subst hplan
  rw [restoreLaunchContext]
  have hother : ∀ (t : ManagerState Id) (l : LaunchRecoveryStep Id) (k : Id),
      k ≠ l.instanceId → (restoreStep now t l).get k = t.get k :=
    fun t l k hk => restoreStep_of_ne hk
  exact KeyedFold.foldl_view _ hother (fun t l => restoreStep_self) hn hstep _

theorem get_handleStartupFailure (now : Int) (s : ManagerState Id) (h : j ≠ i) :
    (handleStartupFailure now s i).get j = (restoreLaunchContext now s i).get j :=
  ManagerState.get_setStatus_of_ne h

end Recovery

section Launch

/-- The instances that the launch parks. -/
def parkedBy (w : Surroundings Id) (s : ManagerState Id) (i : Id) (e : ModelInstance) : List Id :=
  match instancesToPark w s i e with
  | .ok parked => parked
  | .error _ => []

/-- The state that the launch leaves to its recovery: what it has parked, with the plan for it. -/
structure ParkedState (s : ManagerState Id) (i : Id) (slept parked : List Id) (t : ManagerState Id) :
    Prop where
  plan : t.launchRecoveryPlans i = parked.map (recoveryStep s)
  entries : ∀ j ∈ parked, t.get j = some (parkedEntry slept s j)

theorem ParkedState.set {slept : List Id} (h : ParkedState s i slept parked t) (hi : i ∉ parked)
    (e : ModelInstance) : ParkedState s i slept parked (t.set i e) := by
  refine ⟨h.plan, fun j hj => ?_⟩
  have hne : j ≠ i := fun heq => hi (heq ▸ hj)
  rw [ManagerState.get_set_of_ne hne]
  exact h.entries j hj

theorem prepareLaunchContext_parked (step : FailingStep Id) (hparked : instancesToPark w s i e = .ok parked)
    (hne : parked ≠ []) :
    ParkedState s i (sleptBefore step parked) parked (prepareLaunchContext w s i e step).1 ∧
    ((prepareLaunchContext w s i e step).2 = none ↔
      step ≠ .drain ∧ ∀ j ∈ parked, step ≠ .sleep j) := by
  obtain ⟨hn, hpark⟩ := instancesToPark_ok hparked
  let planned := s.setPlan i (parked.map (recoveryStep s))
  let unroutable := parked.foldl (fun t j => t.setRoutable j false) planned
  have hget : ∀ j ∈ parked, unroutable.get j = some { s.entry j with routable := false } := by
    intro j hj
    have hother : ∀ (t : ManagerState Id) (l k : Id), k ≠ l →
        (t.setRoutable l false).get k = t.get k :=
      fun t l k hk => ManagerState.get_setRoutable_of_ne hk
    have hself : ∀ (t : ManagerState Id) (l : Id), (t.setRoutable l false).get l =
        (t.get l).map fun x => { x with routable := false } :=
      fun t l => ManagerState.get_setRoutable_self
    have hset := KeyedFold.foldl_view id hother hself (by simpa using hn) hj planned
    rw [show planned.get (id j) = _ from ManagerState.get_of_mem (hpark j hj).stored] at hset
    exact hset
  have hplan : unroutable.launchRecoveryPlans i = parked.map (recoveryStep s) := by
    have hkeep : unroutable.launchRecoveryPlans = planned.launchRecoveryPlans :=
      KeyedFold.foldl_field (fun t l => ManagerState.plans_setRoutable) _ _
    rw [hkeep]
    exact Function.update_self ..
  have heq : prepareLaunchContext w s i e step =
      if step = .drain then (unroutable, some .drainFailed)
      else sleepEach (fun j => step ≠ .sleep j) unroutable parked := by
    obtain ⟨k, ks, rfl⟩ := List.exists_cons_of_ne_nil hne
    simp only [prepareLaunchContext, hparked]
    rfl
  rw [heq]
  by_cases hdrain : step = .drain
  · rw [if_pos hdrain]
    refine ⟨⟨hplan, fun j hj => ?_⟩, by simp [hdrain]⟩
    simp [hget j hj, parkedEntry, sleptBefore, hdrain]
  · rw [if_neg hdrain]
    obtain ⟨hslept, hkept, hplans, herr⟩ := sleepEach_spec (fun j => step ≠ .sleep j) hn
      (s := unroutable) (by
        intro j hj
        refine ⟨_, hget j hj, (hpark j hj).sleepCapable, (hpark j hj).running⟩)
    refine ⟨⟨hplans ▸ hplan, fun j hj => ?_⟩, by simpa [hdrain] using herr⟩
    rw [sleptBefore, if_neg hdrain, parkedEntry]
    split_ifs with hmem
    · rw [hslept j hmem, hget j hj]
      rfl
    · rw [hkept j hmem, hget j hj]

/-- The recovery of a parked instance: it runs again, and is routable if it was so or was woken. -/
theorem get_restore_parked (now : Int) {slept : List Id} (h : ParkedState s i slept parked t)
    (hpark : ∀ j ∈ parked, Parkable s i j) (hn : parked.Nodup) (hj : j ∈ parked) :
    ∃ y, (restoreLaunchContext now t i).get j = some y ∧ y.status = .running ∧
      y.routable = (decide (j ∈ slept) || (s.entry j).routable) := by
  have hkeys : (parked.map (recoveryStep s)).map (·.instanceId) = parked := by
    rw [List.map_map]
    exact List.map_id parked
  have hstep : recoveryStep s j ∈ parked.map (recoveryStep s) := List.mem_map_of_mem hj
  have hget := get_restoreLaunchContext now h.plan (by rwa [hkeys]) hstep
  rw [show (recoveryStep s j).instanceId = j from rfl, h.entries j hj] at hget
  refine ⟨_, hget, ?_, ?_⟩
  · have hrunning := (hpark j hj).running
    simp only [recovered, recoveryStep, parkedEntry]
    split_ifs <;> simp_all
  · have hrunning := (hpark j hj).running
    simp only [recovered, recoveryStep, parkedEntry]
    split_ifs <;> simp_all

/-- The instance runs as before, with the routable flag that it had. -/
def Restored (s t : ManagerState Id) (j : Id) : Prop :=
  (s.get j).map (fun x => (x.status, x.routable)) =
      (t.get j).map (fun x => (x.status, x.routable)) ∧
    (t.get j).map (·.status) = some .running

instance : Decidable (Restored s t j) := by
  unfold Restored
  infer_instance

/-- A handler that finds no plan leaves the other instances alone. -/
theorem get_handlers_of_noPlan (now : Int) (hplan : s.launchRecoveryPlans i = []) (hj : j ≠ i) :
    (handleStartupFailure now s i).get j = s.get j ∧ (handleProcessExit now s i).get j = s.get j := by
  have hfail : (handleStartupFailure now s i).get j = s.get j := by
    rw [get_handleStartupFailure now s hj, get_restoreLaunchContext_of_noPlan hplan]
  refine ⟨hfail, ?_⟩
  unfold handleProcessExit
  cases s.get i with
  | none => rfl
  | some x =>
    dsimp only
    split_ifs
    · exact hfail
    · rfl

theorem plan_handleStartupFailure (now : Int) (s : ManagerState Id) (i : Id) :
    (handleStartupFailure now s i).launchRecoveryPlans i = [] := by
  unfold handleStartupFailure ManagerState.setStatus
  cases (restoreLaunchContext now s i).get i with
  | none => exact plan_restoreLaunchContext
  | some x => exact plan_restoreLaunchContext

/-- Whichever handler comes first restores what the launch has parked, and those after it find no
plan. -/
theorem get_failedLaunch (h : failedLaunch w s i e step = some u) (hj : j ≠ i) :
    ∃ status, u.get j = (restoreLaunchContext w.now
      ((prepareLaunchContext w s i e step).1.set i { e with status := status }) i).get j := by
  unfold failedLaunch at h
  rcases hprepare : prepareLaunchContext w s i e step with ⟨t, err⟩
  rw [hprepare] at h
  cases err with
  | some err =>
    cases h
    exact ⟨.failed, rfl⟩
  | none =>
    let spawned := t.set i { e with status := .starting }
    have hfirst := get_handleStartupFailure w.now spawned hj
    have hlater := get_handlers_of_noPlan w.now (plan_handleStartupFailure w.now spawned i) hj
    have hexit : handleProcessExit w.now spawned i = handleStartupFailure w.now spawned i := by
      simp [handleProcessExit, handleStartupFailure, spawned]
    have herror : handleProcessError w.now spawned i = handleStartupFailure w.now spawned i := by
      simp [handleProcessError, handleStartupFailure, spawned]
    cases step with
    | drain => cases h
    | sleep k => cases h
    | spawn =>
      cases h
      exact ⟨.failed, rfl⟩
    | startup =>
      cases h
      exact ⟨.starting, hlater.2.trans hfirst⟩
    | exit =>
      cases h
      refine ⟨.starting, ?_⟩
      change (handleStartupFailure w.now (handleProcessExit w.now spawned i) i).get j = _
      rw [hexit]
      exact hlater.1.trans hfirst
    | error =>
      cases h
      refine ⟨.starting, ?_⟩
      change (handleStartupFailure w.now (handleProcessError w.now spawned i) i).get j = _
      rw [herror]
      exact hlater.1.trans hfirst

/-- The recovery brings all parked instances back exactly if those that were put to sleep before the
failure were routable. -/
theorem parked_restored_iff (w : Surroundings Id) (s u : ManagerState Id) (i : Id)
    (e : ModelInstance) (step : FailingStep Id) (h : failedLaunch w s i e step = some u) :
    (∀ j ∈ parkedBy w s i e, Restored s u j) ↔
      ∀ j ∈ sleptBefore step (parkedBy w s i e), (s.entry j).routable := by
  cases hparked : instancesToPark w s i e with
  | error err => simp [parkedBy, hparked, sleptBefore]
  | ok parked =>
    have hby : parkedBy w s i e = parked := by simp [parkedBy, hparked]
    rw [hby]
    by_cases hne : parked = []
    · simp [hne, sleptBefore]
    obtain ⟨hn, hpark⟩ := instancesToPark_ok hparked
    have hi : i ∉ parked := fun hi => (hpark i hi).other rfl
    have hstate := (prepareLaunchContext_parked step hparked hne).1
    have hone : ∀ j ∈ parked, Restored s u j ↔
        (j ∈ sleptBefore step parked → (s.entry j).routable) := by
      intro j hj
      obtain ⟨status, hget⟩ := get_failedLaunch h (hpark j hj).other
      obtain ⟨y, hy, hrunning, hroutable⟩ :=
        get_restore_parked w.now (hstate.set hi { e with status := status }) hpark hn hj
      rw [hy] at hget
      rw [Restored, hget, ManagerState.get_of_mem (hpark j hj).stored]
      simp [(hpark j hj).running, hrunning, hroutable]
    have hsub : ∀ j ∈ sleptBefore step parked, j ∈ parked := by
      intro j hj
      unfold sleptBefore at hj
      split_ifs at hj with hdrain
      · cases hj
      · exact (List.takeWhile_sublist _).subset hj
    constructor
    · intro hall j hj
      exact (hone j (hsub j hj)).mp (hall j (hsub j hj)) hj
    · intro hall j hj
      exact (hone j hj).mpr (hall j)

section Examples

def runningModel (routable : Bool) : ModelInstance where
  modelName := "llama"
  status := .running
  gpuIds := [0]
  topologyGpuIds := []
  sleepModeEnabled := true
  sleepLevel := none
  routable := routable
  lastActivityAt := none
  readyAt := none
  loadedAt := 0
  loadConflictPolicy := .sameModelSiblings
  loadConflictIdleThresholdSeconds := none

def oneRunning (routable : Bool) : ManagerState Nat where
  ids := [0]
  nodup := List.nodup_singleton 0
  entry _ := runningModel routable
  launchRecoveryPlans _ := []

def quiet : Surroundings Nat := ⟨1000, fun _ => false⟩

/-- A sibling that was kept out of the routing before the launch is routable after the recovery. -/
theorem standby_made_routable : ∃ u,
    failedLaunch quiet (oneRunning false) 1 (runningModel true) .spawn = some u ∧
      0 ∈ parkedBy quiet (oneRunning false) 1 (runningModel true) ∧
      ¬Restored (oneRunning false) u 0 :=
  ⟨(failedLaunch quiet (oneRunning false) 1 (runningModel true) .spawn).get (by decide +kernel),
    (Option.some_get _).symm, by decide +kernel, by decide +kernel⟩

theorem parked_restored_oneSibling :
    0 ∈ parkedBy quiet (oneRunning true) 1 (runningModel true) ∧
      Restored (oneRunning true)
        ((failedLaunch quiet (oneRunning true) 1 (runningModel true) .startup).get
          (by decide +kernel)) 0 :=
  ⟨by decide +kernel,
    (parked_restored_iff quiet (oneRunning true) _ 1 (runningModel true) .startup
      (Option.some_get _).symm).mpr (by decide +kernel) 0 (by decide +kernel)⟩

end Examples

end Launch

end GpuSharing.Sardeenz.LaunchRecovery
