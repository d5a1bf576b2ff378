import Mathlib.Logic.Function.Basic
import GpuSharing.Lib.Transition
import GpuSharing.Sardeenz.KvAdmission

namespace GpuSharing.Sardeenz

/-- The loop of `getNextPort`, which gives up above 65535. -/
def getNextPort (usedPorts : List Nat) : Nat → Nat → Option Nat
  | port, 0 => if port ∈ usedPorts then none else some port
  | port, tries + 1 =>
    if port ∈ usedPorts then
      if 65535 < port + 1 then none else getNextPort usedPorts (port + 1) tries
    else some port

theorem getNextPort_unused {usedPorts : List Nat} {basePort tries port : Nat}
    (h : getNextPort usedPorts basePort tries = some port) : port ∉ usedPorts := by
  induction tries generalizing basePort with
  | zero =>
    rw [getNextPort] at h
    split_ifs at h with hused
    cases h
    exact hused
  | succ tries ih =>
    rw [getNextPort] at h
    split_ifs at h with hused
    · exact ih h
    · cases h
      exact hused

structure ManagerConfig where
  vllmBasePort : Nat
  enableKvcached : Bool
  admission : AdmissionConfig
  deriving DecidableEq

def ManagerConfig.safeLimitBytes (c : ManagerConfig) : ℚ :=
  c.admission.globalLimit * 1024 * 1024 * 1024

/-- What a launch asks for, after its GPUs have been selected. -/
structure LaunchOptions where
  targetGpuIds : List Nat
  kvCacheMemoryBytes : Option Nat
  enableSleepMode : Bool
  deriving DecidableEq, Repr

/-- Where `launchModel` stands. `checked` has passed the KV startup budget and has no port yet,
`preparing` has its port and awaits `prepareLaunchContext`. -/
inductive LaunchPc
  | checked
  | preparing
  | returned
  deriving DecidableEq, Repr

inductive ProcessState
  | unspawned
  | alive
  | exited
  | reaped
  deriving DecidableEq, Repr

/-- Where `monitorStartup` of an instance stands. In `answered` its health poll has an answer, from
the process of an instance, which it has not taken up yet; in `capturing` it has set the status and
will store the instance again. -/
inductive MonitorPc (Id : Type)
  | idle
  | polling
  | answered (process : Id)
  | capturing
  | failing
  | cleaning
  deriving DecidableEq, Repr

/-- One launch with the instance object that it makes, which all calls on the instance share.
`stored` is whether the object is in the model store and `handle` whether the process is in
`processes`; `sleeps`, `wakes` and `unloads` count the calls past their checks. `unloaded` and
`ended` record that `unloadModel` has removed the instance and that a handler of its process has
run. -/
structure Launch (Id : Type) where
  options : LaunchOptions
  kvcachedEnabled : Bool
  pc : LaunchPc
  port : Nat
  status : ModelStatus
  stored : Bool
  handle : Bool
  process : ProcessState
  monitor : MonitorPc Id
  sleeps : Nat
  wakes : Nat
  unloads : Nat
  unloaded : Bool
  ended : Bool
  deriving DecidableEq, Repr

/-- What happens to one instance: a step of `launchModel`, of the startup monitor, of a handler, of
a call of `unloadModel`, `sleepModel` or `wakeModel`, or of its process. -/
inductive InstanceEvent (Id : Type)
  | choosePort (port : Nat)
  | abandon
  | spawn
  | spawnFail
  | pollAnswered (process : Id)
  | monitorReady
  | monitorDone
  | monitorThrow
  | monitorFail
  | monitorCleaned
  | exit
  | handleExit
  | handleError
  | unload
  | unloadDone
  | unloadFail
  | sleep
  | sleepDone
  | sleepFail
  | wake
  | wakeDone
  | wakeFail
  deriving DecidableEq, Repr

namespace Launch

variable {Id : Type}

def start (options : LaunchOptions) (kvcachedEnabled : Bool) : Launch Id :=
  { options := options
    kvcachedEnabled := kvcachedEnabled
    pc := .checked
    port := 0
    status := .starting
    stored := false
    handle := false
    process := .unspawned
    monitor := .idle
    sleeps := 0
    wakes := 0
    unloads := 0
    unloaded := false
    ended := false }

/-- The statuses that the KV startup budget and the untracked process check count. -/
def isActive (status : ModelStatus) : Bool :=
  status = .starting ∨ status = .running ∨ status = .sleeping

/-- The bytes that the instance holds of the GPU's KV cache, as far as the store shows. -/
def storedBytes (e : Launch Id) : Nat :=
  if e.stored ∧ isActive e.status then e.options.kvCacheMemoryBytes.getD 0 else 0

/-- `hasGpuOverlap`. The scheduling GPUs of an instance are its target GPUs. -/
def overlaps (e : Launch Id) (gpuIds : List Nat) : Bool :=
  e.options.targetGpuIds.any (· ∈ gpuIds)

/-- Nothing has happened to the instance yet but the steps of its launch. -/
structure Fresh (e : Launch Id) : Prop where
  starting : e.status = .starting
  unstored : e.stored = false
  unspawned : e.process = .unspawned
  unmonitored : e.monitor = .idle
  noSleeps : e.sleeps = 0
  noWakes : e.wakes = 0
  noUnloads : e.unloads = 0
  loaded : e.unloaded = false
  unended : e.ended = false

theorem start_fresh (options : LaunchOptions) (kvcachedEnabled : Bool) :
    (start options kvcachedEnabled : Launch Id).Fresh :=
  ⟨rfl, rfl, rfl, rfl, rfl, rfl, rfl, rfl, rfl⟩

variable [DecidableEq Id]

/-- One step of the instance; `none` when it is not enabled. -/
def next (e : Launch Id) : InstanceEvent Id → Option (Launch Id)
  | .choosePort port => if e.pc = .checked then some { e with pc := .preparing, port := port } else none
  | .abandon => if e.pc = .checked then some { e with pc := .returned } else none
  | .spawn =>
    if e.pc = .preparing then
      some { e with
        pc := .returned, stored := true, handle := true, process := .alive, monitor := .polling }
    else none
  | .spawnFail =>
    if e.pc = .preparing then some { e with pc := .returned, status := .failed, stored := true }
    else none
  | .pollAnswered process =>
    if e.monitor = .polling then some { e with monitor := .answered process } else none
  | .monitorReady =>
    match e.monitor with
    | .answered _ =>
      if e.stored then some { e with status := .running, monitor := .capturing }
      else some { e with monitor := .idle }
    | _ => none
  | .monitorDone =>
    if e.monitor = .capturing then some { e with stored := true, monitor := .idle } else none
  | .monitorThrow =>
    if e.monitor = .polling ∨ e.monitor = .capturing then some { e with monitor := .failing }
    else none
  | .monitorFail =>
    if e.monitor = .failing then
      if e.stored then some { e with status := .failed, monitor := .cleaning }
      else some { e with monitor := .idle }
    else none
  | .monitorCleaned =>
    if e.monitor = .cleaning then some { e with handle := false, monitor := .idle } else none
  | .exit => if e.process = .alive then some { e with process := .exited } else none
  | .handleExit =>
    if e.process = .exited then
      if e.stored then
        some { e with
          process := .reaped, ended := true, handle := false
          status := if e.status = .stopping then .stopping else .failed }
      else some { e with process := .reaped, ended := true }
    else none
  | .handleError =>
    if e.process = .unspawned then none
    else if e.stored then some { e with ended := true, handle := false, status := .failed }
    else some { e with ended := true }
  | .unload =>
    if e.stored then
      if e.handle then some { e with status := .stopping, unloads := e.unloads + 1 }
      else some { e with stored := false, unloaded := true }
    else none
  | .unloadDone =>
    if 0 < e.unloads then
      some { e with stored := false, unloaded := true, handle := false, unloads := e.unloads - 1 }
    else none
  | .unloadFail => if 0 < e.unloads then some { e with unloads := e.unloads - 1 } else none
  | .sleep =>
    if e.stored ∧ e.options.enableSleepMode ∧ e.status = .running then
      some { e with sleeps := e.sleeps + 1 }
    else none
  | .sleepDone =>
    if 0 < e.sleeps then
      some { e with status := .sleeping, stored := true, sleeps := e.sleeps - 1 }
    else none
  | .sleepFail => if 0 < e.sleeps then some { e with sleeps := e.sleeps - 1 } else none
  | .wake =>
    if e.stored ∧ e.status = .sleeping then some { e with wakes := e.wakes + 1 } else none
  | .wakeDone =>
    if 0 < e.wakes then some { e with status := .running, stored := true, wakes := e.wakes - 1 }
    else none
  | .wakeFail => if 0 < e.wakes then some { e with wakes := e.wakes - 1 } else none

section Next

variable {e e' : Launch Id} {ev : InstanceEvent Id}

theorem next_options (hnext : e.next ev = some e') : e'.options = e.options := by
  cases ev <;> (simp only [next] at hnext; grind)

theorem next_returned (hnext : e.next ev = some e') (h : e.pc = .returned) : e'.pc = .returned := by
  cases ev <;> (simp only [next] at hnext; grind)

theorem next_capturing (hnext : e.next ev = some e') (h : e'.monitor = .capturing) :
    e.monitor = .capturing ∨ ev = .monitorReady := by
  cases ev <;> (simp only [next] at hnext; grind)

/-- A launch that has not returned is fresh, and stays so until its last step. -/
theorem next_fresh (h : e.pc ≠ .returned → e.Fresh)
    (hnext : e.next ev = some e') (hpc : e'.pc ≠ .returned) : e'.Fresh := by
  have hfresh : e.pc ≠ .returned := by
    cases ev <;> (simp only [next] at hnext; grind)
  obtain ⟨h1, h2, h3, h4, h5, h6, h7, h8, h9⟩ := h hfresh
  -- only the choice of the port leaves the launch where it can be fresh
  cases ev with
  | choosePort port =>
    simp only [next] at hnext
    split_ifs at hnext
    cases hnext
    exact ⟨h1, h2, h3, h4, h5, h6, h7, h8, h9⟩
  | _ =>
    simp only [next] at hnext
    grind

end Next

end Launch

/-- The launches of a `ModelManager`, by the ids of their instances, with the model store. -/
structure ModelManager (Id : Type) where
  ids : List Id
  launch : Id → Launch Id

inductive ManagerAct (Id : Type)
  | launch (i : Id) (options : LaunchOptions)
  | event (i : Id) (ev : InstanceEvent Id)
  deriving DecidableEq, Repr

namespace ModelManager

variable {Id : Type} [DecidableEq Id]

def empty : ModelManager Id where
  ids := []
  launch _ := Launch.start ⟨[], none, false⟩ false

def put (s : ModelManager Id) (i : Id) (e : Launch Id) : ModelManager Id :=
  { s with launch := Function.update s.launch i e }

/-- The launch `i` has passed the KV startup budget. -/
def admitLaunch (c : ManagerConfig) (s : ModelManager Id) (i : Id) (options : LaunchOptions) :
    ModelManager Id :=
  { ids := s.ids ++ [i]
    launch := Function.update s.launch i (Launch.start options c.enableKvcached) }

/-- The ids of the model store. -/
def storedIds (s : ModelManager Id) : List Id := s.ids.filter fun i => (s.launch i).stored

def getUsedPorts (s : ModelManager Id) : List Nat := s.storedIds.map fun i => (s.launch i).port

/-- The KV bytes of the instances that overlap the GPUs, counting what `bytes` says of each. -/
def existingBytes (s : ModelManager Id) (bytes : Launch Id → Nat) (gpuIds : List Nat) : Nat :=
  ((s.ids.filter fun i =>
    (s.launch i).kvcachedEnabled ∧ (s.launch i).overlaps gpuIds).map fun i => bytes (s.launch i)).sum

/-- `assertKvcachedStartupBudget` does not throw. -/
def startupBudgetOk (c : ManagerConfig) (s : ModelManager Id) (bytes : Launch Id → Nat)
    (options : LaunchOptions) : Bool :=
  match options.kvCacheMemoryBytes with
  | some kvCacheMemoryBytes =>
    !c.enableKvcached || !c.admission.enabled ||
      decide ((s.existingBytes bytes options.targetGpuIds + kvCacheMemoryBytes : ℚ)
        ≤ c.safeLimitBytes)
  | none => true

/-- What an event needs of the other instances. -/
def enabled (c : ManagerConfig) (s : ModelManager Id) (i : Id) : InstanceEvent Id → Bool
  | .choosePort port =>
    getNextPort s.getUsedPorts c.vllmBasePort (65536 - c.vllmBasePort) = some port
  | .pollAnswered j =>
    j ∈ s.ids ∧ (s.launch j).process = .alive ∧ (s.launch j).port = (s.launch i).port
  | _ => true

def step (c : ManagerConfig) (s : ModelManager Id) : ManagerAct Id → Option (ModelManager Id)
  | .launch i options =>
    if i ∉ s.ids ∧ startupBudgetOk c s Launch.storedBytes options then
      some (s.admitLaunch c i options)
    else none
  | .event i ev =>
    if i ∈ s.ids ∧ enabled c s i ev then ((s.launch i).next ev).map (s.put i) else none

abbrev run (c : ManagerConfig) : ModelManager Id → List (ManagerAct Id) → Option (ModelManager Id) :=
  Transition.run (step c)

variable {c : ManagerConfig} {s t : ModelManager Id} {a : ManagerAct Id} {i j : Id}
  {e : Launch Id} {ev : InstanceEvent Id} {options : LaunchOptions}

@[simp] theorem put_ids : (s.put i e).ids = s.ids := rfl

@[simp] theorem put_launch_self : (s.put i e).launch i = e := Function.update_self ..

theorem put_launch_of_ne (h : j ≠ i) : (s.put i e).launch j = s.launch j :=
  Function.update_of_ne h ..

@[simp] theorem admitLaunch_ids : (s.admitLaunch c i options).ids = s.ids ++ [i] := rfl

@[simp] theorem admitLaunch_launch_self :
    (s.admitLaunch c i options).launch i = Launch.start options c.enableKvcached :=
  Function.update_self ..

theorem admitLaunch_launch_of_ne (h : j ≠ i) : (s.admitLaunch c i options).launch j = s.launch j :=
  Function.update_of_ne h ..

theorem step_launch_some : step c s (.launch i options) = some t ↔
    (i ∉ s.ids ∧ startupBudgetOk c s Launch.storedBytes options) ∧
    s.admitLaunch c i options = t := by
  simp [step]

theorem step_event_some : step c s (.event i ev) = some t ↔
    (i ∈ s.ids ∧ enabled c s i ev) ∧ ∃ e, (s.launch i).next ev = some e ∧ s.put i e = t := by
  simp [step]

/-- A step keeps an invariant of every launch when it holds at the start of a launch and the event
of the step keeps it. -/
theorem step_launches {P : Id → Launch Id → Prop}
    (hstart : ∀ i options, P i (Launch.start options c.enableKvcached))
    (hnext : ∀ i ev e, a = .event i ev → i ∈ s.ids → enabled c s i ev → P i (s.launch i) →
      (s.launch i).next ev = some e → P i e)
    (hs : ∀ i ∈ s.ids, P i (s.launch i)) (hstep : step c s a = some t) :
    ∀ i ∈ t.ids, P i (t.launch i) := by
  intro i hi
  cases a with
  | launch j options =>
    obtain ⟨-, rfl⟩ := step_launch_some.mp hstep
    by_cases hij : i = j
    · subst hij
      rw [admitLaunch_launch_self]
      exact hstart i options
    · rw [admitLaunch_launch_of_ne hij]
      rcases List.mem_append.mp hi with hi | hi
      · exact hs i hi
      · exact absurd (List.mem_singleton.mp hi) hij
  | event j ev =>
    obtain ⟨⟨hj, hen⟩, e, he, rfl⟩ := step_event_some.mp hstep
    by_cases hij : i = j
    · subst hij
      rw [put_launch_self]
      exact hnext i ev e rfl hj hen (hs i hj) he
    · rw [put_launch_of_ne hij]
      exact hs i hi

/-- The defaults of the configuration, with kvcached and the admission switched on. -/
def defaultConfig : ManagerConfig where
  vllmBasePort := 12346
  enableKvcached := true
  admission :=
    { enabled := true
      poolCapacityGiBPerGpu := 15
      globalSafeLimitGiBPerGpu := 14
      globalReservedGiBPerGpu := 1
      maxQueueMs := 1000
      queuePollMs := 50
      reservationTtlMs := 3600000
      estimateTokensPerGiB := 32768
      maxInstanceInflight := 0
      maxGpuGroupInflight := 0
      defaultQuota := ⟨5, 6, 7⟩
      instanceOverrides := [] }

/-- A launch that is not disturbed, from the KV startup budget to the monitor's last write. -/
def startup (i port : Nat) (options : LaunchOptions) : List (ManagerAct Nat) :=
  [.launch i options, .event i (.choosePort port), .event i .spawn, .event i (.pollAnswered i),
    .event i .monitorReady, .event i .monitorDone]

end ModelManager

end GpuSharing.Sardeenz
