import GpuSharing.Sardeenz.KvAdmission
import GpuSharing.Sardeenz.LaunchOptions

namespace GpuSharing.Sardeenz.InstanceActivation

open SavedLaunches (PlacementMode SleepLevel)

inductive ManagerError
  | notFound (message : String)
  | internal (message : String)
  deriving DecidableEq, Repr

/-- The fields of a `ModelInstance` that sleeping, waking and activating read or set. Times are in
milliseconds. -/
structure ManagedInstance where
  id : String
  modelName : String
  gpuIds : List Nat
  status : ModelStatus
  routable : Bool
  sleepModeEnabled : Bool
  sleepLevel : Option SleepLevel
  sleptAt : Option Int
  placementMode : PlacementMode
  placementGpuId : Option Nat
  lastActivityAt : Option Int
  deriving DecidableEq, Repr

inductive WakeTag
  | weights
  | kvCache
  deriving DecidableEq, Repr

structure WakeOptions where
  tags : Option WakeTag
  placementMode : Option PlacementMode
  placementGpuId : Option Nat
  deriving DecidableEq, Repr

/-- What `wakeModel` sends. -/
structure WakeRequest where
  tags : Option WakeTag
  targetDevice : Option String
  deriving DecidableEq, Repr

/-- How a request to vLLM ends. An answer that is not ok has a text, and what is thrown a message. -/
inductive FetchResult
  | ok
  | refused (errorText : String)
  | thrown (message : String)
  deriving DecidableEq, Repr

inductive PollResult
  | ok
  | error
  | exception
  deriving DecidableEq, Repr

/-- A health poll, with the milliseconds that it takes and that its wait takes over the interval. -/
structure HealthPoll where
  result : PollResult
  ms : Nat
  deriving DecidableEq, Repr

/-- What a vLLM server answers to a wake-up and then to the polls, in turn. -/
structure VllmServer where
  wakeUp : WakeRequest → FetchResult
  health : Nat → HealthPoll

def getVisibleDeviceIndex (gpuIds : List Nat) : Option Nat → Option Nat
  | none => none
  | some gpuId => if gpuId ∈ gpuIds then some (gpuIds.idxOf gpuId) else none

def resolveWakeTargetDevice (gpuIds : List Nat) (placementMode : Option PlacementMode)
    (placementGpuId : Option Nat) : Except ManagerError (Option String) :=
  match placementMode with
  | some .balanced => .ok (some "local")
  | some .concentrated =>
    match getVisibleDeviceIndex gpuIds (placementGpuId <|> gpuIds.head?) with
    | none => .error (.internal ("placement_gpu_id=" ++ (placementGpuId.map toString).getD "undefined" ++
        " must be inside execution GPUs " ++ ", ".intercalate (gpuIds.map toString)))
    | some visibleIndex => .ok (some ("cuda:" ++ toString visibleIndex))
  | none => .ok none

def pollTimeout : Nat := 120000

def pollInterval : Nat := 2000

/-- The loop of `wakeModel` from its `k`-th poll on, with the milliseconds since the first one. It ends
with a poll that is ok or at the deadline, and nothing but the time tells the two apart. -/
def pollHealth (health : Nat → HealthPoll) (k elapsed : Nat) : Nat :=
  if elapsed < pollTimeout then
    match (health k).result with
    | .ok => elapsed + (health k).ms
    | _ => pollHealth health (k + 1) (elapsed + (health k).ms + pollInterval)
  else elapsed
termination_by pollTimeout - elapsed
decreasing_by all_goals (simp only [pollInterval]; omega)

/-- What `wakeModel` makes of the instance when its loop has ended. -/
def ManagedInstance.wokenUp (x : ManagedInstance) (options : WakeOptions) (now : Int) :
    ManagedInstance :=
  { x with
    status := .running
    placementMode := options.placementMode.getD x.placementMode
    placementGpuId := match options.placementMode with
      | some .concentrated => options.placementGpuId <|> x.gpuIds.head?
      | some .balanced => none
      | none => x.placementGpuId
    routable := true
    sleepLevel := none
    sleptAt := none
    lastActivityAt := some now }

/-- `wakeModel`, given what the store has under the id and the time at which vLLM answers the
wake-up; with what the store has in the end. -/
def wakeModel (instanceId : String) (options : WakeOptions) (server : VllmServer) (now : Int)
    (stored : Option ManagedInstance) : Except ManagerError Unit × Option ManagedInstance :=
  match stored with
  | none => (.error (.notFound ("Model instance " ++ instanceId ++ " not found")), none)
  | some x =>
    if x.status ≠ .sleeping then (.error (.internal "Model is not sleeping"), some x)
    else
      match resolveWakeTargetDevice x.gpuIds options.placementMode options.placementGpuId with
      | .error e => (.error e, some x)
      | .ok targetDevice =>
        match server.wakeUp ⟨options.tags, targetDevice⟩ with
        | .refused errorText =>
          (.error (.internal ("Failed to wake model: " ++ errorText)), some x)
        | .thrown message => (.error (.internal ("Failed to wake model: " ++ message)), some x)
        | .ok => (.ok (), some (x.wokenUp options (now + pollHealth server.health 0 0)))

/-- The wake-up is sent and accepted. -/
def Accepts (x : ManagedInstance) (options : WakeOptions) (server : VllmServer) : Prop :=
  ∃ targetDevice,
    resolveWakeTargetDevice x.gpuIds options.placementMode options.placementGpuId = .ok targetDevice ∧
    server.wakeUp ⟨options.tags, targetDevice⟩ = .ok

/-- When the `k`-th poll begins, in milliseconds since the first one, if none before it is ok. -/
def pollBegins (health : Nat → HealthPoll) : Nat → Nat
  | 0 => 0
  | k + 1 => pollBegins health k + (health k).ms + pollInterval

/-- Some poll before the deadline is ok. -/
def PollSucceeds (health : Nat → HealthPoll) : Prop :=
  ∃ k, pollBegins health k < pollTimeout ∧ (health k).result = .ok

/-- The instance is running and routable in the end only if some poll after the wake-up is ok, and
when none is the call throws and does not leave the instance running. -/
def WakesReady (x : ManagedInstance) (options : WakeOptions) (server : VllmServer) (now : Int) :
    Prop :=
  let result := wakeModel x.id options server now (some x)
  (∀ y ∈ result.2, y.status = .running ∧ y.routable = true →
    Accepts x options server ∧ PollSucceeds server.health) ∧
  (¬(Accepts x options server ∧ PollSucceeds server.health) →
    (∃ e, result.1 = .error e) ∧ ∀ y ∈ result.2, y.status ≠ .running)

variable {x : ManagedInstance} {options : WakeOptions} {server : VllmServer} {now : Int}
  {health : Nat → HealthPoll}

/-- Without a poll that is ok the loop goes on up to the deadline. -/
theorem pollTimeout_le_pollHealth (h : ¬PollSucceeds health) (k : Nat) :
    pollTimeout ≤ pollHealth health k (pollBegins health k) := by
  induction hleft : pollTimeout - pollBegins health k using Nat.strong_induction_on generalizing k with
  | _ left ih =>
    unfold pollHealth
    split_ifs with hbefore
    case neg => exact Nat.le_of_not_lt hbefore
    have hfails : (health k).result ≠ .ok := fun hok => h ⟨k, hbefore, hok⟩
    have hnext : pollTimeout ≤ pollHealth health (k + 1) (pollBegins health (k + 1)) := by
      refine ih _ ?_ (k + 1) rfl
      have hinterval : 0 < pollInterval := by decide
      rw [pollBegins]
      omega
    split
    case h_1 hok => exact absurd hok hfails
    case h_2 => exact hnext

theorem wakeModel_accepted (hsleeping : x.status = .sleeping) (h : Accepts x options server) :
    wakeModel x.id options server now (some x) =
      (.ok (), some (x.wokenUp options (now + pollHealth server.health 0 0))) := by
  obtain ⟨targetDevice, hdevice, hok⟩ := h
  simp [wakeModel, hsleeping, hdevice, hok]

/-- A wake-up that is not sent or not accepted leaves the instance as it was. -/
theorem wakeModel_refused (hsleeping : x.status = .sleeping) (h : ¬Accepts x options server) :
    ∃ e, wakeModel x.id options server now (some x) = (.error e, some x) := by
  unfold wakeModel
  dsimp only
  rw [if_neg (by simp [hsleeping])]
  cases hdevice : resolveWakeTargetDevice x.gpuIds options.placementMode options.placementGpuId with
  | error e => exact ⟨e, rfl⟩
  | ok targetDevice =>
    dsimp only
    cases hanswer : server.wakeUp ⟨options.tags, targetDevice⟩ with
    | ok => exact absurd ⟨targetDevice, hdevice, hanswer⟩ h
    | refused errorText => exact ⟨_, rfl⟩
    | thrown message => exact ⟨_, rfl⟩

/-- What the call comes to does not depend on the polls, so it is right exactly when one of them is ok
or none is made. -/
theorem wakesReady_iff (hsleeping : x.status = .sleeping) : WakesReady x options server now ↔
    ¬Accepts x options server ∨ PollSucceeds server.health := by
  unfold WakesReady
  by_cases haccepts : Accepts x options server
  · rw [wakeModel_accepted hsleeping haccepts]
    simp [haccepts, ManagedInstance.wokenUp]
  · obtain ⟨e, he⟩ : ∃ e, wakeModel x.id options server now (some x) = (.error e, some x) :=
      wakeModel_refused hsleeping haccepts
    rw [he]
    simp [haccepts, hsleeping]

def noOptions : WakeOptions := ⟨none, none, none⟩

/-- An instance that sleeps, with its weights in the CPU's memory. -/
def sleeper (id : String) (gpuIds : List Nat) : ManagedInstance where
  id := id
  modelName := "llama"
  gpuIds := gpuIds
  status := .sleeping
  routable := false
  sleepModeEnabled := true
  sleepLevel := some .weightsToCpu
  sleptAt := some 0
  placementMode := .balanced
  placementGpuId := none
  lastActivityAt := none

/-- The second poll is the first one that is ok. -/
theorem wakesReady_second_poll : WakesReady (sleeper "a" [0]) noOptions
    ⟨fun _ => .ok, fun k => ⟨if k = 0 then .error else .ok, 5⟩⟩ 0 :=
  (wakesReady_iff rfl).mpr (.inr ⟨1, by decide, rfl⟩)

/-- The server takes the wake-up and then answers no poll. The call returns when the two minutes are
over, and requests are routed to the instance. -/
theorem wake_unready :
    let server : VllmServer := ⟨fun _ => .ok, fun _ => ⟨.exception, 2000⟩⟩
    (∃ y, wakeModel "a" noOptions server 0 (some (sleeper "a" [0])) = (.ok (), some y) ∧
      y.status = .running ∧ y.routable = true ∧ ∃ t ∈ y.lastActivityAt, 120000 ≤ t) ∧
    ¬WakesReady (sleeper "a" [0]) noOptions server 0 := by
  intro server
  have hsilent : ¬PollSucceeds server.health := fun ⟨_, _, hok⟩ => by cases hok
  have haccepts : Accepts (sleeper "a" [0]) noOptions server := ⟨none, rfl, rfl⟩
  constructor
  · refine ⟨_, wakeModel_accepted rfl haccepts, rfl, rfl, _, rfl, ?_⟩
    have hlast := pollTimeout_le_pollHealth hsilent 0
    rw [pollTimeout, pollBegins] at hlast
    omega
  · rw [wakesReady_iff rfl]
    exact fun h => h.elim (fun hrefused => hrefused haccepts) hsilent

end GpuSharing.Sardeenz.InstanceActivation
