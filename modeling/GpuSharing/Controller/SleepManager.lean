import Mathlib.Data.Fintype.Sum
import Mathlib.Data.Rat.Defs
import Mathlib.Logic.Function.Basic
import Mathlib.Tactic.DeriveFintype
import GpuSharing.Lib.Transition

namespace GpuSharing.Controller

/-- What the sleep manager and the router are configured with. `managed` models are in
`vllm_models_config` or `sglang_models_config`, and `routed` ones have an endpoint. -/
structure SleepConfig (M : Type) where
  autoSleepEnabled : Bool
  wakeupOnRequest : Bool
  minSleepDuration : Rat
  managed : M → Bool
  routed : M → Bool
  sessionOpen : Bool

/-- Why `route_request` gives up before it forwards. `wakeLost` is the `KeyError` of a wake whose
model is no longer in `sleeping_models`. -/
inductive Rejection
  | unknownModel
  | wakeDisabled
  | notSleeping
  | tooSoon
  | wakeLost
  | noSession
  deriving DecidableEq, Repr

/-- A task of the event loop: one for each HTTP request that the controller serves, and
`_monitor_idle_models`. -/
inductive Caller (T : Type)
  | task (t : T)
  | monitor
  deriving DecidableEq, Repr, Fintype

/-- Where a task stands. `waking` and `sleeping` await the engine, which may have carried the call out
already; `forwarded` keeps whether the engine was awake at that moment. -/
inductive Pc (M : Type)
  | idle
  | waking (m : M) (request : Bool) (carriedOut : Bool)
  | sleeping (m : M) (manual : Bool) (carriedOut : Bool)
  | forwarded (m : M) (awake : Bool)
  | rejected (why : Rejection)
  | answered (success : Bool)
  deriving DecidableEq, Repr

/-- The controller and its engines. `candidates` are those that the idle loop has still to go through,
and `late` the models with a sleep call that has failed for the controller and may still reach the
engine. -/
structure SleepManager (M T : Type) where
  sleepingModels : M → Option Rat
  manualSleepModels : M → Bool
  awake : M → Bool
  pc : Caller T → Pc M
  candidates : List M
  late : List M

/-- `request` is one for the model's endpoint, the actions are `/action/wakeup` and
`/action/sleep`; `checks` and `next` are the idle loop's, `carriesOut` and `lateSleep` the engine's. -/
inductive ControllerAct (M T : Type)
  | request (t : T) (m : M) (now : Rat)
  | wakeupAction (t : T) (m : M) (now : Rat)
  | sleepAction (t : T) (m : M) (now : Rat)
  | checks (idle : List M)
  | next (now : Rat)
  | carriesOut (c : Caller T)
  | responds (c : Caller T) (success : Bool) (now : Rat)
  | lateSleep (m : M)
  deriving DecidableEq, Repr

/-- The task is not a request that was forwarded to an engine that was asleep, or rejected because
another wake of its model had finished. -/
def Pc.Fine {M : Type} (pc : Pc M) : Prop :=
  (∀ m, pc ≠ .forwarded m false) ∧ pc ≠ .rejected .wakeLost

/-- The model whose engine the task is calling. -/
def Pc.calls {M : Type} : Pc M → Option M
  | .waking m _ _ | .sleeping m _ _ => some m
  | _ => none

namespace SleepManager

variable {M T : Type} [DecidableEq M] [DecidableEq T] (cfg : SleepConfig M)

def start : SleepManager M T where
  sleepingModels _ := none
  manualSleepModels _ := false
  awake _ := true
  pc _ := .idle
  candidates := []
  late := []

def setPc (s : SleepManager M T) (c : Caller T) (pc : Pc M) : SleepManager M T :=
  { s with pc := Function.update s.pc c pc }

/-- `self.sleeping_models[model_name] = time.time()` and the mark of a manual sleep. -/
def recordSleep (s : SleepManager M T) (m : M) (manual : Bool) (now : Rat) : SleepManager M T :=
  { s with
    sleepingModels := Function.update s.sleepingModels m (some now)
    manualSleepModels :=
      if manual then Function.update s.manualSleepModels m true else s.manualSleepModels }

/-- `del self.sleeping_models[model_name]`, where it is there. -/
def recordWake (s : SleepManager M T) (m : M) : SleepManager M T :=
  { s with
    sleepingModels := Function.update s.sleepingModels m none
    manualSleepModels := Function.update s.manualSleepModels m false }

/-- The part of `route_request` behind the sleep check, up to the request to the engine. -/
def forward (s : SleepManager M T) (c : Caller T) (m : M) : SleepManager M T :=
  if cfg.sessionOpen then s.setPc c (.forwarded m (s.awake m))
  else s.setPc c (.rejected .noSession)

/-- What follows the return of `wakeup_model`, in `route_request` or in the action's handler. -/
def wakeDone (s : SleepManager M T) (c : Caller T) (m : M) (request : Bool)
    (failure : Option Rejection) : SleepManager M T :=
  match failure, request with
  | none, true => s.forward cfg c m
  | some why, true => s.setPc c (.rejected why)
  | failure, false => s.setPc c (.answered failure.isNone)

/-- `wakeup_model` up to its call to the engine; without an engine it goes on at once. -/
def wakeupModel (s : SleepManager M T) (c : Caller T) (m : M) (request : Bool) (now : Rat) :
    SleepManager M T :=
  match s.sleepingModels m with
  | none => s.wakeDone cfg c m request (some .notSleeping)
  | some start =>
    if now - start < cfg.minSleepDuration then s.wakeDone cfg c m request (some .tooSoon)
    else if cfg.managed m then s.setPc c (.waking m request false)
    else (s.recordWake m).wakeDone cfg c m request none

/-- `wakeup_model` after its call. -/
def wakeupReturns (s : SleepManager M T) (c : Caller T) (m : M) (request : Bool) :
    SleepManager M T :=
  match s.sleepingModels m with
  | none => s.wakeDone cfg c m request (some .wakeLost)
  | some _ => (s.recordWake m).wakeDone cfg c m request none

/-- `put_model_to_sleep` up to its call to the engine. -/
def putModelToSleep (s : SleepManager M T) (c : Caller T) (m : M) (manual : Bool) (now : Rat) :
    SleepManager M T :=
  if (s.sleepingModels m).isSome then s.setPc c (.answered false)
  else if cfg.managed m then s.setPc c (.sleeping m manual false)
  else (s.recordSleep m manual now).setPc c (.answered true)

/-- `put_model_to_sleep` after its call, which may have failed for the controller alone. -/
def sleepReturns (s : SleepManager M T) (c : Caller T) (m : M) (manual carriedOut success : Bool)
    (now : Rat) : Option (SleepManager M T) :=
  match success, carriedOut with
  | true, true => some ((s.recordSleep m manual now).setPc c (.answered true))
  | true, false => none
  | false, true => some (s.setPc c (.answered false))
  | false, false => some { s.setPc c (.answered false) with late := m :: s.late }

/-- `route_request` up to the first call. -/
def routeRequest (s : SleepManager M T) (c : Caller T) (m : M) (now : Rat) : SleepManager M T :=
  if cfg.routed m = false then s.setPc c (.rejected .unknownModel)
  else if (s.sleepingModels m).isNone then s.forward cfg c m
  else if cfg.wakeupOnRequest = false then s.setPc c (.rejected .wakeDisabled)
  else s.wakeupModel cfg c m true now

/-- The engine carries out the call that a task is waiting for. -/
def carryOut (s : SleepManager M T) (c : Caller T) : Option (SleepManager M T) :=
  match s.pc c with
  | .waking m request false =>
    some { s.setPc c (.waking m request true) with awake := Function.update s.awake m true }
  | .sleeping m manual false =>
    some { s.setPc c (.sleeping m manual true) with awake := Function.update s.awake m false }
  | _ => none

/-- The engine's answer; a wake call always succeeds. -/
def respond (s : SleepManager M T) (c : Caller T) (success : Bool) (now : Rat) :
    Option (SleepManager M T) :=
  match s.pc c with
  | .waking m request true => if success then some (s.wakeupReturns cfg c m request) else none
  | .sleeping m manual carriedOut => s.sleepReturns c m manual carriedOut success now
  | _ => none

/-- The next candidate of the idle loop, once the loop is not waiting. -/
def nextCandidate (s : SleepManager M T) (now : Rat) : Option (SleepManager M T) :=
  match s.candidates with
  | [] => none
  | m :: rest =>
    if (s.pc .monitor).calls.isSome then none
    else if s.manualSleepModels m then some { s with candidates := rest }
    else some ({ s with candidates := rest }.putModelToSleep cfg .monitor m false now)

/-- A step of a task goes up to its next `await`. -/
def step (s : SleepManager M T) : ControllerAct M T → Option (SleepManager M T)
  | .request t m now =>
    if s.pc (.task t) = .idle then some (s.routeRequest cfg (.task t) m now) else none
  | .wakeupAction t m now =>
    if s.pc (.task t) ≠ .idle then none
    else if cfg.routed m = false then some (s.setPc (.task t) (.answered false))
    else some (s.wakeupModel cfg (.task t) m false now)
  | .sleepAction t m now =>
    if s.pc (.task t) ≠ .idle then none
    else if cfg.routed m = false then some (s.setPc (.task t) (.answered false))
    else some (s.putModelToSleep cfg (.task t) m true now)
  | .checks idle =>
    if cfg.autoSleepEnabled = true ∧ s.candidates = [] ∧ (s.pc .monitor).calls = none then
      some { s with candidates := idle.filter fun m => (s.sleepingModels m).isNone }
    else none
  | .next now => s.nextCandidate cfg now
  | .carriesOut c => s.carryOut c
  | .responds c success now => s.respond cfg c success now
  | .lateSleep m =>
    if m ∈ s.late then
      some { s with awake := Function.update s.awake m false, late := s.late.erase m }
    else none

def Served (s : SleepManager M T) : Prop := ∀ c, (s.pc c).Fine

end SleepManager

end GpuSharing.Controller
