import GpuSharing.Lib.Transition
import GpuSharing.Sardeenz.RequestRouting
import GpuSharing.Sardeenz.WakePolling

namespace GpuSharing.Sardeenz.InstanceActivation

open SavedLaunches (SleepLevel)
open Transition

structure ActivateOptions where
  sleepOtherInstances : Bool
  sleepLevel : SleepLevel
  waitForDrainSeconds : ℚ
  deriving DecidableEq

/-- Where a call of `activateInstance` stands. In `draining`, `sleeping` and `rested` it has the
siblings to come with it. `rested` and `woken` follow the ends of `sleepModel` and of `wakeModel`. -/
inductive ActivatePc
  | draining (ids : List String)
  | sleeping (id : String) (ids : List String)
  | rested (id : String) (ids : List String)
  | waking
  | polling
  | woken
  | done
  | failed (error : ManagerError)
  deriving DecidableEq, Repr

/-- A call, with the ids of the siblings of its target and of those that overlap it. `anyRoutable` is
whether a sibling was routable before the call, and `without` how routable each instance would be
without what the call has set. -/
structure ActivateCall where
  target : String
  modelName : String
  options : ActivateOptions
  siblings : List String
  overlapping : List String
  sleptInstanceIds : List String
  wokeTarget : Bool
  pc : ActivatePc
  anyRoutable : Bool
  without : String → Bool

/-- What a call does next: it sends a request, sets its target routable, or throws. -/
inductive Continuation
  | sleep (id : String) (ids : List String)
  | wake
  | finish
  | fail (error : ManagerError)
  deriving DecidableEq, Repr

/-- The model store of a pod with the calls of `activateInstance`, in the order in which they began. -/
structure ActivationState where
  now : Int
  instances : List ManagedInstance
  calls : List ActivateCall
  distinct : (instances.map (·.id)).Nodup

/-- `drained` is the end of a `waitForDrain`, `polled` the end of the loop of `wakeModel`, and `resume`
goes on after `sleepModel` or `wakeModel` has returned. -/
inductive ActivateAct
  | activate (instanceId : String) (options : ActivateOptions)
  | drained (k : Nat)
  | sleepAnswered (k : Nat) (result : FetchResult)
  | wakeAnswered (k : Nat) (result : FetchResult)
  | polled (k : Nat)
  | resume (k : Nat)
  | clock (now : Int)
  deriving DecidableEq

def hasGpuOverlap (leftGpuIds rightGpuIds : List Nat) : Bool := leftGpuIds.any (· ∈ rightGpuIds)

/-- The siblings that are to be put to sleep. -/
def ActivateCall.toSleep (c : ActivateCall) : List String :=
  if c.options.sleepOtherInstances then c.overlapping else []

def ActivateCall.isOpen (c : ActivateCall) : Bool :=
  match c.pc with
  | .done | .failed _ => false
  | _ => true

/-- Another call has set how routable these instances are. -/
def ActivateCall.note (c : ActivateCall) (ids : List String) (routable : Bool) : ActivateCall :=
  { c with without := fun id => if id ∈ ids then routable else c.without id }

namespace ActivationState

def get (s : ActivationState) (id : String) : Option ManagedInstance :=
  s.instances.find? (·.id = id)

def getAllByName (s : ActivationState) (modelName : String) : List ManagedInstance :=
  s.instances.filter (·.modelName = modelName)

def mapInstances (s : ActivationState) (f : ManagedInstance → ManagedInstance)
    (hf : ∀ x, (f x).id = x.id) : ActivationState where
  now := s.now
  instances := s.instances.map f
  calls := s.calls
  distinct := by simpa [List.map_map, Function.comp_def, hf] using s.distinct

/-- Change what the store has under the id. -/
def update (s : ActivationState) (id : String) (f : ManagedInstance → ManagedInstance)
    (hf : ∀ x, (f x).id = x.id) : ActivationState :=
  s.mapInstances (fun x => if x.id = id then f x else x) fun x => by
    split_ifs <;> simp [hf]

/-- The `k`-th call sets how routable these instances are, which the other calls note. -/
def setRoutable (s : ActivationState) (k : Nat) (ids : List String) (routable : Bool) :
    ActivationState :=
  { s.mapInstances (fun x => if x.id ∈ ids then { x with routable := routable } else x) fun x => by
      split_ifs <;> rfl with
    calls := s.calls.mapIdx fun j c => if j = k then c else c.note ids routable }

def setCall (s : ActivationState) (k : Nat) (c : ActivateCall) : ActivationState :=
  { s with calls := s.calls.set k c }

/-- The first of these siblings that is running, and those after it. -/
def nextRunning (s : ActivationState) : List String → Option (ManagedInstance × List String)
  | [] => none
  | id :: ids =>
    match s.get id with
    | some x => if x.status = .running then some (x, ids) else s.nextRunning ids
    | none => s.nextRunning ids

/-- The check of the refreshed target. -/
def checkTarget (s : ActivationState) (target : String) : Continuation :=
  match s.get target with
  | some x =>
    if x.status = .running then .finish
    else .fail (.internal ("Cannot activate instance " ++ target ++ ": current status is " ++
      ClusterRouting.Router.statusText x.status))
  | none =>
    .fail (.internal ("Cannot activate instance " ++ target ++ ": current status is missing"))

/-- What comes next with these siblings still to be put to sleep. -/
def goOn (s : ActivationState) (target : String) (ids : List String) : Continuation :=
  match s.nextRunning ids with
  | some (x, rest) =>
    if x.sleepModeEnabled then .sleep x.id rest
    else .fail (.internal "Model was not loaded with sleep mode enabled")
  | none =>
    if (s.get target).any (·.status = .sleeping) then .wake else s.checkTarget target

def proceed (s : ActivationState) (k : Nat) (c : ActivateCall) : Continuation → ActivationState
  | .sleep id ids => s.setCall k { c with pc := .sleeping id ids }
  | .wake => s.setCall k { c with pc := .waking }
  | .fail error => s.setCall k { c with pc := .failed error }
  | .finish =>
    let u := s.update c.target (fun x => { x with lastActivityAt := some s.now }) fun _ => rfl
    (u.setRoutable k [c.target] true).setCall k { c with pc := .done }

/-- The call that finds the target in the store, before it waits. -/
def newCall (s : ActivationState) (target : ManagedInstance) (options : ActivateOptions) :
    ActivateCall :=
  let siblings := (s.getAllByName target.modelName).filter (·.id ≠ target.id)
  { target := target.id
    modelName := target.modelName
    options := options
    siblings := siblings.map (·.id)
    overlapping := (siblings.filter fun x => hasGpuOverlap x.gpuIds target.gpuIds).map (·.id)
    sleptInstanceIds := []
    wokeTarget := false
    pc := .draining []
    anyRoutable := siblings.any (·.routable)
    without := fun id => (s.get id).any (·.routable) }

/-- The siblings of the new call's target are set non-routable. -/
def standBy (s : ActivationState) (c : ActivateCall) : ActivationState :=
  let u := s.setRoutable s.calls.length c.siblings false
  { u with calls := u.calls ++ [c] }

/-- A call for an instance that is not in the store throws at once. -/
def activate (s : ActivationState) (instanceId : String) (options : ActivateOptions) :
    ActivationState :=
  match s.get instanceId with
  | none => s
  | some target =>
    let c := s.newCall target options
    let u := s.standBy c
    if c.overlapping ≠ [] ∧ 0 < options.waitForDrainSeconds then
      u.setCall s.calls.length { c with pc := .draining c.overlapping }
    else u.proceed s.calls.length c (u.goOn c.target c.toSleep)

def answerSleep (s : ActivationState) (k : Nat) (c : ActivateCall) (id : String)
    (ids : List String) : FetchResult → ActivationState
  | .ok =>
    let u := s.update id (fun x =>
      { x with
        status := .sleeping, sleepLevel := some c.options.sleepLevel
        sleptAt := some s.now }) fun _ => rfl
    u.setCall k { c with pc := .rested id ids }
  | .refused errorText =>
    s.setCall k { c with pc := .failed (.internal ("Failed to put model to sleep: " ++ errorText)) }
  | .thrown message =>
    s.setCall k { c with pc := .failed (.internal ("Failed to put model to sleep: " ++ message)) }

def answerWake (s : ActivationState) (k : Nat) (c : ActivateCall) : FetchResult → ActivationState
  | .ok => s.setCall k { c with pc := .polling }
  | .refused errorText =>
    s.setCall k { c with pc := .failed (.internal ("Failed to wake model: " ++ errorText)) }
  | .thrown message =>
    s.setCall k { c with pc := .failed (.internal ("Failed to wake model: " ++ message)) }

/-- The last writes of `wakeModel`. -/
def wakeTarget (s : ActivationState) (k : Nat) (c : ActivateCall) : ActivationState :=
  let u := s.update c.target (fun x => x.wokenUp noOptions s.now) fun _ => rfl
  (u.setRoutable k [c.target] true).setCall k { c with pc := .woken }

def step (s : ActivationState) : ActivateAct → Option ActivationState
  | .activate instanceId options => some (s.activate instanceId options)
  | .drained k => match s.calls[k]? with
    | some c => match c.pc with
      | .draining (_ :: id :: ids) => some (s.setCall k { c with pc := .draining (id :: ids) })
      | .draining [_] => some (s.proceed k c (s.goOn c.target c.toSleep))
      | _ => none
    | none => none
  | .sleepAnswered k result => match s.calls[k]? with
    | some c => match c.pc with
      | .sleeping id ids => some (s.answerSleep k c id ids result)
      | _ => none
    | none => none
  | .wakeAnswered k result => match s.calls[k]? with
    | some c => if c.pc = .waking then some (s.answerWake k c result) else none
    | none => none
  | .polled k => match s.calls[k]? with
    | some c => if c.pc = .polling then some (s.wakeTarget k c) else none
    | none => none
  | .resume k => match s.calls[k]? with
    | some c => match c.pc with
      | .rested id ids =>
        some (s.proceed k { c with sleptInstanceIds := c.sleptInstanceIds ++ [id] }
          (s.goOn c.target ids))
      | .woken => some (s.proceed k { c with wokeTarget := true } (s.checkTarget c.target))
      | _ => none
    | none => none
  | .clock now => some { s with now := now }

/-- Exactly one instance of the model is routable. -/
def OneRoutable (s : ActivationState) (modelName : String) : Prop :=
  ∃! x, x ∈ s.instances ∧ x.modelName = modelName ∧ x.routable = true

/-- All calls for the model have finished. -/
def Finished (s : ActivationState) (modelName : String) : Prop :=
  ∀ c ∈ s.calls, c.modelName = modelName → c.isOpen = false

/-- No sibling of the call's target is routable. -/
def SiblingsRest (s : ActivationState) (c : ActivateCall) : Prop :=
  ∀ x ∈ s.instances, x.id ∈ c.siblings → x.routable = false

/-- What the call does next sets its target routable only while no sibling is, and fails only if no
sibling was routable before the call and the target has not been woken. -/
def Allowed (s : ActivationState) (c : ActivateCall) : Continuation → Prop
  | .finish => s.SiblingsRest c
  | .fail _ => c.anyRoutable = false ∧ c.pc ≠ .woken
  | _ => True

def AllowedAnswer (c : ActivateCall) : FetchResult → Prop
  | .ok => True
  | _ => c.anyRoutable = false

/-- Every step of a call is allowed. -/
def Orderly (s : ActivationState) : ActivateAct → Prop
  | .activate instanceId options => ∀ target ∈ s.get instanceId,
      let c := s.newCall target options
      let u := s.standBy c
      (c.overlapping ≠ [] ∧ 0 < options.waitForDrainSeconds) ∨
        u.Allowed c (u.goOn c.target c.toSleep)
  | .drained k => ∀ c ∈ s.calls[k]?, match c.pc with
      | .draining [_] => s.Allowed c (s.goOn c.target c.toSleep)
      | _ => True
  | .sleepAnswered k result => ∀ c ∈ s.calls[k]?, AllowedAnswer c result
  | .wakeAnswered k result => ∀ c ∈ s.calls[k]?, AllowedAnswer c result
  | .polled k => ∀ c ∈ s.calls[k]?, s.SiblingsRest c
  | .resume k => ∀ c ∈ s.calls[k]?, match c.pc with
      | .rested _ ids => s.Allowed c (s.goOn c.target ids)
      | .woken => s.Allowed c (s.checkTarget c.target)
      | _ => True
  | .clock _ => True

instance (s : ActivationState) (c : ActivateCall) : Decidable (s.SiblingsRest c) :=
  inferInstanceAs (Decidable (∀ x ∈ s.instances, x.id ∈ c.siblings → x.routable = false))

instance (s : ActivationState) (c : ActivateCall) (next : Continuation) :
    Decidable (s.Allowed c next) := by
  unfold Allowed
  split <;> infer_instance

instance (c : ActivateCall) (result : FetchResult) : Decidable (AllowedAnswer c result) := by
  unfold AllowedAnswer
  split <;> infer_instance

instance (s : ActivationState) (act : ActivateAct) : Decidable (s.Orderly act) := by
  unfold Orderly
  split
  case h_2 k =>
    have (c : ActivateCall) : Decidable (match c.pc with
        | .draining [_] => s.Allowed c (s.goOn c.target c.toSleep)
        | _ => True) := by split <;> infer_instance
    infer_instance
  case h_6 k =>
    have (c : ActivateCall) : Decidable (match c.pc with
        | .rested _ ids => s.Allowed c (s.goOn c.target ids)
        | .woken => s.Allowed c (s.checkTarget c.target)
        | _ => True) := by split <;> infer_instance
    infer_instance
  all_goals infer_instance

def nameOf (s : ActivationState) (id : String) : Option String := (s.get id).map (·.modelName)

def routableOf (s : ActivationState) (id : String) : Bool := (s.get id).any (·.routable)

/-- The instance is one of the model and routable. -/
def Serves (s : ActivationState) (modelName id : String) : Prop :=
  s.nameOf id = some modelName ∧ s.routableOf id = true

/-- The instances are the same ones, and as routable. -/
structure SameRouting (s t : ActivationState) : Prop where
  names : ∀ id, t.nameOf id = s.nameOf id
  routable : ∀ id, t.routableOf id = s.routableOf id

/-- The call's target is in the store, and its siblings are the other instances of the model. -/
structure Knows (s : ActivationState) (c : ActivateCall) : Prop where
  target : s.nameOf c.target = some c.modelName
  siblings : ∀ id, id ∈ c.siblings ↔ s.nameOf id = some c.modelName ∧ id ≠ c.target

section Store

variable {s t : ActivationState} {k j : Nat} {c c' : ActivateCall} {x : ManagedInstance}
  {id : String} {ids : List String} {b : Bool}

theorem get_mem (h : s.get id = some x) : x ∈ s.instances ∧ x.id = id :=
  ⟨List.mem_of_find?_eq_some h, by simpa using List.find?_some h⟩

theorem get_of_mem (h : x ∈ s.instances) : s.get x.id = some x := by
  have hfound : (s.get x.id).isSome := List.find?_isSome.mpr ⟨x, h, by simp⟩
  obtain ⟨y, hy⟩ := Option.isSome_iff_exists.mp hfound
  obtain ⟨hmem, hid⟩ := get_mem hy
  rw [List.inj_on_of_nodup_map s.distinct hmem h hid] at hy
  exact hy

theorem get_mapInstances {f : ManagedInstance → ManagedInstance} (hf : ∀ x, (f x).id = x.id) :
    (s.mapInstances f hf).get id = (s.get id).map f := by
  simp only [get, mapInstances, List.find?_map, Function.comp_def, hf]

theorem get_setRoutable : (s.setRoutable k ids b).get id =
    (s.get id).map fun x => if x.id ∈ ids then { x with routable := b } else x := by
  refine get_mapInstances fun x => ?_
  split_ifs <;> rfl

theorem nameOf_setRoutable : (s.setRoutable k ids b).nameOf id = s.nameOf id := by
  rw [nameOf, nameOf, get_setRoutable, Option.map_map]
  congr 1
  funext x
  dsimp only [Function.comp]
  split_ifs <;> rfl

theorem routableOf_setRoutable : (s.setRoutable k ids b).routableOf id =
    if id ∈ ids then b && (s.get id).isSome else s.routableOf id := by
  rw [routableOf, routableOf, get_setRoutable]
  cases h : s.get id with
  | none => simp
  | some x =>
    obtain ⟨-, rfl⟩ := get_mem h
    by_cases hid : x.id ∈ ids <;> simp [hid]

theorem nameOf_update {f : ManagedInstance → ManagedInstance} {hf : ∀ x, (f x).id = x.id}
    (hname : ∀ x, (f x).modelName = x.modelName) (j : String) :
    (s.update id f hf).nameOf j = s.nameOf j := by
  rw [nameOf, nameOf, update, get_mapInstances, Option.map_map]
  congr 1
  funext x
  dsimp only [Function.comp]
  split_ifs <;> simp [hname]

theorem routableOf_update {f : ManagedInstance → ManagedInstance} {hf : ∀ x, (f x).id = x.id}
    {j : String} (h : j ≠ id ∨ ∀ x, (f x).routable = x.routable) :
    (s.update id f hf).routableOf j = s.routableOf j := by
  rw [routableOf, routableOf, update, get_mapInstances]
  cases hget : s.get j with
  | none => rfl
  | some x =>
    obtain ⟨-, rfl⟩ := get_mem hget
    dsimp only [Option.map_some, Option.any_some]
    split_ifs with hid
    · exact (h.resolve_left (not_not_intro hid)) x
    · rfl

theorem sameRouting_update {f : ManagedInstance → ManagedInstance} {hf : ∀ x, (f x).id = x.id}
    (hname : ∀ x, (f x).modelName = x.modelName) (hroutable : ∀ x, (f x).routable = x.routable) :
    s.SameRouting (s.update id f hf) :=
  ⟨nameOf_update hname, fun _ => routableOf_update (.inr hroutable)⟩

theorem calls_setCall (hk : s.calls[k]? = some c) (j : Nat) :
    (s.setCall k c').calls[j]? = if j = k then some c' else s.calls[j]? := by
  obtain ⟨hlt, -⟩ := List.getElem?_eq_some_iff.mp hk
  rw [setCall]
  by_cases hj : j = k
  · subst hj
    rw [if_pos rfl, List.getElem?_set_self hlt]
  · rw [if_neg hj, List.getElem?_set_ne (Ne.symm hj)]

theorem calls_setRoutable (j : Nat) : (s.setRoutable k ids b).calls[j]? =
    (s.calls[j]?).map fun c => if j = k then c else c.note ids b := by
  rw [setRoutable, List.getElem?_mapIdx]

theorem siblingsRest_iff : s.SiblingsRest c ↔ ∀ id ∈ c.siblings, s.routableOf id = false := by
  constructor
  · intro h id hid
    rw [routableOf]
    cases hget : s.get id with
    | none => rfl
    | some x =>
      obtain ⟨hx, rfl⟩ := get_mem hget
      exact h x hx hid
  · intro h x hx hid
    have hroutable := h x.id hid
    rwa [routableOf, get_of_mem hx] at hroutable

theorem oneRoutable_iff {modelName : String} :
    s.OneRoutable modelName ↔ ∃! id, s.Serves modelName id := by
  constructor
  · rintro ⟨x, ⟨hx, hname, hroutable⟩, hunique⟩
    refine ⟨x.id, ⟨by simp [nameOf, get_of_mem hx, hname], by simp [routableOf, get_of_mem hx,
      hroutable]⟩, ?_⟩
    rintro id ⟨hid, hserves⟩
    obtain ⟨y, hy, hyname⟩ := Option.map_eq_some_iff.mp hid
    rw [routableOf, hy] at hserves
    obtain ⟨hmem, rfl⟩ := get_mem hy
    rw [hunique y ⟨hmem, hyname, hserves⟩]
  · rintro ⟨id, ⟨hid, hserves⟩, hunique⟩
    obtain ⟨x, hx, hname⟩ := Option.map_eq_some_iff.mp hid
    rw [routableOf, hx] at hserves
    obtain ⟨hmem, rfl⟩ := get_mem hx
    refine ⟨x, ⟨hmem, hname, hserves⟩, ?_⟩
    rintro y ⟨hy, hyname, hyroutable⟩
    have hid' := hunique y.id ⟨by simp [nameOf, get_of_mem hy, hyname], by simp [routableOf,
      get_of_mem hy, hyroutable]⟩
    exact List.inj_on_of_nodup_map s.distinct hy hmem hid'

end Store

end ActivationState

end GpuSharing.Sardeenz.InstanceActivation
