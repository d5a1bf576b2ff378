import GpuSharing.Lib.ListUpdate
import GpuSharing.Lib.Transition
import GpuSharing.Sardeenz.KvAdmission

namespace GpuSharing.Sardeenz.IdleSleep

/-- The fields of a `ModelInstance` that the router, the monitor and `sleepModel` look at. Times are
in milliseconds. -/
structure SleepableInstance where
  id : String
  status : ModelStatus
  routable : Bool
  sleepModeEnabled : Bool
  idleSleepTimeoutSeconds : Option Int
  lastActivityAt : Option Int
  readyAt : Option Int
  loadedAt : Int
  deriving DecidableEq, Repr

/-- A queued request has selected its instance and waits in `acquire`. -/
inductive RequestPc
  | queued
  | sent
  | done
  deriving DecidableEq, Repr

/-- A request of the direct proxy, or one that another pod's router sends to the instance's port, is
not counted: it adds no connection and notes no activity. -/
structure RoutedRequest where
  instanceId : String
  counted : Bool
  pc : RequestPc
  deriving DecidableEq, Repr

/-- A call of `sleepModel` that has sent its request to vLLM. -/
structure SleepCall where
  instanceId : String
  byMonitor : Bool
  answered : Bool
  deriving DecidableEq, Repr

/-- A scan of the idle-sleep monitor, with the time at which it began and the instances that it has
not looked at yet. -/
structure Scan where
  now : Int
  todo : List String
  deriving DecidableEq, Repr

structure SleepState where
  now : Int
  instances : List SleepableInstance
  connections : String → Nat
  requests : List RoutedRequest
  calls : List SleepCall
  scan : Option Scan

/-- `select` is a request that picks a running instance, `acquired` its admission, with which it is
sent, `scan` the monitor's timer, and `callSleep` a call of `sleepModel` by anything but the
monitor. `wake` is the last write of `wakeModel`. -/
inductive SleepAct
  | select (instanceId : String) (counted : Bool)
  | acquired (k : Nat)
  | reject (k : Nat)
  | finish (k : Nat) (noted : Bool)
  | scan
  | callSleep (instanceId : String)
  | answerSleep (k : Nat) (ok : Bool)
  | wake (instanceId : String)
  | setRoutable (instanceId : String) (routable : Bool)
  | clock (now : Int)
  deriving DecidableEq, Repr

namespace SleepState

def get (s : SleepState) (id : String) : Option SleepableInstance := s.instances.find? (·.id = id)

def update (s : SleepState) (id : String) (f : SleepableInstance → SleepableInstance) : SleepState :=
  { s with instances := s.instances.map fun i => if i.id = id then f i else i }

def noteActivity (s : SleepState) (id : String) : SleepState :=
  s.update id fun i => { i with lastActivityAt := some s.now }

def hasActiveConnections (s : SleepState) (id : String) : Bool := 0 < s.connections id

def updateInstanceConnections (s : SleepState) (id : String) (f : Nat → Nat) : SleepState :=
  { s with connections := Function.update s.connections id (f (s.connections id)) }

/-- The monitor's checks, for a scan that began at `now`. -/
def isIdle (s : SleepState) (now : Int) (i : SleepableInstance) : Bool :=
  i.status = .running && i.sleepModeEnabled &&
    match i.idleSleepTimeoutSeconds with
    | some timeout => 0 < timeout && !s.hasActiveConnections i.id &&
        timeout * 1000 ≤ now - i.lastActivityAt.getD (i.readyAt.getD i.loadedAt)
    | none => false

/-- The first instance that the checks let through, and those after it. -/
def nextIdle (s : SleepState) (now : Int) : List String → Option (String × List String)
  | [] => none
  | id :: ids => if (s.get id).any (s.isIdle now) then some (id, ids) else s.nextIdle now ids

/-- The monitor goes on up to its next call of `sleepModel`. -/
def continueScan (s : SleepState) (scan : Scan) : SleepState :=
  match s.nextIdle scan.now scan.todo with
  | some (id, ids) =>
    { s with calls := s.calls ++ [⟨id, true, false⟩], scan := some { scan with todo := ids } }
  | none => { s with scan := none }

def startedScan (s : SleepState) : Scan := ⟨s.now, s.instances.map (·.id)⟩

def setRequest (s : SleepState) (k : Nat) (r : RoutedRequest) : SleepState :=
  { s with requests := s.requests.set k r }

/-- What a request does as soon as it is admitted. -/
def send (s : SleepState) (k : Nat) (r : RoutedRequest) : SleepState :=
  let u := s.setRequest k { r with pc := .sent }
  if r.counted then
    (u.noteActivity r.instanceId).updateInstanceConnections r.instanceId (· + 1)
  else u

def complete (s : SleepState) (k : Nat) (r : RoutedRequest) (noted : Bool) : SleepState :=
  let u := s.setRequest k { r with pc := .done }
  if r.counted then
    let v := u.updateInstanceConnections r.instanceId (· - 1)
    if noted then v.noteActivity r.instanceId else v
  else u

/-- `sleepModel` when vLLM has answered. -/
def afterAnswer (s : SleepState) (k : Nat) (call : SleepCall) (ok : Bool) : SleepState :=
  let u := { s with calls := s.calls.set k { call with answered := true } }
  if ok then u.update call.instanceId fun i => { i with status := .sleeping } else u

def step (s : SleepState) : SleepAct → Option SleepState
  | .select id counted => match s.get id with
    | some i =>
      if i.status = .running ∧ (counted = true → i.routable = true) then
        some { s with requests := s.requests ++ [⟨id, counted, .queued⟩] }
      else none
    | none => none
  | .acquired k => match s.requests[k]? with
    | some r => if r.pc = .queued then some (s.send k r) else none
    | none => none
  | .reject k => match s.requests[k]? with
    | some r => if r.pc = .queued then some (s.setRequest k { r with pc := .done }) else none
    | none => none
  | .finish k noted => match s.requests[k]? with
    | some r => if r.pc = .sent then some (s.complete k r noted) else none
    | none => none
  | .scan => match s.scan with
    | some _ => some s
    | none => some (s.continueScan s.startedScan)
  | .callSleep id => match s.get id with
    | some i =>
      if i.sleepModeEnabled = true ∧ i.status = .running then
        some { s with calls := s.calls ++ [⟨id, false, false⟩] }
      else some s
    | none => some s
  | .answerSleep k ok => match s.calls[k]? with
    | some call =>
      if call.answered then none
      else match (s.afterAnswer k call ok).scan, call.byMonitor with
        | some scan, true => some ((s.afterAnswer k call ok).continueScan scan)
        | _, _ => some (s.afterAnswer k call ok)
    | none => none
  | .wake id => some (s.update id fun i =>
      { i with status := .running, routable := true, lastActivityAt := some s.now })
  | .setRoutable id routable => some (s.update id fun i => { i with routable := routable })
  | .clock now => some { s with now := now }

/-- A request is sent to an instance that is not asleep. -/
def SendsAwake (s : SleepState) : SleepAct → Prop
  | .acquired k => ∀ r ∈ s.requests[k]?, r.pc = .queued →
      ∀ i ∈ s.get r.instanceId, i.status ≠ .sleeping
  | _ => True

/-- No request is queued or in flight for an instance that the monitor is putting to sleep. -/
def MonitorSpares (s : SleepState) : Prop :=
  ∀ call ∈ s.calls, call.byMonitor = true → call.answered = false →
    ∀ r ∈ s.requests, r.instanceId = call.instanceId → r.pc = .done

/-- For an instance that the monitor's checks let through no request is queued, and none that is not
counted in flight. -/
def SparesNext (s : SleepState) (scan : Scan) : Prop :=
  ∀ next ∈ s.nextIdle scan.now scan.todo, ∀ r ∈ s.requests, r.instanceId = next.1 →
    r.pc = .done ∨ (r.pc = .sent ∧ r.counted = true)

/-- What the monitor lets through is spared, and no request selects an instance that the monitor is
putting to sleep. -/
def SparesOpen (s : SleepState) : SleepAct → Prop
  | .select id _ => ∀ call ∈ s.calls, call.byMonitor = true → call.answered = false →
      call.instanceId ≠ id
  | .scan => s.scan = none → s.SparesNext s.startedScan
  | .answerSleep k ok => ∀ call ∈ s.calls[k]?, call.byMonitor = true →
      ∀ scan ∈ s.scan, (s.afterAnswer k call ok).SparesNext scan
  | _ => True

/-- An instance is put to sleep only while no request is queued for it. -/
def NoneQueued (s : SleepState) : SleepAct → Prop
  | .answerSleep k ok => ok = true → ∀ call ∈ s.calls[k]?,
      ∀ r ∈ s.requests, r.instanceId = call.instanceId → r.pc ≠ .queued
  | _ => True

instance (s : SleepState) : Decidable s.MonitorSpares :=
  inferInstanceAs (Decidable (∀ call ∈ s.calls, _ → _ → ∀ r ∈ s.requests, _ → _))

instance (s : SleepState) (scan : Scan) : Decidable (s.SparesNext scan) :=
  inferInstanceAs (Decidable (∀ next ∈ s.nextIdle scan.now scan.todo, ∀ r ∈ s.requests, _ → _))

instance (s : SleepState) : ∀ a, Decidable (s.SparesOpen a)
  | .select id _ => inferInstanceAs (Decidable (∀ call ∈ s.calls, _ → _ → call.instanceId ≠ id))
  | .scan => inferInstanceAs (Decidable (s.scan = none → _))
  | .answerSleep k _ => inferInstanceAs (Decidable (∀ call ∈ s.calls[k]?, _ → ∀ scan ∈ s.scan, _))
  | .acquired _ | .reject _ | .finish _ _ | .callSleep _ | .wake _ | .setRoutable _ _ | .clock _ =>
    .isTrue trivial

instance (s : SleepState) : ∀ a, Decidable (s.NoneQueued a)
  | .answerSleep k ok => inferInstanceAs (Decidable (ok = true → ∀ call ∈ s.calls[k]?,
      ∀ r ∈ s.requests, r.instanceId = call.instanceId → r.pc ≠ .queued))
  | .select _ _ | .acquired _ | .reject _ | .finish _ _ | .scan | .callSleep _ | .wake _
  | .setRoutable _ _ | .clock _ => .isTrue trivial

variable {s t : SleepState} {id : String} {k : Nat} {r : RoutedRequest}

/-- The connections of an instance are its counted requests in flight. -/
def Counted (s : SleepState) : Prop :=
  ∀ id, s.connections id =
    s.requests.countP fun r => r.counted = true ∧ r.pc = .sent ∧ r.instanceId = id

/-- The instance that a queued request has selected is not asleep. -/
def QueuedAwake (s : SleepState) : Prop :=
  ∀ r ∈ s.requests, r.pc = .queued → ∀ i, s.get r.instanceId = some i → i.status ≠ .sleeping

section Frames

variable (s)

@[simp] theorem connections_noteActivity (id : String) :
    (s.noteActivity id).connections = s.connections := rfl

theorem requests_send (k : Nat) (r : RoutedRequest) :
    (s.send k r).requests = s.requests.set k { r with pc := .sent } := by
  rw [send]
  split_ifs <;> rfl

theorem calls_send (k : Nat) (r : RoutedRequest) : (s.send k r).calls = s.calls := by
  rw [send]
  split_ifs <;> rfl

theorem connections_send (k : Nat) (r : RoutedRequest) (id : String) :
    (s.send k r).connections id =
      s.connections id + if r.counted = true ∧ r.instanceId = id then 1 else 0 := by
  by_cases hid : r.instanceId = id
  · subst hid
    cases hc : r.counted <;> simp [send, hc, updateInstanceConnections, setRequest]
  · cases hc : r.counted <;>
      simp [send, hc, updateInstanceConnections, setRequest, hid, Ne.symm hid]

theorem connections_complete (k : Nat) (r : RoutedRequest) (noted : Bool) (id : String) :
    (s.complete k r noted).connections id =
      s.connections id - if r.counted = true ∧ r.instanceId = id then 1 else 0 := by
  by_cases hid : r.instanceId = id
  · subst hid
    cases hc : r.counted <;> cases noted <;>
      simp [complete, hc, updateInstanceConnections, setRequest]
  · cases hc : r.counted <;> cases noted <;>
      simp [complete, hc, updateInstanceConnections, setRequest, hid, Ne.symm hid]

theorem requests_complete (k : Nat) (r : RoutedRequest) (noted : Bool) :
    (s.complete k r noted).requests = s.requests.set k { r with pc := .done } := by
  rw [complete]
  cases noted <;> split_ifs <;> rfl

theorem calls_complete (k : Nat) (r : RoutedRequest) (noted : Bool) :
    (s.complete k r noted).calls = s.calls := by
  rw [complete]
  cases noted <;> split_ifs <;> rfl

theorem requests_afterAnswer (k : Nat) (call : SleepCall) (ok : Bool) :
    (s.afterAnswer k call ok).requests = s.requests := by
  cases ok <;> rfl

theorem calls_afterAnswer (k : Nat) (call : SleepCall) (ok : Bool) :
    (s.afterAnswer k call ok).calls = s.calls.set k { call with answered := true } := by
  cases ok <;> rfl

theorem connections_afterAnswer (k : Nat) (call : SleepCall) (ok : Bool) :
    (s.afterAnswer k call ok).connections = s.connections := by
  cases ok <;> rfl

theorem requests_continueScan (scan : Scan) : (s.continueScan scan).requests = s.requests := by
  rw [continueScan]
  split <;> rfl

theorem instances_continueScan (scan : Scan) : (s.continueScan scan).instances = s.instances := by
  rw [continueScan]
  split <;> rfl

theorem connections_continueScan (scan : Scan) :
    (s.continueScan scan).connections = s.connections := by
  rw [continueScan]
  split <;> rfl

theorem scan_afterAnswer (k : Nat) (call : SleepCall) (ok : Bool) :
    (s.afterAnswer k call ok).scan = s.scan := by
  cases ok <;> rfl

end Frames

/-- What a step does, with what let it through. -/
inductive Outcome (s : SleepState) : SleepAct → SleepState → Prop
  | select {id : String} {i : SleepableInstance} (counted : Bool) (hi : s.get id = some i)
      (hrunning : i.status = .running) (hroutable : counted = true → i.routable = true) :
      Outcome s (.select id counted) { s with requests := s.requests ++ [⟨id, counted, .queued⟩] }
  | acquired {k : Nat} {r : RoutedRequest} (hk : s.requests[k]? = some r) (hpc : r.pc = .queued) :
      Outcome s (.acquired k) (s.send k r)
  | reject {k : Nat} {r : RoutedRequest} (hk : s.requests[k]? = some r) (hpc : r.pc = .queued) :
      Outcome s (.reject k) (s.setRequest k { r with pc := .done })
  | finish {k : Nat} {r : RoutedRequest} (noted : Bool) (hk : s.requests[k]? = some r)
      (hpc : r.pc = .sent) : Outcome s (.finish k noted) (s.complete k r noted)
  | scanning {scan : Scan} (hscan : s.scan = some scan) : Outcome s .scan s
  | scan (hscan : s.scan = none) : Outcome s .scan (s.continueScan s.startedScan)
  | callSleep {id : String} {i : SleepableInstance} (hi : s.get id = some i)
      (hsleepable : i.sleepModeEnabled = true ∧ i.status = .running) :
      Outcome s (.callSleep id) { s with calls := s.calls ++ [⟨id, false, false⟩] }
  | callRefused {id : String} (hrefused : ∀ i, s.get id = some i →
      ¬ (i.sleepModeEnabled = true ∧ i.status = .running)) : Outcome s (.callSleep id) s
  | answered {k : Nat} {call : SleepCall} (ok : Bool) (hk : s.calls[k]? = some call)
      (hopen : call.answered = false) (hidle : call.byMonitor = true → s.scan = none) :
      Outcome s (.answerSleep k ok) (s.afterAnswer k call ok)
  | scansOn {k : Nat} {call : SleepCall} {scan : Scan} (ok : Bool) (hk : s.calls[k]? = some call)
      (hopen : call.answered = false) (hmonitor : call.byMonitor = true)
      (hscan : s.scan = some scan) :
      Outcome s (.answerSleep k ok) ((s.afterAnswer k call ok).continueScan scan)
  | wake (id : String) : Outcome s (.wake id) (s.update id fun i =>
      { i with status := .running, routable := true, lastActivityAt := some s.now })
  | setRoutable (id : String) (routable : Bool) :
      Outcome s (.setRoutable id routable) (s.update id fun i => { i with routable := routable })
  | clock (now : Int) : Outcome s (.clock now) { s with now := now }

theorem step_outcome {a : SleepAct} (ht : s.step a = some t) : Outcome s a t := by
  cases a with
  | select id counted =>
    simp only [step] at ht
    split at ht
    · rename_i i hi
      split_ifs at ht with hlive
      cases ht
      exact .select counted hi hlive.1 hlive.2
    · cases ht
  | acquired k =>
    simp only [step] at ht
    split at ht
    · rename_i r hk
      split_ifs at ht with hpc
      cases ht
      exact .acquired hk hpc
    · cases ht
  | reject k =>
    simp only [step] at ht
    split at ht
    · rename_i r hk
      split_ifs at ht with hpc
      cases ht
      exact .reject hk hpc
    · cases ht
  | finish k noted =>
    simp only [step] at ht
    split at ht
    · rename_i r hk
      split_ifs at ht with hpc
      cases ht
      exact .finish noted hk hpc
    · cases ht
  | scan =>
    simp only [step] at ht
    split at ht
    · rename_i scan hscan
      cases ht
      exact .scanning hscan
    · rename_i hscan
      cases ht
      exact .scan hscan
  | callSleep id =>
    simp only [step] at ht
    split at ht
    · rename_i i hi
      split_ifs at ht with hsleepable
      · cases ht
        exact .callSleep hi hsleepable
      · cases ht
        refine .callRefused fun i' hi' => ?_
        cases hi.symm.trans hi'
        exact hsleepable
    · rename_i hnone
      cases ht
      refine .callRefused fun i hi => ?_
      cases hnone.symm.trans hi
  | answerSleep k ok =>
    simp only [step] at ht
    split at ht
    · rename_i call hk
      split_ifs at ht with hopen
      have hunanswered : call.answered = false := by simpa using hopen
      rw [scan_afterAnswer] at ht
      split at ht
      · rename_i scan hscan hmonitor
        cases ht
        exact .scansOn ok hk hunanswered hmonitor hscan
      · rename_i hnot
        cases ht
        refine .answered ok hk hunanswered fun hmonitor => ?_
        cases hscan : s.scan with
        | none => rfl
        | some scan => exact absurd hmonitor (hnot scan hscan)
    · cases ht
  | wake id =>
    cases ht
    exact .wake id
  | setRoutable id routable =>
    cases ht
    exact .setRoutable id routable
  | clock now =>
    cases ht
    exact .clock now

theorem get_update (s : SleepState) (id id' : String) {f : SleepableInstance → SleepableInstance}
    (hf : ∀ i, (f i).id = i.id) :
    (s.update id' f).get id = (s.get id).map fun i => if i.id = id' then f i else i := by
  rw [get, update, List.find?_map, get]
  congr 2
  funext i
  rw [Function.comp]
  split_ifs
  · rw [hf]
  · rfl

theorem id_of_get {i : SleepableInstance} (h : s.get id = some i) : i.id = id := by
  simpa using List.find?_some h

/-- What the monitor's checks let through is an instance without counted requests in flight. -/
theorem nextIdle_eq_some {now : Int} {todo ids : List String}
    (h : s.nextIdle now todo = some (id, ids)) : s.connections id = 0 := by
  induction todo with
  | nil => cases h
  | cons x xs ih =>
    rw [nextIdle] at h
    split_ifs at h with hidle
    · cases h
      obtain ⟨i, hi, hcheck⟩ := (Option.any_eq_true _ _).mp hidle
      have hid := id_of_get hi
      simp only [isIdle, Bool.and_eq_true] at hcheck
      obtain ⟨-, htimeout⟩ := hcheck
      split at htimeout
      · simp [hasActiveConnections, hid] at htimeout
        exact htimeout.1.2
      · cases htimeout
    · exact ih h

theorem not_done_of_eq {pc : RequestPc} (hpc : r.pc = pc) (h : pc ≠ .done) : r.pc ≠ .done := by
  rw [hpc]
  exact h

/-- A request that goes on leaves the monitor's calls as spared as they were. -/
theorem monitorSpares_moves (h : s.MonitorSpares) (hk : s.requests[k]? = some r) (hpc : r.pc ≠ .done)
    (pc : RequestPc) (hcalls : t.calls = s.calls)
    (hrequests : t.requests = s.requests.set k { r with pc := pc }) : t.MonitorSpares := by
  intro call hcall hmonitor hopen
  rw [hcalls] at hcall
  rw [hrequests]
  refine ListUpdate.forall_set (h call hcall hmonitor hopen) hk fun hdone hsame => ?_
  exact absurd (hdone hsame) hpc

theorem counted_of_eq (h : s.Counted) (hrequests : t.requests = s.requests)
    (hconnections : t.connections = s.connections) : t.Counted := by
  intro id
  rw [hrequests, hconnections]
  exact h id

/-- The monitor's next call is spared exactly when no request that it does not see is open. -/
theorem monitorSpares_continueScan_iff (h : s.MonitorSpares) (hcounted : s.Counted) (scan : Scan) :
    (s.continueScan scan).MonitorSpares ↔ s.SparesNext scan := by
  rw [continueScan]
  cases hnext : s.nextIdle scan.now scan.todo with
  | none =>
    refine iff_of_true h fun next hsome => ?_
    rw [hnext] at hsome
    cases hsome
  | some x =>
    obtain ⟨id, ids⟩ := x
    have hnone : ∀ r ∈ s.requests, r.instanceId = id → r.counted = true → r.pc ≠ .sent := by
      intro r hr hid hc hpc
      have hpos : 0 < s.requests.countP fun r =>
          r.counted = true ∧ r.pc = .sent ∧ r.instanceId = id :=
        List.countP_pos_iff.mpr ⟨r, hr, decide_eq_true ⟨hc, hpc, hid⟩⟩
      rw [← hcounted, nextIdle_eq_some hnext] at hpos
      exact absurd hpos (lt_irrefl 0)
    constructor
    · intro hspares next heq r hr hid
      rw [hnext] at heq
      cases heq
      exact .inl (hspares ⟨id, true, false⟩ (List.mem_append_right _ (List.mem_singleton_self _))
        rfl rfl r hr hid)
    · intro hspares call hcall hmonitor hopen r hr hid
      rcases List.mem_append.mp hcall with hcall | hcall
      · exact h call hcall hmonitor hopen r hr hid
      · cases List.mem_singleton.mp hcall
        obtain hdone | ⟨hsent, hc⟩ := hspares (id, ids) hnext r hr hid
        · exact hdone
        · exact absurd hsent (hnone r hr hid hc)

/-- `sleepModel`'s answer leaves no more calls of the monitor under way. -/
theorem monitorSpares_afterAnswer (h : s.MonitorSpares) (call : SleepCall) (ok : Bool) :
    (s.afterAnswer k call ok).MonitorSpares := by
  intro call' hcall' hmonitor hopen
  rw [calls_afterAnswer] at hcall'
  rw [requests_afterAnswer]
  rcases List.mem_or_eq_of_mem_set hcall' with hcall' | rfl
  · exact h call' hcall' hmonitor hopen
  · cases hopen

theorem monitorSpares_step_iff (h : s.MonitorSpares) (hcounted : s.Counted) {a : SleepAct}
    (ht : s.step a = some t) : t.MonitorSpares ↔ s.SparesOpen a := by
  cases step_outcome ht with
  | select counted hi hrunning =>
    constructor
    · intro hspares call hcall hmonitor hopen hid
      have hdone := hspares call hcall hmonitor hopen ⟨_, counted, .queued⟩
        (List.mem_append_right _ (List.mem_singleton_self _)) hid.symm
      cases hdone
    · intro hfree call hcall hmonitor hopen r hr hid
      rcases List.mem_append.mp hr with hr | hr
      · exact h call hcall hmonitor hopen r hr hid
      · cases List.mem_singleton.mp hr
        exact absurd hid.symm (hfree call hcall hmonitor hopen)
  | acquired hk hpc =>
    have hopen := not_done_of_eq hpc nofun
    exact iff_of_true (monitorSpares_moves h hk hopen .sent (s.calls_send _ _)
      (s.requests_send _ _)) trivial
  | reject hk hpc =>
    have hopen := not_done_of_eq hpc nofun
    exact iff_of_true (monitorSpares_moves h hk hopen .done rfl rfl) trivial
  | finish noted hk hpc =>
    have hopen := not_done_of_eq hpc nofun
    exact iff_of_true (monitorSpares_moves h hk hopen .done (s.calls_complete _ _ noted)
      (s.requests_complete _ _ noted)) trivial
  | scanning hscan =>
    refine iff_of_true h fun hnone => ?_
    rw [hscan] at hnone
    cases hnone
  | scan hscan =>
    rw [monitorSpares_continueScan_iff h hcounted]
    exact ⟨fun hspares _ => hspares, fun hspares => hspares hscan⟩
  | callSleep hi =>
    refine iff_of_true ?_ trivial
    intro call hcall hmonitor hopen
    rcases List.mem_append.mp hcall with hcall | hcall
    · exact h call hcall hmonitor hopen
    · cases List.mem_singleton.mp hcall
      cases hmonitor
  | answered ok hk hopen hidle =>
    refine iff_of_true (monitorSpares_afterAnswer h _ ok) fun call hk' hmonitor scan hsome => ?_
    cases hk.symm.trans hk'
    cases (hidle hmonitor).symm.trans hsome
  | @scansOn k call scan ok hk hopen hmonitor hscan =>
    have hafter := monitorSpares_afterAnswer (k := k) h call ok
    have hcounted' := counted_of_eq hcounted (s.requests_afterAnswer k call ok)
      (s.connections_afterAnswer k call ok)
    rw [monitorSpares_continueScan_iff hafter hcounted']
    constructor
    · intro hspares call' hk' _ scan' hscan'
      cases hk.symm.trans hk'
      cases hscan.symm.trans hscan'
      exact hspares
    · intro hspares
      exact hspares call hk hmonitor scan hscan
  | callRefused | wake | setRoutable | clock => exact iff_of_true h trivial

theorem counted_select (h : s.Counted) (counted : Bool) :
    Counted { s with requests := s.requests ++ [⟨id, counted, .queued⟩] } := by
  intro id'
  rw [List.countP_append]
  simpa using h id'

theorem counted_reject (h : s.Counted) (hk : s.requests[k]? = some r) (hpc : r.pc = .queued) :
    (s.setRequest k { r with pc := .done }).Counted := by
  intro id
  have hset := ListUpdate.countP_set_add hk { r with pc := .done } fun r =>
    r.counted = true ∧ r.pc = .sent ∧ r.instanceId = id
  simp only [hpc, reduceCtorEq, false_and, and_false, decide_false, Bool.false_eq_true, if_false,
    add_zero, ← h id] at hset
  exact hset.symm

theorem counted_send (h : s.Counted) (hk : s.requests[k]? = some r) (hpc : r.pc = .queued) :
    (s.send k r).Counted := by
  intro id
  have hset := ListUpdate.countP_set_add hk { r with pc := .sent } fun r =>
    r.counted = true ∧ r.pc = .sent ∧ r.instanceId = id
  simp only [hpc, reduceCtorEq, false_and, and_false, decide_false, Bool.false_eq_true, if_false,
    add_zero, true_and, ← h id] at hset
  rw [requests_send, hset, connections_send]
  simp only [decide_eq_true_eq]

theorem counted_complete (h : s.Counted) (hk : s.requests[k]? = some r) (hpc : r.pc = .sent)
    (noted : Bool) : (s.complete k r noted).Counted := by
  intro id
  have hset := ListUpdate.countP_set_add hk { r with pc := .done } fun r =>
    r.counted = true ∧ r.pc = .sent ∧ r.instanceId = id
  simp only [hpc, reduceCtorEq, false_and, and_false, decide_false, Bool.false_eq_true, if_false,
    add_zero, true_and, ← h id, decide_eq_true_eq] at hset
  rw [requests_complete, connections_complete, ← hset, Nat.add_sub_cancel]

/-- Whatever a step does, the connections are the counted requests in flight. -/
theorem counted_step (h : s.Counted) {a : SleepAct} (ht : s.step a = some t) : t.Counted := by
  cases step_outcome ht with
  | select counted => exact counted_select h counted
  | acquired hk hpc => exact counted_send h hk hpc
  | reject hk hpc => exact counted_reject h hk hpc
  | finish noted hk hpc => exact counted_complete h hk hpc noted
  | scan => exact counted_of_eq h (s.requests_continueScan _) (s.connections_continueScan _)
  | answered ok =>
    exact counted_of_eq h (s.requests_afterAnswer _ _ ok) (s.connections_afterAnswer _ _ ok)
  | @scansOn k call scan ok =>
    have hafter := counted_of_eq h (s.requests_afterAnswer k call ok)
      (s.connections_afterAnswer k call ok)
    exact counted_of_eq hafter (requests_continueScan _ _) (connections_continueScan _ _)
  | scanning | callSleep | callRefused | wake | setRoutable | clock => exact h

theorem queuedAwake_of_eq (h : s.QueuedAwake) (hrequests : t.requests = s.requests)
    (hinstances : t.instances = s.instances) : t.QueuedAwake := by
  intro r hr hpc i hi
  rw [hrequests] at hr
  rw [get, hinstances] at hi
  exact h r hr hpc i hi

/-- A write to an instance that puts it to sleep finds no request queued for it. -/
theorem queuedAwake_update (h : s.QueuedAwake) {f : SleepableInstance → SleepableInstance}
    (hid : ∀ i, (f i).id = i.id)
    (hf : ∀ i, s.get id = some i → (f i).status = .sleeping → i.status ≠ .sleeping →
      ∀ r ∈ s.requests, r.instanceId = id → r.pc ≠ .queued) : (s.update id f).QueuedAwake := by
  intro r hr hpc i hi hsleeping
  rw [get_update s r.instanceId id hid] at hi
  obtain ⟨i₀, hi₀, rfl⟩ := Option.map_eq_some_iff.mp hi
  have hawake := h r hr hpc i₀ hi₀
  split_ifs at hsleeping with heq
  · have hsame : r.instanceId = id := (id_of_get hi₀).symm.trans heq
    rw [hsame] at hi₀
    exact hf i₀ hi₀ hsleeping hawake r hr hsame hpc
  · exact hawake hsleeping

theorem queuedAwake_moves (h : s.QueuedAwake) (pc : RequestPc) (hpc : pc ≠ .queued)
    (hk : s.requests[k]? = some r) : (s.setRequest k { r with pc := pc }).QueuedAwake := by
  refine ListUpdate.forall_set h hk fun _ hqueued => ?_
  exact absurd hqueued hpc

theorem queuedAwake_noteActivity (h : s.QueuedAwake) (id : String) :
    (s.noteActivity id).QueuedAwake := by
  refine queuedAwake_update h (fun _ => rfl) fun i _ hsleeping hawake => ?_
  exact absurd hsleeping hawake

/-- `sleepModel`'s answer puts to sleep only an instance that no request is queued for. -/
theorem queuedAwake_afterAnswer (h : s.QueuedAwake) {call : SleepCall} (ok : Bool)
    (hnone : ok = true → ∀ r ∈ s.requests, r.instanceId = call.instanceId → r.pc ≠ .queued) :
    (s.afterAnswer k call ok).QueuedAwake := by
  cases ok with
  | false => exact h
  | true =>
    exact queuedAwake_update (s := { s with calls := _ }) h (fun _ => rfl)
      fun i _ _ _ r hr hid => hnone rfl r hr hid

theorem queuedAwake_step (h : s.QueuedAwake) {a : SleepAct} (hnone : s.NoneQueued a)
    (ht : s.step a = some t) : t.QueuedAwake := by
  cases step_outcome ht with
  | select counted hi₀ hrunning =>
    intro r hr hpc i hi
    rcases List.mem_append.mp hr with hr | hr
    · exact h r hr hpc i hi
    · cases List.mem_singleton.mp hr
      cases hi₀.symm.trans hi
      rw [hrunning]
      nofun
  | @acquired k r hk =>
    have hmoved := queuedAwake_moves h .sent nofun hk
    rw [send]
    split_ifs
    · exact queuedAwake_of_eq (queuedAwake_noteActivity hmoved r.instanceId) rfl rfl
    · exact hmoved
  | reject hk => exact queuedAwake_moves h _ nofun hk
  | @finish k r noted hk =>
    have hmoved := queuedAwake_moves h .done nofun hk
    rw [complete]
    split_ifs
    · exact queuedAwake_noteActivity (queuedAwake_of_eq hmoved rfl rfl) r.instanceId
    · exact queuedAwake_of_eq hmoved rfl rfl
    · exact hmoved
  | scan => exact queuedAwake_of_eq h (s.requests_continueScan _) (s.instances_continueScan _)
  | answered ok hk => exact queuedAwake_afterAnswer h ok fun hok => hnone hok _ hk
  | @scansOn k call scan ok hk =>
    have hafter := queuedAwake_afterAnswer (k := k) h ok fun hok => hnone hok call hk
    exact queuedAwake_of_eq hafter (requests_continueScan _ _) (instances_continueScan _ _)
  | wake id => exact queuedAwake_update h (fun _ => rfl) fun i _ hsleeping => by cases hsleeping
  | setRoutable id =>
    exact queuedAwake_update h (fun _ => rfl) fun i _ hsleeping hawake =>
      absurd hsleeping hawake
  | scanning | callSleep | callRefused | clock => exact h

/-- No request has come yet, and nothing is being put to sleep. -/
structure Quiet (s : SleepState) : Prop where
  requests : s.requests = []
  calls : s.calls = []
  connections : ∀ id, s.connections id = 0

/-- If instances are put to sleep only while nothing is queued for them and what the monitor lets
through is spared, then no request is sent to an instance that is asleep, and none is queued or in
flight for one that the monitor is putting to sleep. The latter is so exactly in these runs. -/
theorem sleep_spares_requests {u : SleepState} {acts : List SleepAct} (hs : s.Quiet)
    (hrun : Transition.run step s acts = some u) :
    (Transition.Along step (fun s a => s.NoneQueued a ∧ s.SparesOpen a) s acts →
      Transition.Along step
        (fun s a => s.SendsAwake a ∧ ∀ t, s.step a = some t → t.MonitorSpares) s acts) ∧
      (Transition.Along step (fun s a => ∀ t, s.step a = some t → t.MonitorSpares) s acts ↔
        Transition.Along step SparesOpen s acts) := by
  have hcounted : s.Counted := by
    intro id
    rw [hs.connections, hs.requests, List.countP_nil]
  have hawake : s.QueuedAwake := by
    intro r hr
    rw [hs.requests] at hr
    cases hr
  have hspares : s.MonitorSpares := by
    intro call hcall
    rw [hs.calls] at hcall
    cases hcall
  constructor
  · refine Transition.along_imp
      (I := fun s => s.Counted ∧ s.QueuedAwake ∧ s.MonitorSpares) ?_ ?_ ⟨hcounted, hawake, hspares⟩
    · rintro s a ⟨hcounted, hawake, hspares⟩ ⟨hnone, hopen⟩
      refine ⟨?_, fun t ht => (monitorSpares_step_iff hspares hcounted ht).mpr hopen⟩
      cases a with
      | acquired k =>
        intro r hk hqueued
        exact hawake r (List.mem_of_getElem? hk) hqueued
      | _ => trivial
    · rintro s a t ⟨hcounted, hawake, hspares⟩ ⟨hnone, hopen⟩ ht
      exact ⟨counted_step hcounted ht, queuedAwake_step hawake hnone ht,
        (monitorSpares_step_iff hspares hcounted ht).mpr hopen⟩
  · exact Transition.along_next_iff (I := Counted) (E := fun _ _ => True)
      (fun _ _ _ hcounted hspares _ ht => monitorSpares_step_iff hspares hcounted ht)
      (fun _ _ _ hcounted _ ht => counted_step hcounted ht) hcounted hspares
      (Transition.along_of_mem (fun _ _ _ => trivial) s) hrun

/-- One running instance that sleeps after a minute, last active at 0. -/
def oneInstance : SleepState where
  now := 0
  instances := [⟨"4f1c", .running, true, true, some 60, some 0, some 0, 0⟩]
  connections := fun _ => 0
  requests := []
  calls := []
  scan := none

theorem quiet_oneInstance : oneInstance.Quiet := ⟨rfl, rfl, fun _ => rfl⟩

/-- A request waits for its admission while the monitor puts its instance to sleep. -/
def queuedDuringScan : List SleepAct :=
  [.clock 59000, .select "4f1c" true, .clock 60000, .scan]

def duringScan : SleepState :=
  (Transition.run step oneInstance queuedDuringScan).get (by decide +kernel)

def asleep : SleepState := (duringScan.step (.answerSleep 0 true)).get (by decide +kernel)

theorem queued_request_slept_under :
    Transition.run step oneInstance queuedDuringScan = some duringScan ∧
      ¬ duringScan.MonitorSpares ∧ duringScan.step (.answerSleep 0 true) = some asleep ∧
      (asleep.step (.acquired 0)).isSome ∧ ¬ asleep.SendsAwake (.acquired 0) := by
  refine ⟨(Option.some_get _).symm, by decide +kernel, (Option.some_get _).symm,
    by decide +kernel, fun hsends => ?_⟩
  have hr : asleep.requests[0]? = some ⟨"4f1c", true, .queued⟩ := by decide +kernel
  have hi : asleep.get "4f1c" =
      some ⟨"4f1c", .sleeping, true, true, some 60, some 0, some 0, 0⟩ := by
    decide +kernel
  exact hsends _ hr rfl _ hi rfl

def sleepAfterEnd : List SleepAct :=
  [.select "4f1c" true, .acquired 0, .finish 0 true, .clock 60000, .scan, .answerSleep 0 true]

/-- An instance that is put to sleep after its request has ended. -/
theorem sleep_spares_requests_afterEnd :
    Transition.Along step
      (fun s a => s.SendsAwake a ∧ ∀ t, s.step a = some t → t.MonitorSpares) oneInstance
      sleepAfterEnd := by
  have hrun : (Transition.run step oneInstance sleepAfterEnd).isSome := by decide +kernel
  exact (sleep_spares_requests quiet_oneInstance (Option.some_get hrun).symm).1 (by decide +kernel)

end SleepState

end GpuSharing.Sardeenz.IdleSleep
