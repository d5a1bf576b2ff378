import Mathlib.Algebra.Order.Ring.Rat
import Mathlib.Data.List.DropRight
import Mathlib.Order.Bounds.Basic
import Mathlib.Tactic.Linarith
import GpuSharing.Controller.SleepManager
import GpuSharing.Lib.Dict
import GpuSharing.Lib.Transition

namespace GpuSharing.Controller

open Transition

/-- Times are in seconds. -/
structure RequestStats (M : Type) where
  timestamp : Rat
  modelName : M
  endpointPath : String
  responseTime : Option Rat
  success : Bool
  errorMessage : Option String
  deriving DecidableEq, Repr

/-- `requestTimestamps` is the deque with room for 1000 of them. -/
structure ModelActivityStats where
  totalRequests : Nat := 0
  successfulRequests : Nat := 0
  failedRequests : Nat := 0
  lastActivityTime : Rat := 0
  avgResponseTime : Rat := 0
  requestTimestamps : List Rat := []
  deriving DecidableEq, Repr

namespace ModelActivityStats

def addRequest {M : Type} (stats : ModelActivityStats) (r : RequestStats M) : ModelActivityStats :=
  let seen := { stats with
    totalRequests := stats.totalRequests + 1
    lastActivityTime := r.timestamp
    requestTimestamps := (stats.requestTimestamps ++ [r.timestamp]).rtake 1000 }
  if r.success then
    let successful := stats.successfulRequests + 1
    { seen with
      successfulRequests := successful
      avgResponseTime := match r.responseTime with
        | some time =>
          if time = 0 then stats.avgResponseTime
          else (stats.avgResponseTime * (successful - 1) + time) / successful
        | none => stats.avgResponseTime }
  else { seen with failedRequests := stats.failedRequests + 1 }

@[simp] theorem lastActivityTime_addRequest {M : Type} (stats : ModelActivityStats)
    (r : RequestStats M) : (stats.addRequest r).lastActivityTime = r.timestamp := by
  simp only [addRequest]
  split <;> rfl

/-- `none` is the infinite idle time of a model that never had any activity. -/
def getIdleTime (stats : ModelActivityStats) (now : Rat) : Option Rat :=
  if stats.lastActivityTime = 0 then none else some (now - stats.lastActivityTime)

def isIdle (stats : ModelActivityStats) (idleThresholdSeconds now : Rat) : Bool :=
  match stats.getIdleTime now with
  | some time => idleThresholdSeconds < time
  | none => true

end ModelActivityStats

/-- A reference to a `RequestStats` is its index in `requests`. `clock` is the last time that was
read, and `ended` the references with which `record_request_end` was called, each with the time of the
call. -/
structure TrafficMonitor (M : Type) where
  modelStats : Dict M ModelActivityStats
  idleThresholdSeconds : Rat
  requestHistory : List Nat
  requests : List (RequestStats M)
  clock : Rat
  ended : List (Nat × Rat)

/-- `idleModels` is a call of `get_idle_models` that reads the clock for each of the models, and
returns at `after`. -/
inductive TrafficAct (M : Type)
  | start (modelName : M) (endpointPath : String) (now : Rat)
  | finish (r : Nat) (success : Bool) (responseTime : Option Rat) (errorMessage : Option String)
      (now : Rat)
  | idleModels (idleThresholdSeconds : Option Rat) (now : M → Rat) (after : Rat)

namespace TrafficMonitor

variable {M T : Type} [DecidableEq M]

def init (idleThresholdSeconds : Rat) : TrafficMonitor M where
  modelStats := ∅
  idleThresholdSeconds := idleThresholdSeconds
  requestHistory := []
  requests := []
  clock := 0
  ended := []

def recordRequestStart (s : TrafficMonitor M) (modelName : M) (endpointPath : String) (now : Rat) :
    TrafficMonitor M :=
  let history := s.requestHistory ++ [s.requests.length]
  { s with
    requests := s.requests ++ [⟨now, modelName, endpointPath, none, true, none⟩]
    requestHistory := if 10000 < history.length then history.rtake 5000 else history
    clock := now }

/-- The object that `record_request_end` has filled in. -/
def ends (r : RequestStats M) (success : Bool) (responseTime : Option Rat)
    (errorMessage : Option String) (now : Rat) : RequestStats M :=
  { r with
    responseTime := some (responseTime.getD (now - r.timestamp))
    success := success
    errorMessage := errorMessage }

def recordRequestEnd (s : TrafficMonitor M) (k : Nat) (r : RequestStats M) (now : Rat) :
    TrafficMonitor M :=
  { s with
    requests := s.requests.set k r
    modelStats := Dict.setItem s.modelStats r.modelName
      (((s.modelStats.lookup r.modelName).getD {}).addRequest r)
    clock := now
    ended := (k, now) :: s.ended }

def threshold (s : TrafficMonitor M) (idleThresholdSeconds : Option Rat) : Rat :=
  idleThresholdSeconds.getD s.idleThresholdSeconds

def getIdleModels (s : TrafficMonitor M) (idleThresholdSeconds : Option Rat) (now : M → Rat) :
    List M :=
  (s.modelStats.entries.reverse.filter fun e =>
    e.2.isIdle (s.threshold idleThresholdSeconds) (now e.1)).map (·.1)

/-- `get_sleep_candidates` of a sleep manager. -/
def getSleepCandidates (s : TrafficMonitor M) (manager : SleepManager M T)
    (idleThresholdSeconds : Rat) (now : M → Rat) : List M :=
  (s.getIdleModels (some idleThresholdSeconds) now).filter fun m =>
    (manager.sleepingModels m).isNone

def step (s : TrafficMonitor M) : TrafficAct M → Option (TrafficMonitor M)
  | .start m path now =>
    if s.clock ≤ now ∧ 0 < now then some (s.recordRequestStart m path now) else none
  | .finish k success time error now =>
    match s.requests[k]? with
    | some r =>
      if s.clock ≤ now then some (s.recordRequestEnd k (ends r success time error now) now)
      else none
    | none => none
  | .idleModels _ now after =>
    if s.clock ≤ after ∧ ∀ m ∈ s.modelStats.keys, s.clock ≤ now m ∧ now m ≤ after then
      some { s with clock := after }
    else none

/-- The `k`-th request is one for `m`, which started at `time`. -/
def Started (s : TrafficMonitor M) (k : Nat) (m : M) (time : Rat) : Prop :=
  ∃ r, s.requests[k]? = some r ∧ r.modelName = m ∧ r.timestamp = time

/-- The times at which the requests of `m` that have ended started. -/
def endedStarts (s : TrafficMonitor M) (m : M) : Set Rat :=
  { time | ∃ k at', (k, at') ∈ s.ended ∧ s.Started k m time }

/-- `m` has a request in flight, or one that ended less than `threshold` before `now`. -/
def Active (s : TrafficMonitor M) (m : M) (threshold now : Rat) : Prop :=
  (∃ k time, s.Started k m time ∧ ∀ at', (k, at') ∉ s.ended) ∨
    ∃ k time at', (k, at') ∈ s.ended ∧ s.Started k m time ∧ now - at' < threshold

/-- The step lets no `last_activity_time` decrease, and finds no active model idle. -/
def Upholds (T : Type) (s : TrafficMonitor M) (a : TrafficAct M) : Prop :=
  (∀ t, s.step a = some t → ∀ m before after, s.modelStats.lookup m = some before →
    t.modelStats.lookup m = some after → before.lastActivityTime ≤ after.lastActivityTime) ∧
  match a with
  | .idleModels threshold now _ => ∀ m, s.Active m (s.threshold threshold) (now m) →
      m ∉ s.getIdleModels threshold now ∧ ∀ manager : SleepManager M T,
        m ∉ s.getSleepCandidates manager (s.threshold threshold) now
  | _ => True

/-- When a request ends, none of its model's requests that have ended started later; and a model that is
active while its idle time is read has, unless none of its requests has ended, one that has ended and
started no longer than the threshold ago. -/
def Timely (s : TrafficMonitor M) : TrafficAct M → Prop
  | .finish k _ _ _ _ => ∀ m time, s.Started k m time → ∀ earlier ∈ s.endedStarts m, earlier ≤ time
  | .idleModels threshold now _ => ∀ m, s.Active m (s.threshold threshold) (now m) →
      (s.endedStarts m).Nonempty →
        ∃ time ∈ s.endedStarts m, now m - time ≤ s.threshold threshold
  | _ => True

/-- Every entry of `model_stats` has the time at which the latest of the model's ended requests
started, and a model without an entry has none that ended. -/
structure Recorded (s : TrafficMonitor M) : Prop where
  positive : ∀ k m time, s.Started k m time → 0 < time
  known : ∀ e ∈ s.ended, e.1 < s.requests.length
  absent : ∀ m, s.modelStats.lookup m = none → s.endedStarts m = ∅
  latest : ∀ m stats, s.modelStats.lookup m = some stats →
    IsGreatest (s.endedStarts m) stats.lastActivityTime

theorem recorded_init (threshold : Rat) : (init (M := M) threshold).Recorded where
  positive := by simp [init, Started]
  known := by simp [init]
  absent := by simp [init, endedStarts]
  latest := by simp [init]

section Start

variable {s : TrafficMonitor M} {modelName : M} {path : String} {now : Rat}

omit [DecidableEq M] in
theorem started_start {k : Nat} {m : M} {time : Rat} :
    (s.recordRequestStart modelName path now).Started k m time ↔
      s.Started k m time ∨ k = s.requests.length ∧ modelName = m ∧ now = time := by
  simp only [Started, recordRequestStart, List.getElem?_append]
  split
  · rename_i hk
    simp [Nat.ne_of_lt hk]
  · rename_i hk
    rw [List.getElem?_eq_none (Nat.le_of_not_lt hk)]
    by_cases heq : k = s.requests.length
    · simp [heq]
    · have hpos : k - s.requests.length ≠ 0 := by omega
      simp [heq, hpos]

omit [DecidableEq M] in
theorem endedStarts_start (hknown : ∀ e ∈ s.ended, e.1 < s.requests.length) (m : M) :
    (s.recordRequestStart modelName path now).endedStarts m = s.endedStarts m := by
  ext time
  simp only [endedStarts, Set.mem_ofPred_eq, started_start]
  refine exists_congr fun k => exists_congr fun at' => and_congr_right fun he => ?_
  have hk : k ≠ s.requests.length := Nat.ne_of_lt (hknown _ he)
  simp [hk]

theorem Recorded.start (h : s.Recorded) (hnow : 0 < now) :
    (s.recordRequestStart modelName path now).Recorded where
  positive := by
    intro k m time hstart
    rcases started_start.mp hstart with hold | ⟨-, -, rfl⟩
    · exact h.positive k m time hold
    · exact hnow
  known := by
    intro e he
    have := h.known e he
    simp only [recordRequestStart, List.length_append]
    omega
  absent := by
    intro m hm
    rw [endedStarts_start h.known]
    exact h.absent m hm
  latest := by
    intro m stats hm
    rw [endedStarts_start h.known]
    exact h.latest m stats hm

end Start

section Finish

variable {s : TrafficMonitor M} {k : Nat} {r q : RequestStats M} {now : Rat}

theorem started_end (hk : s.requests[k]? = some r) (hname : q.modelName = r.modelName)
    (htime : q.timestamp = r.timestamp) {j : Nat} {m : M} {time : Rat} :
    (s.recordRequestEnd k q now).Started j m time ↔ s.Started j m time := by
  simp only [Started, recordRequestEnd, List.getElem?_set]
  split
  · rename_i hj
    subst hj
    have hlt := (List.getElem?_eq_some_iff.mp hk).1
    simp only [hlt, if_true, hk, Option.some.injEq, exists_eq_left', hname, htime]
  · exact Iff.rfl

theorem mem_endedStarts_end (hk : s.requests[k]? = some r) (hname : q.modelName = r.modelName)
    (htime : q.timestamp = r.timestamp) {m : M} {time : Rat} :
    time ∈ (s.recordRequestEnd k q now).endedStarts m ↔
      r.modelName = m ∧ r.timestamp = time ∨ time ∈ s.endedStarts m := by
  simp only [endedStarts, Set.mem_ofPred_eq, started_end hk hname htime]
  simp only [recordRequestEnd, List.mem_cons, Prod.mk.injEq]
  constructor
  · rintro ⟨j, at', ⟨rfl, rfl⟩ | he, hstart⟩
    · obtain ⟨p, hp, hm, ht⟩ := hstart
      rw [hk] at hp
      cases hp
      exact .inl ⟨hm, ht⟩
    · exact .inr ⟨j, at', he, hstart⟩
  · rintro (⟨hm, ht⟩ | ⟨j, at', he, hstart⟩)
    · exact ⟨k, now, .inl ⟨rfl, rfl⟩, r, hk, hm, ht⟩
    · exact ⟨j, at', .inr he, hstart⟩

theorem lookup_end (hname : q.modelName = r.modelName) (m : M) :
    (s.recordRequestEnd k q now).modelStats.lookup m =
      if r.modelName = m then some (((s.modelStats.lookup m).getD {}).addRequest q)
      else s.modelStats.lookup m := by
  rw [recordRequestEnd, Dict.lookup_setItem, hname]
  by_cases hm : r.modelName = m
  · subst hm
    simp
  · simp [hm, Ne.symm hm]

theorem Recorded.finish (h : s.Recorded) (hk : s.requests[k]? = some r)
    (hname : q.modelName = r.modelName) (htime : q.timestamp = r.timestamp)
    (hlast : ∀ earlier ∈ s.endedStarts r.modelName, earlier ≤ r.timestamp) :
    (s.recordRequestEnd k q now).Recorded where
  positive := fun j m time hstart => h.positive j m time ((started_end hk hname htime).mp hstart)
  known := by
    intro e he
    simp only [recordRequestEnd, List.length_set, List.mem_cons] at he ⊢
    rcases he with rfl | he
    · exact (List.getElem?_eq_some_iff.mp hk).1
    · exact h.known e he
  absent := by
    intro m hm
    rw [lookup_end hname] at hm
    split at hm
    · cases hm
    · rename_i hne
      ext time
      simp [mem_endedStarts_end hk hname htime, hne, h.absent m hm]
  latest := by
    intro m stats hm
    rw [lookup_end hname] at hm
    split at hm
    · rename_i heq
      subst heq
      cases hm
      rw [ModelActivityStats.lastActivityTime_addRequest, htime]
      refine ⟨(mem_endedStarts_end hk hname htime).mpr (.inl ⟨rfl, rfl⟩), fun time ht => ?_⟩
      rcases (mem_endedStarts_end hk hname htime).mp ht with ⟨-, rfl⟩ | hold
      · exact le_rfl
      · exact hlast time hold
    · rename_i hne
      have hset : (s.recordRequestEnd k q now).endedStarts m = s.endedStarts m := by
        ext time
        simp [mem_endedStarts_end hk hname htime, hne]
      rw [hset]
      exact h.latest m stats hm

end Finish

theorem mem_getIdleModels {s : TrafficMonitor M} {threshold : Option Rat} {now : M → Rat} {m : M} :
    m ∈ s.getIdleModels threshold now ↔ ∃ stats, s.modelStats.lookup m = some stats ∧
      stats.isIdle (s.threshold threshold) (now m) := by
  simp only [getIdleModels, List.mem_map, List.mem_filter, List.mem_reverse]
  constructor
  · rintro ⟨⟨_, stats⟩, ⟨he, hidle⟩, rfl⟩
    exact ⟨stats, AList.mem_lookup_iff.mpr he, hidle⟩
  · rintro ⟨stats, hm, hidle⟩
    exact ⟨⟨m, stats⟩, ⟨AList.mem_lookup_iff.mp hm, hidle⟩, rfl⟩

/-- The idle models are those of which a request has ended, and of which all that have ended started
longer than the threshold ago. -/
theorem Recorded.mem_getIdleModels_iff {s : TrafficMonitor M} (h : s.Recorded)
    {threshold : Option Rat} {now : M → Rat} {m : M} :
    m ∈ s.getIdleModels threshold now ↔ (s.endedStarts m).Nonempty ∧
      ∀ time ∈ s.endedStarts m, s.threshold threshold < now m - time := by
  rw [mem_getIdleModels]
  cases hm : s.modelStats.lookup m with
  | none => simp [h.absent m hm]
  | some stats =>
    obtain ⟨hmem, hgreatest⟩ := h.latest m stats hm
    have hpos : stats.lastActivityTime ≠ 0 := by
      obtain ⟨k, _, _, hstart⟩ := hmem
      exact ne_of_gt (h.positive k m _ hstart)
    have hidle : stats.isIdle (s.threshold threshold) (now m) ↔
        s.threshold threshold < now m - stats.lastActivityTime := by
      simp [ModelActivityStats.isIdle, ModelActivityStats.getIdleTime, hpos]
    simp only [Option.some.injEq, exists_eq_left', hidle]
    constructor
    · intro hlt
      refine ⟨⟨_, hmem⟩, fun time ht => ?_⟩
      have := hgreatest ht
      linarith
    · exact fun hall => hall.2 _ hmem

omit [DecidableEq M] in
theorem mem_of_candidate {s : TrafficMonitor M} {manager : SleepManager M T} {threshold : Rat}
    {now : M → Rat} {m : M} (h : m ∈ s.getSleepCandidates manager threshold now) :
    m ∈ s.getIdleModels (some threshold) now :=
  (List.mem_filter.mp h).1

theorem Recorded.step {s t : TrafficMonitor M} {a : TrafficAct M} (h : s.Recorded)
    (ha : s.Timely a) (ht : s.step a = some t) : t.Recorded := by
  cases a with
  | start m path now =>
    simp only [TrafficMonitor.step, Option.ite_none_right_eq_some, Option.some.injEq] at ht
    obtain ⟨⟨-, hnow⟩, rfl⟩ := ht
    exact h.start hnow
  | finish k success time error now =>
    simp only [TrafficMonitor.step] at ht
    split at ht
    · rename_i r hk
      simp only [Option.ite_none_right_eq_some, Option.some.injEq] at ht
      obtain ⟨-, rfl⟩ := ht
      exact h.finish hk rfl rfl (ha r.modelName r.timestamp ⟨r, hk, rfl, rfl⟩)
    · cases ht
  | idleModels threshold now after =>
    simp only [TrafficMonitor.step, Option.ite_none_right_eq_some, Option.some.injEq] at ht
    obtain ⟨-, rfl⟩ := ht
    exact ⟨h.positive, h.known, h.absent, h.latest⟩

/-- The end of a request keeps the time of the last activity from decreasing exactly when none of the
model's requests that have ended started later. -/
theorem Recorded.finish_upholds {s : TrafficMonitor M} (h : s.Recorded) {k : Nat}
    {r q : RequestStats M} {now : Rat} (hname : q.modelName = r.modelName)
    (htime : q.timestamp = r.timestamp) :
    (∀ m before after, s.modelStats.lookup m = some before →
        (s.recordRequestEnd k q now).modelStats.lookup m = some after →
        before.lastActivityTime ≤ after.lastActivityTime) ↔
      ∀ earlier ∈ s.endedStarts r.modelName, earlier ≤ r.timestamp := by
  constructor
  · intro hkeep earlier he
    cases hm : s.modelStats.lookup r.modelName with
    | none => simp [h.absent _ hm] at he
    | some before =>
      have hafter : (s.recordRequestEnd k q now).modelStats.lookup r.modelName =
          some (before.addRequest q) := by rw [lookup_end hname, if_pos rfl, hm]; rfl
      have hle := hkeep _ before _ hm hafter
      rw [ModelActivityStats.lastActivityTime_addRequest, htime] at hle
      exact ((h.latest _ _ hm).2 he).trans hle
  · intro hlast m before after hbefore hafter
    rw [lookup_end hname] at hafter
    split at hafter
    · rename_i heq
      subst heq
      cases hafter
      rw [ModelActivityStats.lastActivityTime_addRequest, htime]
      exact hlast _ (h.latest _ _ hbefore).1
    · rw [hbefore] at hafter
      cases hafter
      exact le_rfl

theorem Recorded.upholds_step {s t : TrafficMonitor M} {a : TrafficAct M} (h : s.Recorded)
    (ht : s.step a = some t) : s.Upholds T a ↔ s.Timely a := by
  cases a with
  | start m path now =>
    refine iff_of_true ⟨fun u hu m' before after hbefore hafter => ?_, trivial⟩ trivial
    simp only [TrafficMonitor.step, Option.ite_none_right_eq_some, Option.some.injEq] at hu
    obtain ⟨-, rfl⟩ := hu
    have hsame : some before = some after := hbefore.symm.trans hafter
    cases hsame
    exact le_rfl
  | finish k success time error now =>
    cases hk : s.requests[k]? with
    | none => simp [TrafficMonitor.step, hk] at ht
    | some r =>
      have hnext : s.step (.finish k success time error now) =
          some (s.recordRequestEnd k (ends r success time error now) now) := by
        simp only [TrafficMonitor.step, hk] at ht ⊢
        split at ht
        · rename_i hclock
          rw [if_pos hclock]
        · cases ht
      simp only [Upholds, and_true, hnext, Option.some.injEq, forall_eq']
      rw [h.finish_upholds (q := ends r success time error now) rfl rfl]
      constructor
      · rintro hlast m time ⟨q, hq, rfl, rfl⟩
        rw [hk] at hq
        cases hq
        exact hlast
      · exact fun htimely => htimely r.modelName r.timestamp ⟨r, hk, rfl, rfl⟩
  | idleModels threshold now after =>
    have hkeep : ∀ u, s.step (.idleModels threshold now after) = some u →
        u.modelStats = s.modelStats := by
      intro u hu
      simp only [TrafficMonitor.step, Option.ite_none_right_eq_some, Option.some.injEq] at hu
      obtain ⟨-, rfl⟩ := hu
      rfl
    have hmono : ∀ u, s.step (.idleModels threshold now after) = some u → ∀ m before after,
        s.modelStats.lookup m = some before → u.modelStats.lookup m = some after →
        before.lastActivityTime ≤ after.lastActivityTime := by
      intro u hu m before after hbefore hafter
      rw [hkeep u hu, hbefore] at hafter
      cases hafter
      exact le_rfl
    simp only [Upholds, Timely]
    rw [and_iff_right hmono]
    refine forall_congr' fun m => imp_congr_right fun _ => ?_
    have hidle : m ∈ s.getIdleModels threshold now ↔ _ := h.mem_getIdleModels_iff
    constructor
    · rintro ⟨hnot, -⟩ hnonempty
      rw [hidle] at hnot
      push Not at hnot
      exact hnot hnonempty
    · intro htimely
      have hnot : m ∉ s.getIdleModels threshold now := by
        rw [hidle]
        rintro ⟨hnonempty, hall⟩
        obtain ⟨time, hmem, hle⟩ := htimely hnonempty
        exact absurd (hall time hmem) (not_lt.mpr hle)
      exact ⟨hnot, fun manager hc => hnot (mem_of_candidate hc)⟩

/-- In a run, no last activity time decreases and no active model is found idle exactly as long as
the requests of each model end in the order in which they started, and the idle times are read when
each active model has an ended request that started within the threshold. -/
theorem activity_upheld_iff (threshold : Rat) (acts : List (TrafficAct M)) {s : TrafficMonitor M}
    (hrun : run step (init threshold) acts = some s) :
    Along step (Upholds T) (init threshold) acts ↔ Along step Timely (init threshold) acts :=
  along_congr (I := Recorded) (E := fun s a => ∃ t, step s a = some t)
    (fun _ _ h he => h.upholds_step he.choose_spec) (fun _ _ _ h _ ha ht => h.step ha ht)
    (recorded_init threshold) (along_enabled hrun)

def requestsInOrder : List (TrafficAct Unit) :=
  [.start () "/v1/completions" 1000, .start () "/v1/completions" 1001] ++
    [.finish 0 true none none 1002]

/-- While the second of two requests is in flight, its model is not idle, since the first has ended. -/
theorem activity_upheld_in_order :
    Along step (Upholds Unit) (init 300)
      (requestsInOrder ++ [.idleModels none (fun _ => 1003) 1003]) := by
  have hend : ((run step (init 300) requestsInOrder).map fun t =>
      (t.ended, t.threshold none, t.requests[0]?)) =
      some ([(0, 1002)], 300, some ⟨1000, (), "/v1/completions", some 2, true, none⟩) := by
    decide +kernel
  have hstart : ((run step (init 300 : TrafficMonitor Unit) [.start () "/v1/completions" 1000,
      .start () "/v1/completions" 1001]).map (·.ended)) = some [] := by decide +kernel
  obtain ⟨t, ht, hend⟩ := Option.map_eq_some_iff.mp hend
  obtain ⟨u, hu, hnone⟩ := Option.map_eq_some_iff.mp hstart
  simp only [Prod.mk.injEq] at hend
  obtain ⟨hended, hthreshold, hrequest⟩ := hend
  have hrun : ((run step (init 300)
      (requestsInOrder ++ [.idleModels none (fun _ => 1003) 1003])).isSome) := by decide +kernel
  obtain ⟨v, hv⟩ := Option.isSome_iff_exists.mp hrun
  refine (activity_upheld_iff 300 _ hv).mpr ((along_append ht).mpr ⟨?_, along_singleton.mpr ?_⟩)
  · refine (along_append hu).mpr ⟨along_of_mem ?_ _, along_singleton.mpr ?_⟩
    · simp [Timely]
    · intro m time _ earlier he
      simp [endedStarts, hnone] at he
  · intro m _ _
    refine ⟨1000, ⟨0, 1002, by simp [hended], _, hrequest, rfl, rfl⟩, ?_⟩
    rw [hthreshold]
    exact show (1003 - 1000 : Rat) ≤ 300 by decide +kernel

def longRequest : List (TrafficAct Unit) :=
  [.start () "/v1/completions" 1000, .finish 0 true none none 1400]

def overlappingRequests : List (TrafficAct Unit) :=
  [.start () "/v1/completions" 1000, .start () "/v1/completions" 1001,
    .finish 1 true none none 1002]

/-- A model is found idle ten seconds after the end of a request that took 400 seconds, and the time of
its last activity decreases when the first of two requests ends after the second. -/
theorem long_request_idle :
    ¬Along step (Upholds Unit) (init 300)
      (longRequest ++ [.idleModels none (fun _ => 1410) 1410]) ∧
    ¬Along step (Upholds Unit) (init 300)
      (overlappingRequests ++ [.finish 0 true none none 1003]) := by
  constructor
  · intro h
    have hend : ((run step (init 300) longRequest).map fun t =>
        (t.getIdleModels none fun _ => 1410, t.ended, t.threshold none, t.requests[0]?)) =
        some ([()], [(0, 1400)], 300,
          some ⟨1000, (), "/v1/completions", some 400, true, none⟩) := by decide +kernel
    obtain ⟨t, ht, hend⟩ := Option.map_eq_some_iff.mp hend
    simp only [Prod.mk.injEq] at hend
    obtain ⟨hidle, hended, hthreshold, hrequest⟩ := hend
    have hactive : t.Active () (t.threshold none) 1410 := by
      refine .inr ⟨0, 1000, 1400, by simp [hended], ⟨_, hrequest, rfl, rfl⟩, ?_⟩
      rw [hthreshold]
      decide +kernel
    have hnot := (((along_singleton.mp ((along_append ht).mp h).2).2 () hactive)).1
    exact hnot (by simp [hidle])
  · intro h
    have hend : ((run step (init 300) overlappingRequests).bind fun t =>
        (t.step (.finish 0 true none none 1003)).map fun u =>
          (t.modelStats.lookup (), u.modelStats.lookup ())) =
        some (some ⟨1, 1, 0, 1001, 1, [1001]⟩, some ⟨2, 2, 0, 1000, 2, [1001, 1000]⟩) := by
      decide +kernel
    obtain ⟨t, ht, hend⟩ := Option.bind_eq_some_iff.mp hend
    obtain ⟨u, hu, hend⟩ := Option.map_eq_some_iff.mp hend
    obtain ⟨hbefore, hafter⟩ := Prod.mk.inj hend
    have hle := (along_singleton.mp ((along_append ht).mp h).2).1 u hu () _ _ hbefore hafter
    exact absurd hle (by decide +kernel)

end TrafficMonitor

end GpuSharing.Controller
