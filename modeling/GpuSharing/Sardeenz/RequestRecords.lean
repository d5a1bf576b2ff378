import Mathlib.Algebra.BigOperators.Group.Finset.Basic
import Mathlib.Algebra.Order.BigOperators.Group.Finset
import Mathlib.Algebra.Ring.Rat
import Mathlib.Data.List.DropRight
import Mathlib.Data.Nat.Count
import GpuSharing.Lib.Dict
import GpuSharing.Lib.Transition

namespace GpuSharing.Sardeenz.RequestRecords

inductive RequestStatus
  | pending
  | forwarded
  | completed
  | failed
  deriving DecidableEq, Repr

structure InferenceRequest where
  id : String
  modelPath : String
  streaming : Bool
  status : RequestStatus
  completedAt : Option Nat
  statusCode : Option Nat
  errorMessage : Option String
  durationMs : Option Nat
  deriving DecidableEq, Repr

/-- What a branch writes into a request at its end: `none` is not written. -/
structure Completion where
  status : RequestStatus
  statusCode : Option Nat
  errorMessage : Option String
  durationMs : Nat
  deriving DecidableEq, Repr

def InferenceRequest.complete (r : InferenceRequest) (c : Completion) (now : Nat) : InferenceRequest :=
  { r with
    completedAt := some now
    status := c.status
    statusCode := c.statusCode.or r.statusCode
    errorMessage := c.errorMessage.or r.errorMessage
    durationMs := some c.durationMs }

/-- The requests of each model, the newest last. They are references: a request is known by its number,
and changes wherever it is stored. -/
abbrev RequestStore := Dict String (List Nat)

namespace RequestStore

def getByModel (store : RequestStore) (modelPath : String) : List Nat :=
  (store.lookup modelPath).getD []

def add (maxSizePerModel : Nat) (store : RequestStore) (modelPath : String) (k : Nat) : RequestStore :=
  let modelRequests := store.getByModel modelPath ++ [k]
  store.setItem modelPath
    (if maxSizePerModel < modelRequests.length then modelRequests.tail else modelRequests)

end RequestStore

structure RequestStats where
  total : Nat
  completed : Nat
  failed : Nat
  avgDurationMs : ℚ
  deriving DecidableEq, Repr

def requestStats (requests : List InferenceRequest) : RequestStats :=
  let completedRequests := requests.filter fun r => r.status = .completed ∧ r.durationMs.isSome
  { total := requests.length
    completed := requests.countP (·.status = .completed)
    failed := requests.countP (·.status = .failed)
    avgDurationMs :=
      if 0 < completedRequests.length then
        ((completedRequests.map fun r => r.durationMs.getD 0).sum : ℚ) / completedRequests.length
      else 0 }

/-- How `fetch` and the reading of its answer end. -/
inductive UpstreamAnswer
  | response (ok : Bool) (status : Nat) (error : String)
  | throws (message : String)
  deriving DecidableEq, Repr

/-- Where `routeLocal` stands, or the relay of the answer that it has returned; `settling` is what it
does after the end of a request that is not streamed was deferred. -/
inductive RoutePc
  | fetching
  | settling
  | relaying
  | done
  deriving DecidableEq, Repr

/-- A request with how it went: `recordings` is how often its end was deferred to be recorded. -/
structure RoutedRequest where
  request : InferenceRequest
  pc : RoutePc
  answer : Option UpstreamAnswer
  succeeded : Bool
  recordings : Nat
  deriving DecidableEq, Repr

/-- A callback of `setImmediate`. -/
inductive Deferred
  | add (k : Nat)
  | complete (k : Nat) (c : Completion)
  deriving DecidableEq, Repr

def Deferred.request : Deferred → Nat
  | .add k => k
  | .complete k _ => k

@[simp] theorem Deferred.request_add (k : Nat) : (Deferred.add k).request = k := rfl

@[simp] theorem Deferred.request_complete (k : Nat) (c : Completion) :
    (Deferred.complete k c).request = k := rfl

def newRequest (id modelPath : String) (streaming : Bool) : RoutedRequest where
  request := ⟨id, modelPath, streaming, .pending, none, none, none, none⟩
  pc := .fetching
  answer := none
  succeeded := false
  recordings := 0

inductive RouteAct
  | route (id modelPath : String) (streaming : Bool)
  | answer (k : Nat) (answer : UpstreamAnswer) (durationMs : Nat)
  | settle (k : Nat) (throws : Option String) (durationMs : Nat)
  | relayEnds (k : Nat) (ok : Bool)
  | runDeferred (now : Nat)
  deriving DecidableEq, Repr

structure Router where
  requests : List RoutedRequest
  store : RequestStore
  deferred : List Deferred

namespace Router

def failure (statusCode : Option Nat) (errorMessage : String) (durationMs : Nat) : Completion :=
  ⟨.failed, statusCode, some errorMessage, durationMs⟩

/-- The request goes on, and its end is deferred to be recorded. -/
def record (s : Router) (k : Nat) (r : RoutedRequest) (c : Completion) : Router :=
  { s with
    requests := s.requests.set k { r with recordings := r.recordings + 1 }
    deferred := s.deferred ++ [.complete k c] }

def answered (s : Router) (k : Nat) (r : RoutedRequest) (answer : UpstreamAnswer) (durationMs : Nat) :
    Router :=
  let r := { r with answer := some answer }
  match answer with
  | .response ok status error =>
    if r.request.streaming then
      if ok then { s with requests := s.requests.set k { r with pc := .relaying } }
      else s.record k { r with pc := .done } (failure (some status) error durationMs)
    else
      s.record k { r with pc := .settling, succeeded := ok }
        ⟨if ok then .completed else .failed, some status, none, durationMs⟩
  | .throws message => s.record k { r with pc := .done } (failure none message durationMs)

def step (maxSizePerModel : Nat) (s : Router) : RouteAct → Option Router
  | .route id modelPath streaming => some { s with
      requests := s.requests ++ [newRequest id modelPath streaming]
      deferred := s.deferred ++ [.add s.requests.length] }
  | .answer k answer durationMs => match s.requests[k]? with
    | some r => if r.pc = .fetching then some (s.answered k r answer durationMs) else none
    | none => none
  | .settle k throws durationMs => match s.requests[k]? with
    | some r =>
      if r.pc = .settling then
        some (match throws with
          -- the `catch` records the request once more
          | some message => s.record k { r with pc := .done, succeeded := false }
              (failure none message durationMs)
          | none => { s with requests := s.requests.set k { r with pc := .done } })
      else none
    | none => none
  | .relayEnds k ok => match s.requests[k]? with
    | some r =>
      if r.pc = .relaying then
        some { s with requests := s.requests.set k { r with pc := .done, succeeded := ok } }
      else none
    | none => none
  | .runDeferred now => match s.deferred with
    | .add k :: deferred => match s.requests[k]? with
      | some r => some { s with
          store := s.store.add maxSizePerModel r.request.modelPath k
          deferred := deferred }
      | none => none
    | .complete k c :: deferred => match s.requests[k]? with
      | some r => some { s with
          requests := s.requests.set k { r with request := r.request.complete c now }
          store := s.store.add maxSizePerModel r.request.modelPath k
          deferred := deferred }
      | none => none
    | [] => none

def start : Router := ⟨[], ∅, []⟩

/-- The stored requests of a model, as they are. -/
def storedRequests (s : Router) (modelPath : String) : List InferenceRequest :=
  (s.store.getByModel modelPath).filterMap fun k => s.requests[k]?.map (·.request)

def getStats (s : Router) (modelPath : String) : RequestStats := requestStats (s.storedRequests modelPath)

/-- All requests have ended and all deferred steps have run. -/
def Quiet (s : Router) : Prop := s.deferred = [] ∧ ∀ r ∈ s.requests, r.pc = .done

instance decidableQuiet (s : Router) : Decidable s.Quiet :=
  inferInstanceAs (Decidable (s.deferred = [] ∧ ∀ r ∈ s.requests, r.pc = .done))

def requestsOf (s : Router) (modelPath : String) : List RoutedRequest :=
  s.requests.filter (·.request.modelPath = modelPath)

/-- Every request of the model is stored once, and only among the model's. -/
def StoredOnce (s : Router) (modelPath : String) : Prop :=
  ∀ k r, s.requests[k]? = some r → r.request.modelPath = modelPath → ∀ p,
    (s.store.getByModel p).count k = if p = modelPath then 1 else 0

/-- The statistics count the requests of the model and their outcomes. -/
structure Counted (s : Router) (modelPath : String) : Prop where
  total : (s.getStats modelPath).total = (s.requestsOf modelPath).length
  completed : (s.getStats modelPath).completed = (s.requestsOf modelPath).countP (·.succeeded)
  failed : (s.getStats modelPath).failed = (s.requestsOf modelPath).countP (¬ ·.succeeded)

end Router

/-- The request is streamed, and its `fetch` was answered ok. -/
def RoutedRequest.Streamed (r : RoutedRequest) : Prop :=
  r.request.streaming = true ∧ ∃ status error, r.answer = some (.response true status error)

/-- How often the end of a request was deferred, by where it stands and how it went. -/
structure RoutedRequest.Consistent (r : RoutedRequest) : Prop where
  fetching : r.pc = .fetching → r.recordings = 0
  relaying : r.pc = .relaying → r.recordings = 0 ∧ r.Streamed
  settling : r.pc = .settling → r.recordings ≠ 0 ∧ ¬ r.Streamed
  done : r.pc = .done → (r.recordings = 0 ↔ r.Streamed)
  unrecorded : r.recordings = 0 → r.request.status = .pending

namespace Router

variable {s t : Router} {added : List Nat} {cap k : Nat} {r r' : RoutedRequest} {modelPath : String}

def modelOf (s : Router) (k : Nat) : Option String := s.requests[k]?.map (·.request.modelPath)

/-- What was added to a model's requests, as much of it as there is room for. -/
theorem trim_append_singleton (l : List Nat) (k : Nat) :
    (if cap < (l.rtake cap ++ [k]).length then (l.rtake cap ++ [k]).tail else l.rtake cap ++ [k]) =
      (l ++ [k]).rtake cap := by
  have hlen : (l.rtake cap).length = min cap l.length := by
    rw [List.rtake, List.length_drop]
    omega
  cases cap with
  | zero => simp
  | succ n =>
    rw [List.rtake_concat_succ, List.length_append, hlen, List.length_singleton]
    split_ifs with hfull
    · have hdrop : l.rtake (n + 1) = l.drop (l.length - (n + 1)) := rfl
      have hne : l.drop (l.length - (n + 1)) ≠ [] := by
        rw [Ne, List.drop_eq_nil_iff]
        omega
      rw [hdrop, List.tail_append_of_ne_nil hne, List.tail_drop, List.rtake]
      congr 2
      omega
    · rw [List.rtake, List.rtake]
      congr 2
      omega

/-- The store holds what was added, and each request was or will be added once when it starts and
once for each recording of its end. -/
structure Recorded (cap : Nat) (s : Router) (added : List Nat) : Prop where
  stored : ∀ modelPath, s.store.getByModel modelPath =
    (added.filter (s.modelOf · = some modelPath)).rtake cap
  known : ∀ k ∈ added, k < s.requests.length
  waiting : ∀ d ∈ s.deferred, d.request < s.requests.length
  count : ∀ k r, s.requests[k]? = some r →
    added.count k + s.deferred.countP (·.request = k) = 1 + r.recordings
  ended : ∀ k c r, .complete k c ∈ s.deferred → s.requests[k]? = some r → r.recordings ≠ 0
  consistent : ∀ r ∈ s.requests, r.Consistent

theorem getByModel_add (store : RequestStore) (p q : String) (k : Nat) :
    (store.add cap p k).getByModel q =
      if q = p then
        if cap < (store.getByModel p ++ [k]).length then (store.getByModel p ++ [k]).tail
        else store.getByModel p ++ [k]
      else store.getByModel q := by
  rw [RequestStore.getByModel, RequestStore.add, Dict.lookup_setItem]
  split_ifs <;> rfl

theorem modelOf_set (hk : s.requests[k]? = some r) (hmodel : r'.request.modelPath = r.request.modelPath)
    {requests : List RoutedRequest} (hrequests : requests = s.requests.set k r') {store deferred} :
    modelOf ⟨requests, store, deferred⟩ = s.modelOf := by
  funext j
  subst hrequests
  simp only [modelOf, List.getElem?_set]
  split_ifs with hj hlt
  · subst hj
    simp [hk, hmodel]
  · subst hj
    rw [List.getElem?_eq_none (by omega)]
  · rfl

/-- A request goes on, and perhaps its end is deferred to be recorded. -/
theorem Recorded.goesOn (h : s.Recorded cap added) (hk : s.requests[k]? = some r)
    (hmodel : r'.request.modelPath = r.request.modelPath) (hr' : r'.Consistent)
    {ends : List Deferred} (hends : ∀ d ∈ ends, d.request = k)
    (hrec : r'.recordings = r.recordings + ends.length) :
    Recorded cap ⟨s.requests.set k r', s.store, s.deferred ++ ends⟩ added := by
  have hlt : k < s.requests.length := (List.getElem?_eq_some_iff.mp hk).1
  refine ⟨fun p => ?_, fun j hj => ?_, fun d hd => ?_, fun j q hq => ?_, fun j c q hd hq => ?_,
    fun q hq => ?_⟩
  · rw [modelOf_set hk hmodel rfl]
    exact h.stored p
  · rw [List.length_set]
    exact h.known j hj
  · rw [List.length_set]
    rcases List.mem_append.mp hd with hd | hd
    · exact h.waiting d hd
    · rwa [hends d hd]
  · rw [List.getElem?_set] at hq
    rw [List.countP_append]
    split_ifs at hq with hkj
    · subst hkj
      cases hq
      have hall : ends.countP (·.request = k) = ends.length :=
        List.countP_eq_length.mpr fun d hd => by simp [hends d hd]
      have hcount := h.count k r hk
      rw [hall, hrec]
      omega
    · have hnone : ends.countP (·.request = j) = 0 :=
        List.countP_eq_zero.mpr fun d hd => by simp [hends d hd, hkj]
      rw [hnone]
      exact h.count j q hq
  · rw [List.getElem?_set] at hq
    rcases List.mem_append.mp hd with hd | hd
    · split_ifs at hq with hkj
      · subst hkj
        cases hq
        have hne := h.ended k c r hd hk
        omega
      · exact h.ended j c q hd hq
    · have hkj : j = k := hends _ hd
      rw [if_pos hkj.symm] at hq
      have hpos := List.length_pos_iff.mpr (List.ne_nil_of_mem hd)
      split_ifs at hq
      cases hq
      omega
  · rcases List.mem_or_eq_of_mem_set hq with hq | rfl
    · exact h.consistent q hq
    · exact hr'

theorem Recorded.moves (h : s.Recorded cap added) (hk : s.requests[k]? = some r)
    (hmodel : r'.request = r.request) (hrec : r'.recordings = r.recordings) (hr' : r'.Consistent) :
    Recorded cap { s with requests := s.requests.set k r' } added := by
  have hnone : ∀ d ∈ ([] : List Deferred), d.request = k := nofun
  have hgoes := h.goesOn hk (congrArg _ hmodel) hr' hnone hrec
  rwa [List.append_nil] at hgoes

/-- A deferred step runs: a request is stored, and perhaps it was written before. -/
theorem Recorded.runs (h : s.Recorded cap added) {d : Deferred} {deferred : List Deferred}
    (hd : s.deferred = d :: deferred) (hk : s.requests[d.request]? = some r)
    (hmodel : r'.request.modelPath = r.request.modelPath) (hr' : r'.Consistent)
    (hrec : r'.recordings = r.recordings) :
    Recorded cap ⟨s.requests.set d.request r', s.store.add cap r.request.modelPath d.request, deferred⟩
      (added ++ [d.request]) := by
  have hlt : d.request < s.requests.length := (List.getElem?_eq_some_iff.mp hk).1
  refine ⟨fun p => ?_, fun j hj => ?_, fun d' hd' => ?_, fun j q hq => ?_, fun j c q hd' hq => ?_,
    fun q hq => ?_⟩
  · rw [modelOf_set hk hmodel rfl, getByModel_add, List.filter_append]
    have hself : s.modelOf d.request = some r.request.modelPath := by simp [modelOf, hk]
    by_cases hp : p = r.request.modelPath
    · subst hp
      rw [if_pos rfl, h.stored, trim_append_singleton]
      simp [hself]
    · have hne : s.modelOf d.request ≠ some p := by
        rw [hself]
        exact fun heq => hp (Option.some.inj heq).symm
      rw [if_neg hp, h.stored]
      simp [hne]
  · rw [List.length_set]
    rcases List.mem_append.mp hj with hj | hj
    · exact h.known j hj
    · rwa [List.mem_singleton.mp hj]
  · rw [List.length_set]
    exact h.waiting d' (hd ▸ List.mem_cons_of_mem d hd')
  · have hcount : ∀ q, s.requests[j]? = some q → (added ++ [d.request]).count j +
        deferred.countP (·.request = j) = 1 + q.recordings := by
      intro q hq
      have hcount := h.count j q hq
      rw [hd, List.countP_cons] at hcount
      rw [List.count_append, List.count_singleton]
      by_cases hj : d.request = j <;> simp only [hj, decide_true, decide_false, if_true,
        Bool.false_eq_true, if_false, beq_iff_eq] at hcount ⊢ <;> omega
    rw [List.getElem?_set] at hq
    split_ifs at hq with hj
    · subst hj
      cases hq
      rw [hrec]
      exact hcount r hk
    · exact hcount q hq
  · have hmem : Deferred.complete j c ∈ s.deferred := hd ▸ List.mem_cons_of_mem d hd'
    rw [List.getElem?_set] at hq
    split_ifs at hq with hj
    · subst hj
      cases hq
      rw [hrec]
      exact h.ended _ c r hmem hk
    · exact h.ended j c q hmem hq
  · rcases List.mem_or_eq_of_mem_set hq with hq | rfl
    · exact h.consistent q hq
    · exact hr'

theorem Recorded.routes (h : s.Recorded cap added) (id modelPath : String) (streaming : Bool) :
    Recorded cap ⟨s.requests ++ [newRequest id modelPath streaming], s.store,
      s.deferred ++ [.add s.requests.length]⟩ added := by
  have hmodel : ∀ k ∈ added, modelOf ⟨s.requests ++ [newRequest id modelPath streaming], s.store,
      s.deferred ++ [.add s.requests.length]⟩ k = s.modelOf k := by
    intro k hk
    rw [modelOf, modelOf, List.getElem?_append_left (h.known k hk)]
  refine ⟨fun p => ?_, fun j hj => ?_, fun d hd => ?_, fun j q hq => ?_, fun j c q hd hq => ?_,
    fun q hq => ?_⟩
  · rw [List.filter_congr fun k hk => by rw [hmodel k hk]]
    exact h.stored p
  · rw [List.length_append]
    exact Nat.lt_add_right _ (h.known j hj)
  · rw [List.length_append, List.length_singleton]
    rcases List.mem_append.mp hd with hd | hd
    · exact Nat.lt_succ_of_lt (h.waiting d hd)
    · rw [List.mem_singleton.mp hd]
      exact Nat.lt_succ_self _
  · rw [List.countP_append]
    rw [List.getElem?_append] at hq
    split_ifs at hq with hj
    · have hnot : s.requests.length ≠ j := by omega
      have hcount := h.count j q hq
      simpa [hnot] using hcount
    · have hj' : j = s.requests.length := by
        have hlt := (List.getElem?_eq_some_iff.mp hq).1
        rw [List.length_singleton] at hlt
        omega
      subst hj'
      rw [Nat.sub_self] at hq
      cases hq
      have hadded : added.count s.requests.length = 0 :=
        List.count_eq_zero.mpr fun hmem => (h.known _ hmem).false
      have hdeferred : s.deferred.countP (·.request = s.requests.length) = 0 :=
        List.countP_eq_zero.mpr fun d hd => by simpa using (h.waiting d hd).ne
      rw [hadded, hdeferred]
      simp [newRequest]
  · have hd : Deferred.complete j c ∈ s.deferred := by simpa using hd
    have hj : j < s.requests.length := h.waiting _ hd
    rw [List.getElem?_append_left hj] at hq
    exact h.ended j c q hd hq
  · rcases List.mem_append.mp hq with hq | hq
    · exact h.consistent q hq
    · rw [List.mem_singleton.mp hq]
      exact ⟨fun _ => rfl, nofun, nofun, nofun, fun _ => rfl⟩

/-- The end of a request is deferred to be recorded. -/
theorem Recorded.record (h : s.Recorded cap added) (hk : s.requests[k]? = some r)
    (hmodel : r'.request = r.request) (hrec : r'.recordings = r.recordings)
    (hpc : r'.pc = .done ∨ r'.pc = .settling) (hstream : ¬ r'.Streamed) (c : Completion) :
    (s.record k r' c).Recorded cap added := by
  have hconsistent : RoutedRequest.Consistent { r' with recordings := r'.recordings + 1 } := by
    refine ⟨fun hfetch => ?_, fun hrelay => ?_, fun _ => ⟨Nat.succ_ne_zero _, hstream⟩,
      fun _ => iff_of_false (Nat.succ_ne_zero _) hstream,
      fun hzero => absurd hzero (Nat.succ_ne_zero _)⟩
    · rcases hpc with hpc | hpc <;> cases hpc.symm.trans hfetch
    · rcases hpc with hpc | hpc <;> cases hpc.symm.trans hrelay
  apply h.goesOn hk
  · exact congrArg InferenceRequest.modelPath hmodel
  · exact hconsistent
  · simp
  · exact congrArg (· + 1) hrec

theorem Recorded.answered (h : s.Recorded cap added) (hk : s.requests[k]? = some r)
    (hpc : r.pc = .fetching) (answer : UpstreamAnswer) (durationMs : Nat) :
    (s.answered k r answer durationMs).Recorded cap added := by
  have hr := h.consistent r (List.mem_of_getElem? hk)
  unfold Router.answered
  cases answer with
  | response ok status error =>
    dsimp only
    by_cases hstreaming : r.request.streaming = true
    · rw [if_pos hstreaming]
      cases ok with
      | true =>
        apply h.moves hk
        · rfl
        · rfl
        · exact ⟨fun _ => hr.fetching hpc,
            fun _ => ⟨hr.fetching hpc, hstreaming, status, error, rfl⟩, nofun, nofun, hr.unrecorded⟩
      | false =>
        apply h.record hk
        · rfl
        · rfl
        · exact .inl rfl
        · rintro ⟨-, status', error', heq⟩
          cases heq
    · rw [if_neg hstreaming]
      apply h.record hk
      · rfl
      · rfl
      · exact .inr rfl
      · exact fun hs => hstreaming hs.1
  | throws message =>
    apply h.record hk
    · rfl
    · rfl
    · exact .inl rfl
    · rintro ⟨-, status, error, heq⟩
      cases heq

theorem Recorded.settle (h : s.Recorded cap added) (hk : s.requests[k]? = some r)
    (hpc : r.pc = .settling) :
    (∀ c, (s.record k { r with pc := .done, succeeded := false } c).Recorded cap added) ∧
      Recorded cap { s with requests := s.requests.set k { r with pc := .done } } added := by
  have hr := h.consistent r (List.mem_of_getElem? hk)
  obtain ⟨hne, hstream⟩ := hr.settling hpc
  constructor
  · intro c
    apply h.record hk
    · rfl
    · rfl
    · exact .inl rfl
    · exact hstream
  · apply h.moves hk
    · rfl
    · rfl
    · exact ⟨nofun, nofun, nofun, fun _ => iff_of_false hne hstream, hr.unrecorded⟩

theorem Recorded.relayEnds (h : s.Recorded cap added) (hk : s.requests[k]? = some r)
    (hpc : r.pc = .relaying) (ok : Bool) :
    Recorded cap { s with requests := s.requests.set k { r with pc := .done, succeeded := ok } }
      added := by
  have hr := h.consistent r (List.mem_of_getElem? hk)
  obtain ⟨hzero, hstream⟩ := hr.relaying hpc
  apply h.moves hk
  · rfl
  · rfl
  · exact ⟨nofun, nofun, nofun, fun _ => iff_of_true hzero hstream, hr.unrecorded⟩

theorem Recorded.step {a : RouteAct} (h : s.Recorded cap added) (ht : s.step cap a = some t) :
    ∃ added', t.Recorded cap added' := by
  cases a with
  | route id modelPath streaming =>
    cases ht
    exact ⟨added, h.routes id modelPath streaming⟩
  | answer k answer durationMs =>
    simp only [Router.step] at ht
    split at ht
    · rename_i r hk
      split_ifs at ht with hpc
      cases ht
      exact ⟨added, h.answered hk hpc answer durationMs⟩
    · cases ht
  | settle k throws durationMs =>
    simp only [Router.step] at ht
    split at ht
    · rename_i r hk
      split_ifs at ht with hpc
      cases ht
      cases throws with
      | some message => exact ⟨added, (h.settle hk hpc).1 _⟩
      | none => exact ⟨added, (h.settle hk hpc).2⟩
    · cases ht
  | relayEnds k ok =>
    simp only [Router.step] at ht
    split at ht
    · rename_i r hk
      split_ifs at ht with hpc
      cases ht
      exact ⟨added, h.relayEnds hk hpc ok⟩
    · cases ht
  | runDeferred now =>
    simp only [Router.step] at ht
    split at ht
    · rename_i k deferred hd
      split at ht
      · rename_i r hk
        cases ht
        have hr := h.consistent r (List.mem_of_getElem? hk)
        have hruns := h.runs hd hk rfl hr rfl
        obtain ⟨hlt, rfl⟩ := List.getElem?_eq_some_iff.mp hk
        rw [Deferred.request_add, List.set_getElem_self hlt] at hruns
        exact ⟨_, hruns⟩
      · cases ht
    · rename_i k c deferred hd
      split at ht
      · rename_i r hk
        cases ht
        have hr := h.consistent r (List.mem_of_getElem? hk)
        have hne := h.ended k c r (hd ▸ List.mem_cons_self) hk
        have hcompleted : RoutedRequest.Consistent { r with request := r.request.complete c now } :=
          ⟨hr.fetching, hr.relaying, hr.settling, hr.done, fun hzero => absurd hzero hne⟩
        exact ⟨_, h.runs hd hk rfl hcompleted rfl⟩
      · cases ht
    · cases ht

theorem recorded_start (cap : Nat) : start.Recorded cap [] where
  stored p := by simp [start, RequestStore.getByModel]
  known := by simp
  waiting := by simp [start]
  count := by simp [start]
  ended := by simp [start]
  consistent := by simp [start]

theorem recorded_of_run {acts : List RouteAct}
    (hrun : Transition.run (step cap) start acts = some s) : ∃ added, s.Recorded cap added :=
  Transition.run_invariant (I := fun s => ∃ added, Recorded cap s added)
    (fun _ _ _ ⟨_, h⟩ ht => h.step ht) ⟨[], recorded_start cap⟩ hrun

section Quiet

def indicesOf (s : Router) (modelPath : String) : Finset Nat :=
  (Finset.range s.requests.length).filter (s.modelOf · = some modelPath)

theorem mem_indicesOf {k : Nat} :
    k ∈ s.indicesOf modelPath ↔ ∃ r, s.requests[k]? = some r ∧ r.request.modelPath = modelPath := by
  rw [indicesOf, Finset.mem_filter, Finset.mem_range, modelOf, Option.map_eq_some_iff]
  refine and_iff_right_of_imp ?_
  rintro ⟨r, hr, -⟩
  exact (List.getElem?_eq_some_iff.mp hr).1

theorem card_indicesOf : (s.indicesOf modelPath).card = (s.requestsOf modelPath).length := by
  have hcount : ∀ requests : List RoutedRequest,
      ((Finset.range requests.length).filter fun k =>
        requests[k]?.map (·.request.modelPath) = some modelPath).card =
      (requests.filter (·.request.modelPath = modelPath)).length := by
    intro requests
    induction requests using List.reverseRecOn with
    | nil => rfl
    | append_singleton requests r ih =>
      rw [List.filter_append, List.length_append, List.length_append, ← ih, List.length_singleton,
        Finset.range_add_one, Finset.filter_insert]
      have hsame : (Finset.range requests.length).filter (fun k =>
          (requests ++ [r])[k]?.map (·.request.modelPath) = some modelPath) =
          (Finset.range requests.length).filter (fun k =>
            requests[k]?.map (·.request.modelPath) = some modelPath) := by
        refine Finset.filter_congr fun k hk => ?_
        rw [List.getElem?_append_left (Finset.mem_range.mp hk)]
      rw [hsame]
      by_cases hr : r.request.modelPath = modelPath <;> simp [hr]
  exact hcount s.requests

theorem length_eq_sum_count {l : List Nat} (hl : ∀ k ∈ l, k ∈ s.indicesOf modelPath) :
    l.length = ∑ k ∈ s.indicesOf modelPath, l.count k := by
  have hsum := Multiset.sum_count_eq_card (m := (↑l : Multiset Nat)) hl
  rw [Multiset.coe_card] at hsum
  rw [← hsum]
  exact Finset.sum_congr rfl fun k _ => Multiset.coe_count _ _

theorem Recorded.mem_indicesOf_of_added (h : s.Recorded cap added) {k : Nat}
    (hk : k ∈ added.filter (s.modelOf · = some modelPath)) : k ∈ s.indicesOf modelPath := by
  obtain ⟨hk, hmodel⟩ := List.mem_filter.mp hk
  exact Finset.mem_filter.mpr ⟨Finset.mem_range.mpr (h.known k hk), of_decide_eq_true hmodel⟩

theorem Recorded.mem_indicesOf_of_stored (h : s.Recorded cap added) {k : Nat}
    (hk : k ∈ s.store.getByModel modelPath) : k ∈ s.indicesOf modelPath := by
  rw [h.stored] at hk
  exact h.mem_indicesOf_of_added (List.mem_of_mem_drop hk)

theorem Recorded.length_stored (h : s.Recorded cap added) (modelPath : String) :
    (s.store.getByModel modelPath).length =
      min cap (added.filter (s.modelOf · = some modelPath)).length := by
  rw [h.stored, List.rtake, List.length_drop]
  omega

theorem Recorded.count_added (h : s.Recorded cap added) (hquiet : s.Quiet)
    (hk : s.requests[k]? = some r) :
    (added.filter (s.modelOf · = some r.request.modelPath)).count k = 1 + r.recordings := by
  have hcount := h.count k r hk
  rw [hquiet.1, List.countP_nil, Nat.add_zero] at hcount
  rw [List.count_filter (by simp [modelOf, hk]), hcount]

/-- A model's requests fill as many places as there are requests only if no end was recorded. -/
theorem Recorded.streamed_of_length (h : s.Recorded cap added) (hquiet : s.Quiet)
    (hcap : (s.requestsOf modelPath).length < cap)
    (hlength : (s.store.getByModel modelPath).length = (s.requestsOf modelPath).length) :
    ∀ r ∈ s.requestsOf modelPath, r.Streamed ∧ r.recordings = 0 := by
  have hadded : (added.filter (s.modelOf · = some modelPath)).length =
      (s.indicesOf modelPath).card := by
    rw [h.length_stored] at hlength
    rw [card_indicesOf]
    omega
  rw [length_eq_sum_count (s := s) fun k hk => h.mem_indicesOf_of_added hk, Finset.card_eq_sum_ones]
    at hadded
  have hone : ∀ k ∈ s.indicesOf modelPath,
      1 ≤ (added.filter (s.modelOf · = some modelPath)).count k := by
    intro k hk
    obtain ⟨r, hr, rfl⟩ := mem_indicesOf.mp hk
    rw [h.count_added hquiet hr]
    omega
  have hall := (Finset.sum_eq_sum_iff_of_le hone).mp hadded.symm
  intro r hr
  obtain ⟨hmem, hmodel⟩ := List.mem_filter.mp hr
  have hmodel : r.request.modelPath = modelPath := of_decide_eq_true hmodel
  obtain ⟨k, hk⟩ := List.mem_iff_getElem?.mp hmem
  have hcount := hall k (mem_indicesOf.mpr ⟨r, hk, hmodel⟩)
  rw [← hmodel, h.count_added hquiet hk] at hcount
  have hzero : r.recordings = 0 := by omega
  exact ⟨((h.consistent r hmem).done (hquiet.2 r hmem)).mp hzero, hzero⟩

theorem Recorded.storedOnce_iff (h : s.Recorded cap added) (hquiet : s.Quiet)
    (hcap : (s.requestsOf modelPath).length < cap) :
    s.StoredOnce modelPath ↔ ∀ r ∈ s.requestsOf modelPath, r.Streamed := by
  constructor
  · intro honce
    have hlength : (s.store.getByModel modelPath).length = (s.requestsOf modelPath).length := by
      rw [length_eq_sum_count fun k hk => h.mem_indicesOf_of_stored hk, ← card_indicesOf,
        Finset.card_eq_sum_ones]
      refine Finset.sum_congr rfl fun k hk => ?_
      obtain ⟨r, hr, hmodel⟩ := mem_indicesOf.mp hk
      rw [honce k r hr hmodel, if_pos rfl]
    exact fun r hr => (h.streamed_of_length hquiet hcap hlength r hr).1
  · intro hall k r hk hmodel p
    have hcount : ∀ j ∈ s.indicesOf modelPath,
        (added.filter (s.modelOf · = some modelPath)).count j = 1 := by
      intro j hj
      obtain ⟨q, hq, rfl⟩ := mem_indicesOf.mp hj
      have hmem := List.mem_of_getElem? hq
      have hstream := hall q (List.mem_filter.mpr ⟨hmem, by simp⟩)
      rw [h.count_added hquiet hq, ((h.consistent q hmem).done (hquiet.2 q hmem)).mpr hstream]
    have hlength : (added.filter (s.modelOf · = some modelPath)).length =
        (s.requestsOf modelPath).length := by
      rw [length_eq_sum_count (s := s) fun k hk => h.mem_indicesOf_of_added hk, ← card_indicesOf,
        Finset.card_eq_sum_ones]
      exact Finset.sum_congr rfl hcount
    split_ifs with hp
    · rw [hp, h.stored, List.rtake, hlength, Nat.sub_eq_zero_of_le hcap.le, List.drop_zero]
      exact hcount k (mem_indicesOf.mpr ⟨r, hk, hmodel⟩)
    · refine List.count_eq_zero.mpr fun hmem => hp ?_
      obtain ⟨q, hq, rfl⟩ := mem_indicesOf.mp (h.mem_indicesOf_of_stored hmem)
      rw [hk] at hq
      cases hq
      exact hmodel

theorem Recorded.length_storedRequests (h : s.Recorded cap added) (modelPath : String) :
    (s.storedRequests modelPath).length = (s.store.getByModel modelPath).length := by
  rw [storedRequests, List.length_filterMap_eq_countP, List.countP_eq_length]
  intro k hk
  obtain ⟨r, hr, -⟩ := mem_indicesOf.mp (h.mem_indicesOf_of_stored hk)
  simp [hr]

/-- The statistics are never right: a recorded end is counted twice, and the end of a streamed request
not at all. -/
theorem Recorded.counted_iff (h : s.Recorded cap added) (hquiet : s.Quiet)
    (hcap : (s.requestsOf modelPath).length < cap) :
    s.Counted modelPath ↔ s.requestsOf modelPath = [] := by
  constructor
  · intro hcounted
    have hlength := hcounted.total
    rw [getStats, requestStats, h.length_storedRequests] at hlength
    have hstreamed := h.streamed_of_length hquiet hcap hlength
    have hpending : ∀ q ∈ s.storedRequests modelPath, q.status = .pending := by
      intro q hq
      obtain ⟨k, hk, hqk⟩ := List.mem_filterMap.mp hq
      obtain ⟨r, hr, hmodel⟩ := mem_indicesOf.mp (h.mem_indicesOf_of_stored hk)
      rw [hr] at hqk
      cases hqk
      have hmem := List.mem_of_getElem? hr
      exact (h.consistent r hmem).unrecorded
        (hstreamed r (List.mem_filter.mpr ⟨hmem, by simp [hmodel]⟩)).2
    have hzero : ∀ status : RequestStatus, status ≠ .pending →
        (s.storedRequests modelPath).countP (·.status = status) = 0 := by
      intro status hne
      refine List.countP_eq_zero.mpr fun q hq => ?_
      simp [hpending q hq, hne.symm]
    have hcompleted := hcounted.completed
    have hfailed := hcounted.failed
    simp only [getStats, requestStats, hzero .completed (by decide)] at hcompleted
    simp only [getStats, requestStats, hzero .failed (by decide)] at hfailed
    refine List.eq_nil_iff_forall_not_mem.mpr fun r hr => ?_
    have hs := List.countP_eq_zero.mp hcompleted.symm r hr
    have hf := List.countP_eq_zero.mp hfailed.symm r hr
    simp_all
  · intro hnil
    have hempty : s.indicesOf modelPath = ∅ := by
      rw [← Finset.card_eq_zero, card_indicesOf, hnil, List.length_nil]
    have hstored : s.store.getByModel modelPath = [] := by
      refine List.eq_nil_iff_forall_not_mem.mpr fun k hk => ?_
      have hmem := h.mem_indicesOf_of_stored hk
      rw [hempty] at hmem
      cases hmem
    constructor <;> simp [getStats, requestStats, storedRequests, hstored, hnil]

end Quiet

/-- Once the requests of a run have ended and all deferred steps have run, the requests of a model with
room for one more are each stored once and counted by their outcomes exactly when there are none. They
are each stored once exactly when all are streams that were answered. -/
theorem stored_and_counted_iff {acts : List RouteAct}
    (hrun : Transition.run (step cap) start acts = some s) (hquiet : s.Quiet)
    (hcap : (s.requestsOf modelPath).length < cap) :
    (s.StoredOnce modelPath ∧ s.Counted modelPath ↔ s.requestsOf modelPath = []) ∧
      (s.StoredOnce modelPath ↔ ∀ r ∈ s.requestsOf modelPath, r.Streamed) := by
  obtain ⟨added, h⟩ := recorded_of_run hrun
  have honce := h.storedOnce_iff hquiet hcap
  have hcounted := h.counted_iff hquiet hcap
  refine ⟨⟨fun hboth => hcounted.mp hboth.2, fun hnil => ⟨honce.mpr ?_, hcounted.mpr hnil⟩⟩, honce⟩
  rw [hnil]
  exact fun r hr => absurd hr List.not_mem_nil

def okAnswer : UpstreamAnswer := .response true 200 ""

/-- A request that is answered, and one whose answer is streamed. -/
def answeredOnce : List RouteAct :=
  [.route "r1" "org/model" false, .runDeferred 1, .answer 0 okAnswer 5, .settle 0 none 0,
    .runDeferred 6]

def streamedOnce : List RouteAct :=
  [.route "r1" "org/model" true, .runDeferred 1, .answer 0 okAnswer 5, .relayEnds 0 true]

/-- The router after these runs. -/
def answeredRouter : Router :=
  (Transition.run (step 1000) start answeredOnce).get (by decide +kernel)

def streamedRouter : Router :=
  (Transition.run (step 1000) start streamedOnce).get (by decide +kernel)

theorem run_answeredOnce :
    Transition.run (step 1000) start answeredOnce = some answeredRouter :=
  (Option.some_get _).symm

theorem run_streamedOnce :
    Transition.run (step 1000) start streamedOnce = some streamedRouter :=
  (Option.some_get _).symm

theorem outcomes_miscounted :
    (∃ s, Transition.run (step 1000) start answeredOnce = some s ∧ s.Quiet ∧
      (s.requestsOf "org/model").length = 1 ∧ s.getStats "org/model" = ⟨2, 2, 0, 5⟩ ∧
      ¬ s.StoredOnce "org/model" ∧ ¬ s.Counted "org/model") ∧
    ∃ s, Transition.run (step 1000) start streamedOnce = some s ∧ s.Quiet ∧
      (s.requestsOf "org/model").length = 1 ∧ s.getStats "org/model" = ⟨1, 0, 0, 0⟩ ∧
      ¬ s.Counted "org/model" := by
  have hne : ∀ {s : Router}, (s.requestsOf "org/model").length = 1 →
      s.requestsOf "org/model" ≠ [] := by
    intro s hlength hnil
    rw [hnil] at hlength
    cases hlength
  constructor
  · obtain ⟨added, h⟩ := recorded_of_run run_answeredOnce
    have hquiet : answeredRouter.Quiet := by decide +kernel
    have hlength : (answeredRouter.requestsOf "org/model").length = 1 := by decide +kernel
    have hcap : (answeredRouter.requestsOf "org/model").length < 1000 := by omega
    refine ⟨answeredRouter, run_answeredOnce, hquiet, hlength, by decide +kernel,
      fun honce => ?_, fun hcounted => hne hlength ((h.counted_iff hquiet hcap).mp hcounted)⟩
    have hall := (h.storedOnce_iff hquiet hcap).mp honce
    have hplain : ∀ r ∈ answeredRouter.requestsOf "org/model", r.request.streaming = false := by
      decide +kernel
    obtain ⟨r, hr⟩ := List.exists_mem_of_ne_nil _ (hne hlength)
    have hstreamed := (hall r hr).1
    rw [hplain r hr] at hstreamed
    cases hstreamed
  · obtain ⟨added, h⟩ := recorded_of_run run_streamedOnce
    have hquiet : streamedRouter.Quiet := by decide +kernel
    have hlength : (streamedRouter.requestsOf "org/model").length = 1 := by decide +kernel
    have hcap : (streamedRouter.requestsOf "org/model").length < 1000 := by omega
    exact ⟨streamedRouter, run_streamedOnce, hquiet, hlength, by decide +kernel,
      fun hcounted => hne hlength ((h.counted_iff hquiet hcap).mp hcounted)⟩

/-- Streams of one model, and none of another. -/
theorem stored_and_counted_iff_streams :
    ∃ s, Transition.run (step 1000) start streamedOnce = some s ∧ s.StoredOnce "org/model" ∧
      s.StoredOnce "org/other" ∧ s.Counted "org/other" := by
  have hquiet : streamedRouter.Quiet := by decide +kernel
  have hother : streamedRouter.requestsOf "org/other" = [] := by decide +kernel
  have hall : ∀ r ∈ streamedRouter.requestsOf "org/model",
      r.request.streaming = true ∧ r.answer = some okAnswer := by
    decide +kernel
  refine ⟨streamedRouter, run_streamedOnce, ?_,
    (stored_and_counted_iff run_streamedOnce hquiet (by rw [hother]; decide)).1.mpr hother⟩
  refine (stored_and_counted_iff run_streamedOnce hquiet (by decide +kernel)).2.mpr ?_
  exact fun r hr => ⟨(hall r hr).1, 200, "", (hall r hr).2⟩

end Router

end GpuSharing.Sardeenz.RequestRecords
