import GpuSharing.Sardeenz.KvAdmission

namespace GpuSharing.Sardeenz

open Transition Reservations

/-- Where a call of `acquire` waits: for the trim after an admission, for the trim of the group
after its first refusal, or for its next attempt. -/
inductive AcquirePc
  | trimsInstance (result : AdmissionResult)
  | trimsGpuGroup (result : AdmissionResult)
  | sleeps (wakesAt : Int)
  | returned (result : AdmissionResult)
  deriving DecidableEq

structure AcquireCall where
  caller : ModelInstance
  estimate : Option KvEstimate
  requestTokens : ℚ
  deadline : Int
  trimmedForBackpressure : Bool
  pc : AcquirePc
  deriving DecidableEq

/-- The instances that the controller serves, each with its GPUs and its quota. -/
structure Fleet where
  instances : List ModelInstance
  nodup : (instances.map (·.id)).Nodup

structure AdmissionController where
  reservations : Reservations
  calls : List AcquireCall
  issued : List String
  now : Int
  deriving DecidableEq

/-- `store` is the model store at the moment of the step, `id` the id drawn in it. `resume k` goes on
with the `k`th call of `acquire`. -/
inductive AdmissionAct
  | acquire (i : ModelInstance) (requestTokens : ℚ) (store : List ModelInstance) (id : String)
  | resume (k : Nat) (store : List ModelInstance) (id : String)
  | release (reservation : Option ActiveReservation)
  | releaseForInstance (instanceId : String)
  | snapshot
  | tick (now : Int)

namespace AdmissionController

def init (now : Int) : AdmissionController where
  reservations := ∅
  calls := []
  issued := []
  now := now

variable (c : AdmissionConfig) (fleet : Fleet)

/-- After a refusal and its trim: give up at the deadline or with a status other than 429, else sleep
until the next attempt. -/
def afterRefusal (now : Int) (call : AcquireCall) (result : AdmissionResult) : AcquirePc :=
  match result with
  | .allowed _ _ => .returned result
  | .rejected statusCode _ =>
    if call.deadline ≤ now ∨ statusCode ≠ 429 then .returned result
    else .sleeps (now + min c.queuePollMs (max 0 (call.deadline - now)))

/-- What `acquire` does with the answer of `tryAcquire`, up to its next await. -/
def afterAttempt (now : Int) (call : AcquireCall) (result : AdmissionResult) : AcquireCall :=
  match result with
  | .allowed _ true => { call with pc := .trimsInstance result }
  | .allowed _ false => { call with pc := .returned result }
  | .rejected statusCode _ =>
    if statusCode = 429 ∧ !call.trimmedForBackpressure then
      { call with pc := .trimsGpuGroup result, trimmedForBackpressure := true }
    else { call with pc := afterRefusal c now call result }

/-- One pass of the loop in `acquire` over the map `m`. -/
def attempt (now : Int) (m : Reservations) (call : AcquireCall) (store : List ModelInstance)
    (id : String) : AcquireCall × Reservations :=
  let (result, m) := tryAcquire c store m call.caller call.estimate call.requestTokens id now
  (afterAttempt c now call result, m)

def step (s : AdmissionController) : AdmissionAct → Option AdmissionController
  | .acquire i requestTokens store id =>
    let call : AcquireCall :=
      { caller := i
        estimate := estimatedGiBPerGpu c requestTokens
        requestTokens := requestTokens
        deadline := s.now + c.maxQueueMs
        trimmedForBackpressure := false
        pc := .returned (.allowed none false) }
    if i ∉ fleet.instances ∨ id ∈ s.issued then none
    else if !c.enabled then some { s with calls := s.calls ++ [call] }
    else
      let (call, m) := attempt c s.now (s.reservations.cleanupExpired c s.now) call store id
      some { s with reservations := m, calls := s.calls ++ [call], issued := id :: s.issued }
  | .resume k store id =>
    match s.calls[k]? with
    | none => none
    | some call =>
      match call.pc with
      | .trimsInstance result =>
        some { s with calls := s.calls.set k { call with pc := .returned result } }
      | .trimsGpuGroup result =>
        some { s with calls := s.calls.set k { call with pc := afterRefusal c s.now call result } }
      | .sleeps wakesAt =>
        if s.now < wakesAt ∨ id ∈ s.issued then none
        else
          let (call, m) := attempt c s.now s.reservations call store id
          some { s with reservations := m, calls := s.calls.set k call, issued := id :: s.issued }
      | .returned _ => none
  | .release reservation => some { s with reservations := s.reservations.release reservation }
  | .releaseForInstance instanceId =>
    some { s with reservations := s.reservations.releaseForInstance instanceId }
  | .snapshot => some { s with reservations := s.reservations.cleanupExpired c s.now }
  | .tick now => if s.now ≤ now then some { s with now := now } else none

end AdmissionController

namespace Reservations

variable {m m' : Reservations} {rs : List ActiveReservation} {p : ActiveReservation → Bool}

/-- `m'` has nothing that `m` has not. -/
def Within (m' m : Reservations) : Prop := m'.entries.Sublist m.entries

theorem Within.values (h : Within m' m) : m'.values.Sublist m.values := List.Sublist.map _ h

theorem Within.trans {m'' : Reservations} (h : Within m'' m') (h' : Within m' m) : Within m'' m :=
  List.Sublist.trans h h'

theorem within_refl (m : Reservations) : Within m m := List.Sublist.refl _

theorem within_erase (id : String) (m : Reservations) : Within (AList.erase id m) m :=
  List.kerase_sublist id m.entries

theorem within_deleteWhere (p : ActiveReservation → Bool) (rs : List ActiveReservation)
    (m : Reservations) : Within (deleteWhere p m rs) m := by
  induction rs generalizing m with
  | nil => exact within_refl m
  | cons r rs ih =>
    refine (ih _).trans ?_
    dsimp only
    split_ifs
    · exact within_erase r.id m
    · exact within_refl m

theorem within_release (r : Option ActiveReservation) (m : Reservations) :
    Within (m.release r) m := by
  cases r with
  | none => exact within_refl m
  | some r => exact within_erase r.id m

theorem within_releaseForInstance (m : Reservations) (instanceId : String) :
    Within (m.releaseForInstance instanceId) m := within_deleteWhere _ _ m

theorem within_cleanupExpired (c : AdmissionConfig) (now : Int) (m : Reservations) :
    Within (m.cleanupExpired c now) m := by
  unfold cleanupExpired
  split_ifs
  · exact within_refl m
  · exact within_deleteWhere _ _ m

theorem estimate_nonneg : ∀ r ∈ m.values, 0 ≤ r.estimatedGiBPerGpu :=
  fun r _ => r.estimate_nonneg

theorem activeForInstance_nonneg (m : Reservations) (instanceId : String) :
    0 ≤ m.activeForInstance instanceId := Ledger.total_nonneg estimate_nonneg

theorem activeForInstance_le (h : Within m' m) (instanceId : String) :
    m'.activeForInstance instanceId ≤ m.activeForInstance instanceId :=
  Ledger.total_le_of_sublist h.values estimate_nonneg

theorem activeForGroup_le (h : Within m' m) (gpuGroup : String) :
    m'.activeForGroup gpuGroup ≤ m.activeForGroup gpuGroup :=
  Ledger.total_le_of_sublist h.values estimate_nonneg

theorem inflightForInstance_le (h : Within m' m) (instanceId : String) :
    m'.inflightForInstance instanceId ≤ m.inflightForInstance instanceId :=
  h.values.countP_le

theorem inflightForGroup_le (h : Within m' m) (gpuGroup : String) :
    m'.inflightForGroup gpuGroup ≤ m.inflightForGroup gpuGroup := h.values.countP_le

section Grant

variable {i : ModelInstance} {e : KvEstimate} {id : String} {now : Int}
  (h : m'.values = ActiveReservation.ofRequest i e id now :: m.values)

include h

theorem activeForInstance_grant (instanceId : String) : m'.activeForInstance instanceId
    = (if i.id = instanceId then e.gib else 0) + m.activeForInstance instanceId := by
  unfold activeForInstance
  rw [h, Ledger.total_cons]
  congr 1
  by_cases hi : i.id = instanceId <;>
    simp [ActiveReservation.ofRequest, ActiveReservation.estimatedGiBPerGpu, hi]

theorem activeForGroup_grant (gpuGroup : String) : m'.activeForGroup gpuGroup
    = (if i.gpuGroupKey = gpuGroup then e.gib else 0) + m.activeForGroup gpuGroup := by
  unfold activeForGroup
  rw [h, Ledger.total_cons]
  congr 1
  by_cases hg : i.gpuGroupKey = gpuGroup <;>
    simp [ActiveReservation.ofRequest, ActiveReservation.estimatedGiBPerGpu, hg]

theorem inflightForInstance_grant (instanceId : String) : m'.inflightForInstance instanceId
    = m.inflightForInstance instanceId + if i.id = instanceId then 1 else 0 := by
  unfold inflightForInstance
  rw [h, List.countP_cons]
  by_cases hi : i.id = instanceId <;> simp [ActiveReservation.ofRequest, hi]

theorem inflightForGroup_grant (gpuGroup : String) : m'.inflightForGroup gpuGroup
    = m.inflightForGroup gpuGroup + if i.gpuGroupKey = gpuGroup then 1 else 0 := by
  unfold inflightForGroup
  rw [h, List.countP_cons]
  by_cases hg : i.gpuGroupKey = gpuGroup <;> simp [ActiveReservation.ofRequest, hg]

end Grant

theorem values_insert {id : String} {r : ActiveReservation} (h : id ∉ m) :
    values (AList.insert id r m) = r :: m.values := by
  unfold values
  rw [AList.entries_insert_of_notMem h]
  rfl

end Reservations

namespace AdmissionController

/-- The call of `tryAcquire` that a step makes. -/
structure Attempt where
  caller : ModelInstance
  estimate : Option KvEstimate
  store : List ModelInstance
  reservations : Reservations

def attempted (c : AdmissionConfig) (s : AdmissionController) : AdmissionAct → Option Attempt
  | .acquire i requestTokens store _ =>
    if c.enabled then some
      { caller := i
        estimate := estimatedGiBPerGpu c requestTokens
        store := store
        reservations := s.reservations.cleanupExpired c s.now }
    else none
  | .resume k store _ =>
    match s.calls[k]? with
    | some { caller, estimate, pc := .sleeps _, .. } => some
      { caller := caller
        estimate := estimate
        store := store
        reservations := s.reservations }
    | _ => none
  | _ => none

/-- Every caller is an instance of the fleet, and the id of every reservation was issued. -/
structure Served (fleet : Fleet) (s : AdmissionController) : Prop where
  callers : ∀ call ∈ s.calls, call.caller ∈ fleet.instances
  issued : ∀ id ∈ s.reservations, id ∈ s.issued

variable {c : AdmissionConfig} {fleet : Fleet} {s t : AdmissionController} {a : AdmissionAct}
  {call : AcquireCall} {store : List ModelInstance} {id : String} {m : Reservations} {now : Int}

theorem attempt_caller : (attempt c now m call store id).1.caller = call.caller := by
  unfold attempt afterAttempt
  dsimp only
  split
  · rfl
  · rfl
  · split_ifs <;> rfl

theorem attempt_cases (c : AdmissionConfig) (now : Int) (m : Reservations) (call : AcquireCall)
    (store : List ModelInstance) (id : String) :
    (attempt c now m call store id).2 = m ∨
    ∃ e, call.estimate = some e ∧ Admits c store m call.caller e ∧
      (attempt c now m call store id).2 = AList.insert id (.ofRequest call.caller e id now) m := by
  unfold attempt
  rcases tryAcquire_cases c store m call.caller call.estimate call.requestTokens id now with
    ⟨statusCode, error, h⟩ | ⟨e, trim, he, hadmits, h⟩
  · rw [h]
    exact .inl rfl
  · rw [h]
    exact .inr ⟨e, he, hadmits, rfl⟩

/-- The step admits the request of `x` for `e` GiB: it passed every check against the map that is
left after the clean-up, and its reservation is in the map. -/
structure Granted (c : AdmissionConfig) (s t : AdmissionController) (a : AdmissionAct) (x : Attempt)
    (e : KvEstimate) (id : String) : Prop where
  attempted : attempted c s a = some x
  estimate : x.estimate = some e
  admits : Admits c x.store x.reservations x.caller e
  fresh : id ∉ s.issued
  issued : t.issued = id :: s.issued
  within : x.reservations.Within s.reservations
  inserted : t.reservations = AList.insert id (.ofRequest x.caller e id s.now) x.reservations

theorem granted_of_attempt
    (hattempted : attempted c s a = some ⟨call.caller, call.estimate, store, m⟩)
    (hfresh : id ∉ s.issued) (hwithin : m.Within s.reservations)
    (hissued : t.issued = id :: s.issued)
    (ht : t.reservations = (attempt c s.now m call store id).2) :
    t.reservations.Within s.reservations ∧ (∀ id ∈ s.issued, id ∈ t.issued) ∨
    ∃ x e id, Granted c s t a x e id := by
  rcases attempt_cases c s.now m call store id with heq | ⟨e, he, hadmits, heq⟩
  · left
    rw [ht, heq, hissued]
    exact ⟨hwithin, fun _ h => List.mem_cons_of_mem _ h⟩
  · exact .inr ⟨_, e, id, hattempted, he, hadmits, hfresh, hissued, hwithin, ht.trans heq⟩

/-- Every step only takes reservations out, or admits one request. -/
theorem step_cases (h : step c fleet s a = some t) :
    t.reservations.Within s.reservations ∧ (∀ id ∈ s.issued, id ∈ t.issued) ∨
    ∃ x e id, Granted c s t a x e id := by
  cases a with
  | acquire i requestTokens store id =>
    simp only [step] at h
    split_ifs at h with hin henabled
    · cases h
      exact .inl ⟨within_refl _, fun _ h => h⟩
    · have hc : c.enabled = true := by simpa using henabled
      cases h
      refine granted_of_attempt ?_ (not_or.mp hin).2 (within_cleanupExpired c s.now _) rfl rfl
      simp only [attempted, if_pos hc]
  | resume k store id =>
    simp only [step] at h
    split at h
    case h_1 => cases h
    case h_2 call hcall =>
      obtain ⟨caller, estimate, tokens, deadline, trimmed, pc⟩ := call
      cases pc with
      | trimsInstance result =>
        cases h
        exact .inl ⟨within_refl _, fun _ h => h⟩
      | trimsGpuGroup result =>
        cases h
        exact .inl ⟨within_refl _, fun _ h => h⟩
      | sleeps wakesAt =>
        dsimp only at h
        split_ifs at h with hwait
        cases h
        refine granted_of_attempt ?_ (not_or.mp hwait).2 (within_refl _) rfl rfl
        simp only [attempted, hcall]
      | returned result => cases h
  | release reservation =>
    cases h
    exact .inl ⟨within_release _ _, fun _ h => h⟩
  | releaseForInstance instanceId =>
    cases h
    exact .inl ⟨within_releaseForInstance _ _, fun _ h => h⟩
  | snapshot =>
    cases h
    exact .inl ⟨within_cleanupExpired c _ _, fun _ h => h⟩
  | tick now =>
    simp only [step] at h
    split_ifs at h
    cases h
    exact .inl ⟨within_refl _, fun _ h => h⟩

theorem mem_of_within {m' : Reservations} (h : m'.Within m) (hid : id ∈ m') : id ∈ m :=
  (List.Sublist.map Sigma.fst h).subset hid

/-- A call is replaced by one of the same caller. -/
theorem callers_set {k : Nat} {call' : AcquireCall} (hcall : s.calls[k]? = some call)
    (hsame : call'.caller = call.caller) (hs : ∀ call ∈ s.calls, call.caller ∈ fleet.instances) :
    ∀ call ∈ s.calls.set k call', call.caller ∈ fleet.instances := by
  intro x hx
  rcases List.mem_or_eq_of_mem_set hx with hx | rfl
  · exact hs x hx
  · rw [hsame]
    exact hs call (List.mem_of_getElem? hcall)

/-- No step changes who the callers of `acquire` are. -/
theorem callers_step (h : step c fleet s a = some t)
    (hs : ∀ call ∈ s.calls, call.caller ∈ fleet.instances) :
    ∀ call ∈ t.calls, call.caller ∈ fleet.instances := by
  cases a with
  | acquire i requestTokens store id =>
    simp only [step] at h
    split_ifs at h with hin henabled
    all_goals
      have hi : i ∈ fleet.instances := not_not.mp (not_or.mp hin).1
      cases h
      refine List.forall_mem_append.mpr ⟨hs, List.forall_mem_singleton.mpr ?_⟩
    · exact hi
    · rw [attempt_caller]
      exact hi
  | resume k store id =>
    simp only [step] at h
    split at h
    case h_1 => cases h
    case h_2 call hcall =>
      split at h
      case h_4 => cases h
      case h_3 =>
        split_ifs at h
        cases h
        exact callers_set hcall attempt_caller hs
      all_goals
        cases h
        exact callers_set hcall rfl hs
  | release reservation =>
    cases h
    exact hs
  | releaseForInstance instanceId =>
    cases h
    exact hs
  | snapshot =>
    cases h
    exact hs
  | tick now =>
    simp only [step] at h
    split_ifs at h
    cases h
    exact hs

theorem served_init (now : Int) : Served fleet (init now) where
  callers call h := by cases h
  issued id h := by cases h

theorem served_step (h : step c fleet s a = some t) (hs : Served fleet s) : Served fleet t := by
  refine ⟨callers_step h hs.callers, ?_⟩
  rcases step_cases h with ⟨hwithin, hissued⟩ | ⟨x, e, id, g⟩
  · exact fun id hid => hissued id (hs.issued id (mem_of_within hwithin hid))
  · intro j hj
    rw [g.inserted, AList.mem_insert] at hj
    rw [g.issued]
    rcases hj with rfl | hj
    · exact List.mem_cons_self
    · exact List.mem_cons_of_mem _ (hs.issued j (mem_of_within g.within hj))

theorem caller_mem_of_granted {x : Attempt} {e : KvEstimate} (g : Granted c s t a x e id)
    (h : step c fleet s a = some t) (hs : Served fleet s) : x.caller ∈ fleet.instances := by
  have hx := g.attempted
  cases a with
  | acquire i requestTokens store id =>
    simp only [step] at h
    split_ifs at h with hin
    all_goals
      have hi : i ∈ fleet.instances := not_not.mp (not_or.mp hin).1
      simp only [attempted] at hx
      split_ifs at hx
      cases hx
      exact hi
  | resume k store id =>
    simp only [attempted] at hx
    split at hx
    case h_2 => cases hx
    case h_1 caller estimate wakesAt tokens deadline trimmed hcall =>
      cases hx
      exact hs.callers _ (List.mem_of_getElem? hcall)
  | release reservation => cases hx
  | releaseForInstance instanceId => cases hx
  | snapshot => cases hx
  | tick now => cases hx

theorem notMem_of_granted {x : Attempt} {e : KvEstimate} (g : Granted c s t a x e id)
    (hs : Served fleet s) : id ∉ x.reservations :=
  fun hid => g.fresh (hs.issued id (mem_of_within g.within hid))

theorem values_of_granted {x : Attempt} {e : KvEstimate} (g : Granted c s t a x e id)
    (hs : Served fleet s) : t.reservations.values
      = ActiveReservation.ofRequest x.caller e id s.now :: x.reservations.values := by
  rw [g.inserted, values_insert (notMem_of_granted g hs)]

end AdmissionController

end GpuSharing.Sardeenz
