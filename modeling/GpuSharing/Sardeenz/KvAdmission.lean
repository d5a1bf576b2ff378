import Mathlib.Data.List.Sort
import GpuSharing.Lib.Ledger
import GpuSharing.Lib.Transition

namespace GpuSharing.Sardeenz

inductive ModelStatus
  | starting
  | running
  | sleeping
  | stopping
  | failed
  deriving DecidableEq, Repr

/-- The fields of a `ModelInstance` that the admission reads. -/
structure ModelInstance where
  id : String
  modelName : String
  gpuIds : List Nat
  topologyGpuIds : Option (List Nat)
  status : ModelStatus
  routable : Bool
  deriving DecidableEq, Repr

namespace ModelInstance

def schedulingGpuIds (i : ModelInstance) : List Nat :=
  match i.topologyGpuIds with
  | some (g :: gs) => g :: gs
  | _ => i.gpuIds

/-- `GPU0_GPU1` for the GPUs 0 and 1. -/
def gpuGroupKey (i : ModelInstance) : String :=
  "GPU" ++ String.intercalate "_GPU" ((i.schedulingGpuIds.insertionSort (· ≤ ·)).map toString)

end ModelInstance

structure InstanceQuota where
  minGuaranteeGiBPerGpu : ℚ
  softLimitGiBPerGpu : ℚ
  hardLimitGiBPerGpu : ℚ
  deriving DecidableEq, Repr

structure QuotaOverride where
  minGuaranteeGiBPerGpu : Option ℚ
  softLimitGiBPerGpu : Option ℚ
  hardLimitGiBPerGpu : Option ℚ
  deriving DecidableEq, Repr

structure AdmissionConfig where
  enabled : Bool
  poolCapacityGiBPerGpu : ℚ
  globalSafeLimitGiBPerGpu : ℚ
  globalReservedGiBPerGpu : ℚ
  maxQueueMs : Int
  queuePollMs : Int
  reservationTtlMs : Int
  estimateTokensPerGiB : ℚ
  maxInstanceInflight : Int
  maxGpuGroupInflight : Int
  defaultQuota : InstanceQuota
  instanceOverrides : List (String × QuotaOverride)
  deriving DecidableEq, Repr

namespace AdmissionConfig

def globalLimit (c : AdmissionConfig) : ℚ :=
  min c.globalSafeLimitGiBPerGpu (c.poolCapacityGiBPerGpu - c.globalReservedGiBPerGpu)

def quotaFor (c : AdmissionConfig) (i : ModelInstance) : InstanceQuota :=
  let override := (c.instanceOverrides.lookup i.modelName).or (c.instanceOverrides.lookup i.id)
  { minGuaranteeGiBPerGpu :=
      (override.bind (·.minGuaranteeGiBPerGpu)).getD c.defaultQuota.minGuaranteeGiBPerGpu
    softLimitGiBPerGpu :=
      (override.bind (·.softLimitGiBPerGpu)).getD c.defaultQuota.softLimitGiBPerGpu
    hardLimitGiBPerGpu :=
      (override.bind (·.hardLimitGiBPerGpu)).getD c.defaultQuota.hardLimitGiBPerGpu }

end AdmissionConfig

/-- What a request is expected to take on each GPU, at least a thousandth of a GiB. -/
structure KvEstimate where
  gib : ℚ
  least : 1 / 1000 ≤ gib
  deriving DecidableEq

theorem KvEstimate.pos (e : KvEstimate) : 0 < e.gib := lt_of_lt_of_le (by norm_num) e.least

/-- `none` is the infinite quotient of a configuration with no tokens per GiB. -/
def estimatedGiBPerGpu (c : AdmissionConfig) (requestTokens : ℚ) : Option KvEstimate :=
  if c.estimateTokensPerGiB = 0 then none
  else some ⟨max (1 / 1000) (requestTokens / c.estimateTokensPerGiB), le_max_left _ _⟩

structure ActiveReservation where
  id : String
  instanceId : String
  modelName : String
  gpuGroup : String
  estimate : KvEstimate
  createdAt : Int
  deriving DecidableEq

def ActiveReservation.estimatedGiBPerGpu (r : ActiveReservation) : ℚ := r.estimate.gib

theorem ActiveReservation.estimate_nonneg (r : ActiveReservation) : 0 ≤ r.estimatedGiBPerGpu :=
  r.estimate.pos.le

def ActiveReservation.ofRequest (i : ModelInstance) (e : KvEstimate) (id : String) (now : Int) :
    ActiveReservation :=
  { id := id
    instanceId := i.id
    modelName := i.modelName
    gpuGroup := i.gpuGroupKey
    estimate := e
    createdAt := now }

/-- The map from the id of a reservation to the reservation. -/
abbrev Reservations := Dict String ActiveReservation

namespace Reservations

def values (m : Reservations) : List ActiveReservation := m.entries.map (·.2)

def activeForInstance (m : Reservations) (instanceId : String) : ℚ :=
  Ledger.total (·.estimatedGiBPerGpu) (fun r => r.instanceId = instanceId) m.values

def activeForGroup (m : Reservations) (gpuGroup : String) : ℚ :=
  Ledger.total (·.estimatedGiBPerGpu) (fun r => r.gpuGroup = gpuGroup) m.values

def inflightForInstance (m : Reservations) (instanceId : String) : Nat :=
  m.values.countP fun r => r.instanceId = instanceId

def inflightForGroup (m : Reservations) (gpuGroup : String) : Nat :=
  m.values.countP fun r => r.gpuGroup = gpuGroup

def release (m : Reservations) (reservation : Option ActiveReservation) : Reservations :=
  match reservation with
  | some r => AList.erase r.id m
  | none => m

/-- Delete, one after the other, the reservations listed in `rs` that `p` selects. -/
def deleteWhere (p : ActiveReservation → Bool) (m : Reservations) (rs : List ActiveReservation) :
    Reservations :=
  rs.foldl (fun m r => if p r then AList.erase r.id m else m) m

def releaseForInstance (m : Reservations) (instanceId : String) : Reservations :=
  deleteWhere (fun r => r.instanceId = instanceId) m m.values

def cleanupExpired (c : AdmissionConfig) (now : Int) (m : Reservations) : Reservations :=
  if c.reservationTtlMs ≤ 0 then m
  else deleteWhere (fun r => c.reservationTtlMs < now - r.createdAt) m m.values

end Reservations

/-- The minimum guarantees of the other instances of the group that their reservations have not
reached. -/
def protectedMinimumForOtherInstances (c : AdmissionConfig) (store : List ModelInstance)
    (m : Reservations) (i : ModelInstance) (gpuGroup : String) : ℚ :=
  ((store.filter fun sibling =>
      sibling.id ≠ i.id ∧ sibling.status = .running ∧ sibling.routable ∧
        sibling.gpuGroupKey = gpuGroup).map fun sibling =>
    max 0 ((c.quotaFor sibling).minGuaranteeGiBPerGpu - m.activeForInstance sibling.id)).sum

/-- Which check refused a request; the message of the error says it in words. -/
inductive Refusal
  | instanceInflight
  | groupInflight
  | estimateOverHardLimit
  | instanceOverHardLimit
  | groupWithGuarantees
  | groupOverSafeLimit
  | softLimitWithGuarantees
  deriving DecidableEq, Repr

structure AdmissionError where
  message : Refusal
  code : String
  retryAfterMs : Option Int
  estimatedGiBPerGpu : Option ℚ
  requestTokens : ℚ
  instanceActiveGiBPerGpu : ℚ
  groupActiveGiBPerGpu : ℚ
  quota : InstanceQuota
  globalLimitGiBPerGpu : ℚ
  protectedMinimumGiBPerGpu : Option ℚ
  inflight : Option (Nat × Nat)
  deriving DecidableEq

inductive AdmissionResult
  | allowed (reservation : Option ActiveReservation) (shouldTrimKvcached : Bool)
  | rejected (statusCode : Nat) (error : AdmissionError)
  deriving DecidableEq

section TryAcquire

variable (c : AdmissionConfig) (store : List ModelInstance) (m : Reservations) (i : ModelInstance)

/-- The error of `rejectInflight` and of `reject`. -/
def admissionError (estimate : Option KvEstimate) (requestTokens : ℚ) (message : Refusal)
    (code : String) (retryAfterMs : Option Int) (protectedMinimum : Option ℚ)
    (inflight : Option (Nat × Nat)) : AdmissionError where
  message := message
  code := code
  retryAfterMs := retryAfterMs
  estimatedGiBPerGpu := estimate.map (·.gib)
  requestTokens := requestTokens
  instanceActiveGiBPerGpu := m.activeForInstance i.id
  groupActiveGiBPerGpu := m.activeForGroup i.gpuGroupKey
  quota := c.quotaFor i
  globalLimitGiBPerGpu := c.globalLimit
  protectedMinimumGiBPerGpu := protectedMinimum
  inflight := inflight

def rejectInflight (estimate : Option KvEstimate) (requestTokens : ℚ) (message : Refusal) :
    AdmissionResult :=
  .rejected 429 (admissionError c m i estimate requestTokens message "KV_INFLIGHT_LIMIT_EXCEEDED"
    (some c.maxQueueMs) none
    (some (m.inflightForInstance i.id, m.inflightForGroup i.gpuGroupKey)))

def reject (estimate : Option KvEstimate) (requestTokens : ℚ) (statusCode : Nat)
    (message : Refusal) (protectedMinimum : ℚ) : AdmissionResult :=
  .rejected statusCode (admissionError c m i estimate requestTokens message
    "KV_POOL_CAPACITY_EXCEEDED" (if statusCode = 429 then some c.maxQueueMs else none)
    (some protectedMinimum) none)

/-- What `tryAcquire` answers, and the map after it. `id` is the id drawn for the reservation. -/
def tryAcquire (estimate : Option KvEstimate) (requestTokens : ℚ) (id : String) (now : Int) :
    AdmissionResult × Reservations :=
  let gpuGroup := i.gpuGroupKey
  let quota := c.quotaFor i
  let instanceActive := m.activeForInstance i.id
  let groupActive := m.activeForGroup gpuGroup
  let protectedMinimum := protectedMinimumForOtherInstances c store m i gpuGroup
  if 0 < c.maxInstanceInflight ∧ c.maxInstanceInflight ≤ m.inflightForInstance i.id then
    (rejectInflight c m i estimate requestTokens .instanceInflight, m)
  else if 0 < c.maxGpuGroupInflight ∧ c.maxGpuGroupInflight ≤ m.inflightForGroup gpuGroup then
    (rejectInflight c m i estimate requestTokens .groupInflight, m)
  else match estimate with
    | none => (reject c m i estimate requestTokens 413 .estimateOverHardLimit 0, m)
    | some e =>
      let nextInstanceActive := instanceActive + e.gib
      let nextGroupActive := groupActive + e.gib
      let ownMinimumDeficit := max 0 (quota.minGuaranteeGiBPerGpu - instanceActive)
      let ownMinimumDraw := min e.gib ownMinimumDeficit
      if e.gib > quota.hardLimitGiBPerGpu then
        (reject c m i estimate requestTokens 413 .estimateOverHardLimit 0, m)
      else if nextInstanceActive > quota.hardLimitGiBPerGpu then
        (reject c m i estimate requestTokens 429 .instanceOverHardLimit 0, m)
      else if nextGroupActive + protectedMinimum - ownMinimumDraw > c.globalLimit then
        (reject c m i estimate requestTokens 429 .groupWithGuarantees protectedMinimum, m)
      else if nextGroupActive > c.globalLimit then
        (reject c m i estimate requestTokens 429 .groupOverSafeLimit 0, m)
      else if nextInstanceActive > quota.softLimitGiBPerGpu ∧
          nextGroupActive + protectedMinimum > c.globalLimit then
        (reject c m i estimate requestTokens 429 .softLimitWithGuarantees protectedMinimum, m)
      else
        let reservation := ActiveReservation.ofRequest i e id now
        (.allowed (some reservation) (nextInstanceActive > quota.softLimitGiBPerGpu),
          AList.insert id reservation m)

end TryAcquire

/-- The request for `e` GiB passes every check of `tryAcquire`. -/
structure Admits (c : AdmissionConfig) (store : List ModelInstance) (m : Reservations)
    (i : ModelInstance) (e : KvEstimate) : Prop where
  instanceInflight :
    ¬(0 < c.maxInstanceInflight ∧ c.maxInstanceInflight ≤ m.inflightForInstance i.id)
  groupInflight :
    ¬(0 < c.maxGpuGroupInflight ∧ c.maxGpuGroupInflight ≤ m.inflightForGroup i.gpuGroupKey)
  estimateLeHard : e.gib ≤ (c.quotaFor i).hardLimitGiBPerGpu
  instanceLeHard : m.activeForInstance i.id + e.gib ≤ (c.quotaFor i).hardLimitGiBPerGpu
  guarantees : m.activeForGroup i.gpuGroupKey + e.gib
      + protectedMinimumForOtherInstances c store m i i.gpuGroupKey
      - min e.gib (max 0 ((c.quotaFor i).minGuaranteeGiBPerGpu - m.activeForInstance i.id))
    ≤ c.globalLimit
  groupLeSafe : m.activeForGroup i.gpuGroupKey + e.gib ≤ c.globalLimit
  soft : ¬(m.activeForInstance i.id + e.gib > (c.quotaFor i).softLimitGiBPerGpu ∧
    m.activeForGroup i.gpuGroupKey + e.gib
      + protectedMinimumForOtherInstances c store m i i.gpuGroupKey > c.globalLimit)

section TryAcquire

variable {c : AdmissionConfig} {store : List ModelInstance} {m : Reservations} {i : ModelInstance}
  {e : KvEstimate}

theorem tryAcquire_of_admits (h : Admits c store m i e) (requestTokens : ℚ) (id : String)
    (now : Int) : ∃ trim, tryAcquire c store m i (some e) requestTokens id now
      = (.allowed (some (.ofRequest i e id now)) trim,
          AList.insert id (ActiveReservation.ofRequest i e id now) m) := by
  refine ⟨m.activeForInstance i.id + e.gib > (c.quotaFor i).softLimitGiBPerGpu, ?_⟩
  unfold tryAcquire
  dsimp only
  rw [if_neg h.instanceInflight, if_neg h.groupInflight]
  rw [if_neg (not_lt.mpr h.estimateLeHard), if_neg (not_lt.mpr h.instanceLeHard),
    if_neg (not_lt.mpr h.guarantees), if_neg (not_lt.mpr h.groupLeSafe), if_neg h.soft]

/-- `tryAcquire` refuses and leaves the map, or every check is passed and the map has the new
reservation. -/
theorem tryAcquire_cases (c : AdmissionConfig) (store : List ModelInstance) (m : Reservations)
    (i : ModelInstance) (estimate : Option KvEstimate) (requestTokens : ℚ) (id : String)
    (now : Int) :
    (∃ statusCode error, tryAcquire c store m i estimate requestTokens id now
      = (.rejected statusCode error, m)) ∨
    (∃ e trim, estimate = some e ∧ Admits c store m i e ∧
      tryAcquire c store m i estimate requestTokens id now
        = (.allowed (some (.ofRequest i e id now)) trim,
            AList.insert id (ActiveReservation.ofRequest i e id now) m)) := by
  cases estimate with
  | none =>
    left
    unfold tryAcquire
    dsimp only
    split_ifs <;> exact ⟨_, _, rfl⟩
  | some e =>
    by_cases h : Admits c store m i e
    · obtain ⟨trim, heq⟩ := tryAcquire_of_admits h requestTokens id now
      exact .inr ⟨e, trim, rfl, h, heq⟩
    · left
      unfold tryAcquire
      dsimp only
      split_ifs with h1 h2 h3 h4 h5 h6 h7
      case neg =>
        exact absurd ⟨h1, h2, not_lt.mp h3, not_lt.mp h4, not_lt.mp h5, not_lt.mp h6, h7⟩ h
      all_goals exact ⟨_, _, rfl⟩

end TryAcquire

end GpuSharing.Sardeenz
