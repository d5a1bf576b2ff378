import Mathlib.Algebra.Order.Floor.Ring
import Mathlib.Data.List.Infix
import Mathlib.Data.PNat.Basic
import Mathlib.Data.Rat.Floor
import GpuSharing.Sardeenz.HeartbeatElection
import GpuSharing.Sardeenz.KvAdmission

namespace GpuSharing.Sardeenz.PodScheduler

inductive PlacementStrategy
  | maximizeModels
  | balanced
  deriving DecidableEq, Repr

def PlacementStrategy.text : PlacementStrategy → String
  | .maximizeModels => "maximize-models"
  | .balanced => "balanced"

/-- The fields of a `ModelConfigurationEntry` that the scheduler reads. -/
structure ModelConfigurationEntry where
  modelPath : String
  maxTokens : Nat
  tensorParallelSize : Option ℕ+
  loadOrder : Int
  gpuTypeConstraint : Option String
  minVramMb : Option ℚ
  deriving DecidableEq

structure PlacementRequest where
  entries : List ModelConfigurationEntry
  strategy : PlacementStrategy
  minKvCacheMb : Option ℚ
  deriving DecidableEq

structure PeerGpuInfo where
  gpuId : Nat
  name : String
  totalVramMB : ℚ
  usedVramMB : ℚ
  deriving DecidableEq

structure PeerModelEntry where
  instanceId : String
  modelPath : String
  status : ModelStatus
  gpuIds : List Nat
  deriving DecidableEq

/-- The fields of a `PeerInfo` that the scheduler reads. -/
structure PeerInfo where
  podId : String
  status : PeerStatus
  models : List PeerModelEntry
  gpus : List PeerGpuInfo
  deriving DecidableEq

/-- The peers of the store, whose map is keyed by pod id. The instances of a pod come from a map,
too. -/
structure Cluster where
  peers : List PeerInfo
  podIds_nodup : (peers.map (·.podId)).Nodup
  gpuIds_nodup : ∀ p ∈ peers, (p.gpus.map (·.gpuId)).Nodup
  instanceIds_nodup : ∀ p ∈ peers, (p.models.map (·.instanceId)).Nodup

def getHealthyPeers (peers : List PeerInfo) : List PeerInfo :=
  peers.filter fun p => p.status = .healthy

/-- A memory profile: the store gives all of those of a model path. -/
structure MemoryProfile where
  maxTokens : Nat
  totalGpuMemoryGib : ℚ
  deriving DecidableEq

/-- What `findProfilesByModelPath` answers, call by call. -/
abbrev Profiles := Nat → String → List MemoryProfile

structure GpuSlot where
  podId : String
  gpuId : Nat
  gpuName : String
  totalVramMB : ℚ
  availableVramMB : ℚ
  modelCount : Nat
  deriving DecidableEq

def GpuSlot.key (s : GpuSlot) : String × Nat := (s.podId, s.gpuId)

inductive PlacementReason
  | gpu (gpuId : Nat) (podId : String) (freeMB afterMB : ℚ) (strategy : PlacementStrategy)
  | tensorParallel (tpSize : Nat) (podId : String) (gpuIds : List Nat) (strategy : PlacementStrategy)
  deriving DecidableEq

/-- The text of a decision's reason, with the host's way to print a number. -/
def PlacementReason.text (number : ℚ → String) : PlacementReason → String
  | .gpu gpuId podId freeMB afterMB strategy =>
    s!"GPU {gpuId} on {podId}: {number freeMB} MB free → {number afterMB} MB after ({strategy.text})"
  | .tensorParallel tpSize podId gpuIds strategy =>
    let gpus := ",".intercalate (gpuIds.map toString)
    s!"TP{tpSize} on {podId} GPUs [{gpus}] ({strategy.text})"

structure PlacementDecision where
  modelPath : String
  targetPodId : String
  targetGpuIds : List Nat
  estimatedVramMB : ℚ
  reason : PlacementReason
  deriving DecidableEq

inductive FailureReason
  | noHealthyPeers
  | insufficientVram (requiredVramMB : ℚ)
  | noGpusMatch
  | noPodHasGpus (tpSize : Nat)
  deriving DecidableEq

def FailureReason.text (number : ℚ → String) : FailureReason → String
  | .noHealthyPeers => "No healthy peers with GPUs available in the cluster"
  | .insufficientVram requiredVramMB =>
    s!"Insufficient VRAM on any available GPU (need {number requiredVramMB} MB)"
  | .noGpusMatch => "No GPUs match constraints"
  | .noPodHasGpus tpSize => s!"No pod has {tpSize} available GPUs matching constraints"

structure PlacementFailure where
  modelPath : String
  reason : FailureReason
  candidatePods : List (String × ℚ)
  deriving DecidableEq

structure PlacementResult where
  decisions : List PlacementDecision
  failures : List PlacementFailure
  deriving DecidableEq

def PeerGpuInfo.freeVramMB (g : PeerGpuInfo) : ℚ := g.totalVramMB - g.usedVramMB

/-- The statuses of the instances that a GPU slot counts. -/
def occupies (status : ModelStatus) : Bool :=
  status = .running ∨ status = .starting ∨ status = .sleeping

def PeerInfo.slot (p : PeerInfo) (g : PeerGpuInfo) : GpuSlot :=
  { podId := p.podId
    gpuId := g.gpuId
    gpuName := g.name
    totalVramMB := g.totalVramMB
    availableVramMB := g.freeVramMB
    modelCount := p.models.countP fun m => g.gpuId ∈ m.gpuIds ∧ occupies m.status }

def buildGpuSlots (peers : List PeerInfo) : List GpuSlot :=
  (getHealthyPeers peers).flatMap fun p => p.gpus.map p.slot

namespace ModelConfigurationEntry

def tpSize (e : ModelConfigurationEntry) : Nat := ((e.tensorParallelSize.getD 1 : ℕ+) : ℕ)

/-- `gpuName.includes(gpuTypeConstraint)`. An empty constraint is part of every name. -/
def acceptsGpu (e : ModelConfigurationEntry) (gpuName : String) : Bool :=
  match e.gpuTypeConstraint with
  | some constraint => constraint.toList <:+: gpuName.toList
  | none => true

def estimateVramMB (e : ModelConfigurationEntry) (profiles : List MemoryProfile) : Option ℚ :=
  let exactMatch := profiles.find? fun p => p.maxTokens = e.maxTokens
  (exactMatch.or profiles.head?).map fun p => (⌈p.totalGpuMemoryGib * 1024⌉ : ℚ)

def requiredVramMB (e : ModelConfigurationEntry) (profiles : List MemoryProfile) : ℚ :=
  (e.minVramMb.or (e.estimateVramMB profiles)).getD 0

end ModelConfigurationEntry

/-- The filter of `placeEntry`. -/
def isCandidate (entry : ModelConfigurationEntry) (requiredVramMB : ℚ) (minKvCacheMb : Option ℚ)
    (slot : GpuSlot) : Bool :=
  entry.acceptsGpu slot.gpuName &&
    !(0 < requiredVramMB && slot.availableVramMB < requiredVramMB / entry.tpSize) &&
    match minKvCacheMb with
    | some kv => !(slot.availableVramMB - requiredVramMB / entry.tpSize < kv)
    | none => true

/-- Take `perGpuVram` from the chosen slots and count the model there. -/
def deduct (slots chosen : List GpuSlot) (perGpuVram : ℚ) : List GpuSlot :=
  slots.map fun s =>
    if s.key ∈ chosen.map (·.key) then
      { s with availableVramMB := s.availableVramMB - perGpuVram, modelCount := s.modelCount + 1 }
    else s

def buildCandidatePodSummary (slots : List GpuSlot) : List (String × ℚ) :=
  (slots.map (·.podId)).eraseDups.map fun podId =>
    (podId, ((slots.filter (·.podId = podId)).map (·.availableVramMB)).sum)

def selectByStrategy (candidates : List GpuSlot) (strategy : PlacementStrategy) : Option GpuSlot :=
  match strategy with
  | .maximizeModels =>
    (candidates.insertionSort fun a b => a.availableVramMB ≤ b.availableVramMB).head?
  | .balanced =>
    (candidates.insertionSort fun a b => a.modelCount < b.modelCount ∨
      a.modelCount = b.modelCount ∧ b.availableVramMB ≤ a.availableVramMB).head?

def podGroups (candidates : List GpuSlot) : List (String × List GpuSlot) :=
  (candidates.map (·.podId)).eraseDups.map fun podId =>
    (podId, candidates.filter (·.podId = podId))

/-- The pod that `placeTensorParallel` takes from those with enough GPUs. -/
def choosePod (viablePods : List (String × List GpuSlot)) (strategy : PlacementStrategy) :
    Option (String × List GpuSlot) :=
  match strategy with
  | .balanced =>
    (viablePods.insertionSort fun a b =>
      (a.2.map (·.modelCount)).sum ≤ (b.2.map (·.modelCount)).sum).head?
  | .maximizeModels =>
    (viablePods.insertionSort fun a b =>
      (b.2.map (·.availableVramMB)).sum ≤ (a.2.map (·.availableVramMB)).sum).head?

def placeTensorParallel (entry : ModelConfigurationEntry) (candidates allSlots : List GpuSlot)
    (strategy : PlacementStrategy) (requiredVramMB : ℚ) :
    Except PlacementFailure (PlacementDecision × List GpuSlot) :=
  let viablePods := (podGroups candidates).filter fun pod => entry.tpSize ≤ pod.2.length
  match choosePod viablePods strategy with
  | none =>
    .error ⟨entry.modelPath, .noPodHasGpus entry.tpSize, buildCandidatePodSummary allSlots⟩
  | some chosenPod =>
    let selectedGpus := (chosenPod.2.insertionSort fun a b =>
      b.availableVramMB ≤ a.availableVramMB).take entry.tpSize
    let perGpuVram := if 0 < requiredVramMB then requiredVramMB / entry.tpSize else 0
    .ok
      ({ modelPath := entry.modelPath
         targetPodId := chosenPod.1
         targetGpuIds := selectedGpus.map (·.gpuId)
         estimatedVramMB := requiredVramMB
         reason := .tensorParallel entry.tpSize chosenPod.1 (selectedGpus.map (·.gpuId)) strategy },
       deduct allSlots selectedGpus perGpuVram)

def placeEntry (entry : ModelConfigurationEntry) (profiles : List MemoryProfile)
    (slots : List GpuSlot) (strategy : PlacementStrategy) (minKvCacheMb : Option ℚ) :
    Except PlacementFailure (PlacementDecision × List GpuSlot) :=
  let requiredVramMB := entry.requiredVramMB profiles
  let candidates := slots.filter (isCandidate entry requiredVramMB minKvCacheMb)
  if 1 < entry.tpSize then
    placeTensorParallel entry candidates slots strategy requiredVramMB
  else
    match selectByStrategy candidates strategy with
    | none =>
      .error
        { modelPath := entry.modelPath
          reason := if 0 < requiredVramMB then .insufficientVram requiredVramMB else .noGpusMatch
          candidatePods := buildCandidatePodSummary slots }
    | some chosen =>
      let perGpuVram := if 0 < requiredVramMB then requiredVramMB else 0
      let afterMB := chosen.availableVramMB - perGpuVram
      .ok
        ({ modelPath := entry.modelPath
           targetPodId := chosen.podId
           targetGpuIds := [chosen.gpuId]
           estimatedVramMB := requiredVramMB
           reason := .gpu chosen.gpuId chosen.podId (afterMB + requiredVramMB) afterMB strategy },
         deduct slots [chosen] perGpuVram)

/-- The loop of `placeModels` over the sorted entries; `call` counts the profile lookups. -/
def placeAll (profiles : Profiles) (strategy : PlacementStrategy) (minKvCacheMb : Option ℚ) :
    Nat → List GpuSlot → PlacementResult → List ModelConfigurationEntry → PlacementResult
  | _, _, result, [] => result
  | call, slots, result, entry :: entries =>
    match placeEntry entry (profiles call entry.modelPath) slots strategy minKvCacheMb with
    | .ok (decision, slots) =>
      placeAll profiles strategy minKvCacheMb (call + 1) slots
        { result with decisions := result.decisions ++ [decision] } entries
    | .error failure =>
      placeAll profiles strategy minKvCacheMb (call + 1) slots
        { result with failures := result.failures ++ [failure] } entries

def placeModels (peers : List PeerInfo) (profiles : Profiles) (request : PlacementRequest) :
    PlacementResult :=
  let slots := buildGpuSlots peers
  if slots.isEmpty then
    { decisions := []
      failures := request.entries.map fun e => ⟨e.modelPath, .noHealthyPeers, []⟩ }
  else
    placeAll profiles request.strategy request.minKvCacheMb 0 slots ⟨[], []⟩
      (request.entries.insertionSort fun a b => a.loadOrder ≤ b.loadOrder)

end GpuSharing.Sardeenz.PodScheduler
