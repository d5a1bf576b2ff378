import GpuSharing.Lib.Matching
import GpuSharing.Lib.Numerals
import GpuSharing.Sardeenz.PodPlacement

namespace GpuSharing.Sardeenz.PodScheduler

/-- The fields of a `SavedModelConfiguration` that the scheduler reads. -/
structure SavedModelConfiguration where
  entries : Option (List ModelConfigurationEntry)
  placementStrategy : Option PlacementStrategy
  minKvCacheMb : Option ℚ
  deriving DecidableEq

structure LoadedModel where
  podId : String
  instanceId : String
  modelPath : String
  deriving DecidableEq

structure ReconciliationPlan where
  toUnload : List LoadedModel
  toLoad : List PlacementDecision
  failures : List PlacementFailure
  unchanged : List LoadedModel
  deriving DecidableEq

/-- The statuses of the instances that `reconcile` takes for loaded. -/
def isLoaded (status : ModelStatus) : Bool := status = .running ∨ status = .sleeping

def currentModels (peers : List PeerInfo) : List LoadedModel :=
  (getHealthyPeers peers).flatMap fun p =>
    (p.models.filter fun m => isLoaded m.status).map fun m => ⟨p.podId, m.instanceId, m.modelPath⟩

def SavedModelConfiguration.desired (preset : SavedModelConfiguration) :
    List ModelConfigurationEntry :=
  preset.entries.getD []

def reconcile (peers : List PeerInfo) (profiles : Profiles) (preset : SavedModelConfiguration) :
    ReconciliationPlan :=
  let entries := preset.desired
  let current := currentModels peers
  let desiredPaths := entries.map (·.modelPath)
  let unchanged := current.filter fun m => m.modelPath ∈ desiredPaths
  let alreadyLoadedPaths := unchanged.map (·.modelPath)
  let missingEntries := entries.filter fun e => e.modelPath ∉ alreadyLoadedPaths
  let placement := placeModels peers profiles
    ⟨missingEntries, preset.placementStrategy.getD .balanced, preset.minKvCacheMb⟩
  { toUnload := current.filter fun m => m.modelPath ∉ desiredPaths
    toLoad := placement.decisions
    failures := placement.failures
    unchanged := unchanged }

section Execution

/-- Unload the instances of the plan, by pod and by instance id. -/
def unload (peers : List PeerInfo) (toUnload : List LoadedModel) : List PeerInfo :=
  peers.map fun p =>
    { p with models := p.models.filter fun m =>
        ¬∃ x ∈ toUnload, x.podId = p.podId ∧ x.instanceId = m.instanceId }

/-- The instance that a decision starts. -/
def PlacementDecision.instance (d : PlacementDecision) (instanceId : String) : PeerModelEntry :=
  ⟨instanceId, d.modelPath, .running, d.targetGpuIds⟩

def load (peers : List PeerInfo) (instanceId : String) (d : PlacementDecision) : List PeerInfo :=
  peers.map fun p =>
    if p.podId = d.targetPodId then { p with models := p.models ++ [d.instance instanceId] } else p

def loadAll (newId : Nat → String) : Nat → List PeerInfo → List PlacementDecision → List PeerInfo
  | _, peers, [] => peers
  | n, peers, d :: ds => loadAll newId (n + 1) (load peers (newId n) d) ds

/-- What the pods report of their GPUs from now on. -/
def reportVram (used : String → Nat → ℚ) (peers : List PeerInfo) : List PeerInfo :=
  peers.map fun p =>
    { p with gpus := p.gpus.map fun g => { g with usedVramMB := used p.podId g.gpuId } }

/-- The cluster after all steps of the plan have succeeded. -/
def execute (newId : Nat → String) (used : String → Nat → ℚ) (peers : List PeerInfo)
    (plan : ReconciliationPlan) : List PeerInfo :=
  reportVram used (loadAll newId 0 (unload peers plan.toUnload) plan.toLoad)

end Execution

/-- An instance with the id of its pod. -/
abbrev PodModel := String × PeerModelEntry

/-- The instances that run on healthy pods: those that occupy a GPU slot. -/
def runningModels (peers : List PeerInfo) : List PodModel :=
  (getHealthyPeers peers).flatMap fun p =>
    (p.models.filter fun m => occupies m.status).map fun m => (p.podId, m)

/-- The instance is one that the entry asks for, on GPUs that meet its constraints. -/
structure Satisfies (peers : List PeerInfo) (i : PodModel) (e : ModelConfigurationEntry) : Prop where
  modelPath : i.2.modelPath = e.modelPath
  gpuCount : i.2.gpuIds.length = e.tpSize
  gpuIds_nodup : i.2.gpuIds.Nodup
  onPod : ∃ p ∈ getHealthyPeers peers, p.podId = i.1 ∧
    ∀ g ∈ i.2.gpuIds, ∃ gpu ∈ p.gpus, gpu.gpuId = g ∧ e.acceptsGpu gpu.name

/-- The healthy pods run exactly the entries, each as often as it is listed. -/
def RunsExactly (peers : List PeerInfo) (entries : List ModelConfigurationEntry) : Prop :=
  Multiset.Rel (Satisfies peers) ↑(runningModels peers) ↑entries

/-- Some instance of the model path is running or asleep on a healthy pod. -/
def isPathLoaded (peers : List PeerInfo) (modelPath : String) : Bool :=
  (runningModels peers).any fun i => isLoaded i.2.status ∧ i.2.modelPath = modelPath

/-- The instances that the plan leaves alone match the entries of the paths that are loaded. -/
def LeftAloneMatch (peers : List PeerInfo) (entries : List ModelConfigurationEntry) : Prop :=
  Multiset.Rel (Satisfies peers)
    ↑((runningModels peers).filter fun i =>
      isLoaded i.2.status → i.2.modelPath ∈ entries.map (·.modelPath))
    ↑(entries.filter fun e => isPathLoaded peers e.modelPath)

def ReconciliationPlan.IsEmpty (plan : ReconciliationPlan) : Prop :=
  plan.toLoad = [] ∧ plan.toUnload = [] ∧ plan.failures = []

section Pods

variable {peers : List PeerInfo} {profiles : Profiles} {toUnload : List LoadedModel}
  {d : PlacementDecision} {ds : List PlacementDecision} {newId : Nat → String}

/-- The healthy pods with the ids and names of their GPUs, which no step of a plan changes. -/
def pods (peers : List PeerInfo) : List (String × List (Nat × String)) :=
  (getHealthyPeers peers).map fun p => (p.podId, p.gpus.map fun g => (g.gpuId, g.name))

theorem getHealthyPeers_map {f : PeerInfo → PeerInfo} (hf : ∀ p, (f p).status = p.status) :
    getHealthyPeers (peers.map f) = (getHealthyPeers peers).map f := by
  simp only [getHealthyPeers, List.filter_map]
  congr 1
  refine List.filter_congr fun p _ => ?_
  simp [hf]

theorem pods_map {f : PeerInfo → PeerInfo} (hf : ∀ p, (f p).status = p.status)
    (hpod : ∀ p, (f p).podId = p.podId)
    (hgpus : ∀ p, (f p).gpus.map (fun g => (g.gpuId, g.name))
      = p.gpus.map fun g => (g.gpuId, g.name)) : pods (peers.map f) = pods peers := by
  simp only [pods, getHealthyPeers_map hf, List.map_map]
  refine List.map_congr_left fun p _ => ?_
  simp [hpod, hgpus]

@[simp] theorem pods_unload : pods (unload peers toUnload) = pods peers :=
  pods_map (fun _ => rfl) (fun _ => rfl) fun _ => rfl

@[simp] theorem pods_load (instanceId : String) : pods (load peers instanceId d) = pods peers := by
  apply pods_map
  all_goals
    intro p
    split_ifs <;> rfl

@[simp] theorem pods_reportVram (used : String → Nat → ℚ) :
    pods (reportVram used peers) = pods peers := by
  apply pods_map
  case hgpus =>
    intro p
    simp [Function.comp_def]
  all_goals
    intro p
    rfl

@[simp] theorem pods_loadAll (n : Nat) : pods (loadAll newId n peers ds) = pods peers := by
  induction ds generalizing n peers with
  | nil => rfl
  | cons d ds ih => rw [loadAll, ih, pods_load]

theorem Cluster.pods_nodup (cluster : Cluster) : ((pods cluster.peers).map (·.1)).Nodup := by
  have hids : (pods cluster.peers).map (·.1)
      = (getHealthyPeers cluster.peers).map (·.podId) := by
    simp [pods, Function.comp_def]
  rw [hids]
  exact cluster.podIds_nodup.sublist (List.filter_sublist.map _)

theorem onPod_iff {podId : String} {gpuIds : List Nat} {e : ModelConfigurationEntry} :
    (∃ p ∈ getHealthyPeers peers, p.podId = podId ∧
      ∀ g ∈ gpuIds, ∃ gpu ∈ p.gpus, gpu.gpuId = g ∧ e.acceptsGpu gpu.name) ↔
    ∃ pod ∈ pods peers, pod.1 = podId ∧
      ∀ g ∈ gpuIds, ∃ gpu ∈ pod.2, gpu.1 = g ∧ e.acceptsGpu gpu.2 := by
  simp [pods, and_assoc]

theorem satisfies_congr {peers' : List PeerInfo} (h : pods peers' = pods peers) :
    Satisfies peers' = Satisfies peers := by
  funext i e
  apply propext
  constructor
  · rintro ⟨hpath, hcount, hnodup, hpod⟩
    refine ⟨hpath, hcount, hnodup, ?_⟩
    rw [onPod_iff] at hpod ⊢
    exact h ▸ hpod
  · rintro ⟨hpath, hcount, hnodup, hpod⟩
    refine ⟨hpath, hcount, hnodup, ?_⟩
    rw [onPod_iff] at hpod ⊢
    exact h ▸ hpod

end Pods

section Instances

variable {peers : List PeerInfo} {profiles : Profiles} {toUnload : List LoadedModel}
  {d : PlacementDecision} {ds : List PlacementDecision} {newId : Nat → String} {i : PodModel}

def PeerInfo.runningModels (p : PeerInfo) : List PodModel :=
  (p.models.filter fun m => occupies m.status).map fun m => (p.podId, m)

theorem runningModels_eq :
    runningModels peers = (getHealthyPeers peers).flatMap (·.runningModels) := rfl

theorem mem_runningModels : i ∈ runningModels peers ↔
    ∃ p ∈ getHealthyPeers peers, ∃ m ∈ p.models, occupies m.status ∧ (p.podId, m) = i := by
  simp [runningModels, and_assoc]

theorem mem_currentModels {x : LoadedModel} : x ∈ currentModels peers ↔
    ∃ i ∈ runningModels peers, isLoaded i.2.status ∧ x = ⟨i.1, i.2.instanceId, i.2.modelPath⟩ := by
  simp only [currentModels, List.mem_flatMap, List.mem_map, List.mem_filter, mem_runningModels]
  constructor
  · rintro ⟨p, hp, m, ⟨hm, hloaded⟩, rfl⟩
    have hocc : occupies m.status := by
      cases hs : m.status <;> simp_all [isLoaded, occupies]
    exact ⟨(p.podId, m), ⟨p, hp, m, hm, hocc, rfl⟩, hloaded, rfl⟩
  · rintro ⟨_, ⟨p, hp, m, hm, -, rfl⟩, hloaded, rfl⟩
    exact ⟨p, hp, m, ⟨hm, hloaded⟩, rfl⟩

theorem isPathLoaded_iff {modelPath : String} :
    isPathLoaded peers modelPath ↔ ∃ x ∈ currentModels peers, x.modelPath = modelPath := by
  simp only [isPathLoaded, List.any_eq_true, decide_eq_true_eq, mem_currentModels]
  constructor
  · rintro ⟨i, hi, hloaded, hpath⟩
    exact ⟨_, ⟨i, hi, hloaded, rfl⟩, hpath⟩
  · rintro ⟨_, ⟨i, hi, hloaded, rfl⟩, hpath⟩
    exact ⟨i, hi, hloaded, hpath⟩

theorem runningModels_unload : runningModels (unload peers toUnload)
    = (runningModels peers).filter fun i =>
        ¬∃ x ∈ toUnload, x.podId = i.1 ∧ x.instanceId = i.2.instanceId := by
  rw [runningModels_eq, runningModels_eq, unload, getHealthyPeers_map, List.flatMap_map,
    List.filter_flatMap]
  · refine List.flatMap_congr fun p _ => ?_
    simp only [PeerInfo.runningModels, List.filter_map, List.filter_filter]
    congr 1
    refine List.filter_congr fun m _ => ?_
    simp only [Function.comp_apply]
    exact Bool.and_comm _ _
  · intro p
    rfl

/-- On a cluster whose instance ids are told apart, unloading by id takes out what was meant. -/
theorem Cluster.unload_iff (cluster : Cluster) {q : LoadedModel → Bool}
    (hi : i ∈ runningModels cluster.peers) :
    (∃ x ∈ (currentModels cluster.peers).filter q,
      x.podId = i.1 ∧ x.instanceId = i.2.instanceId) ↔
    isLoaded i.2.status ∧ q ⟨i.1, i.2.instanceId, i.2.modelPath⟩ := by
  constructor
  · rintro ⟨x, hx, hpod, hid⟩
    obtain ⟨hcur, hq⟩ := List.mem_filter.mp hx
    obtain ⟨j, hj, hloaded, rfl⟩ := mem_currentModels.mp hcur
    obtain ⟨p, hp, m, hm, -, rfl⟩ := mem_runningModels.mp hi
    obtain ⟨p', hp', m', hm', -, rfl⟩ := mem_runningModels.mp hj
    have hp := List.mem_of_mem_filter hp
    have hpp : p' = p := cluster.healthy_injective (List.mem_of_mem_filter hp') hp hpod
    subst hpp
    have hmm : m' = m := List.inj_on_of_nodup_map (cluster.instanceIds_nodup p' hp) hm' hm hid
    subst hmm
    exact ⟨hloaded, hq⟩
  · rintro ⟨hloaded, hq⟩
    exact ⟨_, List.mem_filter.mpr ⟨mem_currentModels.mpr ⟨i, hi, hloaded, rfl⟩, hq⟩, rfl, rfl⟩

theorem runningModels_reportVram (used : String → Nat → ℚ) :
    runningModels (reportVram used peers) = runningModels peers := by
  rw [runningModels_eq, runningModels_eq, reportVram, getHealthyPeers_map, List.flatMap_map]
  · rfl
  · intro p
    rfl

/-- A load puts one instance on the pod of the decision. -/
theorem runningModels_load (instanceId : String) (hn : ((pods peers).map (·.1)).Nodup)
    (hd : d.targetPodId ∈ (pods peers).map (·.1)) :
    (runningModels (load peers instanceId d)).Perm
      ((d.targetPodId, d.instance instanceId) :: runningModels peers) := by
  have hids : (pods peers).map (·.1) = (getHealthyPeers peers).map (·.podId) := by
    simp [pods, Function.comp_def]
  rw [hids] at hn hd
  have hstatus : ∀ p : PeerInfo, (if p.podId = d.targetPodId then
      { p with models := p.models ++ [d.instance instanceId] } else p).status = p.status := by
    intro p
    split_ifs <;> rfl
  simp only [runningModels_eq, load, getHealthyPeers_map hstatus, List.flatMap_map]
  generalize getHealthyPeers peers = healthy at hn hd
  induction healthy with
  | nil => cases hd
  | cons p healthy ih =>
    rw [List.map_cons, List.nodup_cons] at hn
    rw [List.flatMap_cons, List.flatMap_cons]
    by_cases hp : p.podId = d.targetPodId
    · have hrest : healthy.flatMap (fun q => (if q.podId = d.targetPodId then
          { q with models := q.models ++ [d.instance instanceId] } else q).runningModels)
          = healthy.flatMap (·.runningModels) := by
        refine List.flatMap_congr fun q hq => ?_
        have hne : q.podId ≠ d.targetPodId := fun heq =>
          hn.1 (List.mem_map.mpr ⟨q, hq, heq.trans hp.symm⟩)
        rw [if_neg hne]
      have hnew : ({ p with models := p.models ++ [d.instance instanceId] } :
          PeerInfo).runningModels
          = p.runningModels ++ [(d.targetPodId, d.instance instanceId)] := by
        simp [PeerInfo.runningModels, occupies, PlacementDecision.instance, hp]
      rw [if_pos hp, hrest, hnew, List.append_assoc]
      exact List.perm_middle
    · have hd' : d.targetPodId ∈ healthy.map (·.podId) := by
        rcases List.mem_cons.mp hd with heq | hmem
        · exact absurd heq.symm hp
        · exact hmem
      rw [if_neg hp]
      exact ((ih hn.2 hd').append_left _).trans List.perm_middle

/-- The instances that the decisions start, one after the other. -/
def startedModels (newId : Nat → String) : Nat → List PlacementDecision → List PodModel
  | _, [] => []
  | n, d :: ds => (d.targetPodId, d.instance (newId n)) :: startedModels newId (n + 1) ds

theorem runningModels_loadAll (n : Nat) (hn : ((pods peers).map (·.1)).Nodup)
    (hd : ∀ d ∈ ds, d.targetPodId ∈ (pods peers).map (·.1)) :
    (runningModels (loadAll newId n peers ds)).Perm
      (startedModels newId n ds ++ runningModels peers) := by
  induction ds generalizing n peers with
  | nil => exact .refl _
  | cons d ds ih =>
    have hhead := runningModels_load (newId n) hn (hd d List.mem_cons_self)
    have htail := @ih (load peers (newId n) d) (n + 1) (by rwa [pods_load])
      (fun d' hd' => by
        rw [pods_load]
        exact hd d' (List.mem_cons_of_mem _ hd'))
    rw [loadAll, startedModels]
    refine htail.trans ?_
    refine (hhead.append_left _).trans ?_
    exact List.perm_middle

theorem startedModels_satisfies (newId : Nat → String)
    {placed : List ModelConfigurationEntry} (n : Nat)
    (h : List.Forall₂ (Assigned peers profiles) placed ds) :
    List.Forall₂ (Satisfies peers) (startedModels newId n ds) placed := by
  induction h generalizing n with
  | nil => exact .nil
  | cons hassigned _ ih =>
    exact .cons ⟨hassigned.modelPath, hassigned.gpuCount, hassigned.gpuIds_nodup, hassigned.onPod⟩
      (ih (n + 1))

theorem startedModels_loaded {n : Nat} (hi : i ∈ startedModels newId n ds) :
    isLoaded i.2.status := by
  induction ds generalizing n with
  | nil => cases hi
  | cons d ds ih =>
    rcases List.mem_cons.mp hi with rfl | hi
    · rfl
    · exact ih hi

end Instances

section Plan

variable {cluster : Cluster} {profiles profiles' : Profiles} {preset : SavedModelConfiguration}
  {newId : Nat → String} {used : String → Nat → ℚ} {i : PodModel}

theorem isPathLoaded_of_mem {peers : List PeerInfo} (hi : i ∈ runningModels peers)
    (hloaded : isLoaded i.2.status) : isPathLoaded peers i.2.modelPath :=
  isPathLoaded_iff.mpr ⟨_, mem_currentModels.mpr ⟨i, hi, hloaded, rfl⟩, rfl⟩

/-- The entries that a plan places are those whose path is not loaded yet. -/
theorem missingEntries_eq (peers : List PeerInfo) (entries : List ModelConfigurationEntry) :
    (entries.filter fun e => e.modelPath ∉ ((currentModels peers).filter fun m =>
      m.modelPath ∈ entries.map (·.modelPath)).map (·.modelPath))
    = entries.filter fun e => ¬isPathLoaded peers e.modelPath := by
  refine List.filter_congr fun e he => ?_
  have hpath : e.modelPath ∈ entries.map (·.modelPath) := List.mem_map_of_mem he
  have hiff : e.modelPath ∈ ((currentModels peers).filter fun m =>
      m.modelPath ∈ entries.map (·.modelPath)).map (·.modelPath) ↔
      isPathLoaded peers e.modelPath := by
    rw [isPathLoaded_iff, List.mem_map]
    constructor
    · rintro ⟨x, hx, heq⟩
      exact ⟨x, List.mem_of_mem_filter hx, heq⟩
    · rintro ⟨x, hx, heq⟩
      refine ⟨x, List.mem_filter.mpr ⟨hx, ?_⟩, heq⟩
      rw [heq]
      exact decide_eq_true hpath
  simp only [hiff]

/-- A plan without failures gives every missing entry one decision. -/
theorem reconcile_placed (h : (reconcile cluster.peers profiles preset).failures = []) :
    ∃ placed, placed.Perm (preset.desired.filter fun e => ¬isPathLoaded cluster.peers e.modelPath) ∧
      List.Forall₂ (Assigned cluster.peers profiles) placed
        (reconcile cluster.peers profiles preset).toLoad := by
  obtain ⟨placed, unplaced, hperm, hassigned, hfailed⟩ := (placeModels_sound cluster profiles
    ⟨preset.desired.filter fun e => e.modelPath ∉ ((currentModels cluster.peers).filter fun m =>
      m.modelPath ∈ preset.desired.map (·.modelPath)).map (·.modelPath),
      preset.placementStrategy.getD .balanced, preset.minKvCacheMb⟩).partition
  have hnone : unplaced = [] := by
    have hlen := hfailed.length_eq
    rw [show (placeModels _ _ _).failures = [] from h] at hlen
    exact List.eq_nil_of_length_eq_zero hlen
  rw [hnone, List.append_nil, missingEntries_eq] at hperm
  exact ⟨placed, hperm, hassigned⟩

theorem runningModels_execute (newId : Nat → String) (used : String → Nat → ℚ)
    (h : (reconcile cluster.peers profiles preset).failures = []) :
    (runningModels (execute newId used cluster.peers
      (reconcile cluster.peers profiles preset))).Perm
    (startedModels newId 0 (reconcile cluster.peers profiles preset).toLoad ++
      (runningModels cluster.peers).filter fun i =>
        isLoaded i.2.status → i.2.modelPath ∈ preset.desired.map (·.modelPath)) := by
  have hkept : runningModels (unload cluster.peers
      (reconcile cluster.peers profiles preset).toUnload)
      = (runningModels cluster.peers).filter fun i =>
          isLoaded i.2.status → i.2.modelPath ∈ preset.desired.map (·.modelPath) := by
    rw [runningModels_unload]
    refine List.filter_congr fun i hi => ?_
    have hiff := cluster.unload_iff (q := fun m =>
      decide (m.modelPath ∉ preset.desired.map (·.modelPath))) hi
    rw [decide_eq_true_eq] at hiff
    rw [decide_eq_decide]
    exact (not_congr hiff).trans (by tauto)
  obtain ⟨placed, -, hassigned⟩ := reconcile_placed h
  rw [execute, runningModels_reportVram, ← hkept]
  apply runningModels_loadAll
  · rw [pods_unload]
    exact cluster.pods_nodup
  · intro d hd
    obtain ⟨p, hp, hpod⟩ := assigned_healthy hassigned hd
    rw [pods_unload]
    exact List.mem_map.mpr ⟨_, List.mem_map_of_mem hp, hpod⟩

theorem pods_execute (plan : ReconciliationPlan) :
    pods (execute newId used cluster.peers plan) = pods cluster.peers := by
  simp [execute]

/-- The plan's steps leave exactly the preset's entries running when what they leave alone matches
the entries that they do not load. -/
theorem runsExactly_execute_iff (h : (reconcile cluster.peers profiles preset).failures = []) :
    RunsExactly (execute newId used cluster.peers (reconcile cluster.peers profiles preset))
      preset.desired ↔ LeftAloneMatch cluster.peers preset.desired := by
  obtain ⟨placed, hperm, hassigned⟩ := reconcile_placed h
  have hnew : Multiset.Rel (Satisfies cluster.peers)
      ↑(startedModels newId 0 (reconcile cluster.peers profiles preset).toLoad)
      ((↑preset.desired : Multiset ModelConfigurationEntry).filter fun e =>
        ¬isPathLoaded cluster.peers e.modelPath) := by
    rw [Multiset.filter_coe, ← Multiset.coe_eq_coe.mpr hperm]
    exact Matching.rel_coe_of_forall₂ (startedModels_satisfies newId 0 hassigned)
  have hunloaded : ∀ i ∈ (↑(startedModels newId 0
      (reconcile cluster.peers profiles preset).toLoad) : Multiset PodModel),
      ¬isPathLoaded cluster.peers i.2.modelPath := by
    intro i hi
    obtain ⟨e, he, hsat⟩ := Multiset.exists_mem_of_rel_of_mem hnew hi
    rw [hsat.modelPath]
    exact (Multiset.mem_filter.mp he).2
  rw [RunsExactly, satisfies_congr (pods_execute _),
    Multiset.coe_eq_coe.mpr (runningModels_execute newId used h), ← Multiset.coe_add,
    Matching.rel_add_iff (p := fun i : PodModel => isPathLoaded cluster.peers i.2.modelPath)
      (q := fun e => isPathLoaded cluster.peers e.modelPath) _ hunloaded hnew, LeftAloneMatch,
    Multiset.filter_coe]
  · simp only [Bool.decide_eq_true]
  · intro i e hsat
    rw [hsat.modelPath]

theorem placeModels_nil (peers : List PeerInfo) (strategy : PlacementStrategy)
    (minKvCacheMb : Option ℚ) : placeModels peers profiles ⟨[], strategy, minKvCacheMb⟩ = ⟨[], []⟩ := by
  unfold placeModels
  dsimp only
  split_ifs <;> rfl

theorem reconcile_isEmpty {peers : List PeerInfo}
    (hloaded : ∀ e ∈ preset.desired, isPathLoaded peers e.modelPath)
    (hdesired : ∀ x ∈ currentModels peers, x.modelPath ∈ preset.desired.map (·.modelPath)) :
    (reconcile peers profiles preset).IsEmpty := by
  have hmissing : (preset.desired.filter fun e => e.modelPath ∉ ((currentModels peers).filter
      fun m => m.modelPath ∈ preset.desired.map (·.modelPath)).map (·.modelPath)) = [] := by
    rw [missingEntries_eq, List.filter_eq_nil_iff]
    intro e he
    simpa using hloaded e he
  refine ⟨?_, ?_, ?_⟩
  · simp only [reconcile, hmissing, placeModels_nil]
  · simp only [reconcile, List.filter_eq_nil_iff]
    intro x hx
    have hpath := hdesired x hx
    simpa using hpath
  · simp only [reconcile, hmissing, placeModels_nil]

/-- A plan made after all steps of a plan without failures is empty. -/
theorem reconcile_again (h : (reconcile cluster.peers profiles preset).failures = []) :
    (reconcile (execute newId used cluster.peers (reconcile cluster.peers profiles preset))
      profiles' preset).IsEmpty := by
  obtain ⟨placed, hperm, hassigned⟩ := reconcile_placed h
  have hmodels := runningModels_execute newId used h
  have hstarted := startedModels_satisfies newId 0 hassigned
  -- every path of the preset is loaded now
  have hloaded : ∀ e ∈ preset.desired, isPathLoaded (execute newId used cluster.peers
      (reconcile cluster.peers profiles preset)) e.modelPath := by
    intro e he
    by_cases hbefore : isPathLoaded cluster.peers e.modelPath
    · obtain ⟨x, hx, hpath⟩ := isPathLoaded_iff.mp hbefore
      obtain ⟨i, hi, hstatus, rfl⟩ := mem_currentModels.mp hx
      have hkept : i ∈ (runningModels cluster.peers).filter fun i =>
          isLoaded i.2.status → i.2.modelPath ∈ preset.desired.map (·.modelPath) := by
        refine List.mem_filter.mpr ⟨hi, decide_eq_true fun _ => ?_⟩
        exact List.mem_map.mpr ⟨e, he, hpath.symm⟩
      rw [← hpath]
      exact isPathLoaded_of_mem (hmodels.mem_iff.mpr (List.mem_append_right _ hkept)) hstatus
    · have hmem : e ∈ placed :=
        hperm.mem_iff.mpr (List.mem_filter.mpr ⟨he, decide_eq_true hbefore⟩)
      have hrel := Matching.rel_coe_of_forall₂ hstarted
      obtain ⟨i, hi, hsat⟩ := Multiset.exists_mem_of_rel_of_mem (Multiset.rel_flip.mpr hrel) hmem
      rw [← hsat.modelPath]
      exact isPathLoaded_of_mem (hmodels.mem_iff.mpr (List.mem_append_left _ hi))
        (startedModels_loaded hi)
  refine reconcile_isEmpty hloaded fun x hx => ?_
  obtain ⟨i, hi, hstatus, rfl⟩ := mem_currentModels.mp hx
  rcases List.mem_append.mp (hmodels.mem_iff.mp hi) with hi | hi
  · obtain ⟨e, he, hsat⟩ :=
      Multiset.exists_mem_of_rel_of_mem (Matching.rel_coe_of_forall₂ hstarted) hi
    have hdesired := List.mem_of_mem_filter (hperm.mem_iff.mp he)
    exact List.mem_map.mpr ⟨e, hdesired, hsat.modelPath.symm⟩
  · exact of_decide_eq_true (List.mem_filter.mp hi).2 hstatus

end Plan

section Examples

/-- One pod with one GPU, which runs the given instances. -/
def singleGpuCluster (models : List PeerModelEntry)
    (h : (models.map (·.instanceId)).Nodup) : Cluster where
  peers := [⟨"pod-a", .healthy, models, [⟨0, "A100", 81920, 0⟩]⟩]
  podIds_nodup := by simp
  gpuIds_nodup := by simp
  instanceIds_nodup := by simpa using h

attribute [local instance] Numerals.neZero_one

/-- The preset that lists one entry several times. -/
def repeatedPreset (times : Nat) : SavedModelConfiguration where
  entries := some (List.replicate times ⟨"llama", 4096, some 1, 0, none, some 1024⟩)
  placementStrategy := none
  minKvCacheMb := none

end Examples

end GpuSharing.Sardeenz.PodScheduler
