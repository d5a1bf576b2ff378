import GpuSharing.Lib.Grouping
import GpuSharing.Lib.Numerals
import GpuSharing.Sardeenz.KvAdmission
import GpuSharing.Sardeenz.LaunchOptions
import GpuSharing.Sardeenz.PresetStore

namespace GpuSharing.Sardeenz.SavedLaunches

open PresetStore (ConfigurationRow EntryRow Insertable ModelConfigurationEntry
  ModelConfigurationStore SavedModelConfiguration getConfiguration inLoadOrder rowToEntry)

/-- An instance in the model store, with the launch that has made it. -/
structure StoredModel (number : String → Option Int) where
  options : LaunchModelOptions
  recommended : Nat → Nat
  launch : Launch
  launched : launchModel number recommended options = some launch
  status : ModelStatus

/-- The fields of a `ModelInstanceDTO` that are saved. -/
structure ModelInstanceDTO where
  model_path : String
  model_name : String
  status : ModelStatus
  max_tokens : Int
  gpu_ids : Option (List Nat)
  tensor_parallel_size : Int
  sleep_mode_enabled : Bool

def toModelDTO (instance_ : ModelInstance) (status : ModelStatus) : ModelInstanceDTO where
  model_path := instance_.modelPath
  model_name := instance_.modelName
  status := status
  max_tokens := instance_.maxTokens
  gpu_ids := some instance_.gpuIds
  tensor_parallel_size := instance_.tensorParallelSize
  sleep_mode_enabled := instance_.sleepModeEnabled

def isActive (status : ModelStatus) : Bool := status = .running || status = .sleeping

attribute [local instance] Numerals.neZero_two

/-- The row that is inserted for a model. -/
def savedRow (id : String) (modelPath modelName : String) (maxTokens : Int)
    (gpuIds : Option (List Nat)) (tensorParallelSize : Int) (sleepModeEnabled : Bool)
    (podId : Option String) (loadOrder : Nat) : EntryRow where
  id := id
  modelPath := modelPath
  servedModelName := if modelName ≠ modelPath then some modelName else none
  maxTokens := maxTokens
  sourceType := .huggingface
  extraArgs := none
  gpuIds := gpuIds.filter (· ≠ [])
  tensorParallelSize := tensorParallelSize
  loadOrder := loadOrder
  sleepModeEnabled := if sleepModeEnabled then 1 else 0
  gpuTypeConstraint := none
  minVramMb := none
  podId := podId

def instanceRow (id : String) (instance_ : ModelInstance) (podId : Option String) (loadOrder : Nat) :
    EntryRow :=
  savedRow id instance_.modelPath instance_.modelName instance_.maxTokens (some instance_.gpuIds)
    instance_.tensorParallelSize instance_.sleepModeEnabled podId loadOrder

def dtoRow (id : String) (dto : ModelInstanceDTO) (podId : String) (loadOrder : Nat) : EntryRow :=
  savedRow id dto.model_path dto.model_name dto.max_tokens dto.gpu_ids dto.tensor_parallel_size
    dto.sleep_mode_enabled (some podId) loadOrder

/-- The configuration that is saved for the models of this pod and of the others; `uuid` gives the
ids of the entries. -/
def capturedRow (uuid : Nat → String) (name : String) (description : Option String) (now : String)
    (instances : List (ModelInstance × ModelStatus)) (localPodId : Option String)
    (remoteModels : List (ModelInstanceDTO × String)) : ConfigurationRow :=
  let activeInstances := instances.filter fun x => isActive x.2
  let activeRemote := remoteModels.filter fun r => isActive r.1.status
  { content :=
      { name := name
        description := description
        modelCount := activeInstances.length + activeRemote.length
        placementStrategy := none
        minKvCacheMb := none
        version := 1
        entries := (activeInstances.mapIdx fun i x => instanceRow (uuid i) x.1 localPodId i) ++
          activeRemote.mapIdx fun i r => dtoRow (uuid (activeInstances.length + i)) r.1 r.2
            (activeInstances.length + i) }
    createdAt := now
    updatedAt := none }

/-- The transaction fails on the constraints of the tables. -/
def createFromRunningModels (uuid : Nat → String) (store : ModelConfigurationStore) (id : String)
    (name : String) (description : Option String) (now : String)
    (instances : List (ModelInstance × ModelStatus)) (localPodId : Option String)
    (remoteModels : List (ModelInstanceDTO × String)) : Option ModelConfigurationStore :=
  let row := capturedRow uuid name description now instances localPodId remoteModels
  if store.lookup id = none ∧ Insertable store id row.content then
    some (Dict.setItem store id row)
  else none

/-- The pod that an entry was saved with. -/
def savedPod (entry : ModelConfigurationEntry) : Option String := entry.podId.filter (· ≠ "")

/-- In cluster mode the entries of pods that are not known are skipped. -/
def entriesToLoad (isClusterMode : Bool) (localPodId : String) (peers : List String)
    (entries : List ModelConfigurationEntry) : List ModelConfigurationEntry :=
  if isClusterMode then
    entries.filter fun e => ∀ pod ∈ savedPod e, pod ∈ peers ∨ pod = localPodId
  else entries

/-- The options that an entry of this pod is launched with. -/
def localOptions (entry : ModelConfigurationEntry) : LaunchModelOptions where
  modelPath := entry.modelPath
  maxTokens := some entry.maxTokens
  extraArgs := entry.extraArgs
  gpuIds := entry.gpuIds
  topologyGpuIds := none
  tensorParallelSize := some entry.tensorParallelSize
  pipelineParallelSize := none
  placementMode := none
  placementGpuId := none
  servedModelName := entry.servedModelName
  enableSleepMode := entry.sleepModeEnabled
  idleSleepTimeoutSeconds := none
  idleSleepLevel := none
  autoWakeOnRequest := none

/-- The options in the load command that is sent for an entry of another pod. -/
def remoteOptions (entry : ModelConfigurationEntry) : LaunchModelOptions :=
  { localOptions entry with extraArgs := none }

section ConflictGroups

/-- Following the parents as often as there are entries ends at the root; compressing the path
changes no root. -/
def find (size : Nat) (parent : Nat → Nat) (i : Nat) : Nat := parent^[size] i

def union (size : Nat) (parent : Nat → Nat) (i j : Nat) : Nat → Nat :=
  if find size parent i ≠ find size parent j then
    Function.update parent (find size parent i) (find size parent j)
  else parent

/-- The GPUs of an entry, `-1` standing for those that are selected automatically. -/
def getGpuSet (entry : ModelConfigurationEntry) : List Int :=
  match entry.gpuIds with
  | some (gpu :: gpus) => (gpu :: gpus).map Int.ofNat
  | _ => [-1]

def conflictParents (entries : List ModelConfigurationEntry) : Nat → Nat :=
  (entries.zipIdx).foldl (fun parent x =>
    ((entries.zipIdx).filter (x.2 < ·.2)).foldl (fun parent y =>
      if (getGpuSet x.1).any (· ∈ getGpuSet y.1) then union entries.length parent x.2 y.2
      else parent) parent) id

/-- The entries that share GPUs, directly or through others. -/
def conflictGroups (entries : List ModelConfigurationEntry) : List (List ModelConfigurationEntry) :=
  let parent := conflictParents entries
  (Grouping.grouped (fun x : ModelConfigurationEntry × Nat => find entries.length parent x.2)
    entries.zipIdx).map fun group => group.2.map (·.1)

end ConflictGroups

def byLoadOrder (entries : List ModelConfigurationEntry) : List ModelConfigurationEntry :=
  entries.insertionSort fun a b => a.loadOrder ≤ b.loadOrder

/-- The launches on this pod: those of a group one after the other, whether or not they succeed, and
the groups side by side. -/
def loadEntriesLocally (entries : List ModelConfigurationEntry) : List (List LaunchModelOptions) :=
  (conflictGroups entries).map fun group => (byLoadOrder group).map localOptions

/-- The load commands to the other pods. -/
def loadEntriesRemotely (peers : List String) (entries : List ModelConfigurationEntry) :
    List LaunchModelOptions :=
  (Grouping.grouped savedPod entries).flatMap fun group =>
    if ∀ pod ∈ group.1, pod ∈ peers then (byLoadOrder group.2).map remoteOptions else []

/-- The options of all launches that the loading of a configuration issues. -/
def loadConfiguration (isClusterMode : Bool) (localPodId : String) (peers : List String)
    (config : SavedModelConfiguration) : List LaunchModelOptions :=
  let entries := entriesToLoad isClusterMode localPodId peers (config.entries.getD [])
  if isClusterMode then
    let isLocal := fun e : ModelConfigurationEntry => ∀ pod ∈ savedPod e, pod = localPodId
    (loadEntriesLocally (entries.filter fun e => isLocal e)).flatten ++
      loadEntriesRemotely peers (entries.filter fun e => ¬ isLocal e)
  else (loadEntriesLocally entries).flatten

theorem byLoadOrder_perm (entries : List ModelConfigurationEntry) :
    (byLoadOrder entries).Perm entries :=
  List.perm_insertionSort _ entries

theorem conflictGroups_perm (entries : List ModelConfigurationEntry) :
    ((conflictGroups entries).flatten).Perm entries := by
  have hperm := (Grouping.grouped_perm (fun x : ModelConfigurationEntry × Nat =>
    find entries.length (conflictParents entries) x.2) entries.zipIdx).map (·.1)
  rw [List.zipIdx_map_fst] at hperm
  rw [conflictGroups, ← List.flatMap_def, ← List.map_flatMap]
  exact hperm

/-- Every entry is launched once. -/
theorem loadEntriesLocally_perm (entries : List ModelConfigurationEntry) :
    ((loadEntriesLocally entries).flatten).Perm (entries.map localOptions) := by
  rw [loadEntriesLocally, ← List.flatMap_def]
  refine (List.Perm.flatMap_left _ fun group _ =>
    (byLoadOrder_perm group).map localOptions).trans ?_
  rw [← List.map_flatMap]
  refine List.Perm.map localOptions ?_
  rw [List.flatMap_id']
  exact conflictGroups_perm entries

theorem loadEntriesRemotely_perm {peers : List String} {entries : List ModelConfigurationEntry}
    (hknown : ∀ e ∈ entries, ∀ pod ∈ savedPod e, pod ∈ peers) :
    (loadEntriesRemotely peers entries).Perm (entries.map remoteOptions) := by
  have hgroup : ∀ group ∈ Grouping.grouped savedPod entries,
      (if ∀ pod ∈ group.1, pod ∈ peers then (byLoadOrder group.2).map remoteOptions else []).Perm
        (group.2.map remoteOptions) := by
    intro group hgroup
    obtain ⟨e, he, hpod⟩ := Grouping.exists_of_mem_grouped hgroup
    rw [if_pos (hpod ▸ hknown e he)]
    exact (byLoadOrder_perm group.2).map remoteOptions
  refine (List.Perm.flatMap_left _ hgroup).trans ?_
  rw [← List.map_flatMap]
  exact (Grouping.grouped_perm savedPod entries).map remoteOptions

/-- All entries are launched, each once, if their pods are known and no arguments are saved. -/
theorem loadConfiguration_perm {isClusterMode : Bool} {localPodId : String} {peers : List String}
    {config : SavedModelConfiguration} {entries : List ModelConfigurationEntry}
    (hentries : config.entries = some entries) (hargs : ∀ e ∈ entries, e.extraArgs = none)
    (hknown : isClusterMode = true → ∀ e ∈ entries, ∀ pod ∈ savedPod e,
      pod ∈ peers ∨ pod = localPodId) :
    (loadConfiguration isClusterMode localPodId peers config).Perm (entries.map localOptions) := by
  have hall : entriesToLoad isClusterMode localPodId peers entries = entries := by
    rw [entriesToLoad]
    split_ifs with hcluster
    · exact List.filter_eq_self.mpr fun e he => decide_eq_true (hknown hcluster e he)
    · rfl
  rw [loadConfiguration, hentries]
  simp only [Option.getD_some, hall]
  cases isClusterMode with
  | false => exact loadEntriesLocally_perm entries
  | true =>
    have hremote : ∀ e ∈ entries.filter fun e => ¬ ∀ pod ∈ savedPod e, pod = localPodId,
        ∀ pod ∈ savedPod e, pod ∈ peers := by
      intro e he pod hpod
      obtain ⟨he, hnot⟩ := List.mem_filter.mp he
      rcases hknown rfl e he pod hpod with hpeer | hlocal
      · exact hpeer
      · refine absurd (fun pod' hpod' => ?_) (of_decide_eq_true hnot)
        rw [Option.mem_unique hpod' hpod]
        exact hlocal
    have hsame : (entries.filter fun e => ¬ ∀ pod ∈ savedPod e, pod = localPodId).map
        remoteOptions =
        (entries.filter fun e => ¬ ∀ pod ∈ savedPod e, pod = localPodId).map localOptions := by
      refine List.map_congr_left fun e he => ?_
      have hnone : (localOptions e).extraArgs = none := hargs e (List.mem_filter.mp he).1
      rw [remoteOptions, ← hnone]
    have hremotePerm := loadEntriesRemotely_perm hremote
    rw [hsame] at hremotePerm
    rw [if_pos rfl]
    refine ((loadEntriesLocally_perm _).append hremotePerm).trans ?_
    rw [← List.map_append]
    refine List.Perm.map localOptions ?_
    simp only [decide_not]
    exact List.filter_append_perm _ entries

/-- The options that a saved instance is launched with. -/
def savedOptions (m : ModelInstance) : LaunchModelOptions where
  modelPath := m.modelPath
  maxTokens := some m.maxTokens
  extraArgs := none
  gpuIds := (some m.gpuIds).filter (· ≠ [])
  topologyGpuIds := none
  tensorParallelSize := some m.tensorParallelSize
  pipelineParallelSize := none
  placementMode := none
  placementGpuId := none
  servedModelName := if m.modelName ≠ m.modelPath then some m.modelName else none
  enableSleepMode := some m.sleepModeEnabled
  idleSleepTimeoutSeconds := none
  idleSleepLevel := none
  autoWakeOnRequest := none

theorem localOptions_instanceRow (configId id : String) (m : ModelInstance) (podId : Option String)
    (loadOrder : Nat) :
    localOptions (rowToEntry configId (instanceRow id m podId loadOrder)) = savedOptions m := by
  rcases m with ⟨_, _, _, _, _, _, _, _, _ | _, _, _, _⟩ <;> rfl

/-- The options of a launch that is saved whole: no arguments of the user's, a balanced placement on
one GPU for each tensor-parallel rank, and the default sleep settings. -/
structure LaunchModelOptions.Plain (o : LaunchModelOptions) : Prop where
  extraArgs : sanitizeVllmArgs (o.extraArgs.getD []) = []
  placementMode : o.placementMode.getD .balanced = .balanced
  pipelineParallelSize : ∀ n ∈ o.pipelineParallelSize, n ≤ 1
  idleSleepTimeoutSeconds : o.idleSleepTimeoutSeconds = none
  idleSleepLevel : o.idleSleepLevel.getD .weightsToCpu = .weightsToCpu
  autoWakeOnRequest : o.autoWakeOnRequest.getD true = true

section Relaunch

variable {number : String → Option Int} {recommended recommended' : Nat → Nat}
  {o : LaunchModelOptions} {launch : Launch}

theorem effectivePipelineParallelSize_eq_one
    (hargs : sanitizeVllmArgs (o.extraArgs.getD []) = []) :
    effectivePipelineParallelSize number o = 1 ↔ ∀ n ∈ o.pipelineParallelSize, n ≤ 1 := by
  have hnone : getNumericArg number [] ["--pipeline-parallel-size", "-pp"] = none := rfl
  rw [effectivePipelineParallelSize, hargs, hnone]
  cases hpp : o.pipelineParallelSize with
  | none => simp
  | some n => simp

theorem requiredGpuCount_savedOptions (m : ModelInstance) :
    requiredGpuCount number (savedOptions m) = (max m.tensorParallelSize 1).toNat := by
  have hpp : effectivePipelineParallelSize number (savedOptions m) = 1 :=
    (effectivePipelineParallelSize_eq_one rfl).mpr fun n hn => (by cases hn)
  rw [requiredGpuCount, hpp, mul_one]
  rfl

/-- A launch with saved options can only repeat a plain one. -/
theorem plain_of_relaunch {m : ModelInstance}
    (h : launchModel number recommended o = some launch)
    (hsaved : launchModel number recommended' (savedOptions m) = some launch) : o.Plain := by
  have hfields := (launchModel_fields h).symm.trans (launchModel_fields hsaved)
  simp only [Launch.mk.injEq, ModelInstance.mk.injEq] at hfields
  obtain ⟨⟨-, -, -, -, -, hmode, -, htp, -, htimeout, hlevel, hwake⟩, hargs⟩ := hfields
  have hpp : effectivePipelineParallelSize number o = 1 ↔ ∀ n ∈ o.pipelineParallelSize, n ≤ 1 :=
    effectivePipelineParallelSize_eq_one hargs
  refine ⟨hargs, hmode, hpp.mp ?_, htimeout, hlevel, hwake⟩
  have hcount : requiredGpuCount number o = requiredGpuCount number (savedOptions m) :=
    (launchModel_balanced hmode h).2.1.symm.trans (launchModel_balanced rfl hsaved).2.1
  have htp' : effectiveTensorParallelSize o = max m.tensorParallelSize 1 := htp
  rw [requiredGpuCount_savedOptions, ← htp', requiredGpuCount] at hcount
  have hone := one_le_effectiveTensorParallelSize (o := o)
  have hpos : 0 < effectivePipelineParallelSize number o := one_le_effectivePipelineParallelSize
  have hmul := Int.mul_pos (show 0 < effectiveTensorParallelSize o from hone) hpos
  have heq : effectiveTensorParallelSize o * effectivePipelineParallelSize number o =
      effectiveTensorParallelSize o * 1 := by
    omega
  exact mul_left_cancel₀ (by omega) heq

/-- A plain launch is repeated by its saved options. -/
theorem relaunch_of_plain (recommended' : Nat → Nat)
    (h : launchModel number recommended o = some launch) (hplain : o.Plain) :
    launchModel number recommended' (savedOptions launch.model) = some launch := by
  have hfields := launchModel_fields h
  obtain ⟨hnodup, hlength, htopology, hgpu⟩ := launchModel_balanced hplain.placementMode h
  have hpp : effectivePipelineParallelSize number o = 1 :=
    (effectivePipelineParallelSize_eq_one hplain.extraArgs).mpr hplain.pipelineParallelSize
  have hone := one_le_effectiveTensorParallelSize (o := o)
  have htp : launch.model.tensorParallelSize = effectiveTensorParallelSize o := by
    rw [hfields]
  have hcount : requiredGpuCount number (savedOptions launch.model) =
      launch.model.gpuIds.length := by
    rw [requiredGpuCount_savedOptions, hlength, requiredGpuCount, hpp, htp]
    omega
  have hpos : 1 ≤ launch.model.gpuIds.length := hlength ▸ one_le_requiredGpuCount
  have hrequested : (savedOptions launch.model).requestedGpuIds = some launch.model.gpuIds := by
    have hne : launch.model.gpuIds ≠ [] := List.length_pos_iff.mp hpos
    simp [LaunchModelOptions.requestedGpuIds, savedOptions, hne]
  have hplacement : placement number recommended' (savedOptions launch.model) =
      some (launch.model.gpuIds, none) := by
    have hmode : (savedOptions launch.model).placementMode.getD .balanced = .balanced := rfl
    simp only [placement, hmode, hrequested, hcount]
    rw [getTargetGpus_of_nodup recommended' hnodup hpos]
    rfl
  have hname : effectiveModelName (savedOptions launch.model).servedModelName
      (savedOptions launch.model).modelPath = launch.model.modelName := by
    rw [hfields]
    exact effectiveModelName_saved o.servedModelName o.modelPath
  have htp' : effectiveTensorParallelSize (savedOptions launch.model) =
      launch.model.tensorParallelSize := by
    have hmax : effectiveTensorParallelSize (savedOptions launch.model) =
        max launch.model.tensorParallelSize 1 := rfl
    rw [hmax, htp]
    omega
  have hpath : launch.model.modelPath = o.modelPath := by rw [hfields]
  have htokens : launch.model.maxTokens = o.maxTokens.getD 4096 := by rw [hfields]
  have hsleep : launch.model.sleepModeEnabled = o.enableSleepMode.getD false := by rw [hfields]
  have hmodel : launch.model.modelName = effectiveModelName o.servedModelName o.modelPath := by
    rw [hfields]
  rw [launchModel, hplacement, Option.map_some, hname, htp']
  refine congrArg some (Eq.trans ?_ hfields.symm)
  simp only [Launch.mk.injEq, ModelInstance.mk.injEq]
  exact ⟨⟨hpath, hmodel, htokens, trivial, htopology.symm, hplain.placementMode.symm, hgpu.symm, htp,
    hsleep, hplain.idleSleepTimeoutSeconds.symm, hplain.idleSleepLevel.symm,
    hplain.autoWakeOnRequest.symm⟩, hplain.extraArgs.symm⟩

end Relaunch

/-- The models that are saved. -/
def activeModels {number : String → Option Int} (here : List (StoredModel number))
    (there : List (StoredModel number × String)) : List (StoredModel number) :=
  (here ++ there.map (·.1)).filter fun m => isActive m.status

theorem map_mapIdx_map {α β γ δ : Type} {e : α → β} {f : Nat → β → γ} {g : γ → δ} {h : α → δ}
    (hfg : ∀ i x, g (f i (e x)) = h x) (l : List α) : ((l.map e).mapIdx f).map g = l.map h := by
  apply List.ext_getElem (by simp)
  intro i _ _
  rw [List.getElem_map, List.getElem_mapIdx, List.getElem_map, List.getElem_map, hfg]

section Saved

variable {number : String → Option Int} {uuid : Nat → String}
  {store saved : ModelConfigurationStore} {id name now : String} {description : Option String}
  {here : List (StoredModel number)} {localPodId : Option String}
  {there : List (StoredModel number × String)} {config : SavedModelConfiguration}

/-- The rows that are saved for the models of this pod and of the others. -/
def savedConfiguration (uuid : Nat → String) (name : String) (description : Option String)
    (now : String) (here : List (StoredModel number)) (localPodId : Option String)
    (there : List (StoredModel number × String)) : ConfigurationRow :=
  capturedRow uuid name description now (here.map fun m => (m.launch.model, m.status)) localPodId
    (there.map fun r => (toModelDTO r.1.launch.model r.1.status, r.2))

theorem localOptions_savedConfiguration (configId : String) :
    ((savedConfiguration uuid name description now here localPodId there).content.entries.map
      fun row => localOptions (rowToEntry configId row)) =
      (activeModels here there).map fun m => savedOptions m.launch.model := by
  have hhere : (here.map fun m => (m.launch.model, m.status)).filter (fun x => isActive x.2) =
      (here.filter fun m => isActive m.status).map fun m => (m.launch.model, m.status) := by
    rw [List.filter_map]
    rfl
  have hthere : (there.map fun r => (toModelDTO r.1.launch.model r.1.status, r.2)).filter
      (fun r => isActive r.1.status) = (there.filter fun r => isActive r.1.status).map
        fun r => (toModelDTO r.1.launch.model r.1.status, r.2) := by
    rw [List.filter_map]
    rfl
  have hfirst : (there.map (·.1)).filter (fun m => isActive m.status) =
      (there.filter fun r => isActive r.1.status).map (·.1) := by
    rw [List.filter_map]
    rfl
  rw [activeModels, List.filter_append, List.map_append, hfirst, List.map_map]
  simp only [savedConfiguration, capturedRow, List.map_append, hhere, hthere]
  congr 1
  · exact map_mapIdx_map (fun i m => localOptions_instanceRow configId (uuid i) m.launch.model
      localPodId i) _
  · exact map_mapIdx_map (fun i r => localOptions_instanceRow configId _ r.1.launch.model
      (some r.2) _) _

theorem extraArgs_savedConfiguration {row : EntryRow} (hrow : row ∈
    (savedConfiguration uuid name description now here localPodId there).content.entries) :
    row.extraArgs = none := by
  rcases List.mem_append.mp hrow with hrow | hrow
  · obtain ⟨i, hi, rfl⟩ := List.mem_mapIdx.mp hrow
    rfl
  · obtain ⟨i, hi, rfl⟩ := List.mem_mapIdx.mp hrow
    rfl

/-- The pods that are saved are those of the models. -/
theorem podId_savedConfiguration {row : EntryRow} {pod : String} (hrow : row ∈
    (savedConfiguration uuid name description now here localPodId there).content.entries)
    (hpod : pod ∈ row.podId) : pod ∈ localPodId ∨ ∃ r ∈ there, r.2 = pod := by
  rcases List.mem_append.mp hrow with hrow | hrow
  · obtain ⟨i, hi, rfl⟩ := List.mem_mapIdx.mp hrow
    exact .inl hpod
  · obtain ⟨i, hi, rfl⟩ := List.mem_mapIdx.mp hrow
    have hmem := (List.mem_filter.mp (List.getElem_mem hi)).1
    obtain ⟨r, hr, heq⟩ := List.mem_map.mp hmem
    refine .inr ⟨r, hr, ?_⟩
    rw [← heq] at hpod
    exact Option.some.inj hpod

/-- Every saved model is launched once, with its saved options. -/
theorem issued_perm
    (hsaved : createFromRunningModels uuid store id name description now
      (here.map fun m => (m.launch.model, m.status)) localPodId
      (there.map fun r => (toModelDTO r.1.launch.model r.1.status, r.2)) = some saved)
    (hread : getConfiguration saved id = some config) {isClusterMode : Bool} {loadingPodId : String}
    {peers : List String}
    (hpods : isClusterMode = true → ∀ pod, pod ∈ localPodId ∨ (∃ r ∈ there, r.2 = pod) →
      pod ∈ peers ∨ pod = loadingPodId) :
    (loadConfiguration isClusterMode loadingPodId peers config).Perm
      ((activeModels here there).map fun m => savedOptions m.launch.model) := by
  rw [createFromRunningModels] at hsaved
  split_ifs at hsaved
  cases hsaved
  rw [getConfiguration, Dict.lookup_setItem, if_pos rfl] at hread
  cases hread
  have hrows : ∀ e ∈ (inLoadOrder (savedConfiguration uuid name description now here localPodId
      there).content.entries).map (rowToEntry id), ∃ row ∈ (savedConfiguration uuid name description
        now here localPodId there).content.entries, rowToEntry id row = e := by
    intro e he
    obtain ⟨row, hrow, rfl⟩ := List.mem_map.mp he
    exact ⟨row, (List.mem_insertionSort _).mp hrow, rfl⟩
  refine (loadConfiguration_perm rfl (fun e he => ?_) fun hcluster e he pod hpod => ?_).trans ?_
  · obtain ⟨row, hrow, rfl⟩ := hrows e he
    exact extraArgs_savedConfiguration hrow
  · obtain ⟨row, hrow, rfl⟩ := hrows e he
    refine hpods hcluster pod (podId_savedConfiguration hrow ?_)
    exact (Option.mem_filter_iff.mp hpod).1
  · rw [← localOptions_savedConfiguration id, List.map_map]
    exact (List.perm_insertionSort _ _).map _

/-- What is saved of the models is loaded with the options that they were launched with, each once,
exactly when all of them were launched with plain ones. -/
theorem saved_launches_equal_iff
    (hsaved : createFromRunningModels uuid store id name description now
      (here.map fun m => (m.launch.model, m.status)) localPodId
      (there.map fun r => (toModelDTO r.1.launch.model r.1.status, r.2)) = some saved)
    (hread : getConfiguration saved id = some config) {isClusterMode : Bool} {loadingPodId : String}
    {peers : List String}
    (hpods : isClusterMode = true → ∀ pod, pod ∈ localPodId ∨ (∃ r ∈ there, r.2 = pod) →
      pod ∈ peers ∨ pod = loadingPodId) :
    (∀ recommended, ((loadConfiguration isClusterMode loadingPodId peers config).map
        (launchModel number recommended)).Perm
          ((activeModels here there).map fun m => some m.launch)) ↔
      ∀ m ∈ activeModels here there, m.options.Plain := by
  have hperm := issued_perm hsaved hread hpods
  constructor
  · intro h m hm
    have hmem : some m.launch ∈ (activeModels here there).map fun m => some m.launch :=
      List.mem_map.mpr ⟨m, hm, rfl⟩
    have hissued := ((hperm.map (launchModel number m.recommended)).symm.trans
      (h m.recommended)).symm.mem_iff.mp hmem
    obtain ⟨o, ho, hlaunch⟩ := List.mem_map.mp hissued
    obtain ⟨m', -, rfl⟩ := List.mem_map.mp ho
    exact plain_of_relaunch m.launched hlaunch
  · intro hplain recommended
    have hsame : ((activeModels here there).map fun m => savedOptions m.launch.model).map
        (launchModel number recommended) = (activeModels here there).map fun m => some m.launch := by
      rw [List.map_map]
      exact List.map_congr_left fun m hm =>
        relaunch_of_plain recommended m.launched (hplain m hm)
    rw [← hsame]
    exact hperm.map (launchModel number recommended)

end Saved

def plainOptions (modelPath : String) : LaunchModelOptions where
  modelPath := modelPath
  maxTokens := none
  extraArgs := none
  gpuIds := none
  topologyGpuIds := none
  tensorParallelSize := some 2
  pipelineParallelSize := none
  placementMode := none
  placementGpuId := none
  servedModelName := some "model"
  enableSleepMode := some true
  idleSleepTimeoutSeconds := none
  idleSleepLevel := none
  autoWakeOnRequest := none

/-- A running model that was launched with these options, on the GPUs from 2 on if it named none. -/
def runningModel (o : LaunchModelOptions)
    (h : (launchModel (fun _ => none) (fun _ => 2) o).isSome) : StoredModel fun _ => none where
  options := o
  recommended := fun _ => 2
  launch := (launchModel (fun _ => none) (fun _ => 2) o).get h
  launched := (Option.some_get h).symm
  status := .running

/-- A model that runs with an argument of the user's. -/
def eagerModel : StoredModel fun _ => none :=
  runningModel { plainOptions "org/model" with extraArgs := some ["--enforce-eager"] }
    (by decide +kernel)

def uuids (i : Nat) : String := "entry-" ++ toString i

def eagerStore : ModelConfigurationStore :=
  (createFromRunningModels uuids ∅ "c1" "base" none "2025-01-01T00:00:00.000Z"
    [(eagerModel.launch.model, eagerModel.status)] none []).get (by decide +kernel)

def eagerConfiguration : SavedModelConfiguration :=
  (getConfiguration eagerStore "c1").get (by decide +kernel)

theorem extra_args_not_saved :
    createFromRunningModels uuids ∅ "c1" "base" none "2025-01-01T00:00:00.000Z"
        [(eagerModel.launch.model, eagerModel.status)] none [] = some eagerStore ∧
      getConfiguration eagerStore "c1" = some eagerConfiguration ∧
      ¬ ∀ recommended, ((loadConfiguration false "a:8000" [] eagerConfiguration).map
        (launchModel (fun _ => none) recommended)).Perm [some eagerModel.launch] := by
  refine ⟨(Option.some_get _).symm, (Option.some_get _).symm, fun h => ?_⟩
  exact absurd (h fun _ => 2) (by decide +kernel)

def plainModel : StoredModel fun _ => none :=
  runningModel (plainOptions "org/model") (by decide +kernel)

def otherModel : StoredModel fun _ => none :=
  runningModel (plainOptions "org/other") (by decide +kernel)

theorem plain_plainOptions (modelPath : String) : (plainOptions modelPath).Plain :=
  ⟨rfl, rfl, nofun, rfl, rfl, rfl⟩

def plainStore : ModelConfigurationStore :=
  (createFromRunningModels uuids ∅ "c1" "base" none "2025-01-01T00:00:00.000Z"
    [(plainModel.launch.model, plainModel.status)] (some "a:8000")
    [(toModelDTO otherModel.launch.model otherModel.status, "b:8000")]).get (by decide +kernel)

def plainConfiguration : SavedModelConfiguration :=
  (getConfiguration plainStore "c1").get (by decide +kernel)

/-- Two pods with one model each, saved by the one and loaded by the other. -/
theorem saved_launches_equal_iff_twoPods :
    ((loadConfiguration true "b:8000" ["a:8000", "b:8000"] plainConfiguration).map
      (launchModel (fun _ => none) id)).Perm
        ((activeModels [plainModel] [(otherModel, "b:8000")]).map fun m => some m.launch) := by
  have hsaved : createFromRunningModels uuids ∅ "c1" "base" none "2025-01-01T00:00:00.000Z"
      ([plainModel].map fun m => (m.launch.model, m.status)) (some "a:8000")
      ([(otherModel, "b:8000")].map fun r => (toModelDTO r.1.launch.model r.1.status, r.2)) =
      some plainStore :=
    (Option.some_get _).symm
  have hread : getConfiguration plainStore "c1" = some plainConfiguration :=
    (Option.some_get _).symm
  refine (saved_launches_equal_iff hsaved hread fun _ pod hpod => ?_).mpr (fun m hm => ?_) id
  · rcases hpod with hpod | ⟨r, hr, rfl⟩
    · cases hpod
      exact .inl (by decide)
    · cases List.mem_singleton.mp hr
      exact .inl (by decide)
  · have hmem := (List.mem_filter.mp hm).1
    rcases List.mem_cons.mp hmem with rfl | hmem
    · exact plain_plainOptions "org/model"
    · cases List.mem_singleton.mp hmem
      exact plain_plainOptions "org/other"

end GpuSharing.Sardeenz.SavedLaunches
