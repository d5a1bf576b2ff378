import Mathlib.Data.List.Sort
import GpuSharing.Lib.Dict
import GpuSharing.Sardeenz.PodScheduler

namespace GpuSharing.Sardeenz.PresetStore

open PodScheduler (PlacementStrategy)

inductive ModelSourceType
  | huggingface
  | localPath
  deriving DecidableEq, Repr

def ModelSourceType.text : ModelSourceType → String
  | .huggingface => "huggingface"
  | .localPath => "local"

structure ModelConfigurationEntry where
  id : String
  configId : String
  modelPath : String
  servedModelName : Option String
  maxTokens : Int
  sourceType : ModelSourceType
  extraArgs : Option (List String)
  gpuIds : Option (List Nat)
  tensorParallelSize : Int
  loadOrder : Int
  sleepModeEnabled : Option Bool
  gpuTypeConstraint : Option String
  minVramMb : Option Int
  podId : Option String
  deriving DecidableEq, Repr

structure SavedModelConfiguration where
  id : String
  name : String
  description : Option String
  modelCount : Int
  placementStrategy : Option PlacementStrategy
  minKvCacheMb : Option Int
  version : Option Int
  createdAt : String
  updatedAt : Option String
  entries : Option (List ModelConfigurationEntry)
  deriving DecidableEq, Repr

/-- A row of `model_configuration_entries`. Lists are JSON texts there, and the row of an entry has
the id of its configuration in `config_id`. -/
structure EntryRow where
  id : String
  modelPath : String
  servedModelName : Option String
  maxTokens : Int
  sourceType : ModelSourceType
  extraArgs : Option (List String)
  gpuIds : Option (List Nat)
  tensorParallelSize : Int
  loadOrder : Int
  sleepModeEnabled : Fin 2
  gpuTypeConstraint : Option String
  minVramMb : Option Int
  podId : Option String
  deriving DecidableEq, Repr

/-- The columns of `model_configurations` that a preset carries from pod to pod, with the rows of its
entries. -/
structure PresetContent where
  name : String
  description : Option String
  modelCount : Int
  placementStrategy : Option PlacementStrategy
  minKvCacheMb : Option Int
  version : Int
  entries : List EntryRow
  deriving DecidableEq, Repr

structure ConfigurationRow where
  content : PresetContent
  createdAt : String
  updatedAt : Option String
  deriving DecidableEq, Repr

/-- The tables of one pod, by the id of the configuration. -/
abbrev ModelConfigurationStore := Dict String ConfigurationRow

def rowToEntry (configId : String) (row : EntryRow) : ModelConfigurationEntry where
  id := row.id
  configId := configId
  modelPath := row.modelPath
  servedModelName := row.servedModelName
  maxTokens := row.maxTokens
  sourceType := row.sourceType
  extraArgs := row.extraArgs
  gpuIds := row.gpuIds
  tensorParallelSize := row.tensorParallelSize
  loadOrder := row.loadOrder
  sleepModeEnabled := some (row.sleepModeEnabled = 1)
  gpuTypeConstraint := row.gpuTypeConstraint
  minVramMb := row.minVramMb
  podId := row.podId

/-- The rows in the order of `ORDER BY load_order`. -/
def inLoadOrder (rows : List EntryRow) : List EntryRow :=
  rows.insertionSort fun a b => a.loadOrder ≤ b.loadOrder

instance : Std.Total fun a b : EntryRow => a.loadOrder ≤ b.loadOrder :=
  ⟨fun a b => le_total a.loadOrder b.loadOrder⟩

instance : IsTrans EntryRow fun a b => a.loadOrder ≤ b.loadOrder :=
  ⟨fun _ _ _ => le_trans⟩

theorem inLoadOrder_idem (rows : List EntryRow) : inLoadOrder (inLoadOrder rows) = inLoadOrder rows :=
  (List.pairwise_insertionSort _ rows).insertionSort_eq

def rowToConfiguration (id : String) (row : ConfigurationRow) : SavedModelConfiguration where
  id := id
  name := row.content.name
  description := row.content.description
  modelCount := row.content.modelCount
  placementStrategy := row.content.placementStrategy
  minKvCacheMb := row.content.minKvCacheMb
  version := some row.content.version
  createdAt := row.createdAt
  updatedAt := row.updatedAt
  entries := some ((inLoadOrder row.content.entries).map (rowToEntry id))

def getConfiguration (store : ModelConfigurationStore) (id : String) :
    Option SavedModelConfiguration :=
  (store.lookup id).map (rowToConfiguration id)

/-- The row that `syncPreset` inserts for an entry; `uuid` is what `randomUUID` gives where the entry
has no id. -/
def entryRow (uuid : String) (entry : ModelConfigurationEntry) : EntryRow where
  id := if entry.id = "" then uuid else entry.id
  modelPath := entry.modelPath
  servedModelName := entry.servedModelName
  maxTokens := entry.maxTokens
  sourceType := entry.sourceType
  extraArgs := entry.extraArgs
  gpuIds := entry.gpuIds
  tensorParallelSize := entry.tensorParallelSize
  loadOrder := entry.loadOrder
  sleepModeEnabled := if entry.sleepModeEnabled = some true then 1 else 0
  gpuTypeConstraint := entry.gpuTypeConstraint
  minVramMb := entry.minVramMb
  podId := entry.podId

/-- What `syncPreset` writes of a preset, the version included. -/
def SavedModelConfiguration.content (uuid : Nat → String) (preset : SavedModelConfiguration) :
    PresetContent where
  name := preset.name
  description := preset.description
  modelCount := preset.modelCount
  placementStrategy := preset.placementStrategy
  minKvCacheMb := preset.minKvCacheMb
  version := preset.version.getD 1
  entries := (preset.entries.getD []).mapIdx fun i entry => entryRow (uuid i) entry

/-- No constraint of the tables stops the content from being written under the id: the name is free,
and so are the ids of the entries and, within the preset, their load orders. -/
def Insertable (store : ModelConfigurationStore) (id : String) (c : PresetContent) : Prop :=
  (∀ x ∈ store.entries, x.1 ≠ id → x.2.content.name ≠ c.name ∧
    ∀ e ∈ x.2.content.entries, e.id ∉ c.entries.map (·.id)) ∧
  (c.entries.map (·.id)).Nodup ∧ (c.entries.map (·.loadOrder)).Nodup

instance (store : ModelConfigurationStore) (id : String) (c : PresetContent) :
    Decidable (Insertable store id c) :=
  inferInstanceAs (Decidable (_ ∧ _))

/-- A row holds what is read back of it: what one pod reads of a preset is, for the pod that writes
it, the content of the row again, its entries in load order. -/
theorem content_rowToConfiguration {uuid : Nat → String} {id : String} {row : ConfigurationRow}
    (hids : ∀ e ∈ row.content.entries, e.id ≠ "") :
    (rowToConfiguration id row).content uuid =
      { row.content with entries := inLoadOrder row.content.entries } := by
  have hentry : ∀ e ∈ inLoadOrder row.content.entries, ∀ i,
      entryRow (uuid i) (rowToEntry id e) = e := by
    intro e he i
    have hid : e.id ≠ "" := hids e ((List.mem_insertionSort _).mp he)
    have hsleep : (if some (decide (e.sleepModeEnabled = 1)) = some true then (1 : Fin 2) else 0) =
        e.sleepModeEnabled := by
      generalize e.sleepModeEnabled = b
      revert b
      decide
    unfold entryRow rowToEntry
    dsimp only
    rw [if_neg hid, hsleep]
  have hentries : ((inLoadOrder row.content.entries).map (rowToEntry id)).mapIdx
      (fun i entry => entryRow (uuid i) entry) = inLoadOrder row.content.entries := by
    apply List.ext_getElem (by simp)
    intro i _ hi
    rw [List.getElem_mapIdx, List.getElem_map]
    exact hentry _ (List.getElem_mem hi) i
  rw [SavedModelConfiguration.content]
  simp only [rowToConfiguration, Option.getD_some, hentries]

end GpuSharing.Sardeenz.PresetStore
