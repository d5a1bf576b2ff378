import Mathlib.Data.List.Dedup
import Mathlib.Data.List.Sort
import GpuSharing.Lib.Dict
import GpuSharing.WeightSharing.ParameterFilter

namespace GpuSharing.WeightSharing

/-- What `reduce_tensor` serialises: the exporting process and one of its allocations. -/
structure IpcHandle (P : Type) where
  primary : P
  memory : Nat
  deriving DecidableEq, Repr

/-- A tensor that points into the memory of a primary. -/
structure IpcTensor (P : Type) where
  primary : P
  memory : Nat
  deviceIndex : Int
  deriving DecidableEq, Repr

/-- What the registry has of one parameter; the handles are keyed by GPU UUID. -/
structure WeightInfo (P : Type) where
  dtype : String
  shape : List Nat
  handles : List (String × IpcHandle P)
  deriving DecidableEq, Repr

/-- A registry as `export_weights` writes it: the handles are of the exporting process's own
tensors. -/
structure Registry (P : Type) where
  primary : P
  modelHash : String
  tpRank : Int
  tpSize : Int
  weights : List (String × WeightInfo P)
  own : ∀ e ∈ weights, ∀ h ∈ e.2.handles, h.2.primary = primary

/-- `_reconstruct_tensor`, as CUDA and the state of the primary let it go at this call; a tensor it
yields is the one that the handle is for. -/
structure IpcRebuild (P : Type) where
  rebuild : Int → String → IpcHandle P → Option (IpcTensor P)
  own : ∀ device name h t, rebuild device name h = some t → t.primary = h.primary

/-- The order in which Python iterates over a set of strings is left open. -/
structure SetOrder where
  order : List String → List String
  perm : ∀ names, (order names).Perm names.dedup

structure Parameter where
  dtype : String
  shape : List Nat
  memory : Nat
  deriving DecidableEq, Repr

/-- A loaded model: its path in the configuration, `named_parameters` and the types of its
modules. -/
structure Model where
  path : String
  parameters : List (String × Parameter)
  moduleTypes : List String
  deriving DecidableEq, Repr

namespace Model

def paramNames (model : Model) : List String := model.parameters.map (·.1)

def hasLora (model : Model) : Bool :=
  model.moduleTypes.any fun t => hasToken t ["LoRA"] || hasToken t.toLower ["lora"]

/-- `_compute_model_hash`; `sha256` yields the digest in hexadecimal. -/
def modelHash (sha256 : String → String) (model : Model) : String :=
  let dtype := match model.parameters with
    | [] => ""
    | (_, p) :: _ => "torch." ++ p.dtype
  let digest := sha256 (model.path ++ toString model.parameters.length ++ dtype)
  String.ofList (digest.toList.take 16)

def shareableParamNames (model : Model) (cfg : WeightSharingConfig) : List String :=
  filterShareableParamNames model.paramNames cfg

end Model

/-- A worker process with its manager: `tpRank` is the manager's, `localTpRank` and `localTpSize`
are what `_get_tp_rank` and `_get_tp_size` say. -/
structure Worker where
  config : WeightSharingConfig
  model : Model
  modelId : String
  tpRank : Int
  localTpRank : Int
  localTpSize : Int
  gpuUuid : String
  deviceIndex : Int

/-- The tensors in `_pre_opened`. -/
abbrev PreOpened (P : Type) := Dict String (IpcTensor P)

/-- Why `pre_open_handles` or `import_weights` raises. -/
inductive WeightSharingError
  | notSecondary
  | lora
  | primaryTimeout
  | registryUnreadable
  | modelHash (localHash remoteHash : String)
  | tpRank (localRank remoteRank : Int)
  | tpSize (localSize remoteSize : Int)
  | missing (names : List String)
  | noGpuUuid (deviceIndex : Int)
  | gpuUuid (name : String)
  | rebuild (name : String)
  | incomplete (imported expected : Nat)
  | dtype (dtype : String)
  deriving DecidableEq, Repr

/-- The pre-opened tensors after a call of `pre_open_handles`, how many it opened, and whether it
raised. -/
structure PreOpenOutcome (P : Type) where
  cache : PreOpened P
  opened : Nat
  error : Option WeightSharingError

/-- The pre-opened tensors after a call of `import_weights`, what it has put into the model so far,
in order, and whether it raised. -/
structure ImportOutcome (P : Type) where
  cache : PreOpened P
  installed : List (String × IpcTensor P)
  error : Option WeightSharingError

/-- `_dtype_from_string` and the element size of its result. -/
def elementSize : String → Option Nat
  | "bfloat16" => some 2
  | "float16" => some 2
  | "float32" => some 4
  | "float8_e4m3fn" => some 1
  | "float8_e5m2" => some 1
  | "int8" => some 1
  | "uint8" => some 1
  | _ => none

namespace Registry

variable {P : Type}

/-- `_find_gpu_uuid_from_registry` looks at no device. -/
def findGpuUuid (R : Registry P) : Option String :=
  R.weights.findSome? fun e => e.2.handles.head?.map (·.1)

/-- The entries of the given names, in the order of the names. -/
def entries (R : Registry P) (names : List String) : List (String × WeightInfo P) :=
  names.filterMap fun name => (R.weights.lookup name).map (name, ·)

end Registry

namespace Worker

variable {P : Type} (w : Worker) (order : SetOrder)

def cacheKey (name : String) : String :=
  w.modelId ++ ":" ++ toString w.tpRank ++ ":" ++ name

/-- The registry of `export_weights`, run by primary `p`; `none` where nothing is shareable. -/
def exportWeights (sha256 : String → String) (p : P) : Option (Registry P) :=
  let names := (w.model.shareableParamNames w.config).insertionSort (· ≤ ·)
  if names = [] then none
  else some {
    primary := p
    modelHash := w.model.modelHash sha256
    tpRank := w.localTpRank
    tpSize := w.localTpSize
    weights := names.filterMap fun name => (w.model.parameters.lookup name).map fun param =>
      (name, ⟨param.dtype, param.shape, [(w.gpuUuid, ⟨p, param.memory⟩)]⟩)
    own := by
      intro e he h hh
      obtain ⟨name, _, hname⟩ := List.mem_filterMap.mp he
      obtain ⟨param, _, rfl⟩ := Option.map_eq_some_iff.mp hname
      rw [List.mem_singleton.mp hh] }

/-- The loop of `pre_open_handles` over the shareable entries. -/
def preOpenLoop (rebuild : IpcRebuild P) (deviceIndex : Int) (gpuUuid : String) :
    List (String × WeightInfo P) → PreOpened P → Nat → PreOpenOutcome P
  | [], cache, opened => ⟨cache, opened, none⟩
  | (name, info) :: rest, cache, opened => match info.handles.lookup gpuUuid with
    | none => ⟨cache, opened, some (.gpuUuid name)⟩
    | some h => match rebuild.rebuild deviceIndex name h with
      | none => ⟨cache, opened, some (.rebuild name)⟩
      | some t => preOpenLoop rebuild deviceIndex gpuUuid rest
          (cache.setItem (w.cacheKey name) t) (opened + 1)

/-- `pre_open_handles`; `ready` is what `wait_for_primary` returns and `registry` the file that is
read after it. -/
def preOpenHandles (rebuild : IpcRebuild P) (deviceIndex : Int) (ready : Bool)
    (registry : Option (Registry P)) (cache : PreOpened P) : PreOpenOutcome P :=
  if w.config.mode ≠ .secondary then ⟨cache, 0, none⟩
  else if ready = false then ⟨cache, 0, some .primaryTimeout⟩
  else match registry with
    | none => ⟨cache, 0, some .registryUnreadable⟩
    | some R => match R.findGpuUuid with
      | none => ⟨cache, 0, some (.noGpuUuid deviceIndex)⟩
      | some gpuUuid =>
        let names := filterShareableParamNames (R.weights.map (·.1)) w.config
        w.preOpenLoop rebuild deviceIndex gpuUuid (R.entries (order.order names)) cache 0

/-- The loop of `import_weights`: a pre-opened tensor is taken first, whatever the entry says. -/
def importLoop (rebuild : IpcRebuild P) :
    List (String × WeightInfo P) → PreOpened P → List (String × IpcTensor P) → ImportOutcome P
  | [], cache, installed => ⟨cache, installed, none⟩
  | (name, info) :: rest, cache, installed =>
    if name ∉ w.model.paramNames then importLoop rebuild rest cache installed
    else match cache.pop (w.cacheKey name) with
      | some (t, cache) => importLoop rebuild rest cache (installed ++ [(name, t)])
      | none => match info.handles.lookup w.gpuUuid with
        | none => ⟨cache, installed, some (.gpuUuid name)⟩
        | some h => match rebuild.rebuild w.deviceIndex name h with
          | none => ⟨cache, installed, some (.rebuild name)⟩
          | some t => importLoop rebuild rest cache (installed ++ [(name, t)])

/-- The check and the size computation after the loop. -/
def finishImport (entries : List (String × WeightInfo P)) (o : ImportOutcome P) :
    ImportOutcome P :=
  if o.error.isSome then o
  else if o.installed.length ≠ entries.length then
    { o with error := some (.incomplete o.installed.length entries.length) }
  else match entries.find? fun e => (elementSize e.2.dtype).isNone with
    | some e => { o with error := some (.dtype e.2.dtype) }
    | none => o

/-- The parameters that the secondary's configuration shares. -/
def expectedNames : List String := order.order (w.model.shareableParamNames w.config)

/-- What is checked of a registry before the import. -/
def validate (sha256 : String → String) (R : Registry P) : Option WeightSharingError :=
  let localHash := w.model.modelHash sha256
  let missing := (w.expectedNames order).filter fun name => name ∉ R.weights.map (·.1)
  if localHash ≠ R.modelHash then some (.modelHash localHash R.modelHash)
  else if w.localTpRank ≠ R.tpRank then some (.tpRank w.localTpRank R.tpRank)
  else if w.localTpSize ≠ R.tpSize then some (.tpSize w.localTpSize R.tpSize)
  else if missing ≠ [] then some (.missing missing)
  else none

/-- `import_weights` up to the start of the watchdog. -/
def importWeights (sha256 : String → String) (rebuild : IpcRebuild P) (ready : Bool)
    (registry : Option (Registry P)) (cache : PreOpened P) : ImportOutcome P :=
  if w.config.mode ≠ .secondary then ⟨cache, [], some .notSecondary⟩
  else if w.model.hasLora then ⟨cache, [], some .lora⟩
  else if ready = false then ⟨cache, [], some .primaryTimeout⟩
  else match registry with
    | none => ⟨cache, [], some .registryUnreadable⟩
    | some R => match w.validate order sha256 R with
      | some e => ⟨cache, [], some e⟩
      | none =>
        let entries := R.entries (w.expectedNames order)
        finishImport entries (w.importLoop rebuild entries cache [])

end Worker

end GpuSharing.WeightSharing
