import GpuSharing.Lib.Numerals
import GpuSharing.WeightSharing.ImportSession

namespace GpuSharing.WeightSharing

structure TensorType where
  dtype : String
  shape : List Nat
  deriving DecidableEq, Repr

def Parameter.tensorType (param : Parameter) : TensorType := ⟨param.dtype, param.shape⟩

/-- A primary with the tensors in its memory; its parameters are some of them. -/
structure Primary (P : Type) where
  id : P
  worker : Worker
  tensorType : Nat → TensorType
  own : ∀ e ∈ worker.model.parameters, tensorType e.2.memory = e.2.tensorType

/-- A rebuilt tensor is the one that was serialised. -/
structure TensorRebuild (P : Type) extends IpcRebuild P where
  memory : ∀ device name h t, rebuild device name h = some t → t.memory = h.memory

/-- The data of a parameter of the secondary. -/
inductive ParamData (P : Type)
  | loaded (param : Parameter)
  | placeholder (dtype : String)
  | ipc (tensor : IpcTensor P)
  deriving DecidableEq, Repr

/-- How the two calls of a secondary that starts went. -/
structure LoadCalls (P : Type) where
  preOpenDevice : Int
  preOpenReady : Bool
  preOpenRebuild : TensorRebuild P
  importReady : Bool
  importRebuild : TensorRebuild P

namespace ParamData

variable {P : Type}

/-- `_shrink_shareable_params` on one parameter; the other ones go to the GPU as they are. -/
def shrinkOne (shareableNames : List String) (e : String × Parameter) : String × ParamData P :=
  if e.1 ∈ shareableNames then (e.1, .placeholder e.2.dtype) else (e.1, .loaded e.2)

def shrinkShareableParams (model : Model) (shareableNames : List String) :
    List (String × ParamData P) :=
  model.parameters.map (shrinkOne shareableNames)

/-- `param.data = ipc_tensor`, where `params_dict` has the parameter. -/
def setData (d : String × ParamData P) (e : String × IpcTensor P) : String × ParamData P :=
  if d.1 = e.1 then (d.1, .ipc e.2) else d

/-- The assignments of an import, in order. -/
def install (installed : List (String × IpcTensor P)) (params : List (String × ParamData P)) :
    List (String × ParamData P) :=
  installed.foldl (fun params e => params.map (setData · e)) params

end ParamData

namespace Worker

variable {P : Type} (w : Worker) (order : SetOrder) (sha256 : String → String)

/-- `_get_phase2_shareable_names`. -/
def phase2ShareableNames : List String :=
  if w.config.mode ≠ .secondary then [] else w.model.shareableParamNames w.config

/-- What a secondary that has just started does until `import_weights` has returned, over the
registry of its rank. -/
def loadSecondary (registry : Option (Registry P)) (calls : LoadCalls P) :
    Except WeightSharingError (List (String × ParamData P)) :=
  let opened := w.preOpenHandles order calls.preOpenRebuild.toIpcRebuild calls.preOpenDevice
    calls.preOpenReady registry ∅
  match opened.error with
  | some e => .error e
  | none =>
    let params := ParamData.shrinkShareableParams w.model w.phase2ShareableNames
    let o := w.importWeights order sha256 calls.importRebuild.toIpcRebuild calls.importReady
      registry opened.cache
    match o.error with
    | some e => .error e
    | none => .ok (ParamData.install o.installed params)

/-- The parameters that were shrunk have the primary's tensors, of the type that they had before,
the other ones are as they were, and no placeholder is left. -/
def Replaces (A : Primary P) (params : List (String × ParamData P)) : Prop :=
  List.Forall₂ (fun e d => d.1 = e.1 ∧
    if e.1 ∈ w.phase2ShareableNames then
      ∃ t, d.2 = .ipc t ∧ t.primary = A.id ∧ A.tensorType t.memory = e.2.tensorType
    else d.2 = .loaded e.2) w.model.parameters params ∧
  ∀ d ∈ params, ∀ dtype, d.2 ≠ .placeholder dtype

/-- The primary has the parameters that the secondary shares, with the same types. -/
def SameTypes (A : Primary P) : Prop :=
  ∀ e ∈ w.model.parameters, isShareableParameter e.1 w.config = true →
    (A.worker.model.parameters.lookup e.1).map Parameter.tensorType = some e.2.tensorType

instance (A : Primary P) : Decidable (w.SameTypes A) :=
  inferInstanceAs (Decidable (∀ e ∈ w.model.parameters, isShareableParameter e.1 w.config = true →
    (A.worker.model.parameters.lookup e.1).map Parameter.tensorType = some e.2.tensorType))

end Worker

namespace ParamData

variable {P : Type} {installed : List (String × IpcTensor P)} {d : String × ParamData P}

@[simp] theorem setData_name (d : String × ParamData P) (e : String × IpcTensor P) :
    (setData d e).1 = d.1 := by
  unfold setData
  split_ifs <;> rfl

@[simp] theorem shrinkOne_name (shareableNames : List String) (e : String × Parameter) :
    (shrinkOne (P := P) shareableNames e).1 = e.1 := by
  unfold shrinkOne
  split_ifs <;> rfl

theorem setData_self {e : String × IpcTensor P} (h : d.1 = e.1) :
    setData d e = (d.1, .ipc e.2) := if_pos h

theorem setData_ne {e : String × IpcTensor P} (h : d.1 ≠ e.1) : setData d e = d := if_neg h

theorem install_eq_map (params : List (String × ParamData P)) :
    install installed params = params.map fun d => installed.foldl setData d := by
  induction installed generalizing params with
  | nil => simp [install]
  | cons e installed ih =>
    change install installed (params.map (setData · e)) = _
    rw [ih, List.map_map]
    rfl

@[simp] theorem foldl_setData_name (d : String × ParamData P) :
    (installed.foldl setData d).1 = d.1 := by
  induction installed generalizing d with
  | nil => rfl
  | cons e installed ih => rw [List.foldl_cons, ih, setData_name]

theorem foldl_setData_of_notMem (h : d.1 ∉ installed.map (·.1)) :
    installed.foldl setData d = d := by
  induction installed with
  | nil => rfl
  | cons e installed ih =>
    rw [List.map_cons, List.mem_cons, not_or] at h
    rw [List.foldl_cons, setData_ne h.1]
    exact ih h.2

/-- The last assignment to a parameter decides. -/
theorem foldl_setData_of_mem (h : d.1 ∈ installed.map (·.1)) :
    ∃ t, (d.1, t) ∈ installed ∧ (installed.foldl setData d).2 = .ipc t := by
  induction installed generalizing d with
  | nil => cases h
  | cons e installed ih =>
    rw [List.foldl_cons]
    by_cases hlater : d.1 ∈ installed.map (·.1)
    · obtain ⟨t, ht, heq⟩ := ih (d := setData d e) (by rwa [setData_name])
      rw [setData_name] at ht
      exact ⟨t, List.mem_cons_of_mem _ ht, heq⟩
    · have hname : d.1 = e.1 := by
        rw [List.map_cons, List.mem_cons] at h
        exact h.resolve_right hlater
      refine ⟨e.2, ?_, ?_⟩
      · rw [hname]
        exact List.mem_cons_self
      · rw [foldl_setData_of_notMem (by rwa [setData_name]), setData_self hname]

end ParamData

namespace Primary

variable {P : Type} (A : Primary P)

/-- The tensor is the primary's parameter of that name. -/
def Backs (name : String) (t : IpcTensor P) : Prop :=
  t.primary = A.id ∧ ∃ q, A.worker.model.parameters.lookup name = some q ∧ t.memory = q.memory

variable {A}

theorem Backs.tensorType {name : String} {t : IpcTensor P} (h : A.Backs name t) :
    (A.worker.model.parameters.lookup name).map Parameter.tensorType =
      some (A.tensorType t.memory) := by
  obtain ⟨_, q, hq, hmemory⟩ := h
  have hown := A.own _ (Worker.mem_of_lookup hq)
  rw [hq, hmemory, hown]
  rfl

end Primary

namespace Worker

variable {P : Type} {w : Worker} {order : SetOrder} {sha256 : String → String} {A : Primary P}
  {R : Registry P}

/-- Every entry of a primary's registry is one of its parameters. -/
theorem exportWeights_mem (hR : A.worker.exportWeights sha256 A.id = some R)
    {e : String × WeightInfo P} (he : e ∈ R.weights) :
    ∃ q, A.worker.model.parameters.lookup e.1 = some q ∧
      e.2.handles = [(A.worker.gpuUuid, ⟨A.id, q.memory⟩)] := by
  unfold exportWeights at hR
  dsimp only at hR
  split_ifs at hR
  cases hR
  obtain ⟨name, _, hname⟩ := List.mem_filterMap.mp he
  obtain ⟨q, hq, rfl⟩ := Option.map_eq_some_iff.mp hname
  exact ⟨q, hq, rfl⟩

/-- A handle of the primary's registry opens to the primary's parameter. -/
theorem backs_of_rebuild (hR : A.worker.exportWeights sha256 A.id = some R)
    {names : List String} {e : String × WeightInfo P} (he : e ∈ R.entries names)
    {uuid : String} {h : IpcHandle P} (hh : e.2.handles.lookup uuid = some h)
    {rebuild : TensorRebuild P} {device : Int} {t : IpcTensor P}
    (ht : rebuild.rebuild device e.1 h = some t) : A.Backs e.1 t := by
  obtain ⟨name, _, hname⟩ := List.mem_filterMap.mp he
  obtain ⟨info, hinfo, rfl⟩ := Option.map_eq_some_iff.mp hname
  obtain ⟨q, hq, hhandles⟩ := exportWeights_mem hR (mem_of_lookup hinfo)
  have hmem := mem_of_lookup hh
  rw [hhandles, List.mem_singleton] at hmem
  cases hmem
  exact ⟨rebuild.own _ _ _ _ ht, q, hq, rebuild.memory _ _ _ _ ht⟩

/-- What a secondary that has just started pre-opens is the primary's. -/
theorem preOpenHandles_backs (hR : A.worker.exportWeights sha256 A.id = some R)
    {rebuild : TensorRebuild P} {device : Int} {ready : Bool} {name : String} {t : IpcTensor P}
    (ht : (w.preOpenHandles order rebuild.toIpcRebuild device ready (some R)
      ∅).cache.lookup (w.cacheKey name) = some t) : A.Backs name t := by
  unfold preOpenHandles at ht
  split_ifs at ht
  · simp at ht
  · simp at ht
  · dsimp only at ht
    split at ht
    · simp at ht
    · refine preOpenLoop_forall (Q := fun key t => ∀ name, key = w.cacheKey name → A.Backs name t)
        ?_ (by simp) _ _ ht name rfl
      intro e he h u hh hu name hkey
      rw [← cacheKey_injective hkey]
      exact backs_of_rebuild hR he hh hu

/-- An import loop that does not raise has put one tensor into each of its parameters. -/
theorem importLoop_names {rebuild : IpcRebuild P} {entries : List (String × WeightInfo P)}
    (hparams : ∀ e ∈ entries, e.1 ∈ w.model.paramNames) {cache : PreOpened P}
    {installed : List (String × IpcTensor P)}
    (hreturns : (w.importLoop rebuild entries cache installed).error = none) :
    (w.importLoop rebuild entries cache installed).installed.map (·.1) =
      installed.map (·.1) ++ entries.map (·.1) := by
  induction entries generalizing cache installed with
  | nil => simp [importLoop]
  | cons entry entries ih =>
    obtain ⟨name, info⟩ := entry
    obtain ⟨hhead, hrest⟩ := List.forall_mem_cons.mp hparams
    rcases w.importLoop_cons name info entries cache installed with
      ⟨hno, _⟩ | ⟨t, _, heq⟩ | ⟨_, _, t, _, _, heq⟩ | ⟨e, heq⟩
    · exact absurd hhead hno
    · rw [heq] at hreturns ⊢
      rw [ih hrest hreturns]
      simp
    · rw [heq] at hreturns ⊢
      rw [ih hrest hreturns]
      simp
    · rw [heq] at hreturns
      cases hreturns

theorem mem_expectedNames {name : String} : name ∈ w.expectedNames order ↔
    name ∈ w.model.paramNames ∧ isShareableParameter name w.config = true := by
  rw [expectedNames, (order.perm _).mem_iff, List.mem_dedup]
  exact List.mem_filter

/-- A registry that is valid for the secondary has an entry for each of its shared parameters. -/
theorem entries_expected (hvalid : w.validate order sha256 R = none) :
    (R.entries (w.expectedNames order)).map (·.1) = w.expectedNames order := by
  rw [entries_names, List.filter_eq_self]
  exact fun name hname => lookup_of_expected hvalid hname

theorem importWeights_secondary {rebuild : IpcRebuild P} {ready : Bool}
    {registry : Option (Registry P)} {cache : PreOpened P}
    (h : (w.importWeights order sha256 rebuild ready registry cache).error = none) :
    w.config.mode = .secondary := by
  by_contra hmode
  unfold importWeights at h
  rw [if_pos hmode] at h
  cases h

/-- An import of the primary's registry that returns has put one of the primary's tensors into each
shared parameter. -/
theorem importWeights_backs {rebuild : TensorRebuild P} {ready : Bool} {cache : PreOpened P}
    (hreturns : (w.importWeights order sha256 rebuild.toIpcRebuild ready
      (A.worker.exportWeights sha256 A.id) cache).error = none)
    (hcache : ∀ R, A.worker.exportWeights sha256 A.id = some R → ∀ name t,
      cache.lookup (w.cacheKey name) = some t → A.Backs name t) :
    let o := w.importWeights order sha256 rebuild.toIpcRebuild ready
      (A.worker.exportWeights sha256 A.id) cache
    o.installed.map (·.1) = w.expectedNames order ∧ ∀ e ∈ o.installed, A.Backs e.1 e.2 := by
  rcases w.importWeights_cases with ⟨herr, _⟩ | ⟨R, hR, hvalid, heq⟩
  · rw [hreturns] at herr
    cases herr
  rw [heq] at hreturns
  dsimp only
  rw [heq, finishImport_installed]
  have hnames := entries_expected hvalid
  constructor
  · rw [importLoop_names ?_ (finishImport_returns hreturns), hnames]
    · rfl
    · intro e he
      have hname := List.mem_map_of_mem (f := Prod.fst) he
      exact paramName_of_expected (hnames ▸ hname)
  · refine importLoop_forall (Q := A.Backs) ?_ ?_ (by simp)
    · intro e he h t hh ht
      exact backs_of_rebuild hR he hh ht
    · exact fun e _ t ht => hcache R hR e.1 t ht

variable {calls : LoadCalls P} {params : List (String × ParamData P)}

/-- The parameters of a secondary that has loaded its model: shrunk, then assigned to. -/
theorem loadSecondary_ok
    (h : w.loadSecondary order sha256 (A.worker.exportWeights sha256 A.id) calls = .ok params) :
    w.config.mode = .secondary ∧ ∃ installed : List (String × IpcTensor P),
      installed.map (·.1) = w.expectedNames order ∧ (∀ e ∈ installed, A.Backs e.1 e.2) ∧
      params = w.model.parameters.map fun e =>
        installed.foldl ParamData.setData (ParamData.shrinkOne w.phase2ShareableNames e) := by
  unfold loadSecondary at h
  dsimp only at h
  split at h
  case h_1 => cases h
  case h_2 =>
    split at h
    case h_1 => cases h
    case h_2 hreturns =>
      cases h
      obtain ⟨hnames, hbacks⟩ := importWeights_backs hreturns fun R hR name t ht => by
        rw [hR] at ht
        exact preOpenHandles_backs hR ht
      refine ⟨importWeights_secondary hreturns, _, hnames, hbacks, ?_⟩
      rw [ParamData.install_eq_map, ParamData.shrinkShareableParams, List.map_map]
      rfl

/-- The shrunk parameters of a secondary are the shareable ones. -/
theorem mem_phase2ShareableNames (hmode : w.config.mode = .secondary) {e : String × Parameter}
    (he : e ∈ w.model.parameters) :
    e.1 ∈ w.phase2ShareableNames ↔ isShareableParameter e.1 w.config = true := by
  have hname : e.1 ∈ w.model.paramNames := List.mem_map_of_mem he
  unfold phase2ShareableNames
  rw [if_neg (not_not.mpr hmode), Model.shareableParamNames, filterShareableParamNames,
    List.mem_filter, and_iff_right hname]

/-- Each parameter that was shrunk is one of the primary's, and each other one its own. -/
theorem loadSecondary_data
    (h : w.loadSecondary order sha256 (A.worker.exportWeights sha256 A.id) calls = .ok params) :
    ∃ data : String × Parameter → ParamData P,
      params = w.model.parameters.map (fun e => (e.1, data e)) ∧ ∀ e ∈ w.model.parameters,
        if isShareableParameter e.1 w.config then ∃ t, A.Backs e.1 t ∧ data e = .ipc t
        else data e = .loaded e.2 := by
  obtain ⟨hmode, installed, hnames, hbacks, rfl⟩ := loadSecondary_ok h
  let after e := installed.foldl ParamData.setData
    (ParamData.shrinkOne w.phase2ShareableNames e)
  refine ⟨fun e => (after e).2, ?_, fun e he => ?_⟩
  · refine List.map_congr_left fun e _ => Prod.ext ?_ rfl
    rw [ParamData.foldl_setData_name, ParamData.shrinkOne_name]
  have hname : e.1 ∈ w.model.paramNames := List.mem_map_of_mem he
  have hinstalled : e.1 ∈ installed.map (·.1) ↔ isShareableParameter e.1 w.config = true := by
    rw [hnames, mem_expectedNames, and_iff_right hname]
  have hshrunk := mem_phase2ShareableNames hmode he
  split_ifs with hshared
  · dsimp only [after]
    rw [ParamData.shrinkOne, if_pos (hshrunk.mpr hshared)]
    obtain ⟨t, ht, heq⟩ := ParamData.foldl_setData_of_mem
      (d := (e.1, .placeholder e.2.dtype)) (hinstalled.mpr hshared)
    exact ⟨t, hbacks _ ht, heq⟩
  · dsimp only [after]
    rw [ParamData.shrinkOne, if_neg (mt hshrunk.mp hshared),
      ParamData.foldl_setData_of_notMem (mt hinstalled.mp hshared)]

/-- A secondary that has loaded its model has every placeholder replaced by a tensor of the right
type when, and only when, the primary's parameters have the types of its own. -/
theorem replaces_iff
    (h : w.loadSecondary order sha256 (A.worker.exportWeights sha256 A.id) calls = .ok params) :
    w.Replaces A params ↔ w.SameTypes A := by
  have hmode := (loadSecondary_ok h).1
  obtain ⟨data, rfl, hdata⟩ := loadSecondary_data h
  unfold Replaces
  rw [List.forall₂_map_right_iff, List.forall₂_same]
  constructor
  · rintro ⟨htypes, _⟩ e he hshared
    obtain ⟨_, htype⟩ := htypes e he
    have hbacked := hdata e he
    rw [if_pos ((mem_phase2ShareableNames hmode he).mpr hshared)] at htype
    rw [if_pos hshared] at hbacked
    obtain ⟨t, ht, _, htype⟩ := htype
    obtain ⟨u, hbacks, hu⟩ := hbacked
    cases hu.symm.trans ht
    rw [hbacks.tensorType, htype]
  · intro hsame
    constructor
    · intro e he
      refine ⟨rfl, ?_⟩
      have hbacked := hdata e he
      split_ifs with hmem
      · have hshared := (mem_phase2ShareableNames hmode he).mp hmem
        rw [if_pos hshared] at hbacked
        obtain ⟨t, hbacks, ht⟩ := hbacked
        have htype := hsame e he hshared
        rw [hbacks.tensorType] at htype
        exact ⟨t, ht, hbacks.1, Option.some_inj.mp htype⟩
      · rwa [if_neg (mt (mem_phase2ShareableNames hmode he).mpr hmem)] at hbacked
    · intro d hd dtype hplaceholder
      obtain ⟨e, he, rfl⟩ := List.mem_map.mp hd
      have hbacked := hdata e he
      split_ifs at hbacked
      · obtain ⟨t, _, ht⟩ := hbacked
        cases ht.symm.trans hplaceholder
      · cases hbacked.symm.trans hplaceholder

/-- Two models with the same path, number of parameters and first data type, of which one has its
`max_position_embeddings` overridden. -/
def overriddenModel (positions : Nat) : Model where
  path := "m"
  parameters := [("embeddings.word_embeddings.weight", ⟨"float16", [5, 4], 3⟩),
    ("embeddings.position_embeddings.weight", ⟨"float16", [positions, 4], 4⟩)]
  moduleTypes := ["Linear"]

def overriddenWorker (mode : WeightSharingMode) (positions : Nat) : Worker where
  config := ⟨mode, true, true, true, true, true, true⟩
  model := overriddenModel positions
  modelId := "m"
  tpRank := 0
  localTpRank := 0
  localTpSize := 1
  gpuUuid := "GPU-0"
  deviceIndex := 0

attribute [local instance] Numerals.neZero_two

def overriddenPrimary : Primary (Fin 2) where
  id := 0
  worker := overriddenWorker .primary 2
  tensorType memory := ⟨"float16", if memory = 3 then [5, 4] else [2, 4]⟩
  own := by decide

/-- SHA-256 of the one text that is hashed here, `m2torch.float16`. -/
def overriddenDigest (_ : String) : String :=
  "fb309ff6fd12b7c916b46c8ec35c764b540184c62264610648577bd5a94b4bcc"

def openTensors : TensorRebuild (Fin 2) where
  rebuild device _ h := some ⟨h.primary, h.memory, device⟩
  own := ImportSession.openAll.own
  memory := by
    intro device name h t ht
    cases ht
    rfl

def openingCalls : LoadCalls (Fin 2) := ⟨0, true, openTensors, true, openTensors⟩

/-- What the secondary ends with, whatever shapes its own parameters had. -/
def importedParams : List (String × ParamData (Fin 2)) :=
  [("embeddings.word_embeddings.weight", .ipc ⟨0, 3, 0⟩),
    ("embeddings.position_embeddings.weight", .ipc ⟨0, 4, 0⟩)]

theorem replaces_samePositions :
    (overriddenWorker .secondary 2).Replaces overriddenPrimary importedParams := by
  have hload : (overriddenWorker .secondary 2).loadSecondary ImportSession.insertionOrder
      overriddenDigest (overriddenPrimary.worker.exportWeights overriddenDigest
        overriddenPrimary.id) openingCalls = .ok importedParams := by decide +kernel
  exact (replaces_iff hload).mpr (by decide +kernel)

/-- The import of a secondary with three positions returns and leaves it the tensor with two. -/
theorem replaces_otherPositions :
    (overriddenWorker .secondary 3).loadSecondary ImportSession.insertionOrder overriddenDigest
        (overriddenPrimary.worker.exportWeights overriddenDigest 0) openingCalls =
      .ok importedParams ∧
    ¬(overriddenWorker .secondary 3).Replaces overriddenPrimary importedParams := by
  refine ⟨by decide +kernel, fun ⟨htypes, _⟩ => ?_⟩
  obtain ⟨_, hsecond⟩ := htypes.get (i := 1) (by decide) (by decide)
  rw [if_pos (by decide +kernel)] at hsecond
  obtain ⟨t, ht, _, htype⟩ := hsecond
  cases ht
  revert htype
  decide

end Worker

end GpuSharing.WeightSharing
