import GpuSharing.Sardeenz.PresetSync

namespace GpuSharing.Sardeenz.PresetStore

/-- A JavaScript value, as far as `JSON.stringify` tells them apart. -/
inductive JsValue
  | undefined
  | null
  | bool (b : Bool)
  | number (n : Int)
  | string (s : String)
  | array (items : List JsValue)
  | object (fields : List (String × JsValue))
  | promise (resolved : JsValue)

inductive Json
  | null
  | bool (b : Bool)
  | number (n : Int)
  | string (s : String)
  | array (items : List Json)
  | object (fields : List (String × Json))

namespace JsValue

mutual

/-- `JSON.stringify`. A promise has no enumerable property of its own. -/
def stringify : JsValue → Option Json
  | .undefined => none
  | .null => some .null
  | .bool b => some (.bool b)
  | .number n => some (.number n)
  | .string s => some (.string s)
  | .array items => some (.array (stringifyItems items))
  | .object fields => some (.object (stringifyFields fields))
  | .promise _ => some (.object [])

def stringifyItems : List JsValue → List Json
  | [] => []
  | x :: items => (stringify x).getD .null :: stringifyItems items

/-- A property whose value is undefined is left out. -/
def stringifyFields : List (String × JsValue) → List (String × Json)
  | [] => []
  | (k, x) :: fields => match stringify x with
    | some j => (k, j) :: stringifyFields fields
    | none => stringifyFields fields

end

def truthy : JsValue → Bool
  | .undefined | .null => false
  | .bool b => b
  | .number n => n ≠ 0
  | .string s => s ≠ ""
  | .array _ | .object _ | .promise _ => true

def ofOption {α : Type} (f : α → JsValue) : Option α → JsValue
  | some a => f a
  | none => .undefined

def strings (l : List String) : JsValue := .array (l.map .string)

def numbers (l : List Nat) : JsValue := .array (l.map fun n : Nat => .number n)

end JsValue

def ModelConfigurationEntry.value (e : ModelConfigurationEntry) : JsValue := .object
  [("id", .string e.id), ("configId", .string e.configId), ("modelPath", .string e.modelPath),
    ("servedModelName", .ofOption .string e.servedModelName), ("maxTokens", .number e.maxTokens),
    ("sourceType", .string e.sourceType.text), ("extraArgs", .ofOption .strings e.extraArgs),
    ("gpuIds", .ofOption .numbers e.gpuIds), ("tensorParallelSize", .number e.tensorParallelSize),
    ("loadOrder", .number e.loadOrder), ("sleepModeEnabled", .ofOption .bool e.sleepModeEnabled),
    ("gpuTypeConstraint", .ofOption .string e.gpuTypeConstraint),
    ("minVramMb", .ofOption .number e.minVramMb), ("podId", .ofOption .string e.podId)]

def SavedModelConfiguration.value (p : SavedModelConfiguration) : JsValue := .object
  [("id", .string p.id), ("name", .string p.name),
    ("description", .ofOption .string p.description), ("modelCount", .number p.modelCount),
    ("placementStrategy", .ofOption (fun s => .string s.text) p.placementStrategy),
    ("minKvCacheMb", .ofOption .number p.minKvCacheMb), ("version", .ofOption .number p.version),
    ("createdAt", .string p.createdAt), ("updatedAt", .ofOption .string p.updatedAt),
    ("entries", .ofOption (fun es => .array (es.map (·.value))) p.entries)]

/-- What calling the `async` method `getConfiguration` gives. -/
def getConfigurationPromise (store : ModelConfigurationStore) (id : String) : JsValue :=
  .promise <| match getConfiguration store id with
    | some preset => preset.value
    | none => .null

/-- The requests of `replicateToAllPeers`: the peers it goes to and the body. -/
def replicateToAllPeers (store : ModelConfigurationStore) (localPodId : String)
    (healthyPeers : List String) (presetId : String) : List (String × Json) :=
  let preset := getConfigurationPromise store presetId
  if !preset.truthy then []
  else match preset.stringify with
    | some body => (healthyPeers.filter (· ≠ localPodId)).map fun peer => (peer, body)
    | none => []

namespace Json

def asString : Json → Option String
  | .string s => some s
  | _ => none

def asNumber : Json → Option Int
  | .number n => some n
  | _ => none

def asNat : Json → Option Nat
  | .number n => if 0 ≤ n then some n.toNat else none
  | _ => none

def asBool : Json → Option Bool
  | .bool b => some b
  | _ => none

def asArray {α : Type} (f : Json → Option α) : Json → Option (List α)
  | .array items => items.mapM f
  | _ => none

def asSourceType : Json → Option ModelSourceType
  | .string "huggingface" => some .huggingface
  | .string "local" => some .localPath
  | _ => none

def asStrategy : Json → Option PodScheduler.PlacementStrategy
  | .string "maximize-models" => some .maximizeModels
  | .string "balanced" => some .balanced
  | _ => none

def fields : Json → List (String × Json)
  | .object fields => fields
  | _ => []

def required {α : Type} (j : Json) (k : String) (f : Json → Option α) : Option α :=
  (j.fields.lookup k).bind f

/-- A property that may be missing or null. -/
def optional {α : Type} (j : Json) (k : String) (f : Json → Option α) : Option (Option α) :=
  match j.fields.lookup k with
  | none | some .null => some none
  | some x => (f x).map some

end Json

/-- The properties of an entry that `syncPreset` puts into a row. -/
def ModelConfigurationEntry.ofJson (j : Json) : Option ModelConfigurationEntry := do
  return {
    id := ← j.required "id" Json.asString
    configId := ← j.required "configId" Json.asString
    modelPath := ← j.required "modelPath" Json.asString
    servedModelName := ← j.optional "servedModelName" Json.asString
    maxTokens := ← j.required "maxTokens" Json.asNumber
    sourceType := ← j.required "sourceType" Json.asSourceType
    extraArgs := ← j.optional "extraArgs" (Json.asArray Json.asString)
    gpuIds := ← j.optional "gpuIds" (Json.asArray Json.asNat)
    tensorParallelSize := ← j.required "tensorParallelSize" Json.asNumber
    loadOrder := ← j.required "loadOrder" Json.asNumber
    sleepModeEnabled := ← j.optional "sleepModeEnabled" Json.asBool
    gpuTypeConstraint := ← j.optional "gpuTypeConstraint" Json.asString
    minVramMb := ← j.optional "minVramMb" Json.asNumber
    podId := ← j.optional "podId" Json.asString }

def SavedModelConfiguration.ofJson (j : Json) : Option SavedModelConfiguration := do
  return {
    id := ← j.required "id" Json.asString
    name := ← j.required "name" Json.asString
    description := ← j.optional "description" Json.asString
    modelCount := ← j.required "modelCount" Json.asNumber
    placementStrategy := ← j.optional "placementStrategy" Json.asStrategy
    minKvCacheMb := ← j.optional "minKvCacheMb" Json.asNumber
    version := ← j.optional "version" Json.asNumber
    createdAt := ← j.required "createdAt" Json.asString
    updatedAt := ← j.optional "updatedAt" Json.asString
    entries := ← j.optional "entries" (Json.asArray ModelConfigurationEntry.ofJson) }

inductive SyncResponse
  | ok (synced conflicts : Nat)
  | badRequest
  | serverError
  deriving DecidableEq, Repr

/-- One call of `syncPreset` with no other under way. -/
def syncPreset (uuid : String → Nat → String) (preset : SavedModelConfiguration) (now : String)
    (store : ModelConfigurationStore) : SyncResult × ModelConfigurationStore :=
  syncTransaction uuid ((store.lookup preset.id).map (·.content.version)) preset now store

/-- The loop of the route over the presets of the body. -/
def syncPresets (uuid : String → Nat → String) (now : String) :
    List Json → Nat → Nat → ModelConfigurationStore → SyncResponse × ModelConfigurationStore
  | [], synced, conflicts, store => (.ok synced conflicts, store)
  | j :: presets, synced, conflicts, store => match SavedModelConfiguration.ofJson j with
    | none => (.serverError, store)
    | some preset => match syncPreset uuid preset now store with
      | (.accepted, store) => syncPresets uuid now presets (synced + 1) conflicts store
      | (.rejected, store) => syncPresets uuid now presets synced (conflicts + 1) store
      | (.failed, store) => (.serverError, store)

/-- `/internal/presets/sync`. The schema asks for an array `presets`; the validator makes one of a
single value that is no object. -/
def presetsSync (uuid : String → Nat → String) (now : String) (store : ModelConfigurationStore)
    (body : Json) : SyncResponse × ModelConfigurationStore :=
  match body.fields.lookup "presets" with
  | none | some (.object _) => (.badRequest, store)
  | some (.array presets) => syncPresets uuid now presets 0 0 store
  | some x => syncPresets uuid now [x] 0 0 store

/-- The body is accepted, and the receiver then stores the preset as the sender does. -/
def Delivers (uuid : String → Nat → String) (now : String) (sender receiver : ModelConfigurationStore)
    (presetId : String) (body : Json) : Prop :=
  ∃ synced conflicts receiver', presetsSync uuid now receiver body = (.ok synced conflicts, receiver') ∧
    ∃ p q, getConfiguration sender presetId = some p ∧ getConfiguration receiver' presetId = some q ∧
      q.name = p.name ∧ q.version = p.version ∧ q.placementStrategy = p.placementStrategy ∧
      q.entries = p.entries

theorem stringify_getConfigurationPromise (store : ModelConfigurationStore) (id : String) :
    (getConfigurationPromise store id).stringify = some (.object []) := by
  rw [getConfigurationPromise, JsValue.stringify]

/-- No request that replicates a preset delivers it. -/
theorem replication_never_delivers (uuid : String → Nat → String) (now : String)
    (sender receiver : ModelConfigurationStore) (localPodId : String) (healthyPeers : List String)
    (presetId : String) :
    ∀ x ∈ replicateToAllPeers sender localPodId healthyPeers presetId,
      ¬ Delivers uuid now sender receiver presetId x.2 := by
  intro x hx
  have hbody : x.2 = .object [] := by
    simp only [replicateToAllPeers, stringify_getConfigurationPromise] at hx
    split_ifs at hx
    · cases hx
    · obtain ⟨peer, -, rfl⟩ := List.mem_map.mp hx
      rfl
  rintro ⟨synced, conflicts, receiver', hroute, -⟩
  rw [hbody] at hroute
  cases hroute

def sender : ModelConfigurationStore := AList.singleton "p1" PresetCluster.firstVersion

theorem requests_sender :
    replicateToAllPeers sender "a" ["a", "b"] "p1" = [("b", .object [])] := by
  rw [replicateToAllPeers, stringify_getConfigurationPromise]
  simp [getConfigurationPromise, JsValue.truthy]

theorem promise_sent_and_refused :
    replicateToAllPeers sender "a" ["a", "b"] "p1" = [("b", .object [])] ∧
      ¬ Delivers PresetCluster.uuids "2025-01-02T00:00:00.000Z" sender ∅ "p1" (.object []) := by
  refine ⟨requests_sender, ?_⟩
  rintro ⟨synced, conflicts, receiver', hroute, -⟩
  cases hroute

theorem replication_never_delivers_b :
    ¬ Delivers PresetCluster.uuids "2025-01-02T00:00:00.000Z" sender ∅ "p1" (.object []) := by
  have hx : (("b", .object []) : String × Json) ∈
      replicateToAllPeers sender "a" ["a", "b"] "p1" := by
    rw [requests_sender]
    exact List.mem_cons_self
  exact replication_never_delivers PresetCluster.uuids "2025-01-02T00:00:00.000Z" sender ∅ "a"
    ["a", "b"] "p1" ("b", .object []) hx

section RoundTrip

open JsValue

variable {fields : List (String × JsValue)} {k : String}

theorem lookup_stringifyFields (hn : (fields.map (·.1)).Nodup) :
    (stringifyFields fields).lookup k = (fields.lookup k).bind stringify := by
  induction fields with
  | nil => rfl
  | cons field fields ih =>
    obtain ⟨k', x⟩ := field
    obtain ⟨hnot, hrest⟩ := List.nodup_cons.mp hn
    rw [stringifyFields]
    by_cases hk : k = k'
    · subst hk
      cases hx : stringify x with
      | some j => simp [hx]
      | none =>
        have hnone : fields.lookup k = none := by
          rw [List.lookup_eq_none_iff]
          intro y hy
          rw [bne_iff_ne]
          intro heq
          exact hnot (List.mem_map.mpr ⟨y, hy, heq.symm⟩)
        simp only [ih hrest, hnone, Option.bind_none, List.lookup_cons_self, Option.bind_some, hx]
    · have hne : (k == k') = false := by simpa using hk
      cases hx : stringify x with
      | some j => simp [List.lookup_cons, hne, ih hrest]
      | none => simp [List.lookup_cons, hne, ih hrest]

/-- A property as `JSON.stringify` writes it is read back. -/
theorem required_stringify {α : Type} {f : Json → Option α} {x : JsValue} {a : α}
    (hn : (fields.map (·.1)).Nodup) (hx : fields.lookup k = some x)
    (hf : (stringify x).bind f = some a) :
    (Json.object (stringifyFields fields)).required k f = some a := by
  rw [Json.required, Json.fields, lookup_stringifyFields hn, hx]
  exact hf

theorem optional_stringify {α : Type} {f : Json → Option α} {g : α → JsValue} {o : Option α}
    (hn : (fields.map (·.1)).Nodup) (hx : fields.lookup k = some (ofOption g o))
    (hf : ∀ a, (stringify (g a)).bind f = some a)
    (hnull : ∀ a, stringify (g a) ≠ some .null) :
    (Json.object (stringifyFields fields)).optional k f = some o := by
  rw [Json.optional, Json.fields, lookup_stringifyFields hn, hx, Option.bind_some]
  cases o with
  | none => rfl
  | some a =>
    have hfa := hf a
    rw [ofOption]
    cases hg : stringify (g a) with
    | none =>
      rw [hg] at hfa
      cases hfa
    | some j =>
      rw [hg, Option.bind_some] at hfa
      split
      case h_1 heq => cases heq
      case h_2 heq => exact absurd (hg.trans heq) (hnull a)
      case h_3 x _ heq =>
        cases heq
        rw [hfa]
        rfl

theorem asArray_stringifyItems {α : Type} {f : Json → Option α} {g : α → JsValue}
    (hf : ∀ a, (stringify (g a)).bind f = some a) (l : List α) :
    (stringify (.array (l.map g))).bind (Json.asArray f) = some l := by
  have hitems : (stringifyItems (l.map g)).mapM f = some l := by
    induction l with
    | nil => rfl
    | cons a l ih =>
      obtain ⟨j, hj, hfj⟩ := Option.bind_eq_some_iff.mp (hf a)
      rw [List.map_cons, stringifyItems, hj, Option.getD_some, List.mapM_cons, hfj, ih]
      rfl
  rw [stringify, Option.bind_some, Json.asArray, hitems]

theorem stringify_strings (l : List String) :
    (stringify (strings l)).bind (Json.asArray Json.asString) = some l :=
  asArray_stringifyItems (fun _ => rfl) l

theorem stringify_numbers (l : List Nat) :
    (stringify (numbers l)).bind (Json.asArray Json.asNat) = some l := by
  rw [numbers]
  apply asArray_stringifyItems
  intro n
  simp [stringify, Json.asNat]

theorem ofJson_value_entry (e : ModelConfigurationEntry) :
    (stringify e.value).bind ModelConfigurationEntry.ofJson = some e := by
  rw [ModelConfigurationEntry.value, stringify, Option.bind_some, ModelConfigurationEntry.ofJson]
  have hsource : (stringify (.string e.sourceType.text)).bind Json.asSourceType =
      some e.sourceType := by
    cases e.sourceType <;> rfl
  rw [required_stringify (a := e.id) (by simp) rfl rfl,
    required_stringify (a := e.configId) (by simp) rfl rfl,
    required_stringify (a := e.modelPath) (by simp) rfl rfl,
    optional_stringify (o := e.servedModelName) (by simp) rfl (fun _ => rfl) (by simp [stringify]),
    required_stringify (a := e.maxTokens) (by simp) rfl rfl,
    required_stringify (a := e.sourceType) (by simp) rfl hsource,
    optional_stringify (o := e.extraArgs) (by simp) rfl stringify_strings
      (by simp [stringify, strings]),
    optional_stringify (o := e.gpuIds) (by simp) rfl stringify_numbers (by simp [stringify, numbers]),
    required_stringify (a := e.tensorParallelSize) (by simp) rfl rfl,
    required_stringify (a := e.loadOrder) (by simp) rfl rfl,
    optional_stringify (o := e.sleepModeEnabled) (by simp) rfl (fun _ => rfl) (by simp [stringify]),
    optional_stringify (o := e.gpuTypeConstraint) (by simp) rfl (fun _ => rfl) (by simp [stringify]),
    optional_stringify (o := e.minVramMb) (by simp) rfl (fun _ => rfl) (by simp [stringify]),
    optional_stringify (o := e.podId) (by simp) rfl (fun _ => rfl) (by simp [stringify])]
  rfl

theorem ofJson_value (p : SavedModelConfiguration) :
    (stringify p.value).bind SavedModelConfiguration.ofJson = some p := by
  rw [SavedModelConfiguration.value, stringify, Option.bind_some, SavedModelConfiguration.ofJson]
  have hstrategy : ∀ x : PodScheduler.PlacementStrategy,
      (stringify (.string x.text)).bind Json.asStrategy = some x := by
    intro x
    cases x <;> rfl
  rw [required_stringify (a := p.id) (by simp) rfl rfl,
    required_stringify (a := p.name) (by simp) rfl rfl,
    optional_stringify (o := p.description) (by simp) rfl (fun _ => rfl) (by simp [stringify]),
    required_stringify (a := p.modelCount) (by simp) rfl rfl,
    optional_stringify (o := p.placementStrategy) (by simp) rfl hstrategy (by simp [stringify]),
    optional_stringify (o := p.minKvCacheMb) (by simp) rfl (fun _ => rfl) (by simp [stringify]),
    optional_stringify (o := p.version) (by simp) rfl (fun _ => rfl) (by simp [stringify]),
    required_stringify (a := p.createdAt) (by simp) rfl rfl,
    optional_stringify (o := p.updatedAt) (by simp) rfl (fun _ => rfl) (by simp [stringify]),
    optional_stringify (o := p.entries) (by simp) rfl (asArray_stringifyItems ofJson_value_entry)
      (by simp [stringify])]
  rfl

end RoundTrip

/-- The body that the route asks for: the preset itself, in an array. -/
def presetsBody (preset : SavedModelConfiguration) : Option Json :=
  (JsValue.object [("presets", .array [preset.value])]).stringify

/-- A receiver that is given the preset itself stores it, if it held none under its id. -/
theorem presetsBody_delivers (uuid : String → Nat → String) (now : String)
    {sender receiver : ModelConfigurationStore} {presetId : String} {row : ConfigurationRow}
    (hrow : sender.lookup presetId = some row) (hids : ∀ e ∈ row.content.entries, e.id ≠ "")
    (hnone : receiver.lookup presetId = none)
    (hinsert : Insertable receiver presetId
      { row.content with entries := inLoadOrder row.content.entries }) :
    ∃ body, presetsBody (rowToConfiguration presetId row) = some body ∧
      Delivers uuid now sender receiver presetId body := by
  obtain ⟨j, hj, hof⟩ := Option.bind_eq_some_iff.mp (ofJson_value (rowToConfiguration presetId row))
  have hcontent : (rowToConfiguration presetId row).content (uuid presetId) =
      { row.content with entries := inLoadOrder row.content.entries } :=
    content_rowToConfiguration hids
  have hsync : syncPreset uuid (rowToConfiguration presetId row) now receiver =
      (.accepted, receiver.setItem presetId
        ⟨(rowToConfiguration presetId row).content (uuid presetId), row.createdAt, none⟩) := by
    have hread : receiver.lookup (rowToConfiguration presetId row).id = none := hnone
    have hfree : Insertable receiver (rowToConfiguration presetId row).id
        ((rowToConfiguration presetId row).content (uuid (rowToConfiguration presetId row).id)) := by
      rw [← hcontent] at hinsert
      exact hinsert
    simp only [syncPreset, syncTransaction, hread, Option.map_none, if_pos hfree]
    rfl
  refine ⟨.object [("presets", .array [j])], ?_, 1, 0, receiver.setItem presetId
    ⟨(rowToConfiguration presetId row).content (uuid presetId), row.createdAt, none⟩, ?_,
    rowToConfiguration presetId row, rowToConfiguration presetId
      ⟨(rowToConfiguration presetId row).content (uuid presetId), row.createdAt, none⟩,
    ?_, ?_, rfl, rfl, rfl, ?_⟩
  · simp [presetsBody, JsValue.stringify, JsValue.stringifyFields, JsValue.stringifyItems, hj]
  · have hroute : presetsSync uuid now receiver (.object [("presets", .array [j])]) =
        syncPresets uuid now [j] 0 0 receiver := rfl
    rw [hroute, syncPresets, hof]
    dsimp only
    rw [hsync]
    rfl
  · rw [getConfiguration, hrow]
    rfl
  · rw [getConfiguration, Dict.lookup_setItem, if_pos rfl]
    rfl
  · rw [hcontent]
    simp only [rowToConfiguration, inLoadOrder_idem]

end GpuSharing.Sardeenz.PresetStore
