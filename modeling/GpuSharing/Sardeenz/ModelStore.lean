import GpuSharing.Lib.InvertedIndex
import GpuSharing.Lib.Transition
import GpuSharing.Sardeenz.KvAdmission

namespace GpuSharing.Sardeenz

open InvertedIndex Transition

/-- The fields of a `ModelInstance` that the model store reads or writes. -/
structure InstanceRecord where
  id : String
  modelPath : String
  modelName : String
  status : ModelStatus
  port : Nat
  routable : Bool
  deriving DecidableEq, Repr

/-- A `ModelStore` with the records that its callers and it share. A record is known by a number,
`made` is how many there are, and the maps hold the numbers. -/
structure ModelStore where
  objects : Nat → InstanceRecord
  made : Nat
  instances : Dict String Nat
  instancesByPath : Dict String (List String)
  instancesByName : Dict String (List String)

/-- What `set` does to the index by one field of the records. -/
def reindex (field : InstanceRecord → String) (existingInstance : Option InstanceRecord)
    (record : InstanceRecord) (index : Dict String (List String)) : Dict String (List String) :=
  let kept := match existingInstance with
    | some existing =>
      if field existing ≠ field record then remove index (field existing) record.id else index
    | none => index
  add kept (field record) record.id

namespace ModelStore

def empty : ModelStore where
  objects _ := ⟨"", "", "", .starting, 0, true⟩
  made := 0
  instances := ∅
  instancesByPath := ∅
  instancesByName := ∅

def get (s : ModelStore) (instanceId : String) : Option InstanceRecord :=
  (s.instances.lookup instanceId).map s.objects

/-- A new record. -/
def make (s : ModelStore) (record : InstanceRecord) : ModelStore :=
  { s with objects := Function.update s.objects s.made record, made := s.made + 1 }

/-- The fields of a record are written in place. -/
def write (s : ModelStore) (ref : Nat) (fields : InstanceRecord) : ModelStore :=
  { s with objects := Function.update s.objects ref fields }

def set (s : ModelStore) (ref : Nat) : ModelStore :=
  let record := s.objects ref
  let existingInstance := s.get record.id
  { s with
    instances := Dict.setItem s.instances record.id ref
    instancesByPath := reindex (·.modelPath) existingInstance record s.instancesByPath
    instancesByName := reindex (·.modelName) existingInstance record s.instancesByName }

def setRoutable (s : ModelStore) (instanceId : String) (routable : Bool) : Bool × ModelStore :=
  match s.instances.lookup instanceId with
  | none => (false, s)
  | some ref => (true, s.write ref { s.objects ref with routable := routable })

def delete (s : ModelStore) (instanceId : String) : Bool × ModelStore :=
  match s.get instanceId with
  | none => (false, s)
  | some record =>
    (true, { s with
      instances := AList.erase instanceId s.instances
      instancesByPath := remove s.instancesByPath record.modelPath instanceId
      instancesByName := remove s.instancesByName record.modelName instanceId })

def clear (s : ModelStore) : ModelStore :=
  { s with instances := ∅, instancesByPath := ∅, instancesByName := ∅ }

def getAll (s : ModelStore) : List InstanceRecord :=
  s.instances.entries.reverse.map fun e => s.objects e.2

def has (s : ModelStore) (instanceId : String) : Bool := (s.instances.lookup instanceId).isSome

def getAllByPath (s : ModelStore) (modelPath : String) : List InstanceRecord :=
  (ids s.instancesByPath modelPath).filterMap s.get

def getAllByName (s : ModelStore) (modelName : String) : List InstanceRecord :=
  (ids s.instancesByName modelName).filterMap s.get

def getRunningByPath (s : ModelStore) (modelPath : String) : List InstanceRecord :=
  (s.getAllByPath modelPath).filter fun i => i.status = .running ∧ i.routable

def getRunningByName (s : ModelStore) (modelName : String) : List InstanceRecord :=
  (s.getAllByName modelName).filter fun i => i.status = .running ∧ i.routable

/-- The first running instance, or else the first one; an empty id is taken for none. -/
def getByPath (s : ModelStore) (modelPath : String) : Option InstanceRecord :=
  match ids s.instancesByPath modelPath with
  | [] => none
  | firstId :: rest =>
    match ((firstId :: rest).filterMap s.get).find? (·.status = .running) with
    | some running => some running
    | none => if firstId = "" then none else s.get firstId

def hasPath (s : ModelStore) (modelPath : String) : Bool := ids s.instancesByPath modelPath ≠ []

def getAllPaths (s : ModelStore) : List String := s.instancesByPath.keys.reverse

def getAllNames (s : ModelStore) : List String := s.instancesByName.keys.reverse

end ModelStore

/-- A call of the store. `set` comes with a new record, or with the one that is stored under an id
after its fields have been written. -/
inductive StoreAct
  | setNew (record : InstanceRecord)
  | setStored (instanceId : String) (fields : InstanceRecord)
  | setRoutable (instanceId : String) (routable : Bool)
  | delete (instanceId : String)
  | clear
  deriving DecidableEq, Repr

namespace ModelStore

def step (s : ModelStore) : StoreAct → Option ModelStore
  | .setNew record => some ((s.make record).set s.made)
  | .setStored instanceId fields =>
    (s.instances.lookup instanceId).map fun ref => (s.write ref fields).set ref
  | .setRoutable instanceId routable => some (s.setRoutable instanceId routable).2
  | .delete instanceId => some (s.delete instanceId).2
  | .clear => some s.clear

/-- The indexes hold the ids of the stored instances by what these have now. -/
structure Consistent (s : ModelStore) : Prop where
  path : Indexes s.instancesByPath fun modelPath id =>
    ∃ record ∈ s.getAll, record.id = id ∧ record.modelPath = modelPath
  name : Indexes s.instancesByName fun modelName id =>
    ∃ record ∈ s.getAll, record.id = id ∧ record.modelName = modelName

/-- The store holds nothing under the id. -/
structure Forgotten (s : ModelStore) (instanceId : String) : Prop where
  instances : s.has instanceId = false
  path : ∀ modelPath, instanceId ∉ ids s.instancesByPath modelPath
  name : ∀ modelName, instanceId ∉ ids s.instancesByName modelName

/-- What is asked of a call. -/
def Indexed (s : ModelStore) (a : StoreAct) : Prop :=
  ∀ t, step s a = some t →
    Consistent t ∧ ∀ instanceId, a = .delete instanceId → Forgotten t instanceId

/-- A record that is stored again has the id, the path and the name that it had. -/
def KeepsIdentity (s : ModelStore) : StoreAct → Prop
  | .setStored instanceId fields => ∀ record ∈ s.get instanceId,
    fields.id = record.id ∧ fields.modelPath = record.modelPath ∧
      fields.modelName = record.modelName
  | _ => True

/-- The field of the instance that is stored under the id. -/
def Has (field : InstanceRecord → String) (view : String → Option InstanceRecord) (k i : String) :
    Prop := ∃ record, view i = some record ∧ field record = k

/-- What holds while records keep their identity. -/
structure Sound (s : ModelStore) : Prop where
  keyed : ∀ i record, s.get i = some record → record.id = i
  made : ∀ i ref, s.instances.lookup i = some ref → ref < s.made
  path : Indexes s.instancesByPath (Has (·.modelPath) s.get)
  name : Indexes s.instancesByName (Has (·.modelName) s.get)

section Views

variable {s t : ModelStore} {i j : String} {record : InstanceRecord} {ref : Nat}
  {field : InstanceRecord → String} {index : Dict String (List String)}
  {view : String → Option InstanceRecord}

theorem mem_getAll : record ∈ s.getAll ↔ ∃ i, s.get i = some record := by
  rw [getAll, List.mem_map]
  constructor
  · rintro ⟨e, he, rfl⟩
    have hlookup : s.instances.lookup e.1 = some e.2 :=
      AList.mem_lookup_iff.mpr (List.mem_reverse.mp he)
    exact ⟨e.1, by rw [get, hlookup, Option.map_some]⟩
  · rintro ⟨i, hi⟩
    obtain ⟨ref, href, rfl⟩ := Option.map_eq_some_iff.mp hi
    exact ⟨⟨i, ref⟩, List.mem_reverse.mpr (AList.mem_lookup_iff.mp href), rfl⟩

theorem get_set (s : ModelStore) (ref : Nat) :
    (s.set ref).get = Function.update s.get (s.objects ref).id (some (s.objects ref)) := by
  funext i
  rw [Function.update_apply]
  unfold get set
  rw [Dict.lookup_setItem]
  split_ifs <;> rfl

theorem has_iff_of_keyed (h : ∀ i record, s.get i = some record → record.id = i) (k : String) :
    Has field s.get k i ↔ ∃ record ∈ s.getAll, record.id = i ∧ field record = k := by
  constructor
  · rintro ⟨record, hi, hk⟩
    exact ⟨record, mem_getAll.mpr ⟨i, hi⟩, h i record hi, hk⟩
  · rintro ⟨record, hmem, hid, hk⟩
    obtain ⟨j, hj⟩ := mem_getAll.mp hmem
    rw [← hid, h j record hj]
    exact ⟨record, hj, hk⟩

theorem has_update_of_ne (h : j ≠ i) (value : Option InstanceRecord) (k : String) :
    Has field (Function.update view i value) k j ↔ Has field view k j := by
  rw [Has, Function.update_of_ne h, Has]

/-- The index follows a record that is stored in the place of another one or of none. -/
theorem indexes_reindex (h : Indexes index (Has field view)) :
    Indexes (reindex field (view record.id) record index)
      (Has field (Function.update view record.id (some record))) := by
  unfold reindex
  cases hview : view record.id with
  | none =>
    refine (h.add (field record) record.id).congr fun k j => ?_
    by_cases hj : j = record.id
    · subst hj
      simp [Has, hview, eq_comm]
    · simp [has_update_of_ne hj, hj]
  | some existing =>
    by_cases hfield : field existing = field record
    · simp only [hfield, ne_eq, not_true_eq_false, if_false]
      refine (h.add (field record) record.id).congr fun k j => ?_
      by_cases hj : j = record.id
      · subst hj
        simp [Has, hview, hfield, eq_comm]
      · simp [has_update_of_ne hj, hj]
    · simp only [ne_eq, hfield, not_false_eq_true, if_true]
      refine ((h.remove (field existing) record.id).add (field record) record.id).congr fun k j => ?_
      by_cases hj : j = record.id
      · subst hj
        simp [Has, hview]
        tauto
      · simp [has_update_of_ne hj, hj]

theorem indexes_remove (h : Indexes index (Has field view)) (hi : view i = some record) :
    Indexes (remove index (field record) i) (Has field (Function.update view i none)) := by
  refine (h.remove (field record) i).congr fun k j => ?_
  by_cases hj : j = i
  · subst hj
    simp [Has, hi, eq_comm]
  · simp [has_update_of_ne hj, hj]

theorem get_some : s.get i = some record ↔ ∃ ref, s.instances.lookup i = some ref ∧
    s.objects ref = record := Option.map_eq_some_iff

theorem get_make (h : ∀ i ref, s.instances.lookup i = some ref → ref < s.made) :
    (s.make record).get = s.get := by
  funext i
  unfold get make
  cases href : s.instances.lookup i with
  | none => rfl
  | some ref =>
    have hne : ref ≠ s.made := (h i ref href).ne
    simp [hne]

/-- Under its own id alone a record is found. -/
theorem get_write (h : ∀ i record, s.get i = some record → record.id = i)
    (href : s.instances.lookup i = some ref) (fields : InstanceRecord) :
    (s.write ref fields).get = Function.update s.get i (some fields) := by
  funext j
  by_cases hj : j = i
  · subst hj
    simp [get, write, href]
  · rw [Function.update_of_ne hj]
    unfold get write
    cases href' : s.instances.lookup j with
    | none => rfl
    | some ref' =>
      have hne : ref' ≠ ref := by
        rintro rfl
        have hid := h i (s.objects ref') (get_some.mpr ⟨ref', href, rfl⟩)
        have hid' := h j (s.objects ref') (get_some.mpr ⟨ref', href', rfl⟩)
        exact hj (hid'.symm.trans hid)
      simp [hne]

end Views

section Sound

variable {s t : ModelStore} {i : String} {record fields : InstanceRecord} {ref : Nat} {a : StoreAct}

theorem sound_empty : Sound empty :=
  ⟨fun _ _ h => (nomatch h), fun _ _ h => (nomatch h),
    indexes_empty fun _ _ ⟨_, h, _⟩ => (nomatch h), indexes_empty fun _ _ ⟨_, h, _⟩ => (nomatch h)⟩

theorem Sound.consistent (hs : Sound s) : Consistent s :=
  ⟨hs.path.congr fun k _ => has_iff_of_keyed hs.keyed k,
    hs.name.congr fun k _ => has_iff_of_keyed hs.keyed k⟩

theorem Sound.set (hs : Sound s) (href : ref < s.made) : Sound (s.set ref) := by
  refine ⟨fun i record hi => ?_, fun i ref' hi => ?_, ?_, ?_⟩
  · rw [get_set, Function.update_apply] at hi
    split_ifs at hi with heq
    · cases hi
      exact heq.symm
    · exact hs.keyed i record hi
  · rw [ModelStore.set, Dict.lookup_setItem] at hi
    split_ifs at hi
    · cases hi
      exact href
    · exact hs.made i ref' hi
  · rw [get_set]
    exact indexes_reindex hs.path
  · rw [get_set]
    exact indexes_reindex hs.name

theorem Sound.make (hs : Sound s) (record : InstanceRecord) : Sound (s.make record) := by
  refine ⟨?_, fun i ref hi => Nat.lt_succ_of_lt (hs.made i ref hi), ?_, ?_⟩
  · rw [get_make hs.made]
    exact hs.keyed
  · rw [get_make hs.made]
    exact hs.path
  · rw [get_make hs.made]
    exact hs.name

/-- A record may be written in place as long as it keeps its identity. -/
theorem Sound.write (hs : Sound s) (href : s.instances.lookup i = some ref)
    (hid : fields.id = i) (hpath : fields.modelPath = (s.objects ref).modelPath)
    (hname : fields.modelName = (s.objects ref).modelName) : Sound (s.write ref fields) := by
  have hold : s.get i = some (s.objects ref) := get_some.mpr ⟨ref, href, rfl⟩
  have hget := get_write hs.keyed href fields
  have hkeeps : ∀ {field : InstanceRecord → String}, field fields = field (s.objects ref) →
      ∀ k j, Has field s.get k j ↔ Has field (s.write ref fields).get k j := by
    intro field hfield k j
    rw [hget]
    by_cases hj : j = i
    · subst hj
      simp [Has, hold, hfield]
    · rw [has_update_of_ne hj]
  refine ⟨fun j record hj => ?_, hs.made, hs.path.congr (hkeeps hpath), hs.name.congr (hkeeps hname)⟩
  rw [hget, Function.update_apply] at hj
  split_ifs at hj with heq
  · cases hj
    exact hid.trans heq.symm
  · exact hs.keyed j record hj

theorem Sound.setRoutable (hs : Sound s) (i : String) (routable : Bool) :
    Sound (s.setRoutable i routable).2 := by
  unfold ModelStore.setRoutable
  split
  case h_1 => exact hs
  case h_2 ref href =>
    have hid : (s.objects ref).id = i := hs.keyed i _ (get_some.mpr ⟨ref, href, rfl⟩)
    exact hs.write href hid rfl rfl

theorem get_delete (s : ModelStore) (i : String) :
    (s.delete i).2.get = Function.update s.get i none := by
  funext j
  unfold delete
  split
  case h_1 hnone =>
    by_cases hj : j = i
    · rw [hj, hnone, Function.update_self]
    · rw [Function.update_of_ne hj]
  case h_2 =>
    by_cases hj : j = i
    · subst hj
      rw [Function.update_self, get, AList.lookup_erase, Option.map_none]
    · rw [Function.update_of_ne hj]
      exact congrArg (Option.map s.objects) (AList.lookup_erase_ne hj)

theorem delete_of_some (hi : s.get i = some record) : (s.delete i).2 =
    { s with
      instances := AList.erase i s.instances
      instancesByPath := remove s.instancesByPath record.modelPath i
      instancesByName := remove s.instancesByName record.modelName i } := by
  rw [ModelStore.delete, hi]

theorem Sound.delete (hs : Sound s) (i : String) : Sound (s.delete i).2 := by
  have hget := get_delete s i
  cases hi : s.get i with
  | none =>
    have hsame : (s.delete i).2 = s := by
      rw [ModelStore.delete, hi]
    rw [hsame]
    exact hs
  | some record =>
    refine ⟨fun j record hj => ?_, fun j ref hj => ?_, ?_, ?_⟩
    · rw [hget, Function.update_apply] at hj
      split_ifs at hj
      exact hs.keyed j record hj
    · rw [delete_of_some hi] at hj ⊢
      exact hs.made j ref (Dict.lookup_erase_some hj).2
    · rw [hget, delete_of_some hi]
      exact indexes_remove hs.path hi
    · rw [hget, delete_of_some hi]
      exact indexes_remove hs.name hi

theorem Sound.clear (s : ModelStore) : Sound s.clear :=
  ⟨fun _ _ h => (nomatch h), fun _ _ h => (nomatch h),
    indexes_empty fun _ _ ⟨_, h, _⟩ => (nomatch h), indexes_empty fun _ _ ⟨_, h, _⟩ => (nomatch h)⟩

theorem step_sound (hs : Sound s) (hkeeps : KeepsIdentity s a) (hstep : step s a = some t) :
    Sound t := by
  cases a with
  | setNew record =>
    cases hstep
    exact (hs.make record).set (Nat.lt_succ_self s.made)
  | setStored i fields =>
    obtain ⟨ref, href, rfl⟩ := Option.map_eq_some_iff.mp hstep
    have hold : s.get i = some (s.objects ref) := get_some.mpr ⟨ref, href, rfl⟩
    obtain ⟨hid, hpath, hname⟩ := hkeeps _ hold
    exact (hs.write href (hid.trans (hs.keyed i _ hold)) hpath hname).set (hs.made i ref href)
  | setRoutable i routable =>
    cases hstep
    exact hs.setRoutable i routable
  | delete i =>
    cases hstep
    exact hs.delete i
  | clear =>
    cases hstep
    exact Sound.clear s

theorem Sound.forgotten (hs : Sound s) (hi : s.get i = none) : Forgotten s i := by
  have hnone : ∀ field k, ¬ Has field s.get k i := by
    rintro field k ⟨record, hrecord, -⟩
    rw [hi] at hrecord
    cases hrecord
  refine ⟨?_, fun k hmem => hnone _ k ((hs.path.mem k i).mp hmem),
    fun k hmem => hnone _ k ((hs.name.mem k i).mp hmem)⟩
  rw [has, Option.isSome_eq_false_iff, Option.isNone_iff_eq_none]
  exact Option.map_eq_none_iff.mp hi

theorem indexed_of_keeps (hs : Sound s) (hkeeps : KeepsIdentity s a) : Indexed s a := by
  intro t hstep
  have ht := step_sound hs hkeeps hstep
  refine ⟨ht.consistent, ?_⟩
  rintro i rfl
  apply ht.forgotten
  cases hstep
  rw [get_delete, Function.update_self]

/-- An id stays where it was when its entry is not the one that is taken out. -/
theorem mem_ids_reindex {field : InstanceRecord → String} {index : Dict String (List String)}
    {existing : Option InstanceRecord} {k : String} (h : Indexes index (Has field s.get))
    (hmem : i ∈ ids index k) (hkeep : i = record.id → existing = some record) :
    i ∈ ids (reindex field existing record index) k := by
  unfold reindex
  cases existing with
  | none => exact mem_ids_add.mpr (.inl hmem)
  | some e =>
    refine mem_ids_add.mpr (.inl ?_)
    simp only
    split_ifs with hfield
    · refine ((h.remove _ _).mem k i).mpr ⟨(h.mem k i).mp hmem, fun hout => ?_⟩
      cases hkeep hout.2
      exact hfield rfl
    · exact hmem

theorem mem_ids_stored {field : InstanceRecord → String} {index : Dict String (List String)}
    (hs : Sound s) (href : s.instances.lookup i = some ref) (h : Indexes index (Has field s.get)) :
    i ∈ ids (reindex field ((s.write ref fields).get ((s.write ref fields).objects ref).id)
      ((s.write ref fields).objects ref) index) (field (s.objects ref)) := by
  have hself : (s.write ref fields).objects ref = fields := Function.update_self ..
  have hold : s.get i = some (s.objects ref) := get_some.mpr ⟨ref, href, rfl⟩
  rw [hself]
  refine mem_ids_reindex h ((h.mem _ i).mpr ⟨_, hold, rfl⟩) ?_
  rintro rfl
  rw [get_write hs.keyed href, Function.update_self]

theorem eq_of_mem_stored (hs : Sound s) (href : s.instances.lookup i = some ref)
    (hmem : record ∈ ((s.write ref fields).set ref).getAll) (hid : record.id = i) :
    record = fields := by
  have hself : (s.write ref fields).objects ref = fields := Function.update_self ..
  obtain ⟨j, hj⟩ := mem_getAll.mp hmem
  rw [get_set, hself, get_write hs.keyed href, Function.update_apply, Function.update_apply] at hj
  split_ifs at hj with _ hother
  · exact (Option.some.inj hj).symm
  · exact (Option.some.inj hj).symm
  · exact absurd ((hs.keyed j record hj).symm.trans hid) hother

/-- A record that is stored again under another identity leaves its old one in the indexes. -/
theorem keeps_of_indexed (hs : Sound s) (h : Indexed s a) : KeepsIdentity s a := by
  cases a with
  | setStored i fields =>
    intro record hrecord
    obtain ⟨ref, href, rfl⟩ := get_some.mp hrecord
    obtain ⟨⟨hpath, hname⟩, -⟩ := h _ (congrArg (Option.map _) href)
    obtain ⟨x, hx, hxid, hxpath⟩ := (hpath.mem _ i).mp (mem_ids_stored hs href hs.path)
    obtain ⟨y, hy, hyid, hyname⟩ := (hname.mem _ i).mp (mem_ids_stored hs href hs.name)
    cases eq_of_mem_stored hs href hx hxid
    cases eq_of_mem_stored hs href hy hyid
    exact ⟨hxid.trans (hs.keyed i _ hrecord).symm, hxpath, hyname⟩
  | _ => trivial

/-- In a run from the empty store, every call leaves the indexes exact and every `delete` no trace
just when every record that is stored again still has its id, path and name. -/
theorem indexed_iff (acts : List StoreAct) :
    Along step Indexed empty acts ↔ Along step KeepsIdentity empty acts := by
  have hiff : ∀ s a, Sound s → True → (Indexed s a ↔ KeepsIdentity s a) := fun s a hs _ =>
    ⟨keeps_of_indexed hs, indexed_of_keeps hs⟩
  have hsound : ∀ s a t, Sound s → True → KeepsIdentity s a → step s a = some t → Sound t :=
    fun s a t hs _ hkeeps hstep => step_sound hs hkeeps hstep
  exact along_congr hiff hsound sound_empty (along_of_mem (fun _ _ _ => trivial) _)

theorem moved_path_stale : ¬ Along step Indexed empty
    [.setNew ⟨"a", "/models/old", "llama", .running, 8001, true⟩,
      .setStored "a" ⟨"a", "/models/new", "llama", .running, 8001, true⟩] := by
  intro h
  have hlast := (along_singleton.mp ((along_cons rfl).mp h).2) _ rfl
  obtain ⟨record, hmem, -, hpath⟩ := (hlast.1.path.mem "/models/old" "a").mp (by decide)
  cases List.mem_singleton.mp hmem
  exact absurd hpath (by decide)

end Sound

section Lookups

variable {s : ModelStore} {acts : List StoreAct} {record : InstanceRecord} {k : String}

theorem run_sound (hkeeps : Along step KeepsIdentity empty acts)
    (hrun : run step empty acts = some s) : Sound s :=
  run_invariant_along (fun _ _ _ hs hkeeps hstep => step_sound hs hkeeps hstep) sound_empty hkeeps
    hrun

theorem mem_ids_get {field : InstanceRecord → String} {index : Dict String (List String)}
    (h : Indexes index (Has field s.get)) :
    record ∈ (ids index k).filterMap s.get ↔ record ∈ s.getAll ∧ field record = k := by
  rw [List.mem_filterMap, mem_getAll]
  constructor
  · rintro ⟨i, hi, hget⟩
    obtain ⟨stored, hstored, hk⟩ := (h.mem k i).mp hi
    cases hget.symm.trans hstored
    exact ⟨⟨i, hget⟩, hk⟩
  · rintro ⟨⟨i, hget⟩, hk⟩
    exact ⟨i, (h.mem k i).mpr ⟨record, hget, hk⟩, hget⟩

/-- The lookups by path and by name find just what a search of all instances finds. -/
theorem mem_getAllByPath (hs : Sound s) :
    record ∈ s.getAllByPath k ↔ record ∈ s.getAll ∧ record.modelPath = k := mem_ids_get hs.path

theorem mem_getAllByName (hs : Sound s) :
    record ∈ s.getAllByName k ↔ record ∈ s.getAll ∧ record.modelName = k := mem_ids_get hs.name

theorem mem_getRunningByPath (hs : Sound s) : record ∈ s.getRunningByPath k ↔
    (record ∈ s.getAll ∧ record.modelPath = k) ∧ record.status = .running ∧ record.routable := by
  rw [getRunningByPath, List.mem_filter, mem_getAllByPath hs, decide_eq_true_iff]

theorem mem_getRunningByName (hs : Sound s) : record ∈ s.getRunningByName k ↔
    (record ∈ s.getAll ∧ record.modelName = k) ∧ record.status = .running ∧ record.routable := by
  rw [getRunningByName, List.mem_filter, mem_getAllByName hs, decide_eq_true_iff]

theorem exists_has {field : InstanceRecord → String} :
    (∃ i, Has field s.get k i) ↔ ∃ record ∈ s.getAll, field record = k := by
  constructor
  · rintro ⟨i, record, hget, hk⟩
    exact ⟨record, mem_getAll.mpr ⟨i, hget⟩, hk⟩
  · rintro ⟨record, hmem, hk⟩
    obtain ⟨i, hget⟩ := mem_getAll.mp hmem
    exact ⟨i, record, hget, hk⟩

theorem hasPath_iff (hs : Sound s) :
    s.hasPath k ↔ ∃ record ∈ s.getAll, record.modelPath = k := by
  rw [hasPath, decide_eq_true_iff, hs.path.ids_ne_nil]
  exact exists_has

/-- Every path that is listed leads to an instance. -/
theorem mem_getAllPaths (hs : Sound s) :
    k ∈ s.getAllPaths ↔ ∃ record ∈ s.getAll, record.modelPath = k := by
  rw [getAllPaths, List.mem_reverse, hs.path.mem_keys]
  exact exists_has

theorem mem_getAllNames (hs : Sound s) :
    k ∈ s.getAllNames ↔ ∃ record ∈ s.getAll, record.modelName = k := by
  rw [getAllNames, List.mem_reverse, hs.name.mem_keys]
  exact exists_has

theorem getByPath_mem (h : s.getByPath k = some record) : record ∈ s.getAllByPath k := by
  unfold getByPath at h
  unfold getAllByPath
  split at h
  case h_1 => cases h
  case h_2 firstId rest hids =>
    rw [hids]
    split at h
    case h_1 running hfind =>
      cases h
      exact List.mem_of_find?_eq_some hfind
    case h_2 =>
      split_ifs at h
      exact List.mem_filterMap.mpr ⟨firstId, List.mem_cons_self, h⟩

/-- A running instance is preferred. -/
theorem getByPath_running (hmem : record ∈ s.getAllByPath k) (hrunning : record.status = .running) :
    ∃ running, s.getByPath k = some running ∧ running.status = .running := by
  unfold getAllByPath at hmem
  unfold getByPath
  split
  case h_1 hids =>
    rw [hids] at hmem
    cases hmem
  case h_2 firstId rest hids =>
    rw [hids] at hmem
    split
    case h_1 running hfind =>
      exact ⟨running, rfl, by simpa using List.find?_some hfind⟩
    case h_2 hnone =>
      exact absurd (decide_eq_true hrunning) (List.find?_eq_none.mp hnone record hmem)

end Lookups

end ModelStore

end GpuSharing.Sardeenz
