import GpuSharing.Lib.Numerals
import GpuSharing.Lib.Transition
import GpuSharing.Sardeenz.PresetStore

namespace GpuSharing.Sardeenz.PresetStore

inductive SyncResult
  | accepted
  | rejected
  | failed
  deriving DecidableEq, Repr

/-- The transaction of `syncPreset`, given the version that it has read before it. Transactions that
write one preset wait for each other's row, so each of them finds the tables as the last one left
them. -/
def syncTransaction (uuid : String → Nat → String) (existing : Option Int)
    (preset : SavedModelConfiguration) (now : String) (store : ModelConfigurationStore) :
    SyncResult × ModelConfigurationStore :=
  let content := preset.content (uuid preset.id)
  match existing with
  | some version =>
    if content.version ≤ version then (.rejected, store)
    else match store.lookup preset.id with
      | some row =>
        if Insertable store preset.id content then
          (.accepted, store.setItem preset.id ⟨content, row.createdAt, some now⟩)
        else (.failed, store)
      -- the update changes no row, and an entry refers to a row that is not there
      | none => if content.entries = [] then (.accepted, store) else (.failed, store)
  | none => match store.lookup preset.id with
    | some _ => (.failed, store)
    | none =>
      if Insertable store preset.id content then
        (.accepted, store.setItem preset.id ⟨content, preset.createdAt, none⟩)
      else (.failed, store)

structure UpdateModelConfigurationInput where
  name : Option String
  description : Option String
  deriving DecidableEq, Repr

/-- What `updateConfiguration` makes of a row; the version stays as it is. -/
def ConfigurationRow.update (row : ConfigurationRow) (input : UpdateModelConfigurationInput)
    (now : String) : ConfigurationRow :=
  { row with
    content := { row.content with
      name := input.name.getD row.content.name
      description := input.description.or row.content.description }
    updatedAt := some now }

/-- `updateConfiguration`, with the row as it is then; `none` where there is no row to update, or the
name is taken. -/
def updateConfiguration (store : ModelConfigurationStore) (id : String)
    (input : UpdateModelConfigurationInput) (now : String) :
    Option (ConfigurationRow × ModelConfigurationStore) :=
  match store.lookup id with
  | none => none
  | some row =>
    let row := row.update input now
    if ∀ x ∈ store.entries, x.1 ≠ id → x.2.content.name ≠ row.content.name then
      some (row, store.setItem id row)
    else none

/-- A call of `syncPreset` at a pod that has read the version stored there. -/
structure SyncCall where
  pod : String
  preset : SavedModelConfiguration
  existing : Option Int
  committed : Bool

/-- The pods' tables, the calls of `syncPreset` and, for each preset, what a pod was given of it: what
it had from the start or since it last edited the preset itself, and what was delivered to it
since. -/
structure PresetCluster where
  stores : String → ModelConfigurationStore
  calls : List SyncCall
  given : String → String → List PresetContent

inductive PresetAct
  | beginSync (pod : String) (preset : SavedModelConfiguration)
  | commitSync (k : Nat) (now : String)
  | edit (pod id : String) (input : UpdateModelConfigurationInput) (now : String)

/-- The version that a call has read is lower than its own. -/
def ReadLower (uuid : String → Nat → String) (existing : Option Int)
    (preset : SavedModelConfiguration) : Prop :=
  ∃ v, existing = some v ∧ v < (preset.content (uuid preset.id)).version

/-- A commit that finds no row has read none, one that finds a lower version than its own has read a
lower one, and no constraint stops either; one that finds a higher version has not read a lower one
than its own, unless a constraint stops it; and one that finds its own version finds its own
content. -/
def SyncCall.Merges (uuid : String → Nat → String) (store : ModelConfigurationStore)
    (call : SyncCall) : Prop :=
  let content := call.preset.content (uuid call.preset.id)
  let lower := ReadLower uuid call.existing call.preset
  let insertable := Insertable store call.preset.id content
  match store.lookup call.preset.id with
  | none => call.existing = none ∧ insertable
  | some row =>
    (row.content.version < content.version → lower ∧ insertable) ∧
    (content.version < row.content.version → ¬ (lower ∧ insertable)) ∧
    (content.version = row.content.version → content = row.content)

namespace PresetCluster

def setStore (s : PresetCluster) (pod : String) (store : ModelConfigurationStore) (id : String)
    (given : List PresetContent) : PresetCluster :=
  { s with
    stores := Function.update s.stores pod store
    given := fun p i => if p = pod ∧ i = id then given else s.given p i }

def step (uuid : String → Nat → String) (s : PresetCluster) : PresetAct → Option PresetCluster
  | .beginSync pod preset =>
    let existing := ((s.stores pod).lookup preset.id).map (·.content.version)
    some { s with calls := s.calls ++ [⟨pod, preset, existing, false⟩] }
  | .commitSync k now =>
    match s.calls[k]? with
    | none => none
    | some call =>
      if call.committed then none
      else some ({ s with calls := s.calls.set k { call with committed := true } }.setStore call.pod
        (syncTransaction uuid call.existing call.preset now (s.stores call.pod)).2 call.preset.id
        (call.preset.content (uuid call.preset.id) :: s.given call.pod call.preset.id))
  | .edit pod id input now =>
    match updateConfiguration (s.stores pod) id input now with
    | none => some s
    | some (row, store) => some (s.setStore pod store id [row.content])

/-- Every pod holds, of what it was given of a preset, the content with the highest version. -/
def Converged (s : PresetCluster) : Prop :=
  ∀ pod id, ∀ c ∈ s.given pod id, ∃ row, (s.stores pod).lookup id = some row ∧
    (c.version < row.content.version ∨ c = row.content)

/-- Every commit merges what it delivers. -/
def InTurn (uuid : String → Nat → String) (s : PresetCluster) : PresetAct → Prop
  | .commitSync k _ => ∀ call, s.calls[k]? = some call → call.Merges uuid (s.stores call.pod)
  | _ => True

end PresetCluster

section Transaction

variable {uuid : String → Nat → String} {existing : Option Int} {preset : SavedModelConfiguration}
  {now : String} {store : ModelConfigurationStore}

/-- The transaction writes the content of its preset. -/
def Writes (uuid : String → Nat → String) (existing : Option Int) (preset : SavedModelConfiguration)
    (store : ModelConfigurationStore) : Prop :=
  (match store.lookup preset.id with
    | none => existing = none
    | some _ => ReadLower uuid existing preset) ∧
  Insertable store preset.id (preset.content (uuid preset.id))

theorem syncTransaction_of_writes (h : Writes uuid existing preset store) (now : String) :
    ∃ row, (syncTransaction uuid existing preset now store).2 = store.setItem preset.id row ∧
      row.content = preset.content (uuid preset.id) := by
  obtain ⟨hread, hinsert⟩ := h
  cases hlookup : store.lookup preset.id with
  | none =>
    rw [hlookup] at hread
    dsimp only at hread
    subst hread
    refine ⟨⟨preset.content (uuid preset.id), preset.createdAt, none⟩, ?_, rfl⟩
    simp only [syncTransaction, hlookup, if_pos hinsert]
  | some row =>
    rw [hlookup] at hread
    obtain ⟨v, rfl, hlt⟩ := hread
    refine ⟨⟨preset.content (uuid preset.id), row.createdAt, some now⟩, ?_, rfl⟩
    simp only [syncTransaction, hlookup, if_pos hinsert, if_neg (not_le.mpr hlt)]

theorem syncTransaction_of_not_writes (h : ¬ Writes uuid existing preset store) :
    (syncTransaction uuid existing preset now store).2 = store := by
  cases hlookup : store.lookup preset.id with
  | none =>
    cases existing with
    | none =>
      have hinsert : ¬ Insertable store preset.id (preset.content (uuid preset.id)) :=
        fun hinsert => h ⟨by rw [hlookup], hinsert⟩
      simp only [syncTransaction, hlookup, if_neg hinsert]
    | some version =>
      simp only [syncTransaction, hlookup]
      split_ifs <;> rfl
  | some row =>
    cases existing with
    | none => simp only [syncTransaction, hlookup]
    | some version =>
      by_cases hle : (preset.content (uuid preset.id)).version ≤ version
      · simp only [syncTransaction, if_pos hle]
      · have hinsert : ¬ Insertable store preset.id (preset.content (uuid preset.id)) :=
          fun hinsert => h ⟨by rw [hlookup]; exact ⟨version, rfl, not_le.mp hle⟩, hinsert⟩
        simp only [syncTransaction, hlookup, if_neg hle, if_neg hinsert]

end Transaction

namespace PresetCluster

variable {uuid : String → Nat → String} {s t : PresetCluster}

theorem given_setStore {pod id : String} {store : ModelConfigurationStore}
    {given : List PresetContent} (p i : String) :
    (s.setStore pod store id given).given p i =
      if p = pod ∧ i = id then given else s.given p i := rfl

/-- What a change of one preset at one pod leaves converged. -/
theorem converged_setStore_iff (h : s.Converged) {pod id : String}
    {store : ModelConfigurationStore} (given : List PresetContent)
    (hother : ∀ i, i ≠ id → store.lookup i = (s.stores pod).lookup i) :
    (s.setStore pod store id given).Converged ↔
      ∀ c ∈ given, ∃ row, store.lookup id = some row ∧
        (c.version < row.content.version ∨ c = row.content) := by
  have hstore : (s.setStore pod store id given).stores pod = store := Function.update_self ..
  constructor
  · intro hafter c hc
    have hrow := hafter pod id c (by rw [given_setStore, if_pos ⟨rfl, rfl⟩]; exact hc)
    rw [hstore] at hrow
    exact hrow
  · intro hgiven p i c hc
    rw [given_setStore] at hc
    split_ifs at hc with heq
    · obtain ⟨rfl, rfl⟩ := heq
      rw [hstore]
      exact hgiven c hc
    · obtain ⟨row, hrow, hcmp⟩ := h p i c hc
      refine ⟨row, ?_, hcmp⟩
      by_cases hp : p = pod
      · subst hp
        have hi : i ≠ id := fun hi => heq ⟨rfl, hi⟩
        rw [hstore, hother i hi]
        exact hrow
      · have hsame : (s.setStore pod store id given).stores p = s.stores p :=
          Function.update_of_ne hp _ _
        rw [hsame]
        exact hrow

/-- What a pod holds of a preset it was given. -/
def Held (s : PresetCluster) : Prop :=
  ∀ pod id row, (s.stores pod).lookup id = some row → row.content ∈ s.given pod id

/-- A row that was the newest stays at or below one that is newer than it. -/
theorem newest_trans {a b c : PresetContent} (hab : a.version < b.version ∨ a = b)
    (hbc : b.version < c.version ∨ b = c) : a.version < c.version ∨ a = c := by
  rcases hab with hab | rfl
  · rcases hbc with hbc | rfl
    · exact .inl (hab.trans hbc)
    · exact .inl hab
  · exact hbc

theorem newest_iff (a b : PresetContent) : a.version < b.version ∨ a = b ↔
    ¬ b.version < a.version ∧ (b.version = a.version → b = a) := by
  constructor
  · rintro (hlt | rfl)
    · exact ⟨hlt.not_gt, fun heq => absurd heq hlt.ne'⟩
    · exact ⟨lt_irrefl _, fun _ => rfl⟩
  · rintro ⟨hnot, hsame⟩
    rcases lt_trichotomy a.version b.version with hlt | heq | hgt
    · exact .inl hlt
    · exact .inr (hsame heq.symm).symm
    · exact absurd hgt hnot

theorem kept_iff {found : Option ConfigurationRow} {row : ConfigurationRow} (hrow : found = some row)
    (cs : List PresetContent) :
    (∀ c ∈ cs, ∃ row, found = some row ∧ (c.version < row.content.version ∨ c = row.content)) ↔
      ∀ c ∈ cs, c.version < row.content.version ∨ c = row.content := by
  simp [hrow]

/-- What a pod was given is at or below a content that its row is at or below. -/
theorem given_newest_iff (h : s.Converged) (hheld : s.Held) {pod id : String}
    {old : ConfigurationRow} (hold : (s.stores pod).lookup id = some old) (content : PresetContent) :
    (∀ c ∈ s.given pod id, c.version < content.version ∨ c = content) ↔
      (old.content.version < content.version ∨ old.content = content) := by
  constructor
  · intro hall
    exact hall old.content (hheld pod id old hold)
  · intro hnewer c hc
    obtain ⟨old', hsome, hcmp⟩ := h pod id c hc
    cases hold.symm.trans hsome
    exact newest_trans hcmp hnewer

/-- What a commit leaves of the row that it finds, when the pod held the newest content before. -/
theorem commit_converges_iff (h : s.Converged) (hheld : s.Held) (call : SyncCall) (now : String) :
    (∀ c ∈ call.preset.content (uuid call.preset.id) :: s.given call.pod call.preset.id,
      ∃ row, (syncTransaction uuid call.existing call.preset now (s.stores call.pod)).2.lookup
          call.preset.id = some row ∧ (c.version < row.content.version ∨ c = row.content)) ↔
      call.Merges uuid (s.stores call.pod) := by
  unfold SyncCall.Merges
  dsimp only
  by_cases hwrites : Writes uuid call.existing call.preset (s.stores call.pod)
  · obtain ⟨row, hrow, hcontent⟩ := syncTransaction_of_writes hwrites now
    have hlookup : (syncTransaction uuid call.existing call.preset now (s.stores call.pod)).2.lookup
        call.preset.id = some row := by
      rw [hrow, Dict.lookup_setItem, if_pos rfl]
    rw [kept_iff hlookup, List.forall_mem_cons, hcontent]
    obtain ⟨hread, hinsert⟩ := hwrites
    cases hold : (s.stores call.pod).lookup call.preset.id with
    | none =>
      rw [hold] at hread
      refine iff_of_true ⟨.inr rfl, fun c hc => ?_⟩ ⟨hread, hinsert⟩
      obtain ⟨old, hsome, -⟩ := h call.pod call.preset.id c hc
      rw [hold] at hsome
      cases hsome
    | some old =>
      rw [hold] at hread
      rw [given_newest_iff h hheld hold, newest_iff old.content]
      constructor
      · rintro ⟨-, hnot, hsame⟩
        exact ⟨fun _ => ⟨hread, hinsert⟩, fun hlt => absurd hlt hnot, hsame⟩
      · rintro ⟨-, hhigher, hsame⟩
        exact ⟨.inr rfl, fun hlt => hhigher hlt ⟨hread, hinsert⟩, hsame⟩
  · rw [syncTransaction_of_not_writes hwrites]
    cases hold : (s.stores call.pod).lookup call.preset.id with
    | none =>
      refine iff_of_false (fun hafter => ?_) fun hmerges => hwrites ⟨?_, hmerges.2⟩
      · obtain ⟨row, hsome, -⟩ := hafter _ List.mem_cons_self
        cases hsome
      · rw [hold]
        exact hmerges.1
    | some old =>
      have hnot : ¬ (ReadLower uuid call.existing call.preset ∧
          Insertable (s.stores call.pod) call.preset.id
            (call.preset.content (uuid call.preset.id))) := by
        rintro ⟨hread, hinsert⟩
        exact hwrites ⟨by rw [hold]; exact hread, hinsert⟩
      rw [kept_iff rfl, List.forall_mem_cons, given_newest_iff h hheld hold,
        newest_iff (call.preset.content _)]
      constructor
      · rintro ⟨⟨hlower, hsame⟩, -⟩
        exact ⟨fun hlt => absurd hlt hlower, fun _ => hnot, fun heq => (hsame heq.symm).symm⟩
      · rintro ⟨hlower, -, hsame⟩
        exact ⟨⟨fun hlt => hnot (hlower hlt), fun heq => (hsame heq.symm).symm⟩, .inr rfl⟩

theorem lookup_syncTransaction_of_ne {existing : Option Int} {preset : SavedModelConfiguration}
    {now : String} {store : ModelConfigurationStore} {i : String} (hi : i ≠ preset.id) :
    (syncTransaction uuid existing preset now store).2.lookup i = store.lookup i := by
  by_cases hwrites : Writes uuid existing preset store
  · obtain ⟨row, hrow, -⟩ := syncTransaction_of_writes hwrites now
    rw [hrow, Dict.lookup_setItem, if_neg hi]
  · rw [syncTransaction_of_not_writes hwrites]

theorem held_setStore (h : s.Held) {pod id : String} {store : ModelConfigurationStore}
    {given : List PresetContent} (hother : ∀ i, i ≠ id → store.lookup i = (s.stores pod).lookup i)
    (hself : ∀ row, store.lookup id = some row → row.content ∈ given) :
    (s.setStore pod store id given).Held := by
  have hstore : (s.setStore pod store id given).stores pod = store := Function.update_self ..
  intro p i row hrow
  rw [given_setStore]
  by_cases hp : p = pod
  · subst hp
    rw [hstore] at hrow
    by_cases hi : i = id
    · subst hi
      rw [if_pos ⟨rfl, rfl⟩]
      exact hself row hrow
    · rw [if_neg fun heq => hi heq.2]
      exact h p i row ((hother i hi).symm.trans hrow)
  · have hsame : (s.setStore pod store id given).stores p = s.stores p :=
      Function.update_of_ne hp _ _
    rw [hsame] at hrow
    rw [if_neg fun heq => hp heq.1]
    exact h p i row hrow

theorem step_commit {k : Nat} {now : String} (ht : s.step uuid (.commitSync k now) = some t) :
    ∃ call, s.calls[k]? = some call ∧
      { s with calls := s.calls.set k { call with committed := true } }.setStore call.pod
        (syncTransaction uuid call.existing call.preset now (s.stores call.pod)).2 call.preset.id
        (call.preset.content (uuid call.preset.id) :: s.given call.pod call.preset.id) = t := by
  simp only [step] at ht
  split at ht
  case h_1 => cases ht
  case h_2 call hk =>
    split_ifs at ht
    exact ⟨call, hk, Option.some.inj ht⟩

theorem updateConfiguration_some {store store' : ModelConfigurationStore} {id : String}
    {input : UpdateModelConfigurationInput} {now : String} {row : ConfigurationRow}
    (h : updateConfiguration store id input now = some (row, store')) :
    store' = store.setItem id row := by
  unfold updateConfiguration at h
  split at h
  · cases h
  · dsimp only at h
    split_ifs at h
    cases h
    rfl

/-- An edit of a row that is not there changes nothing. -/
theorem step_edit {pod id now : String} {input : UpdateModelConfigurationInput}
    (ht : s.step uuid (.edit pod id input now) = some t) :
    t = s ∨ ∃ row : ConfigurationRow,
      t = s.setStore pod ((s.stores pod).setItem id row) id [row.content] := by
  simp only [step] at ht
  split at ht
  case h_1 =>
    cases ht
    exact .inl rfl
  case h_2 row store hupdate =>
    cases ht
    rw [updateConfiguration_some hupdate]
    exact .inr ⟨row, rfl⟩

theorem held_step (h : s.Held) {a : PresetAct} (ht : s.step uuid a = some t) : t.Held := by
  cases a with
  | beginSync pod preset =>
    cases ht
    exact h
  | commitSync k now =>
    obtain ⟨call, -, rfl⟩ := step_commit ht
    refine held_setStore (s := { s with calls := _ }) h
      (fun i hi => lookup_syncTransaction_of_ne hi) fun row hrow => ?_
    by_cases hwrites : Writes uuid call.existing call.preset (s.stores call.pod)
    · obtain ⟨row', hrow', hcontent⟩ := syncTransaction_of_writes hwrites now
      rw [hrow', Dict.lookup_setItem, if_pos rfl] at hrow
      cases hrow
      rw [hcontent]
      exact List.mem_cons_self
    · rw [syncTransaction_of_not_writes hwrites] at hrow
      exact List.mem_cons_of_mem _ (h call.pod call.preset.id row hrow)
  | edit pod id input now =>
    obtain rfl | ⟨row, rfl⟩ := step_edit ht
    · exact h
    · refine held_setStore h (fun i hi => by rw [Dict.lookup_setItem, if_neg hi]) fun row' hrow => ?_
      rw [Dict.lookup_setItem, if_pos rfl] at hrow
      cases hrow
      exact List.mem_singleton_self _

/-- The step lemma: what each act leaves converged. -/
theorem converged_step_iff (hheld : s.Held) (h : s.Converged) {a : PresetAct}
    (ht : s.step uuid a = some t) : t.Converged ↔ s.InTurn uuid a := by
  cases a with
  | beginSync pod preset =>
    cases ht
    exact iff_of_true h trivial
  | commitSync k now =>
    obtain ⟨call, hk, rfl⟩ := step_commit ht
    have hturn : s.InTurn uuid (.commitSync k now) ↔ call.Merges uuid (s.stores call.pod) := by
      simp [InTurn, hk]
    rw [hturn, ← commit_converges_iff h hheld call now]
    exact converged_setStore_iff (s := { s with calls := _ }) h _
      fun i hi => lookup_syncTransaction_of_ne hi
  | edit pod id input now =>
    refine iff_of_true ?_ trivial
    obtain rfl | ⟨row, rfl⟩ := step_edit ht
    · exact h
    · refine (converged_setStore_iff h _ fun i hi => by rw [Dict.lookup_setItem, if_neg hi]).mpr ?_
      intro c hc
      exact ⟨row, by rw [Dict.lookup_setItem, if_pos rfl], .inr (List.mem_singleton.mp hc)⟩

/-- Each pod has been given of a preset what it holds of it. -/
def Settled (s : PresetCluster) : Prop :=
  ∀ pod id, s.given pod id = ((s.stores pod).lookup id).toList.map (·.content)

theorem converged_of_settled (h : s.Settled) : s.Converged := by
  intro pod id c hc
  rw [h] at hc
  cases hlookup : (s.stores pod).lookup id with
  | none =>
    rw [hlookup] at hc
    cases hc
  | some row =>
    rw [hlookup] at hc
    exact ⟨row, rfl, .inr (List.mem_singleton.mp hc)⟩

theorem held_of_settled (h : s.Settled) : s.Held := by
  intro pod id row hrow
  rw [h, hrow]
  exact List.mem_singleton_self _

/-- Every pod holds the highest version that it was given of each preset, after every act of a run,
exactly when every commit merges what it delivers. -/
theorem presets_converge_iff (uuid : String → Nat → String) {u : PresetCluster}
    {acts : List PresetAct} (hs : s.Settled)
    (hrun : Transition.run (step uuid) s acts = some u) :
    Transition.Along (step uuid) (fun s a => ∀ t, s.step uuid a = some t → t.Converged) s acts ↔
      Transition.Along (step uuid) (InTurn uuid) s acts :=
  Transition.along_next_iff (E := fun _ _ => True)
    (fun _ _ _ hheld hconverged _ ht => converged_step_iff hheld hconverged ht)
    (fun _ _ _ hheld _ ht => held_step hheld ht) (held_of_settled hs) (converged_of_settled hs)
    (Transition.along_of_mem (fun _ _ _ => trivial) s) hrun

def uuids (id : String) (i : Nat) : String := id ++ "-" ++ toString i

attribute [local instance] Numerals.neZero_two

/-- The first version of a preset with one entry. -/
def firstVersion : ConfigurationRow where
  content :=
    { name := "base"
      description := none
      modelCount := 1
      placementStrategy := some .balanced
      minKvCacheMb := none
      version := 1
      entries := [⟨"e1", "org/model", none, 4096, .huggingface, none, some [0], 1, 0, 0, none, none,
        none⟩] }
  createdAt := "2025-01-01T00:00:00.000Z"
  updatedAt := none

/-- Every pod holds the first version. -/
def replicated : PresetCluster where
  stores := fun _ => AList.singleton "p1" firstVersion
  calls := []
  given := fun _ id => ((AList.singleton "p1" firstVersion :
    ModelConfigurationStore).lookup id).toList.map (·.content)

theorem settled_replicated : replicated.Settled := fun _ _ => rfl

def renamedVersion : ConfigurationRow :=
  firstVersion.update ⟨some "renamed", none⟩ "2025-01-02T00:00:00.000Z"

/-- The preset is renamed on one pod and delivered to another. -/
def renameReplicated : List PresetAct :=
  [.edit "a" "p1" ⟨some "renamed", none⟩ "2025-01-02T00:00:00.000Z",
    .beginSync "b" (rowToConfiguration "p1" renamedVersion),
    .commitSync 0 "2025-01-02T00:00:01.000Z"]

def afterRename : PresetCluster :=
  (Transition.run (step uuids) replicated renameReplicated).get (by decide +kernel)

theorem edit_not_replicated :
    Transition.run (step uuids) replicated renameReplicated = some afterRename ∧
      ¬ afterRename.Converged := by
  refine ⟨(Option.some_get _).symm, fun hconverged => ?_⟩
  have hgiven : renamedVersion.content ∈ afterRename.given "b" "p1" := by decide +kernel
  obtain ⟨row, hrow, hcmp⟩ := hconverged "b" "p1" renamedVersion.content hgiven
  have hstored : (afterRename.stores "b").lookup "p1" = some firstVersion := by decide +kernel
  cases hstored.symm.trans hrow
  exact absurd hcmp (by decide +kernel)

/-- The second version of the preset. -/
def secondVersion : ConfigurationRow :=
  { renamedVersion with content := { renamedVersion.content with version := 2 } }

def deliverSecond : List PresetAct :=
  [.beginSync "b" (rowToConfiguration "p1" secondVersion),
    .commitSync 0 "2025-01-02T00:00:01.000Z"]

/-- A higher version, delivered while no other call is under way. -/
theorem presets_converge_iff_second :
    Transition.Along (step uuids) (fun s a => ∀ t, s.step uuids a = some t → t.Converged) replicated
      deliverSecond := by
  have hrun : (Transition.run (step uuids) replicated deliverSecond).isSome := by decide +kernel
  refine (presets_converge_iff uuids settled_replicated (Option.some_get hrun).symm).mpr
    ⟨trivial, fun call hcall => ?_, trivial⟩
  cases hcall
  have hinsert : Insertable (replicated.stores "b") "p1"
      ((rowToConfiguration "p1" secondVersion).content (uuids "p1")) := by
    decide +kernel
  refine ⟨fun _ => ⟨⟨1, rfl, by decide⟩, hinsert⟩, fun hlt => ?_, fun heq => ?_⟩
  · exact absurd hlt (by decide)
  · exact absurd heq (by decide)

end PresetCluster

end GpuSharing.Sardeenz.PresetStore
