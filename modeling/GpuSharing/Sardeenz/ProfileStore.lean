import Mathlib.Algebra.Order.Ring.Rat
import Mathlib.Data.List.Sort

namespace GpuSharing.Sardeenz.MemoryProfiles

/-- The columns of the unique key; the last one may be NULL. -/
structure ProfileKey where
  modelPath : String
  maxTokens : Nat
  gpuName : Option String
  deriving DecidableEq, Repr

structure ProfileValues where
  profileName : String
  totalGpuMemoryGib : ℚ
  weightsMemoryGib : ℚ
  cudaGraphsGib : ℚ
  overheadMemoryGib : ℚ
  kvCacheAvailableGib : ℚ
  kvCachePerRequestMib : Option ℚ
  gpuTotalMemoryGib : Option ℚ
  comments : Option String
  deriving DecidableEq, Repr

structure CreateProfileData where
  key : ProfileKey
  values : ProfileValues
  createdBy : Option String
  deriving DecidableEq, Repr

structure MemoryProfile extends CreateProfileData where
  createdAt : Int
  updatedAt : Option Int
  deriving DecidableEq, Repr

/-- The row after an update of the row of the key. -/
def MemoryProfile.update (row : MemoryProfile) (key : ProfileKey) (values : ProfileValues)
    (now : Int) : MemoryProfile :=
  if row.key = key then { row with values := values, updatedAt := some now } else row

@[simp] theorem MemoryProfile.key_update (row : MemoryProfile) (key : ProfileKey)
    (values : ProfileValues) (now : Int) : (row.update key values now).key = row.key := by
  rw [update]
  split_ifs <;> rfl

/-- The profile names a GPU, neither NULL nor the empty string. -/
def ProfileKey.Named (key : ProfileKey) : Prop := ∃ gpuName ∈ key.gpuName, gpuName ≠ ""

instance (key : ProfileKey) : Decidable key.Named :=
  inferInstanceAs (Decidable (∃ gpuName ∈ key.gpuName, gpuName ≠ ""))

/-- The rows of a pod. The table has a unique constraint on the key, to which NULLs are distinct. -/
structure MemoryProfileStore where
  rows : List MemoryProfile
  unique : rows.Pairwise fun r r' => r.key = r'.key → r.key.gpuName = none

namespace MemoryProfileStore

def listProfiles (store : MemoryProfileStore) : List MemoryProfile :=
  store.rows.insertionSort fun r r' => r'.createdAt ≤ r.createdAt

def lookupProfile (store : MemoryProfileStore) (modelPath : String) (maxTokens : Nat)
    (gpuName : String) : Option MemoryProfile :=
  store.rows.find? (·.key = ⟨modelPath, maxTokens, some gpuName⟩)

/-- The row that a profile of the key is compared with: none unless it names a GPU. -/
def existing (store : MemoryProfileStore) (key : ProfileKey) : Option MemoryProfile :=
  match key.gpuName with
  | some gpuName =>
    if gpuName = "" then none else store.lookupProfile key.modelPath key.maxTokens gpuName
  | none => none

/-- The insertion fails on the unique constraint. -/
def createProfile (store : MemoryProfileStore) (data : CreateProfileData) (now : Int) :
    Option MemoryProfileStore :=
  if h : ∀ r ∈ store.rows, r.key = data.key → r.key.gpuName = none then
    some ⟨store.rows ++ [⟨data, now, none⟩], List.pairwise_append.mpr
      ⟨store.unique, List.pairwise_singleton _ _, fun r hr r' hr' hkey => by
        cases List.mem_singleton.mp hr'
        exact h r hr hkey⟩⟩
  else none

def updateRow (store : MemoryProfileStore) (key : ProfileKey) (values : ProfileValues) (now : Int) :
    MemoryProfileStore where
  rows := store.rows.map fun r => r.update key values now
  unique := by
    refine List.pairwise_map.mpr (store.unique.imp fun {r r'} h hkey => ?_)
    rw [MemoryProfile.key_update, MemoryProfile.key_update] at hkey
    rw [MemoryProfile.key_update]
    exact h hkey

def upsertProfile (store : MemoryProfileStore) (data : CreateProfileData) (now : Int) :
    Option MemoryProfileStore :=
  match store.existing data.key with
  | some row => some (store.updateRow row.key data.values now)
  | none => store.createProfile data now

end MemoryProfileStore

/-- Both have been updated, and the profile later than the row. -/
def MemoryProfile.updatedAfter (profile row : MemoryProfile) : Bool :=
  match profile.updatedAt, row.updatedAt with
  | some updatedAt, some existingUpdatedAt => existingUpdatedAt < updatedAt
  | _, _ => false

namespace MemoryProfileStore

/-- What the sync route does with one profile. -/
def syncProfile (store : MemoryProfileStore) (profile : MemoryProfile) (now : Int) :
    Option MemoryProfileStore :=
  match store.existing profile.key with
  | some row =>
    if profile.updatedAfter row then store.upsertProfile profile.toCreateProfileData now
    else some store
  | none => store.createProfile profile.toCreateProfileData now

/-- The sync route goes through the profiles one by one; a failing one ends it. -/
def syncProfiles (store : MemoryProfileStore) (now : ProfileKey → Int) :
    List MemoryProfile → MemoryProfileStore
  | [] => store
  | profile :: profiles =>
    match store.syncProfile profile (now profile.key) with
    | some store' => store'.syncProfiles now profiles
    | none => store

def held (store : MemoryProfileStore) (key : ProfileKey) : Option MemoryProfile :=
  store.rows.find? (·.key = key)

/-- No key has two rows. -/
def OneRowEach (store : MemoryProfileStore) : Prop := (store.rows.map (·.key)).Nodup

end MemoryProfileStore

open MemoryProfileStore

variable {store store' : MemoryProfileStore} {key : ProfileKey} {data : CreateProfileData}
  {profile row : MemoryProfile} {now : Int}

theorem existing_of_named (h : key.Named) : store.existing key = store.held key := by
  obtain ⟨gpuName, hgpu, hne⟩ := h
  obtain ⟨modelPath, maxTokens, _⟩ := key
  cases hgpu
  simp only [existing, if_neg hne]
  rfl

theorem existing_of_not_named (h : ¬ key.Named) : store.existing key = none := by
  rw [existing]
  split
  · rename_i gpuName hgpu
    split_ifs with hempty
    · rfl
    · exact absurd ⟨gpuName, hgpu, hempty⟩ h
  · rfl

theorem key_of_held (h : store.held key = some row) : row ∈ store.rows ∧ row.key = key :=
  ⟨List.mem_of_find?_eq_some h, by simpa using List.find?_some h⟩

theorem held_eq_none : store.held key = none ↔ ∀ r ∈ store.rows, r.key ≠ key := by
  simp [held, List.find?_eq_none]

theorem createProfile_eq_some (h : store.createProfile data now = some store') :
    (∀ r ∈ store.rows, r.key = data.key → r.key.gpuName = none) ∧
      store'.rows = store.rows ++ [⟨data, now, none⟩] := by
  rw [createProfile] at h
  split_ifs at h with hfree
  cases h
  exact ⟨hfree, rfl⟩

theorem exists_createProfile (h : store.held data.key = none) :
    ∃ store', store.createProfile data now = some store' := by
  have hfree : ∀ r ∈ store.rows, r.key = data.key → r.key.gpuName = none := fun r hr hkey =>
    absurd hkey (held_eq_none.mp h r hr)
  rw [createProfile, dif_pos hfree]
  exact ⟨_, rfl⟩

theorem held_createProfile (h : store.createProfile data now = some store') (key : ProfileKey) :
    store'.held key =
      (store.held key).or (if data.key = key then some ⟨data, now, none⟩ else none) := by
  rw [held, (createProfile_eq_some h).2, List.find?_append, held, List.find?_singleton]
  simp

theorem held_updateRow (key' : ProfileKey) (values : ProfileValues) :
    (store.updateRow key' values now).held key =
      (store.held key).map fun r => r.update key' values now := by
  rw [held, updateRow, List.find?_map, held]
  congr 2
  funext r
  rw [Function.comp, MemoryProfile.key_update]

theorem keys_updateRow (key : ProfileKey) (values : ProfileValues) :
    (store.updateRow key values now).rows.map (·.key) = store.rows.map (·.key) := by
  rw [updateRow, List.map_map]
  exact List.map_congr_left fun r _ => r.key_update key values now

theorem oneRowEach_createProfile (h : store.createProfile data now = some store') :
    store'.OneRowEach ↔ store.OneRowEach ∧ store.held data.key = none := by
  rw [OneRowEach, (createProfile_eq_some h).2, List.map_append, List.nodup_append, OneRowEach,
    held_eq_none]
  simp only [List.map_cons, List.map_nil, List.nodup_cons, List.not_mem_nil, not_false_eq_true,
    List.nodup_nil, and_self, List.mem_map, List.mem_singleton, true_and]
  refine and_congr_right fun _ => ⟨fun hne r hr => ?_, ?_⟩
  · exact hne _ ⟨r, hr, rfl⟩ _ rfl
  · rintro hne _ ⟨r, hr, rfl⟩ _ rfl
    exact hne r hr

/-- Only a profile that names no GPU can be stored beside another one of its key. -/
theorem oneRowEach_upsertProfile (hone : store.OneRowEach)
    (h : store.upsertProfile data now = some store') :
    store'.OneRowEach ↔ (data.key.gpuName = none → ∀ row ∈ store.rows, row.key ≠ data.key) := by
  rw [upsertProfile] at h
  by_cases hnamed : data.key.Named
  · have hsome : data.key.gpuName ≠ none := by
      obtain ⟨gpuName, hgpu, -⟩ := hnamed
      exact Option.ne_none_iff_exists'.mpr ⟨gpuName, hgpu⟩
    refine iff_of_true ?_ fun hnone => absurd hnone hsome
    rw [existing_of_named hnamed] at h
    cases hrow : store.held data.key with
    | none =>
      rw [hrow] at h
      exact (oneRowEach_createProfile h).mpr ⟨hone, hrow⟩
    | some row =>
      rw [hrow] at h
      cases h
      rw [OneRowEach, keys_updateRow]
      exact hone
  · rw [existing_of_not_named hnamed] at h
    rw [oneRowEach_createProfile h, held_eq_none]
    constructor
    · rintro ⟨-, hfree⟩ -
      exact hfree
    · intro hfree
      refine ⟨hone, fun row hrow hkey => ?_⟩
      have hnone := (createProfile_eq_some h).1 row hrow hkey
      exact hfree (hkey ▸ hnone) row hrow hkey

/-- A recording that names no GPU is never refused. -/
theorem upsertProfile_of_gpuName_none (h : data.key.gpuName = none) :
    ∃ store', store.upsertProfile data now = some store' := by
  have hnamed : ¬ data.key.Named := by
    rintro ⟨gpuName, hgpu, -⟩
    rw [h] at hgpu
    cases hgpu
  have hfree : ∀ r ∈ store.rows, r.key = data.key → r.key.gpuName = none := fun r _ hkey =>
    hkey ▸ h
  rw [upsertProfile, existing_of_not_named hnamed]
  exact ⟨_, dif_pos hfree⟩

/-- The row of a key after the sync of a profile of that key. -/
def MemoryProfile.syncedWith (profile : MemoryProfile) (now : Int) :
    Option MemoryProfile → MemoryProfile
  | none => ⟨profile.toCreateProfileData, now, none⟩
  | some row =>
    if profile.updatedAfter row then
      { row with values := profile.values, updatedAt := some now }
    else row

/-- The sync of a profile that names a GPU succeeds and changes the row of its key only. -/
theorem exists_syncProfile (store : MemoryProfileStore) (now : Int) (h : profile.key.Named) :
    ∃ store', store.syncProfile profile now = some store' ∧
      (store.OneRowEach → store'.OneRowEach) ∧
      ∀ key, store'.held key =
        if key = profile.key then some (profile.syncedWith now (store.held key))
        else store.held key := by
  rw [syncProfile, upsertProfile, existing_of_named h]
  cases hrow : store.held profile.key with
  | none =>
    obtain ⟨store', hcreate⟩ : ∃ store', store.createProfile profile.toCreateProfileData now =
        some store' := exists_createProfile hrow
    refine ⟨store', hcreate, fun hone => (oneRowEach_createProfile hcreate).mpr ⟨hone, hrow⟩,
      fun key => ?_⟩
    rw [held_createProfile hcreate]
    by_cases hkey : key = profile.key
    · subst hkey
      simp [hrow, MemoryProfile.syncedWith]
    · rw [if_neg (Ne.symm hkey), if_neg hkey, Option.or_none]
  | some row =>
    have hrowKey := (key_of_held hrow).2
    by_cases hafter : profile.updatedAfter row
    · refine ⟨_, if_pos hafter, fun hone => ?_, fun key => ?_⟩
      · rw [OneRowEach, keys_updateRow]
        exact hone
      · rw [held_updateRow, hrowKey]
        by_cases hkey : key = profile.key
        · subst hkey
          simp [hrow, MemoryProfile.syncedWith, hafter, MemoryProfile.update, hrowKey]
        · rw [if_neg hkey]
          cases hother : store.held key with
          | none => rfl
          | some r =>
            have hne : r.key ≠ profile.key := (key_of_held hother).2 ▸ hkey
            rw [Option.map_some, MemoryProfile.update, if_neg hne]
    · refine ⟨_, if_neg hafter, id, fun key => ?_⟩
      by_cases hkey : key = profile.key
      · subst hkey
        simp [hrow, MemoryProfile.syncedWith, hafter]
      · rw [if_neg hkey]

section SyncProfiles

variable {profiles : List MemoryProfile} {times : ProfileKey → Int}

theorem oneRowEach_syncProfiles (hnamed : ∀ p ∈ profiles, p.key.Named) (h : store.OneRowEach) :
    (store.syncProfiles times profiles).OneRowEach := by
  induction profiles generalizing store with
  | nil => exact h
  | cons p ps ih =>
    obtain ⟨store', hsync, hone, -⟩ :=
      exists_syncProfile store (times p.key) (hnamed p List.mem_cons_self)
    simp only [syncProfiles, hsync]
    exact ih (fun q hq => hnamed q (List.mem_cons_of_mem _ hq)) (hone h)

theorem held_syncProfiles_of_notMem (hnamed : ∀ p ∈ profiles, p.key.Named)
    (hkey : key ∉ profiles.map (·.key)) :
    (store.syncProfiles times profiles).held key = store.held key := by
  induction profiles generalizing store with
  | nil => rfl
  | cons p ps ih =>
    obtain ⟨store', hsync, -, hheld⟩ :=
      exists_syncProfile store (times p.key) (hnamed p List.mem_cons_self)
    simp only [List.map_cons, List.mem_cons, not_or] at hkey
    simp only [syncProfiles, hsync]
    rw [ih (fun q hq => hnamed q (List.mem_cons_of_mem _ hq)) hkey.2, hheld, if_neg hkey.1]

/-- With keys that occur once, each profile is synced with the row that its key had at first. -/
theorem held_syncProfiles (hnamed : ∀ p ∈ profiles, p.key.Named)
    (hnodup : (profiles.map (·.key)).Nodup) (hp : profile ∈ profiles) :
    (store.syncProfiles times profiles).held profile.key =
      some (profile.syncedWith (times profile.key) (store.held profile.key)) := by
  induction profiles generalizing store with
  | nil => cases hp
  | cons p ps ih =>
    obtain ⟨store', hsync, -, hheld⟩ :=
      exists_syncProfile store (times p.key) (hnamed p List.mem_cons_self)
    have hrest : ∀ q ∈ ps, q.key.Named := fun q hq => hnamed q (List.mem_cons_of_mem _ hq)
    obtain ⟨hnew, hnodup⟩ := List.nodup_cons.mp hnodup
    simp only [syncProfiles, hsync]
    rcases List.mem_cons.mp hp with rfl | hp
    · rw [held_syncProfiles_of_notMem hrest hnew, hheld, if_pos rfl]
    · have hne : profile.key ≠ p.key := fun heq =>
        hnew (List.mem_map.mpr ⟨profile, hp, heq⟩)
      rw [ih hrest hnodup hp, hheld, if_neg hne]

end SyncProfiles

end GpuSharing.Sardeenz.MemoryProfiles
