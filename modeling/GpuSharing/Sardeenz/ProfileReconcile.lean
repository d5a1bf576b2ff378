import GpuSharing.Lib.LatestMerge
import GpuSharing.Lib.Transition
import GpuSharing.Sardeenz.ProfileStore

namespace GpuSharing.Sardeenz.MemoryProfiles

/-- The key that the collected profiles are deduplicated by. -/
def MemoryProfile.mergeKey (p : MemoryProfile) : String :=
  p.key.modelPath ++ ":" ++ toString p.key.maxTokens ++ ":" ++ p.key.gpuName.getD ""

def MemoryProfile.stamp (p : MemoryProfile) : Int := p.updatedAt.getD p.createdAt

/-- The unified profiles: of each key the collected profile with the latest stamp. -/
def deduped (allProfiles : List MemoryProfile) : List MemoryProfile :=
  LatestMerge.merge MemoryProfile.mergeKey MemoryProfile.stamp allProfiles

/-- The fields of a profile that the sync route reads. -/
def MemoryProfile.sent (p : MemoryProfile) : CreateProfileData × Option Int :=
  (p.toCreateProfileData, p.updatedAt)

def localProfiles (store : MemoryProfileStore) : List MemoryProfile :=
  store.listProfiles.filter fun p => p.key.Named

def peerProfiles (store : MemoryProfileStore) : List MemoryProfile :=
  store.listProfiles.filter fun p => p.key.modelPath ≠ "" ∧ p.key.Named

/-- A cluster of pods with their profiles. `newest` is what was recorded last under each key, by the
time of its recording; `reconciled` says that a round has reached every member since. -/
structure ProfileCluster where
  members : List String
  stores : String → MemoryProfileStore
  newest : ProfileKey → Option (Int × ProfileValues)
  reconciled : Bool

/-- A pod records a profile, or coordinates a reconcile round: `answering` are the healthy peers
that answer its collection, in this order, and `accepting` those that its push reaches. Each pod
writes the row of a key at the time of its own clock. -/
inductive ProfileAct
  | record (pod : String) (data : CreateProfileData) (now : Int)
  | round (coordinator : String) (answering accepting : List String)
    (now : String → ProfileKey → Int)

namespace ProfileCluster

/-- The profiles that the coordinator collects. -/
def allProfiles (s : ProfileCluster) (coordinator : String) (answering : List String) :
    List MemoryProfile :=
  localProfiles (s.stores coordinator) ++
    (answering.filter (· ≠ coordinator)).flatMap fun pod => peerProfiles (s.stores pod)

/-- The pods that take the unified profiles. The coordinator does not. -/
def Takes (coordinator : String) (accepting : List String) (pod : String) : Prop :=
  pod ≠ coordinator ∧ pod ∈ accepting

instance (coordinator : String) (accepting : List String) (pod : String) :
    Decidable (Takes coordinator accepting pod) :=
  inferInstanceAs (Decidable (_ ∧ _))

/-- The round reaches every other member. -/
def Full (s : ProfileCluster) (coordinator : String) (answering accepting : List String) : Prop :=
  ∀ pod ∈ s.members, pod ≠ coordinator → pod ∈ answering ∧ pod ∈ accepting

instance (s : ProfileCluster) (coordinator : String) (answering accepting : List String) :
    Decidable (s.Full coordinator answering accepting) :=
  inferInstanceAs (Decidable (∀ pod ∈ s.members, _))

def newestAfter (newest : ProfileKey → Option (Int × ProfileValues)) (data : CreateProfileData)
    (now : Int) : ProfileKey → Option (Int × ProfileValues) :=
  if ∀ old ∈ newest data.key, old.1 ≤ now then
    Function.update newest data.key (some (now, data.values))
  else newest

def step (s : ProfileCluster) : ProfileAct → Option ProfileCluster
  | .record pod data now =>
    if pod ∈ s.members then
      match (s.stores pod).upsertProfile data now with
      | some store => some
          { s with
            stores := Function.update s.stores pod store
            newest := newestAfter s.newest data now
            reconciled := false }
      | none => some s
    else none
  | .round coordinator answering accepting now =>
    if coordinator ∈ s.members then some
      { s with
        stores := fun pod =>
          if Takes coordinator accepting pod then
            (s.stores pod).syncProfiles (now pod) (deduped (s.allProfiles coordinator answering))
          else s.stores pod
        reconciled := s.reconciled || s.Full coordinator answering accepting }
    else none

def Holds (s : ProfileCluster) (pod : String) (key : ProfileKey) (values : ProfileValues) : Prop :=
  ∃ row, (s.stores pod).held key = some row ∧ row.values = values

/-- No key has two rows on one pod, and once a round has reached every member since the last
recording they all hold the newest profile of each key. -/
structure Converged (s : ProfileCluster) : Prop where
  oneRowEach : ∀ pod, (s.stores pod).OneRowEach
  newest : s.reconciled = true → ∀ key stamp values, s.newest key = some (stamp, values) →
    ∀ pod ∈ s.members, s.Holds pod key values

/-- The first of the collected profiles with the latest stamp among those that it is deduplicated
with. -/
def Latest (s : ProfileCluster) (coordinator : String) (answering : List String)
    (p : MemoryProfile) : Prop :=
  LatestMerge.FirstLatest MemoryProfile.mergeKey MemoryProfile.stamp
    (s.allProfiles coordinator answering) p

/-- What a pod holds under a key gives way to what it should: the pod has no row, or a row updated
before the collected profile with the latest stamp was; or it has the newest values already, and
no other values were updated later. -/
def Accepts (latest : MemoryProfile → Prop) (key : ProfileKey) (values : ProfileValues) :
    Option MemoryProfile → Prop
  | none => ∃ p, latest p ∧ p.key = key ∧ p.values = values
  | some row =>
    (row.values = values ∧
      ∀ p, latest p → p.key = key → p.updatedAfter row = true → p.values = values) ∨
    ∃ p, latest p ∧ p.key = key ∧ p.updatedAfter row = true ∧ p.values = values

/-- A profile that names no GPU is recorded only where its key has no row. In a round that reaches
every member, or comes after one, a pod that takes no profiles holds the newest one of each key,
and every other pod accepts it. -/
def KeepsNewest (s : ProfileCluster) : ProfileAct → Prop
  | .record pod data _ =>
    data.key.gpuName = none → ∀ row ∈ (s.stores pod).rows, row.key ≠ data.key
  | .round coordinator answering accepting _ =>
    s.reconciled = true ∨ s.Full coordinator answering accepting →
      ∀ key stamp values, s.newest key = some (stamp, values) → ∀ pod ∈ s.members,
        if Takes coordinator accepting pod then
          Accepts (s.Latest coordinator answering) key values ((s.stores pod).held key)
        else s.Holds pod key values

variable {s t : ProfileCluster} {coordinator pod : String} {answering accepting : List String}
  {key : ProfileKey} {values : ProfileValues}

theorem named_of_mem_allProfiles {p : MemoryProfile}
    (hp : p ∈ s.allProfiles coordinator answering) : p.key.Named := by
  rcases List.mem_append.mp hp with hp | hp
  · simpa using (List.mem_filter.mp hp).2
  · obtain ⟨pod, -, hp⟩ := List.mem_flatMap.mp hp
    exact (by simpa using (List.mem_filter.mp hp).2 : _ ∧ p.key.Named).2

theorem named_of_mem_deduped {p : MemoryProfile}
    (hp : p ∈ deduped (s.allProfiles coordinator answering)) : p.key.Named :=
  named_of_mem_allProfiles (LatestMerge.mem_merge_iff.mp hp).mem

/-- Profiles with one key are deduplicated with each other. -/
theorem nodup_keys_deduped (allProfiles : List MemoryProfile) :
    ((deduped allProfiles).map (·.key)).Nodup := by
  have hnodup : ((deduped allProfiles).map MemoryProfile.mergeKey).Nodup :=
    LatestMerge.nodup_merge allProfiles
  refine List.Nodup.of_map (fun key : ProfileKey =>
    key.modelPath ++ ":" ++ toString key.maxTokens ++ ":" ++ key.gpuName.getD "") ?_
  rw [List.map_map]
  exact hnodup

/-- The row of a pod after it has taken the unified profiles. -/
theorem held_pushed (s : ProfileCluster) (coordinator : String) (answering : List String)
    (store : MemoryProfileStore) (times : ProfileKey → Int) (key : ProfileKey) :
    (∀ p, s.Latest coordinator answering p → p.key ≠ key) ∧
        (store.syncProfiles times (deduped (s.allProfiles coordinator answering))).held key =
          store.held key ∨
      ∃ p, s.Latest coordinator answering p ∧ p.key = key ∧
        (∀ q, s.Latest coordinator answering q → q.key = key → q = p) ∧
        (store.syncProfiles times (deduped (s.allProfiles coordinator answering))).held key =
          some (p.syncedWith (times key) (store.held key)) := by
  have hnodup := nodup_keys_deduped (s.allProfiles coordinator answering)
  have hnamed : ∀ p ∈ deduped (s.allProfiles coordinator answering), p.key.Named :=
    fun p hp => named_of_mem_deduped hp
  by_cases hkey : key ∈ (deduped (s.allProfiles coordinator answering)).map (·.key)
  · obtain ⟨p, hp, rfl⟩ := List.mem_map.mp hkey
    refine .inr ⟨p, LatestMerge.mem_merge_iff.mp hp, rfl, fun q hq heq => ?_,
      held_syncProfiles hnamed hnodup hp⟩
    exact List.inj_on_of_nodup_map hnodup (LatestMerge.mem_merge_iff.mpr hq) hp heq
  · refine .inl ⟨fun p hp heq => hkey ?_, held_syncProfiles_of_notMem hnamed hkey⟩
    exact List.mem_map.mpr ⟨p, LatestMerge.mem_merge_iff.mpr hp, heq⟩

/-- A pod that takes the unified profiles holds the newest one afterwards if it accepts it. -/
theorem accepts_iff (store : MemoryProfileStore) (times : ProfileKey → Int) (key : ProfileKey)
    (values : ProfileValues) :
    (∃ row, (store.syncProfiles times (deduped (s.allProfiles coordinator answering))).held key =
        some row ∧ row.values = values) ↔
      Accepts (s.Latest coordinator answering) key values (store.held key) := by
  obtain ⟨hnone, hheld⟩ | ⟨p, hp, hkey, huniq, hheld⟩ :=
    held_pushed s coordinator answering store times key
  · rw [hheld]
    cases hrow : store.held key with
    | none =>
      refine iff_of_false (by simp) ?_
      rintro ⟨p, hp, hkey, -⟩
      exact hnone p hp hkey
    | some row =>
      constructor
      · rintro ⟨_, ⟨⟩, hvalues⟩
        exact .inl ⟨hvalues, fun p hp hkey => absurd hkey (hnone p hp)⟩
      · rintro (⟨hvalues, -⟩ | ⟨p, hp, hkey, -⟩)
        · exact ⟨row, rfl, hvalues⟩
        · exact absurd hkey (hnone p hp)
  · rw [hheld]
    cases hrow : store.held key with
    | none =>
      constructor
      · rintro ⟨_, ⟨⟩, hvalues⟩
        exact ⟨p, hp, hkey, hvalues⟩
      · rintro ⟨q, hq, hqkey, hvalues⟩
        cases huniq q hq hqkey
        exact ⟨_, rfl, hvalues⟩
    | some row =>
      by_cases hafter : p.updatedAfter row = true
      · have hsynced : (p.syncedWith (times key) (some row)).values = p.values := by
          rw [MemoryProfile.syncedWith, if_pos hafter]
        constructor
        · rintro ⟨_, ⟨⟩, hvalues⟩
          exact .inr ⟨p, hp, hkey, hafter, hsynced ▸ hvalues⟩
        · rintro (⟨-, hkeep⟩ | ⟨q, hq, hqkey, -, hvalues⟩)
          · exact ⟨_, rfl, hsynced.trans (hkeep p hp hkey hafter)⟩
          · cases huniq q hq hqkey
            exact ⟨_, rfl, hsynced.trans hvalues⟩
      · have hsynced : p.syncedWith (times key) (some row) = row := by
          rw [MemoryProfile.syncedWith, if_neg hafter]
        rw [hsynced]
        constructor
        · rintro ⟨_, ⟨⟩, hvalues⟩
          exact .inl ⟨hvalues, fun q hq hqkey h => absurd (huniq q hq hqkey ▸ h) hafter⟩
        · rintro (⟨hvalues, -⟩ | ⟨q, hq, hqkey, h, -⟩)
          · exact ⟨row, rfl, hvalues⟩
          · exact absurd (huniq q hq hqkey ▸ h) hafter

theorem converged_record_iff (h : s.Converged) {data : CreateProfileData} {now : Int}
    (ht : s.step (.record pod data now) = some t) :
    t.Converged ↔ s.KeepsNewest (.record pod data now) := by
  simp only [step] at ht
  split_ifs at ht
  cases hstore : (s.stores pod).upsertProfile data now with
  | none =>
    rw [hstore] at ht
    cases ht
    refine iff_of_true h fun hnone => ?_
    obtain ⟨store, hsome⟩ : ∃ store, (s.stores pod).upsertProfile data now = some store :=
      upsertProfile_of_gpuName_none hnone
    rw [hstore] at hsome
    cases hsome
  | some store =>
    rw [hstore] at ht
    cases ht
    have hone := oneRowEach_upsertProfile (h.oneRowEach pod) hstore
    constructor
    · intro hafter
      refine hone.mp ?_
      have hpod := hafter.oneRowEach pod
      dsimp only at hpod
      rw [Function.update_self] at hpod
      exact hpod
    · intro hkeeps
      refine ⟨fun other => ?_, nofun⟩
      dsimp only
      by_cases heq : other = pod
      · subst heq
        rw [Function.update_self]
        exact hone.mpr hkeeps
      · rw [Function.update_of_ne heq]
        exact h.oneRowEach other

theorem converged_round_iff (h : s.Converged) {now : String → ProfileKey → Int}
    (ht : s.step (.round coordinator answering accepting now) = some t) :
    t.Converged ↔ s.KeepsNewest (.round coordinator answering accepting now) := by
  simp only [step] at ht
  split_ifs at ht
  cases ht
  have hone : ∀ pod, (if Takes coordinator accepting pod then
      (s.stores pod).syncProfiles (now pod) (deduped (s.allProfiles coordinator answering))
      else s.stores pod).OneRowEach := by
    intro pod
    split_ifs
    · exact oneRowEach_syncProfiles (fun p hp => named_of_mem_deduped hp) (h.oneRowEach pod)
    · exact h.oneRowEach pod
  have hholds : ∀ pod key values, (∃ row, (if Takes coordinator accepting pod then
      (s.stores pod).syncProfiles (now pod) (deduped (s.allProfiles coordinator answering))
      else s.stores pod).held key = some row ∧ row.values = values) ↔
      if Takes coordinator accepting pod then
        Accepts (s.Latest coordinator answering) key values ((s.stores pod).held key)
      else s.Holds pod key values := by
    intro pod key values
    split_ifs
    · exact accepts_iff (s.stores pod) (now pod) key values
    · exact Iff.rfl
  have hreconciled : (s.reconciled || decide (s.Full coordinator answering accepting)) = true ↔
      s.reconciled = true ∨ s.Full coordinator answering accepting := by
    simp
  constructor
  · intro hafter hfull key stamp values hnewest pod hpod
    exact (hholds pod key values).mp
      (hafter.newest (hreconciled.mpr hfull) key stamp values hnewest pod hpod)
  · intro hkeeps
    refine ⟨hone, fun hfull key stamp values hnewest pod hpod => ?_⟩
    exact (hholds pod key values).mpr
      (hkeeps (hreconciled.mp hfull) key stamp values hnewest pod hpod)

theorem converged_step_iff (h : s.Converged) {a : ProfileAct} (ht : s.step a = some t) :
    t.Converged ↔ s.KeepsNewest a := by
  cases a with
  | record pod data now => exact converged_record_iff h ht
  | round coordinator answering accepting now => exact converged_round_iff h ht

/-- Whatever the pods hold at first, `newest` has of each key what was recorded last. -/
structure Started (s : ProfileCluster) : Prop where
  oneRowEach : ∀ pod, (s.stores pod).OneRowEach
  newest : ∀ key, match s.newest key with
    | some (stamp, values) => (∃ pod ∈ s.members, ∃ row ∈ (s.stores pod).rows,
        row.key = key ∧ row.stamp = stamp ∧ row.values = values) ∧
          ∀ pod ∈ s.members, ∀ row ∈ (s.stores pod).rows, row.key = key → row.stamp ≤ stamp
    | none => ∀ pod ∈ s.members, ∀ row ∈ (s.stores pod).rows, row.key ≠ key
  reconciled : s.reconciled = false

end ProfileCluster

/-- Of the profiles that are deduplicated with each other, those with the latest stamp say the
same. -/
def AgreeWhenTied (allProfiles : List MemoryProfile) : Prop :=
  ∀ p q, LatestMerge.Greatest MemoryProfile.mergeKey MemoryProfile.stamp allProfiles p →
    LatestMerge.Greatest MemoryProfile.mergeKey MemoryProfile.stamp allProfiles q →
      p.mergeKey = q.mergeKey → p.sent = q.sent

/-- The profile that the deduplication keeps under a key. -/
def unified (allProfiles : List MemoryProfile) (mergeKey : String) : Option MemoryProfile :=
  LatestMerge.latest MemoryProfile.mergeKey MemoryProfile.stamp allProfiles mergeKey

open ProfileCluster

/-- The deduplication is idempotent, it is independent of the order exactly when tied profiles say
the same, and the profiles have converged after every act of a run exactly when every act keeps the
newest ones. -/
theorem profiles_converge_iff {s u : ProfileCluster} {acts : List ProfileAct} (hs : s.Started)
    (hrun : Transition.run step s acts = some u) :
    (∀ allProfiles, deduped (deduped allProfiles) = deduped allProfiles) ∧
      (∀ allProfiles, (∀ reordered : List MemoryProfile, reordered.Perm allProfiles →
        ∀ mergeKey, (unified reordered mergeKey).map MemoryProfile.sent =
          (unified allProfiles mergeKey).map MemoryProfile.sent) ↔ AgreeWhenTied allProfiles) ∧
      (Transition.Along step (fun s a => ∀ t, s.step a = some t → t.Converged) s acts ↔
        Transition.Along step KeepsNewest s acts) := by
  refine ⟨fun allProfiles => LatestMerge.merge_idem allProfiles, fun allProfiles =>
    LatestMerge.latest_perm_iff MemoryProfile.sent, ?_⟩
  have hconverged : s.Converged := by
    refine ⟨hs.oneRowEach, fun h => ?_⟩
    rw [hs.reconciled] at h
    cases h
  exact Transition.along_next_iff (I := fun _ => True) (E := fun _ _ => True)
    (fun _ _ _ _ h _ ht => converged_step_iff h ht) (fun _ _ _ _ _ _ => trivial) trivial
    hconverged (Transition.along_of_mem (fun _ _ _ => trivial) s) hrun

namespace ProfileCluster

/-- Two pods without profiles. -/
def start : ProfileCluster where
  members := ["a", "b"]
  stores := fun _ => ⟨[], List.Pairwise.nil⟩
  newest := fun _ => none
  reconciled := false

theorem started_start : start.Started where
  oneRowEach := fun _ => List.nodup_nil
  newest := fun _ _ _ _ h => absurd h List.not_mem_nil
  reconciled := rfl

def measured (weightsMemoryGib : ℚ) : CreateProfileData where
  key := ⟨"org/model", 4096, some "A100"⟩
  values :=
    { profileName := "org/model @ 4096 tokens"
      totalGpuMemoryGib := 20
      weightsMemoryGib := weightsMemoryGib
      cudaGraphsGib := 1
      overheadMemoryGib := 1
      kvCacheAvailableGib := 4
      kvCachePerRequestMib := none
      gpuTotalMemoryGib := some 80
      comments := none }
  createdBy := none

/-- Both pods record a profile of one key, b the newer one, and both coordinate a round. -/
def bothRecord : List ProfileAct :=
  [.record "a" (measured 14) 1, .record "b" (measured 15) 2,
    .round "a" ["b"] ["b"] fun _ _ => 3, .round "b" ["a"] ["a"] fun _ _ => 4]

def afterRounds : ProfileCluster :=
  (Transition.run step start bothRecord).get (by decide +kernel)

theorem created_row_never_replaced :
    Transition.run step start bothRecord = some afterRounds ∧ ¬ afterRounds.Converged := by
  refine ⟨(Option.some_get _).symm, fun hconverged => ?_⟩
  have hnewest : afterRounds.newest (measured 15).key = some (2, (measured 15).values) := by
    decide +kernel
  obtain ⟨row, hrow, hvalues⟩ :=
    hconverged.newest (by decide +kernel) _ _ _ hnewest "a" (by decide +kernel)
  have hheld : (afterRounds.stores "a").held (measured 15).key = some ⟨measured 14, 1, none⟩ := by
    decide +kernel
  cases hheld.symm.trans hrow
  exact absurd hvalues (by decide +kernel)

def recordOne : ProfileAct := .record "a" (measured 14) 1

def afterRecord : ProfileCluster := (start.step recordOne).get (by decide +kernel)

theorem newest_afterRecord {key : ProfileKey} {stamp : Int} {values : ProfileValues}
    (h : afterRecord.newest key = some (stamp, values)) :
    key = (measured 14).key ∧ values = (measured 14).values := by
  have hupdate : afterRecord.newest =
      Function.update (fun _ => none) (measured 14).key (some (1, (measured 14).values)) := by
    simp [afterRecord, recordOne, step, start, MemoryProfileStore.upsertProfile,
      MemoryProfileStore.createProfile, MemoryProfileStore.existing,
      MemoryProfileStore.lookupProfile, newestAfter, measured]
  rw [hupdate] at h
  by_cases hkey : key = (measured 14).key
  · subst hkey
    rw [Function.update_self] at h
    cases h
    exact ⟨rfl, rfl⟩
  · rw [Function.update_of_ne hkey] at h
    cases h

/-- A recorded profile, distributed by its own pod. -/
theorem profiles_converge_iff_distributed :
    Transition.Along step (fun s a => ∀ t, s.step a = some t → t.Converged) start
      [recordOne, .round "a" ["b"] ["b"] fun _ _ => 2] := by
  have hrun : (Transition.run step start
      [recordOne, .round "a" ["b"] ["b"] fun _ _ => 2]).isSome := by
    decide +kernel
  have hstep : start.step recordOne = some afterRecord := (Option.some_get _).symm
  refine (profiles_converge_iff started_start (Option.some_get hrun).symm).2.2.mpr
    ((Transition.along_cons hstep).mpr ⟨fun hnone => (by cases hnone), ?_, ?_⟩)
  · intro _ key stamp values hnewest pod hpod
    obtain ⟨rfl, rfl⟩ := newest_afterRecord hnewest
    have hmembers : afterRecord.members = ["a", "b"] := by decide +kernel
    rw [hmembers] at hpod
    rcases List.mem_cons.mp hpod with rfl | hpod
    · rw [if_neg (by decide)]
      exact ⟨⟨measured 14, 1, none⟩, by decide +kernel, rfl⟩
    · cases List.mem_singleton.mp hpod
      have hnone : (afterRecord.stores "b").held (measured 14).key = none := by decide +kernel
      have hall : afterRecord.allProfiles "a" ["b"] = [⟨measured 14, 1, none⟩] := by decide +kernel
      rw [if_pos (by decide), hnone]
      refine ⟨⟨measured 14, 1, none⟩, ?_, rfl, rfl⟩
      rw [Latest, hall]
      exact ⟨[], [], rfl, fun _ h => absurd h List.not_mem_nil, fun _ h =>
        absurd h List.not_mem_nil⟩
  · split <;> trivial

end ProfileCluster

end GpuSharing.Sardeenz.MemoryProfiles
