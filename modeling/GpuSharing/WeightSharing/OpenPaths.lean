import GpuSharing.Lib.Numerals
import GpuSharing.WeightSharing.ImportSession

namespace GpuSharing.WeightSharing

namespace Worker

variable {P : Type} (w : Worker) (order : SetOrder) (sha256 : String → String)
  (rebuild : IpcRebuild P)

/-- `import_weights` alone. -/
def directImport (ready : Bool) (R : Registry P) : ImportOutcome P :=
  w.importWeights order sha256 rebuild ready (some R) ∅

/-- `pre_open_handles` and then `import_weights`, over one registry; an error of the first ends the
process. -/
def preOpenedImport (ready : Bool) (R : Registry P) : ImportOutcome P :=
  let o := w.preOpenHandles order rebuild w.deviceIndex ready (some R) ∅
  match o.error with
  | some e => ⟨o.cache, [], some e⟩
  | none => w.importWeights order sha256 rebuild ready (some R) o.cache

/-- Both paths accept the registry, or neither does; if they do they install the same tensors. -/
def PathsAgree (ready : Bool) (R : Registry P) : Prop :=
  ((w.preOpenedImport order sha256 rebuild ready R).error = none ↔
      (w.directImport order sha256 rebuild ready R).error = none) ∧
    ((w.preOpenedImport order sha256 rebuild ready R).error = none →
      (w.directImport order sha256 rebuild ready R).error = none →
      (w.preOpenedImport order sha256 rebuild ready R).installed =
        (w.directImport order sha256 rebuild ready R).installed)

/-- The tensor that the entry's handle for a GPU opens to. -/
def opens (gpuUuid : String) (e : String × WeightInfo P) : Option (IpcTensor P) :=
  (e.2.handles.lookup gpuUuid).bind (rebuild.rebuild w.deviceIndex e.1)

/-- The tensor that `import_weights` takes for an entry. -/
def source (cache : PreOpened P) (e : String × WeightInfo P) : Option (IpcTensor P) :=
  match cache.lookup (w.cacheKey e.1) with
  | some t => some t
  | none => w.opens rebuild w.gpuUuid e

/-- The entries that `pre_open_handles` goes through: whether the model has such a parameter is not
known yet. -/
def preOpenEntries (R : Registry P) : List (String × WeightInfo P) :=
  R.entries (order.order (filterShareableParamNames (R.weights.map (·.1)) w.config))

def importEntries (R : Registry P) : List (String × WeightInfo P) :=
  R.entries (w.expectedNames order)

/-- What `import_weights` checks of a registry, but for the handles. -/
structure Checked (ready : Bool) (R : Registry P) : Prop where
  secondary : w.config.mode = .secondary
  lora : w.model.hasLora = false
  ready : ready = true
  valid : w.validate order sha256 R = none
  dtypes : ∀ e ∈ w.importEntries order R, (elementSize e.2.dtype).isSome = true

/-- Each path finds a handle that it cannot open, or none at all. -/
structure NeitherOpens (R : Registry P) : Prop where
  preOpen : ∀ gpuUuid, R.findGpuUuid = some gpuUuid →
    ∃ e ∈ w.preOpenEntries order R, w.opens rebuild gpuUuid e = none
  direct : ∃ e ∈ w.importEntries order R, w.opens rebuild w.gpuUuid e = none

/-- The handles for the registry's first GPU open, for parameters that the model lacks too, and to the
tensors that those for the worker's own GPU open to. -/
structure SameTensors (gpuUuid : String) (R : Registry P) : Prop where
  first : R.findGpuUuid = some gpuUuid
  opened : ∀ e ∈ w.preOpenEntries order R, (w.opens rebuild gpuUuid e).isSome = true
  same : ∀ e ∈ w.importEntries order R, w.opens rebuild w.gpuUuid e = w.opens rebuild gpuUuid e

variable {w order sha256 rebuild} {R : Registry P} {ready : Bool}

/-- What the loop of `import_weights` does with an entry of a parameter of the model. -/
theorem importLoop_source (rebuild : IpcRebuild P) {name : String}
    (hname : name ∈ w.model.paramNames) (info : WeightInfo P)
    (entries : List (String × WeightInfo P)) (cache : PreOpened P)
    (installed : List (String × IpcTensor P)) :
    (∃ t cache', w.source rebuild cache (name, info) = some t ∧
      w.importLoop rebuild ((name, info) :: entries) cache installed =
        w.importLoop rebuild entries cache' (installed ++ [(name, t)]) ∧
      ∀ e : String × WeightInfo P, e.1 ≠ name →
        w.source rebuild cache' e = w.source rebuild cache e) ∨
    (∃ e, w.source rebuild cache (name, info) = none ∧
      w.importLoop rebuild ((name, info) :: entries) cache installed =
        ⟨cache, installed, some e⟩) := by
  simp only [importLoop, if_neg (not_not.mpr hname)]
  unfold source
  cases hpop : cache.pop (w.cacheKey name) with
  | some popped =>
    obtain ⟨t, rest⟩ := popped
    obtain ⟨ht, rfl⟩ := Dict.pop_eq_some.mp hpop
    refine .inl ⟨t, _, by rw [ht], rfl, ?_⟩
    intro e hne
    rw [AList.lookup_erase_ne fun hkey => hne (cacheKey_injective hkey)]
  | none =>
    rw [Dict.pop_eq_none.mp hpop]
    dsimp only [opens]
    cases hh : info.handles.lookup w.gpuUuid with
    | none => exact .inr ⟨_, rfl, rfl⟩
    | some h =>
      dsimp only [Option.bind_some]
      cases ht : rebuild.rebuild w.deviceIndex name h with
      | none => exact .inr ⟨_, rfl, rfl⟩
      | some t => exact .inl ⟨t, cache, rfl, rfl, fun _ _ => rfl⟩

/-- The loop of `import_weights` takes every entry's tensor, or stops at the first that has none. -/
theorem importLoop_sources (rebuild : IpcRebuild P) {entries : List (String × WeightInfo P)}
    (hparams : ∀ e ∈ entries, e.1 ∈ w.model.paramNames) (hnodup : (entries.map (·.1)).Nodup)
    (cache : PreOpened P) (installed : List (String × IpcTensor P)) :
    (∀ e ∈ entries, (w.source rebuild cache e).isSome = true) ∧
      (w.importLoop rebuild entries cache installed).error = none ∧
      (w.importLoop rebuild entries cache installed).installed = installed ++
        entries.filterMap (fun e => (w.source rebuild cache e).map (e.1, ·)) ∨
    (∃ e ∈ entries, w.source rebuild cache e = none) ∧
      (w.importLoop rebuild entries cache installed).error.isSome = true := by
  induction entries generalizing cache installed with
  | nil => exact .inl ⟨by simp, rfl, by simp [importLoop]⟩
  | cons entry entries ih =>
    obtain ⟨name, info⟩ := entry
    obtain ⟨hname, hrest⟩ := List.forall_mem_cons.mp hparams
    obtain ⟨hfresh, htail⟩ := List.nodup_cons.mp hnodup
    rcases importLoop_source rebuild hname info entries cache installed with
      ⟨t, cache', hsource, heq, hsame⟩ | ⟨e, hsource, heq⟩
    · have hkeep : ∀ e ∈ entries, w.source rebuild cache' e = w.source rebuild cache e := by
        intro e he
        refine hsame e ?_
        rintro rfl
        exact hfresh (List.mem_map.mpr ⟨e, he, rfl⟩)
      rw [heq]
      rcases ih hrest htail cache' (installed ++ [(name, t)]) with
        ⟨hall, hok, hinstalled⟩ | ⟨⟨e, he, hnone⟩, herr⟩
      · refine .inl ⟨?_, hok, ?_⟩
        · refine List.forall_mem_cons.mpr ⟨by rw [hsource]; rfl, ?_⟩
          intro e he
          rw [← hkeep e he]
          exact hall e he
        · rw [hinstalled, List.filterMap_cons, hsource, List.append_assoc]
          refine congrArg (installed ++ (name, t) :: ·) (List.filterMap_congr ?_)
          intro e he
          rw [hkeep e he]
      · refine .inr ⟨⟨e, List.mem_cons_of_mem _ he, ?_⟩, herr⟩
        rw [← hkeep e he]
        exact hnone
    · rw [heq]
      exact .inr ⟨⟨_, List.mem_cons_self, hsource⟩, rfl⟩

/-- The loop of `pre_open_handles` opens every entry's handle, or stops at the first it cannot. -/
theorem preOpenLoop_opens (rebuild : IpcRebuild P) (gpuUuid : String) {entries : List (String × WeightInfo P)}
    (hnodup : (entries.map (·.1)).Nodup) (cache : PreOpened P) (opened : Nat) :
    (∀ e ∈ entries, (w.opens rebuild gpuUuid e).isSome = true) ∧
      (w.preOpenLoop rebuild w.deviceIndex gpuUuid entries cache opened).error = none ∧
      (∀ e ∈ entries, (w.preOpenLoop rebuild w.deviceIndex gpuUuid entries cache
        opened).cache.lookup (w.cacheKey e.1) = w.opens rebuild gpuUuid e) ∧
      (∀ name ∉ entries.map (·.1), (w.preOpenLoop rebuild w.deviceIndex gpuUuid entries cache
        opened).cache.lookup (w.cacheKey name) = cache.lookup (w.cacheKey name)) ∨
    (∃ e ∈ entries, w.opens rebuild gpuUuid e = none) ∧
      (w.preOpenLoop rebuild w.deviceIndex gpuUuid entries cache opened).error.isSome = true := by
  induction entries generalizing cache opened with
  | nil => exact .inl ⟨by simp, rfl, by simp, fun _ _ => rfl⟩
  | cons entry entries ih =>
    obtain ⟨name, info⟩ := entry
    obtain ⟨hfresh, htail⟩ := List.nodup_cons.mp hnodup
    cases hopens : w.opens rebuild gpuUuid (name, info) with
    | none =>
      refine .inr ⟨⟨_, List.mem_cons_self, hopens⟩, ?_⟩
      unfold opens at hopens
      unfold preOpenLoop
      cases hh : info.handles.lookup gpuUuid with
      | none => rfl
      | some h =>
        dsimp only at hopens ⊢
        rw [hh, Option.bind_some] at hopens
        rw [hopens]
        rfl
    | some t =>
      have hstep : w.preOpenLoop rebuild w.deviceIndex gpuUuid ((name, info) :: entries) cache
          opened = w.preOpenLoop rebuild w.deviceIndex gpuUuid entries
            (cache.setItem (w.cacheKey name) t) (opened + 1) := by
        unfold opens at hopens
        rw [preOpenLoop]
        obtain ⟨h, hh, ht⟩ := Option.bind_eq_some_iff.mp hopens
        dsimp only at hh ht
        rw [hh]
        dsimp only
        rw [ht]
      rw [hstep]
      rcases ih htail (cache.setItem (w.cacheKey name) t) (opened + 1) with
        ⟨hall, hok, hcached, hkept⟩ | ⟨⟨e, he, hnone⟩, herr⟩
      · refine .inl ⟨List.forall_mem_cons.mpr ⟨by rw [hopens]; rfl, hall⟩, hok,
          List.forall_mem_cons.mpr ⟨?_, hcached⟩, ?_⟩
        · rw [hkept name hfresh, Dict.lookup_setItem, if_pos rfl, hopens]
        · intro other hother
          rw [List.map_cons, List.mem_cons, not_or] at hother
          rw [hkept other hother.2, Dict.lookup_setItem,
            if_neg fun hkey => hother.1 (cacheKey_injective hkey)]
      · exact .inr ⟨⟨e, List.mem_cons_of_mem _ he, hnone⟩, herr⟩

theorem mem_entries {names : List String} {e : String × WeightInfo P} :
    e ∈ R.entries names ↔ e.1 ∈ names ∧ R.weights.lookup e.1 = some e.2 := by
  unfold Registry.entries
  constructor
  · intro he
    obtain ⟨name, hname, hmap⟩ := List.mem_filterMap.mp he
    obtain ⟨info, hinfo, rfl⟩ := Option.map_eq_some_iff.mp hmap
    exact ⟨hname, hinfo⟩
  · rintro ⟨hname, hinfo⟩
    exact List.mem_filterMap.mpr ⟨e.1, hname, by rw [hinfo]; rfl⟩

theorem entries_nodup {names : List String} (h : names.Nodup) :
    ((R.entries names).map (·.1)).Nodup := by
  rw [entries_names]
  exact h.filter _

/-- The parameters of the import are among those of the registry. -/
theorem preOpenEntries_of_import {e : String × WeightInfo P} (he : e ∈ w.importEntries order R) :
    e ∈ w.preOpenEntries order R := by
  obtain ⟨hname, hinfo⟩ := mem_entries.mp he
  refine mem_entries.mpr ⟨?_, hinfo⟩
  have hexpected := List.mem_dedup.mp ((order.perm _).mem_iff.mp hname)
  refine (order.perm _).mem_iff.mpr (List.mem_dedup.mpr ?_)
  refine List.mem_filter.mpr ⟨List.mem_map_of_mem (mem_of_lookup hinfo), ?_⟩
  exact (List.mem_filter.mp hexpected).2

theorem finishImport_returns_iff {entries : List (String × WeightInfo P)} {o : ImportOutcome P} :
    (finishImport entries o).error = none ↔ o.error = none ∧
      o.installed.length = entries.length ∧
      ∀ e ∈ entries, (elementSize e.2.dtype).isSome = true := by
  unfold finishImport
  split_ifs with herr hlen
  · exact iff_of_false (Option.isSome_iff_ne_none.mp herr) fun h =>
      Option.isSome_iff_ne_none.mp herr h.1
  · exact iff_of_false (by simp) fun h => hlen h.2.1
  · have hok := Option.not_isSome_iff_eq_none.mp herr
    cases hfind : entries.find? fun e => (elementSize e.2.dtype).isNone with
    | some e =>
      refine iff_of_false (by simp) fun h => ?_
      have hsome := h.2.2 e (List.mem_of_find?_eq_some hfind)
      have hnone := List.find?_some hfind
      rw [Option.isNone_iff_eq_none] at hnone
      rw [hnone] at hsome
      cases hsome
    | none =>
      refine iff_of_true hok ⟨hok, not_not.mp hlen, ?_⟩
      intro e he
      have hno := List.find?_eq_none.mp hfind e he
      exact Option.isSome_iff_ne_none.mpr fun hnone => hno (by rw [hnone]; rfl)

theorem importEntries_params {e : String × WeightInfo P} (he : e ∈ w.importEntries order R) :
    e.1 ∈ w.model.paramNames := paramName_of_expected (mem_entries.mp he).1

/-- An import past its checks returns exactly when every entry has a tensor, and it installs these. -/
theorem finishImport_sources (w : Worker) (order : SetOrder) (rebuild : IpcRebuild P)
    (R : Registry P) (cache : PreOpened P) :
    let o := finishImport (w.importEntries order R)
      (w.importLoop rebuild (w.importEntries order R) cache [])
    (o.error = none ↔ (∀ e ∈ w.importEntries order R, (elementSize e.2.dtype).isSome = true) ∧
      ∀ e ∈ w.importEntries order R, (w.source rebuild cache e).isSome = true) ∧
    (o.error = none → o.installed = (w.importEntries order R).filterMap
      fun e => (w.source rebuild cache e).map (e.1, ·)) := by
  dsimp only
  rw [finishImport_returns_iff, finishImport_installed]
  have hnodup : ((w.importEntries order R).map (·.1)).Nodup :=
    entries_nodup (expectedNames_nodup w order)
  rcases importLoop_sources rebuild (fun e he => importEntries_params he) hnodup cache []
    with ⟨hall, hok, hinstalled⟩ | ⟨⟨e, he, hnone⟩, herr⟩
  · rw [hinstalled, List.nil_append]
    have hlen : ((w.importEntries order R).filterMap
        fun e => (w.source rebuild cache e).map (e.1, ·)).length =
        (w.importEntries order R).length := by
      rw [List.length_filterMap_eq_countP, List.countP_eq_length]
      intro e he
      rw [Option.isSome_map]
      exact hall e he
    exact ⟨⟨fun h => ⟨h.2.2, hall⟩, fun h => ⟨hok, hlen, h.1⟩⟩, fun _ => rfl⟩
  · have hne := Option.isSome_iff_ne_none.mp herr
    refine ⟨iff_of_false (fun h => hne h.1) fun h => ?_, fun h => absurd h.1 hne⟩
    have hsome := h.2 e he
    rw [hnone] at hsome
    cases hsome

/-- An import returns exactly when its checks pass and every entry has a tensor. -/
theorem importWeights_sources (w : Worker) (order : SetOrder) (sha256 : String → String)
    (rebuild : IpcRebuild P) (ready : Bool) (R : Registry P) (cache : PreOpened P) :
    ((w.importWeights order sha256 rebuild ready (some R) cache).error = none ↔
      w.Checked order sha256 ready R ∧
        ∀ e ∈ w.importEntries order R, (w.source rebuild cache e).isSome = true) ∧
    ((w.importWeights order sha256 rebuild ready (some R) cache).error = none →
      (w.importWeights order sha256 rebuild ready (some R) cache).installed =
        (w.importEntries order R).filterMap
          fun e => (w.source rebuild cache e).map (e.1, ·)) := by
  unfold importWeights
  split_ifs with hmode hlora hready
  · exact ⟨iff_of_false (by simp) fun h => hmode h.1.secondary, by simp⟩
  · exact ⟨iff_of_false (by simp) fun h => by simp [h.1.lora] at hlora, by simp⟩
  · exact ⟨iff_of_false (by simp) fun h => by simp [h.1.ready] at hready, by simp⟩
  · dsimp only
    cases hvalid : w.validate order sha256 R with
    | some e => exact ⟨iff_of_false (by simp) fun h => by simp [h.1.valid] at hvalid, by simp⟩
    | none =>
      obtain ⟨hiff, hinstalled⟩ := finishImport_sources w order rebuild R cache
      refine ⟨hiff.trans ?_, hinstalled⟩
      constructor
      · rintro ⟨hdtypes, hall⟩
        exact ⟨⟨not_not.mp hmode, by simpa using hlora, by simpa using hready, hvalid, hdtypes⟩,
          hall⟩
      · exact fun h => ⟨h.1.dtypes, h.2⟩

/-- The direct path accepts what passes the checks and opens for the worker's own GPU. -/
theorem direct_sources (w : Worker) (order : SetOrder) (sha256 : String → String)
    (rebuild : IpcRebuild P) (ready : Bool) (R : Registry P) :
    ((w.directImport order sha256 rebuild ready R).error = none ↔
      w.Checked order sha256 ready R ∧
        ∀ e ∈ w.importEntries order R, (w.opens rebuild w.gpuUuid e).isSome = true) ∧
    ((w.directImport order sha256 rebuild ready R).error = none →
      (w.directImport order sha256 rebuild ready R).installed =
        (w.importEntries order R).filterMap
          fun e => (w.opens rebuild w.gpuUuid e).map (e.1, ·)) :=
  importWeights_sources w order sha256 rebuild ready R ∅

theorem preOpenHandles_first {gpuUuid : String} (hchecked : w.Checked order sha256 ready R)
    (hfirst : R.findGpuUuid = some gpuUuid) :
    w.preOpenHandles order rebuild w.deviceIndex ready (some R) ∅ =
      w.preOpenLoop rebuild w.deviceIndex gpuUuid (w.preOpenEntries order R) ∅ 0 := by
  unfold preOpenHandles
  rw [if_neg (not_not.mpr hchecked.secondary), if_neg (by simp [hchecked.ready])]
  dsimp only
  rw [hfirst]
  rfl

theorem preOpened_checked (h : (w.preOpenedImport order sha256 rebuild ready R).error = none) :
    w.Checked order sha256 ready R := by
  unfold preOpenedImport at h
  dsimp only at h
  split at h
  case h_1 => cases h
  case h_2 => exact ((importWeights_sources w order sha256 rebuild ready R _).1.mp h).1

/-- Over a registry that passes the checks the pre-opened path accepts when every handle for the first
GPU opens, and then it installs these tensors. -/
theorem preOpened_sources (rebuild : IpcRebuild P) (hchecked : w.Checked order sha256 ready R) :
    (∃ gpuUuid, R.findGpuUuid = some gpuUuid ∧
      (∀ e ∈ w.preOpenEntries order R, (w.opens rebuild gpuUuid e).isSome = true) ∧
      (w.preOpenedImport order sha256 rebuild ready R).error = none ∧
      (w.preOpenedImport order sha256 rebuild ready R).installed =
        (w.importEntries order R).filterMap
          fun e => (w.opens rebuild gpuUuid e).map (e.1, ·)) ∨
    (∀ gpuUuid, R.findGpuUuid = some gpuUuid →
        ∃ e ∈ w.preOpenEntries order R, w.opens rebuild gpuUuid e = none) ∧
      (w.preOpenedImport order sha256 rebuild ready R).error ≠ none := by
  unfold preOpenedImport
  cases hfirst : R.findGpuUuid with
  | none =>
    refine .inr ⟨by simp, ?_⟩
    simp [preOpenHandles, hchecked.secondary, hchecked.ready, hfirst]
  | some gpuUuid =>
    rw [preOpenHandles_first hchecked hfirst]
    have hnodup : ((w.preOpenEntries order R).map (·.1)).Nodup :=
      entries_nodup ((order.perm _).nodup_iff.mpr (List.nodup_dedup _))
    rcases preOpenLoop_opens rebuild gpuUuid hnodup ∅ 0 with
      ⟨hall, hok, hcached, -⟩ | ⟨hnone, herr⟩
    · refine .inl ⟨gpuUuid, rfl, hall, ?_⟩
      dsimp only
      rw [hok]
      generalize w.preOpenLoop rebuild w.deviceIndex gpuUuid (w.preOpenEntries order R) ∅ 0 = o
        at hcached ⊢
      obtain ⟨hiff, hinstalls⟩ := importWeights_sources w order sha256 rebuild ready R o.cache
      have hsource : ∀ e ∈ w.importEntries order R,
          w.source rebuild o.cache e = w.opens rebuild gpuUuid e := by
        intro e he
        have hin := preOpenEntries_of_import he
        obtain ⟨t, ht⟩ := Option.isSome_iff_exists.mp (hall e hin)
        unfold source
        rw [hcached e hin, ht]
      have hreturns := hiff.mpr ⟨hchecked, fun e he => by
        rw [hsource e he]
        exact hall e (preOpenEntries_of_import he)⟩
      refine ⟨hreturns, (hinstalls hreturns).trans (List.filterMap_congr ?_)⟩
      intro e he
      rw [hsource e he]
    · refine .inr ⟨?_, ?_⟩
      · rintro _ ⟨⟩
        exact hnone
      · obtain ⟨e, he⟩ := Option.isSome_iff_exists.mp herr
        dsimp only
        rw [he]
        simp

theorem eq_of_filterMap_eq {f g : String × WeightInfo P → Option (IpcTensor P)}
    {entries : List (String × WeightInfo P)} (hf : ∀ e ∈ entries, (f e).isSome = true)
    (hg : ∀ e ∈ entries, (g e).isSome = true)
    (h : (entries.filterMap fun e => (f e).map (e.1, ·)) =
      entries.filterMap fun e => (g e).map (e.1, ·)) : ∀ e ∈ entries, f e = g e := by
  induction entries with
  | nil => simp
  | cons e entries ih =>
    obtain ⟨hfe, hf⟩ := List.forall_mem_cons.mp hf
    obtain ⟨hge, hg⟩ := List.forall_mem_cons.mp hg
    obtain ⟨t, ht⟩ := Option.isSome_iff_exists.mp hfe
    obtain ⟨u, hu⟩ := Option.isSome_iff_exists.mp hge
    rw [List.filterMap_cons, List.filterMap_cons, ht, hu] at h
    obtain ⟨hhead, htail⟩ := List.cons.inj h
    refine List.forall_mem_cons.mpr ⟨?_, ih hf hg htail⟩
    rw [ht, hu, (Prod.mk.inj hhead).2]

/-- The two paths agree on a registry exactly when it does not pass the checks, or neither path opens
its handles, or both open them to the same tensors. -/
theorem paths_agree_iff (w : Worker) (order : SetOrder) (sha256 : String → String)
    (rebuild : IpcRebuild P) (ready : Bool) (R : Registry P) :
    w.PathsAgree order sha256 rebuild ready R ↔
      (w.Checked order sha256 ready R →
        w.NeitherOpens order rebuild R ∨ ∃ gpuUuid, w.SameTensors order rebuild gpuUuid R) := by
  obtain ⟨hdirect, hinstalls⟩ := direct_sources w order sha256 rebuild ready R
  by_cases hchecked : w.Checked order sha256 ready R
  · rw [forall_prop_of_true hchecked]
    have hall' : (w.directImport order sha256 rebuild ready R).error = none ↔
        ∀ e ∈ w.importEntries order R, (w.opens rebuild w.gpuUuid e).isSome = true :=
      hdirect.trans (and_iff_right hchecked)
    rcases preOpened_sources rebuild hchecked with
      ⟨gpuUuid, hfirst, hall, hok, hinstalled⟩ | ⟨hnone, herr⟩
    · have himport : ∀ e ∈ w.importEntries order R, (w.opens rebuild gpuUuid e).isSome = true :=
        fun e he => hall e (preOpenEntries_of_import he)
      constructor
      · rintro ⟨haccept, hsame⟩
        have hdok := haccept.mp hok
        have htensors := hsame hok hdok
        rw [hinstalled, hinstalls hdok] at htensors
        refine .inr ⟨gpuUuid, hfirst, hall, fun e he => ?_⟩
        exact (eq_of_filterMap_eq himport (hall'.mp hdok) htensors e he).symm
      · rintro (hneither | ⟨first, hsame⟩)
        · obtain ⟨e, he, hno⟩ := hneither.preOpen gpuUuid hfirst
          have hsome := hall e he
          rw [hno] at hsome
          cases hsome
        · obtain rfl : gpuUuid = first := Option.some.inj (hfirst.symm.trans hsame.first)
          have hdok := hall'.mpr fun e he => by
            rw [hsame.same e he]
            exact himport e he
          refine ⟨iff_of_true hok hdok, fun _ _ => ?_⟩
          rw [hinstalled, hinstalls hdok]
          refine List.filterMap_congr fun e he => ?_
          rw [← hsame.same e he]
    · constructor
      · rintro ⟨haccept, -⟩
        refine .inl ⟨hnone, ?_⟩
        by_contra hno
        refine herr (haccept.mpr (hall'.mpr fun e he => ?_))
        exact Option.isSome_iff_ne_none.mpr fun hnone => hno ⟨e, he, hnone⟩
      · rintro (hneither | ⟨first, hsame⟩)
        · obtain ⟨e, he, hno⟩ := hneither.direct
          refine ⟨iff_of_false herr fun hdok => ?_, fun h => absurd h herr⟩
          have hsome := hall'.mp hdok e he
          rw [hno] at hsome
          cases hsome
        · obtain ⟨e, he, hno⟩ := hnone first hsame.first
          have hsome := hsame.opened e he
          rw [hno] at hsome
          cases hsome
  · refine iff_of_true ?_ fun h => absurd h hchecked
    have hpre : (w.preOpenedImport order sha256 rebuild ready R).error ≠ none := fun h =>
      hchecked (preOpened_checked h)
    exact ⟨iff_of_false hpre fun h => hchecked (hdirect.mp h).1, fun h => absurd h hpre⟩

/-- The paths agree on what a primary on the worker's own GPU exports, when it exports no parameter
that the model lacks. -/
theorem paths_agree_own_gpu (hfirst : R.findGpuUuid = some w.gpuUuid)
    (hnames : ∀ e ∈ w.preOpenEntries order R, e ∈ w.importEntries order R) :
    w.PathsAgree order sha256 rebuild ready R := by
  rw [paths_agree_iff]
  intro _
  by_cases hall : ∀ e ∈ w.importEntries order R, (w.opens rebuild w.gpuUuid e).isSome = true
  · exact .inr ⟨w.gpuUuid, hfirst, fun e he => hall e (hnames e he), fun _ _ => rfl⟩
  · push Not at hall
    obtain ⟨e, he, hno⟩ := hall
    have hnone : w.opens rebuild w.gpuUuid e = none := by simpa using hno
    refine .inl ⟨?_, e, he, hnone⟩
    intro gpuUuid hgpu
    cases hfirst.symm.trans hgpu
    exact ⟨e, preOpenEntries_of_import he, hnone⟩

attribute [local instance] Numerals.neZero_two

/-- What the primary exports when it runs on another GPU than the worker. -/
def otherGpuExport : Registry (Fin 2) :=
  ({ ImportSession.sharingWorker .primary with gpuUuid := "GPU-1" }.exportWeights
    ImportSession.digest 0).get (by decide +kernel)

/-- `import_weights` alone rejects it; after `pre_open_handles` it installs the other GPU's tensor. -/
theorem other_gpu_accepted :
    let w := ImportSession.sharingWorker .secondary
    w.gpuUuid = "GPU-0" ∧
    (∀ e ∈ otherGpuExport.weights, e.2.handles.map (·.1) = ["GPU-1"]) ∧
    (w.directImport ImportSession.insertionOrder ImportSession.digest ImportSession.openAll true
      otherGpuExport).error = some (.gpuUuid "transformer.wte.weight") ∧
    (w.preOpenedImport ImportSession.insertionOrder ImportSession.digest ImportSession.openAll true
      otherGpuExport).error = none ∧
    (w.preOpenedImport ImportSession.insertionOrder ImportSession.digest ImportSession.openAll true
      otherGpuExport).installed = [("transformer.wte.weight", ⟨0, 7, 0⟩)] := by
  decide +kernel

end Worker

end GpuSharing.WeightSharing
