import GpuSharing.Lib.Numerals
import GpuSharing.Lib.Transition
import GpuSharing.WeightSharing.Manager

namespace GpuSharing.WeightSharing

open Transition

/-- One secondary process over the registry file of its rank. -/
structure ImportSession (P : Type) where
  registry : Option (Registry P)
  cache : PreOpened P
  installed : List (String × IpcTensor P)

/-- Primaries write and remove the registry file at any time; a call of the secondary carries what
`wait_for_primary` returned and how the handles could be opened. -/
inductive SessionAct (P : Type)
  | exports (R : Registry P)
  | removes
  | preOpen (deviceIndex : Int) (ready : Bool) (rebuild : IpcRebuild P)
  | importWeights (ready : Bool) (rebuild : IpcRebuild P)

namespace Worker

variable {P : Type} {w : Worker} {rebuild : IpcRebuild P} {p : P}

theorem mem_of_lookup {α : Type} {l : List (String × α)} {k : String} {a : α}
    (h : l.lookup k = some a) : (k, a) ∈ l := by
  obtain ⟨before, after, rfl, _⟩ := List.lookup_eq_some_iff.mp h
  simp

theorem exists_lookup {α : Type} {l : List (String × α)} {k : String} (h : k ∈ l.map (·.1)) :
    ∃ a, l.lookup k = some a := by
  obtain ⟨e, he, rfl⟩ := List.mem_map.mp h
  rw [← Option.isSome_iff_exists]
  by_contra hnone
  have hno := List.lookup_eq_none_iff.mp (Option.not_isSome_iff_eq_none.mp hnone) e he
  simp at hno

/-- What the loop of `import_weights` does with its next entry. -/
theorem importLoop_cons (name : String) (info : WeightInfo P)
    (entries : List (String × WeightInfo P)) (cache : PreOpened P)
    (installed : List (String × IpcTensor P)) :
    let o := w.importLoop rebuild ((name, info) :: entries) cache installed
    let key := w.cacheKey name
    (name ∉ w.model.paramNames ∧ o = w.importLoop rebuild entries cache installed) ∨
      (∃ t, cache.lookup key = some t ∧
        o = w.importLoop rebuild entries (cache.erase key) (installed ++ [(name, t)])) ∨
      (cache.lookup key = none ∧ ∃ h t, info.handles.lookup w.gpuUuid = some h ∧
        rebuild.rebuild w.deviceIndex name h = some t ∧
        o = w.importLoop rebuild entries cache (installed ++ [(name, t)])) ∨
      (∃ e, o = ⟨cache, installed, some e⟩) := by
  by_cases hname : name ∉ w.model.paramNames
  · exact .inl ⟨hname, by simp only [importLoop, if_pos hname]⟩
  simp only [importLoop, if_neg hname]
  cases hpop : cache.pop (w.cacheKey name) with
  | some popped =>
    obtain ⟨ht, herase⟩ := Dict.pop_eq_some.mp hpop
    exact .inr (.inl ⟨popped.1, ht, by rw [herase]⟩)
  | none =>
    cases hh : info.handles.lookup w.gpuUuid with
    | none => exact .inr (.inr (.inr ⟨_, rfl⟩))
    | some h =>
      cases ht : rebuild.rebuild w.deviceIndex name h with
      | none => exact .inr (.inr (.inr ⟨.rebuild name, by simp only [ht]⟩))
      | some t =>
        exact .inr (.inr (.inl ⟨Dict.pop_eq_none.mp hpop, h, t, rfl, ht, by simp only [ht]⟩))

/-- What holds of the waiting tensors of the entries and of the tensors that their handles open to
holds of all that is put into the model. -/
theorem importLoop_forall {Q : String → IpcTensor P → Prop}
    {entries : List (String × WeightInfo P)}
    (hentries : ∀ e ∈ entries, ∀ h t, e.2.handles.lookup w.gpuUuid = some h →
      rebuild.rebuild w.deviceIndex e.1 h = some t → Q e.1 t) {cache : PreOpened P}
    (hcache : ∀ e ∈ entries, ∀ t, cache.lookup (w.cacheKey e.1) = some t → Q e.1 t)
    {installed : List (String × IpcTensor P)} (hinstalled : ∀ e ∈ installed, Q e.1 e.2) :
    ∀ e ∈ (w.importLoop rebuild entries cache installed).installed, Q e.1 e.2 := by
  induction entries generalizing cache installed with
  | nil => exact hinstalled
  | cons entry entries ih =>
    obtain ⟨name, info⟩ := entry
    obtain ⟨hhead, hrest⟩ := List.forall_mem_cons.mp hentries
    obtain ⟨htake, hkept⟩ := List.forall_mem_cons.mp hcache
    have happend : ∀ t : IpcTensor P, Q name t → ∀ e ∈ installed ++ [(name, t)], Q e.1 e.2 := by
      intro t ht e he
      rcases List.mem_append.mp he with he | he
      · exact hinstalled e he
      · rw [List.mem_singleton.mp he]
        exact ht
    rcases w.importLoop_cons name info entries cache installed with
      ⟨_, heq⟩ | ⟨t, ht, heq⟩ | ⟨_, h, t, hh, ht, heq⟩ | ⟨e, heq⟩
    · rw [heq]
      exact ih hrest hkept hinstalled
    · rw [heq]
      refine ih hrest (fun e he u hu => ?_) (happend t (htake t ht))
      exact hkept e he u (Dict.lookup_erase_some hu).2
    · rw [heq]
      exact ih hrest hkept (happend t (hhead h t hh ht))
    · rw [heq]
      exact hinstalled

/-- Tensors taken from the cache or opened from the entries are `p`'s when these are. -/
theorem importLoop_own {entries : List (String × WeightInfo P)}
    (hentries : ∀ e ∈ entries, ∀ h ∈ e.2.handles, h.2.primary = p) {cache : PreOpened P}
    (hcache : ∀ e ∈ entries, ∀ t, cache.lookup (w.cacheKey e.1) = some t → t.primary = p)
    {installed : List (String × IpcTensor P)} (hinstalled : ∀ e ∈ installed, e.2.primary = p) :
    ∀ e ∈ (w.importLoop rebuild entries cache installed).installed, e.2.primary = p := by
  refine importLoop_forall (Q := fun _ t => t.primary = p) ?_ hcache hinstalled
  intro e he h t hh ht
  exact (rebuild.own _ _ _ _ ht).trans (hentries e he _ (mem_of_lookup hh))

/-- The loop of `import_weights` only takes tensors out of the cache. -/
theorem importLoop_cache {entries : List (String × WeightInfo P)} {cache : PreOpened P}
    {installed : List (String × IpcTensor P)} {key : String} {t : IpcTensor P}
    (h : (w.importLoop rebuild entries cache installed).cache.lookup key = some t) :
    cache.lookup key = some t := by
  induction entries generalizing cache installed with
  | nil => exact h
  | cons entry entries ih =>
    obtain ⟨name, info⟩ := entry
    rcases w.importLoop_cons name info entries cache installed with
      ⟨_, heq⟩ | ⟨u, _, heq⟩ | ⟨_, _, u, _, _, heq⟩ | ⟨e, heq⟩
    · rw [heq] at h
      exact ih h
    · rw [heq] at h
      exact (Dict.lookup_erase_some (ih h)).2
    · rw [heq] at h
      exact ih h
    · rw [heq] at h
      exact h

/-- What holds of the tensors waiting and of those that the entries open to holds after
`pre_open_handles`. -/
theorem preOpenLoop_forall {Q : String → IpcTensor P → Prop} {device : Int} {gpuUuid : String}
    {entries : List (String × WeightInfo P)}
    (hentries : ∀ e ∈ entries, ∀ h t, e.2.handles.lookup gpuUuid = some h →
      rebuild.rebuild device e.1 h = some t → Q (w.cacheKey e.1) t) {cache : PreOpened P}
    (hcache : ∀ key t, cache.lookup key = some t → Q key t) {opened : Nat} :
    ∀ key t, (w.preOpenLoop rebuild device gpuUuid entries cache opened).cache.lookup key = some t →
      Q key t := by
  induction entries generalizing cache opened with
  | nil => exact hcache
  | cons entry entries ih =>
    obtain ⟨name, info⟩ := entry
    obtain ⟨hhead, hrest⟩ := List.forall_mem_cons.mp hentries
    simp only [preOpenLoop]
    split
    case h_1 => exact hcache
    case h_2 h hh =>
      split
      case h_1 => exact hcache
      case h_2 u hu =>
        refine ih hrest fun key t ht => ?_
        rcases Dict.lookup_setItem_some ht with ⟨rfl, rfl⟩ | ht
        · exact hhead h t hh hu
        · exact hcache key t ht

/-- `pre_open_handles` adds tensors of the primary whose entries it goes through. -/
theorem preOpenLoop_own {device : Int} {gpuUuid : String}
    {entries : List (String × WeightInfo P)}
    (hentries : ∀ e ∈ entries, ∀ h ∈ e.2.handles, h.2.primary = p) {cache : PreOpened P}
    (hcache : ∀ key t, cache.lookup key = some t → t.primary = p) {opened : Nat} :
    ∀ key t, (w.preOpenLoop rebuild device gpuUuid entries cache opened).cache.lookup key = some t →
      t.primary = p := by
  refine preOpenLoop_forall (Q := fun _ t => t.primary = p) ?_ hcache
  intro e he h t hh ht
  exact (rebuild.own _ _ _ _ ht).trans (hentries e he _ (mem_of_lookup hh))

/-- What is in the model stays there. -/
theorem importLoop_grows (entries : List (String × WeightInfo P)) (cache : PreOpened P)
    (installed : List (String × IpcTensor P)) :
    installed <+: (w.importLoop rebuild entries cache installed).installed := by
  induction entries generalizing cache installed with
  | nil => exact List.prefix_rfl
  | cons entry entries ih =>
    obtain ⟨name, info⟩ := entry
    rcases w.importLoop_cons name info entries cache installed with
      ⟨_, heq⟩ | ⟨t, _, heq⟩ | ⟨_, _, t, _, _, heq⟩ | ⟨e, heq⟩
    · rw [heq]
      exact ih cache installed
    · rw [heq]
      exact (List.prefix_append _ _).trans (ih _ _)
    · rw [heq]
      exact (List.prefix_append _ _).trans (ih _ _)
    · rw [heq]

theorem cacheKey_injective {a b : String} (h : w.cacheKey a = w.cacheKey b) : a = b := by
  simpa only [cacheKey, String.append_right_inj] using h

/-- An import that returns has taken every pre-opened tensor of its entries. -/
theorem importLoop_takes {entries : List (String × WeightInfo P)}
    (hparams : ∀ e ∈ entries, e.1 ∈ w.model.paramNames)
    (hnodup : (entries.map (·.1)).Nodup) {cache : PreOpened P}
    {installed : List (String × IpcTensor P)}
    (hreturns : (w.importLoop rebuild entries cache installed).error = none) {name : String}
    (hname : name ∈ entries.map (·.1)) {t : IpcTensor P}
    (ht : cache.lookup (w.cacheKey name) = some t) :
    (name, t) ∈ (w.importLoop rebuild entries cache installed).installed := by
  induction entries generalizing cache installed with
  | nil => cases hname
  | cons entry entries ih =>
    obtain ⟨head, info⟩ := entry
    obtain ⟨hhead, hrest⟩ := List.forall_mem_cons.mp hparams
    obtain ⟨hfresh, htail⟩ := List.nodup_cons.mp hnodup
    rcases w.importLoop_cons head info entries cache installed with
      ⟨hno, _⟩ | ⟨u, hu, heq⟩ | ⟨hnone, _, u, _, _, heq⟩ | ⟨e, heq⟩
    · exact absurd hhead hno
    · rw [heq] at hreturns ⊢
      rcases List.mem_cons.mp hname with rfl | hname
      · -- the first entry's own tensor
        rw [ht] at hu
        cases hu
        refine (w.importLoop_grows entries _ _).subset ?_
        simp
      · have hne : w.cacheKey name ≠ w.cacheKey head := by
          intro hkey
          exact hfresh (cacheKey_injective hkey ▸ hname)
        refine ih hrest htail hreturns hname ?_
        rwa [AList.lookup_erase_ne hne]
    · rw [heq] at hreturns ⊢
      rcases List.mem_cons.mp hname with rfl | hname
      · rw [ht] at hnone
        cases hnone
      · exact ih hrest htail hreturns hname ht
    · rw [heq] at hreturns
      cases hreturns

theorem entries_own (R : Registry P) (names : List String) :
    ∀ e ∈ R.entries names, ∀ h ∈ e.2.handles, h.2.primary = R.primary := by
  intro e he h hh
  obtain ⟨name, _, hname⟩ := List.mem_filterMap.mp he
  obtain ⟨info, hinfo, rfl⟩ := Option.map_eq_some_iff.mp hname
  exact R.own _ (mem_of_lookup hinfo) h hh

theorem entries_names (R : Registry P) (names : List String) :
    (R.entries names).map (·.1) = names.filter fun name => (R.weights.lookup name).isSome := by
  unfold Registry.entries
  rw [List.map_filterMap, ← List.filterMap_eq_filter]
  refine List.filterMap_congr fun name _ => ?_
  cases h : R.weights.lookup name <;> simp [Option.guard, h]

theorem expectedNames_nodup (w : Worker) (order : SetOrder) : (w.expectedNames order).Nodup :=
  (order.perm _).nodup_iff.mpr (List.nodup_dedup _)

theorem paramName_of_expected {order : SetOrder} {name : String}
    (h : name ∈ w.expectedNames order) : name ∈ w.model.paramNames := by
  have hmem := List.mem_dedup.mp ((order.perm _).mem_iff.mp h)
  exact (List.mem_filter.mp hmem).1

theorem lookup_of_expected {order : SetOrder} {sha256 : String → String} {R : Registry P}
    (hvalid : w.validate order sha256 R = none) {name : String}
    (h : name ∈ w.expectedNames order) : (R.weights.lookup name).isSome = true := by
  unfold validate at hvalid
  dsimp only at hvalid
  split_ifs at hvalid with _ _ _ hmissing
  rw [not_not, List.filter_eq_nil_iff] at hmissing
  exact Option.isSome_iff_exists.mpr (exists_lookup (by simpa using hmissing name h))

variable {order : SetOrder} {sha256 : String → String} {ready : Bool}
  {registry : Option (Registry P)} {cache : PreOpened P}

/-- An import puts nothing into the model, or what its loop does over the entries of the registry
that it has validated. -/
theorem importWeights_cases :
    (w.importWeights order sha256 rebuild ready registry cache).error.isSome = true ∧
        (w.importWeights order sha256 rebuild ready registry cache).installed = [] ∨
      ∃ R, registry = some R ∧ w.validate order sha256 R = none ∧
        w.importWeights order sha256 rebuild ready registry cache =
          finishImport (R.entries (w.expectedNames order))
            (w.importLoop rebuild (R.entries (w.expectedNames order)) cache []) := by
  unfold importWeights
  split_ifs
  · exact .inl ⟨rfl, rfl⟩
  · exact .inl ⟨rfl, rfl⟩
  · exact .inl ⟨rfl, rfl⟩
  · cases registry with
    | none => exact .inl ⟨rfl, rfl⟩
    | some R =>
      dsimp only
      cases hvalid : w.validate order sha256 R with
      | none => exact .inr ⟨R, rfl, hvalid, rfl⟩
      | some e => exact .inl ⟨rfl, rfl⟩

@[simp] theorem finishImport_installed (entries : List (String × WeightInfo P))
    (o : ImportOutcome P) : (finishImport entries o).installed = o.installed := by
  unfold finishImport
  split_ifs
  · rfl
  · rfl
  · split <;> rfl

theorem finishImport_returns {entries : List (String × WeightInfo P)} {o : ImportOutcome P}
    (h : (finishImport entries o).error = none) : o.error = none := by
  unfold finishImport at h
  split_ifs at h with he
  · exact h
  · exact Option.not_isSome_iff_eq_none.mp he

@[simp] theorem finishImport_cache (entries : List (String × WeightInfo P))
    (o : ImportOutcome P) : (finishImport entries o).cache = o.cache := by
  unfold finishImport
  split_ifs
  · rfl
  · rfl
  · split <;> rfl

theorem importWeights_cache {key : String} {t : IpcTensor P}
    (h : (w.importWeights order sha256 rebuild ready registry cache).cache.lookup key = some t) :
    cache.lookup key = some t := by
  unfold importWeights at h
  split_ifs at h
  · exact h
  · exact h
  · exact h
  · cases registry with
    | none => exact h
    | some R =>
      dsimp only at h
      split at h
      · exact h
      · rw [finishImport_cache] at h
        exact importLoop_cache h

/-- What is pre-opened is of the primary whose registry was read. -/
theorem preOpenHandles_own {device : Int}
    (hcache : ∀ R, registry = some R → ∀ key t, cache.lookup key = some t → t.primary = R.primary) :
    ∀ R, registry = some R → ∀ key t,
      (w.preOpenHandles order rebuild device ready registry cache).cache.lookup key = some t →
        t.primary = R.primary := by
  rintro R rfl key t ht
  have hkept := hcache R rfl
  unfold preOpenHandles at ht
  split_ifs at ht
  · exact hkept key t ht
  · exact hkept key t ht
  · dsimp only at ht
    split at ht
    · exact hkept key t ht
    · exact preOpenLoop_own (entries_own R _) hkept key t ht

end Worker

namespace ImportSession

variable {P : Type} (w : Worker) (order : SetOrder) (sha256 : String → String)

def start : ImportSession P := ⟨none, ∅, []⟩

def importOutcome (s : ImportSession P) (ready : Bool) (rebuild : IpcRebuild P) :
    ImportOutcome P :=
  w.importWeights order sha256 rebuild ready s.registry s.cache

def step (s : ImportSession P) : SessionAct P → Option (ImportSession P)
  | .exports R => some { s with registry := some R }
  | .removes => some { s with registry := none }
  | .preOpen device ready rebuild =>
    some { s with
      cache := (w.preOpenHandles order rebuild device ready s.registry s.cache).cache }
  | .importWeights ready rebuild =>
    let o := s.importOutcome w order sha256 ready rebuild
    some { s with cache := o.cache, installed := s.installed ++ o.installed }

/-- What an import puts into the model comes from the primary of the registry that it read. -/
def InstallsValidated (s : ImportSession P) : SessionAct P → Prop
  | .importWeights ready rebuild =>
    ∀ R, s.registry = some R → ∀ e ∈ (s.importOutcome w order sha256 ready rebuild).installed,
      e.2.primary = R.primary
  | _ => True

/-- The pre-opened tensors of the shared parameters come from the primary whose registry is there
when an import reads it. -/
def CacheCurrent (s : ImportSession P) : SessionAct P → Prop
  | .importWeights _ _ => ∀ R, s.registry = some R → ∀ name ∈ w.expectedNames order,
      ∀ t, s.cache.lookup (w.cacheKey name) = some t → t.primary = R.primary
  | _ => True

/-- An import returns. -/
def ImportReturns (s : ImportSession P) : SessionAct P → Prop
  | .importWeights ready rebuild => (s.importOutcome w order sha256 ready rebuild).error = none
  | _ => True

instance [DecidableEq P] (s : ImportSession P) :
    ∀ act, Decidable (s.InstallsValidated w order sha256 act)
  | .importWeights ready rebuild =>
    inferInstanceAs (Decidable (∀ R ∈ s.registry,
      ∀ e ∈ (s.importOutcome w order sha256 ready rebuild).installed, e.2.primary = R.primary))
  | .exports _ | .removes | .preOpen _ _ _ => .isTrue trivial

instance [DecidableEq P] (s : ImportSession P) : ∀ act, Decidable (s.CacheCurrent w order act)
  | .importWeights _ _ =>
    inferInstanceAs (Decidable (∀ R ∈ s.registry, ∀ name ∈ w.expectedNames order,
      ∀ t ∈ s.cache.lookup (w.cacheKey name), t.primary = R.primary))
  | .exports _ | .removes | .preOpen _ _ _ => .isTrue trivial

instance (s : ImportSession P) : ∀ act, Decidable (s.ImportReturns w order sha256 act)
  | .importWeights ready rebuild =>
    inferInstanceAs (Decidable ((s.importOutcome w order sha256 ready rebuild).error = none))
  | .exports _ | .removes | .preOpen _ _ _ => .isTrue trivial

/-- No primary writes its registry while a tensor pre-opened from another one waits. -/
def KeepsOpened (s : ImportSession P) : SessionAct P → Prop
  | .exports R => ∀ key t, s.cache.lookup key = some t → t.primary = R.primary
  | _ => True

/-- All pre-opened tensors come from the primary whose registry is there. -/
def CacheOwn (s : ImportSession P) : Prop :=
  ∀ R, s.registry = some R → ∀ key t, s.cache.lookup key = some t → t.primary = R.primary

variable {w order sha256} {s t : ImportSession P} {act : SessionAct P}

theorem installsValidated_of_current (h : s.CacheCurrent w order act) :
    s.InstallsValidated w order sha256 act := by
  cases act with
  | importWeights ready rebuild =>
    intro R hR e he
    unfold importOutcome at he
    rcases w.importWeights_cases with ⟨_, hnone⟩ | ⟨R', hR', _, heq⟩
    · rw [hnone] at he
      cases he
    · cases hR.symm.trans hR'
      rw [heq, Worker.finishImport_installed] at he
      refine Worker.importLoop_own (Worker.entries_own R _) ?_ (by simp) e he
      intro entry hentry t ht
      have hname : entry.1 ∈ (R.entries (w.expectedNames order)).map (·.1) :=
        List.mem_map_of_mem hentry
      rw [Worker.entries_names] at hname
      exact h R hR entry.1 (List.mem_filter.mp hname).1 t ht
  | exports | removes | preOpen => trivial

theorem installsValidated_iff (hreturns : s.ImportReturns w order sha256 act) :
    s.InstallsValidated w order sha256 act ↔ s.CacheCurrent w order act := by
  refine ⟨fun h => ?_, installsValidated_of_current⟩
  cases act with
  | importWeights ready rebuild =>
    intro R hR name hname t ht
    have hin : (name, t) ∈ (s.importOutcome w order sha256 ready rebuild).installed := by
      unfold importOutcome
      change (w.importWeights order sha256 rebuild ready s.registry s.cache).error = none at hreturns
      rcases w.importWeights_cases with ⟨herr, _⟩ | ⟨R', hR', hvalid, heq⟩
      · rw [hreturns] at herr
        cases herr
      · cases hR.symm.trans hR'
        rw [heq] at hreturns ⊢
        rw [Worker.finishImport_installed]
        have hnames := Worker.entries_names R (w.expectedNames order)
        refine Worker.importLoop_takes ?_ ?_ (Worker.finishImport_returns hreturns) ?_ ht
        · intro e he
          have hmem : e.1 ∈ (R.entries (w.expectedNames order)).map (·.1) :=
            List.mem_map_of_mem he
          rw [hnames] at hmem
          exact Worker.paramName_of_expected (List.mem_filter.mp hmem).1
        · rw [hnames]
          exact (Worker.expectedNames_nodup w order).filter _
        · rw [hnames]
          exact List.mem_filter.mpr ⟨hname, Worker.lookup_of_expected hvalid hname⟩
    exact h R hR (name, t) hin
  | exports | removes | preOpen => trivial

theorem CacheOwn.step (h : s.CacheOwn) (hkeeps : s.KeepsOpened act)
    (ht : s.step w order sha256 act = some t) : t.CacheOwn := by
  cases act with
  | exports R =>
    cases ht
    rintro R' hR'
    cases hR'
    exact hkeeps
  | removes =>
    cases ht
    intro R hR
    cases hR
  | preOpen device ready rebuild =>
    cases ht
    exact Worker.preOpenHandles_own h
  | importWeights ready rebuild =>
    cases ht
    intro R hR key u hu
    exact h R hR key u (Worker.importWeights_cache hu)

/-- Tensors that no other primary's registry overtakes are current when they are imported. -/
theorem cacheCurrent_of_kept {acts : List (SessionAct P)}
    (h : Along (step w order sha256) KeepsOpened start acts) :
    Along (step w order sha256) (CacheCurrent w order) start acts := by
  refine along_imp (I := CacheOwn) ?_ (fun s act t hs hkeeps ht => hs.step hkeeps ht) ?_ h
  · intro s act hs _
    cases act with
    | importWeights ready rebuild => exact fun R hR name _ t ht => hs R hR _ t ht
    | exports | removes | preOpen => trivial
  · intro R hR
    cases hR

/-- Where the pre-opened tensors are of the primary whose registry an import reads, every import of
a run installs tensors of the primary that it has validated; when the imports return, only there. -/
theorem installs_validated (acts : List (SessionAct P)) :
    (Along (step w order sha256) (CacheCurrent w order) start acts →
        Along (step w order sha256) (InstallsValidated w order sha256) start acts) ∧
      (Along (step w order sha256) (ImportReturns w order sha256) start acts →
        (Along (step w order sha256) (InstallsValidated w order sha256) start acts ↔
          Along (step w order sha256) (CacheCurrent w order) start acts)) := by
  constructor
  · exact along_mono fun s act h => installsValidated_of_current h
  · intro hreturns
    exact along_congr (I := fun _ => True) (fun s act _ h => installsValidated_iff h)
      (fun _ _ _ _ _ _ _ => trivial) trivial hreturns

/-- A process that serves a model of one parameter and shares embeddings. -/
def sharingWorker (mode : WeightSharingMode) : Worker where
  config := ⟨mode, true, false, false, false, false, false⟩
  model := ⟨"m", [("transformer.wte.weight", ⟨"float16", [1], 7⟩)], ["Linear"]⟩
  modelId := "m"
  tpRank := 0
  localTpRank := 0
  localTpSize := 1
  gpuUuid := "GPU-0"
  deviceIndex := 0

/-- SHA-256 of the one text that is hashed here, `m1torch.float16`. -/
def digest (_ : String) : String :=
  "68bd56f35f137d39b504de9b0949930fa8a319d1b6791def32e0ed20fdbfdabe"

def insertionOrder : SetOrder := ⟨List.dedup, fun _ => .refl _⟩

def openAll : IpcRebuild (Fin 2) where
  rebuild device _ h := some ⟨h.primary, h.memory, device⟩
  own := by
    intro device name h t ht
    cases ht
    rfl

def exportedBy (p : Fin 2) : Registry (Fin 2) :=
  ((sharingWorker .primary).exportWeights digest p).get (by revert p; decide +kernel)

attribute [local instance] Numerals.neZero_two

/-- The second primary exports before the import, or only after it. -/
def takeoverRun : List (SessionAct (Fin 2)) :=
  [.exports (exportedBy 0), .preOpen 0 true openAll, .exports (exportedBy 1),
    .importWeights true openAll]

def lateTakeoverRun : List (SessionAct (Fin 2)) :=
  [.exports (exportedBy 0), .preOpen 0 true openAll, .importWeights true openAll,
    .exports (exportedBy 1)]

theorem installs_validated_lateTakeover :
    Along (step (sharingWorker .secondary) insertionOrder digest)
        (InstallsValidated (sharingWorker .secondary) insertionOrder digest) start lateTakeoverRun ∧
      (run (step (sharingWorker .secondary) insertionOrder digest) start lateTakeoverRun).map
        (·.installed) = some [("transformer.wte.weight", ⟨0, 7, 0⟩)] :=
  ⟨(installs_validated lateTakeoverRun).1 (by decide +kernel), by decide +kernel⟩

/-- The import validates the registry of the second primary, returns, and has put the tensor of the
first one into the model. -/
theorem installs_unvalidated :
    Along (step (sharingWorker .secondary) insertionOrder digest)
        (ImportReturns (sharingWorker .secondary) insertionOrder digest) start takeoverRun ∧
      ¬Along (step (sharingWorker .secondary) insertionOrder digest)
        (InstallsValidated (sharingWorker .secondary) insertionOrder digest) start takeoverRun ∧
      ∃ s, run (step (sharingWorker .secondary) insertionOrder digest) start takeoverRun = some s ∧
        s.registry.map (·.primary) = some 1 ∧
        s.installed = [("transformer.wte.weight", ⟨0, 7, 0⟩)] := by
  refine ⟨by decide +kernel, by decide +kernel, ?_⟩
  exact ⟨_, rfl, by decide +kernel, by decide +kernel⟩

end ImportSession

end GpuSharing.WeightSharing
