import GpuSharing.Lib.Interrupted
import GpuSharing.WeightSharing.ImportSession

namespace GpuSharing.WeightSharing

open Interrupted

/-- The files that secondaries look at; `ready` carries the export that touched the empty signal
file. -/
structure ExportFiles (P : Type) where
  registry : Option (Registry P)
  ready : Option P

/-- What `export_weights` does once it has something to share: `serializes` and `sizes` for each
name, `writesTmp` up to the `fsync` of the temporary file, `syncsDirectory` the second one, and
`ensuresDirectory` the beginning of `signal_ready`. -/
inductive ExportStep
  | acquiresLock
  | getsGpuUuid
  | serializes (name : String)
  | computesModelHash
  | writesTmp
  | renames
  | syncsDirectory
  | ensuresDirectory
  | unlinksSignal
  | touchesSignal
  | sizes (name : String)
  deriving DecidableEq, Repr

namespace Worker

variable {P : Type} (w : Worker)

/-- `sorted(shareable_names)`. -/
def exportedNames : List String :=
  (w.model.shareableParamNames w.config).insertionSort (· ≤ ·)

def stepsBeforeRename : List ExportStep :=
  [.acquiresLock, .getsGpuUuid] ++ w.exportedNames.map .serializes ++
    [.computesModelHash, .writesTmp]

def stepsAfterRename : List ExportStep :=
  [.syncsDirectory, .ensuresDirectory, .unlinksSignal, .touchesSignal] ++
    w.exportedNames.map .sizes

/-- What a step does to the files. -/
def exportEffect (sha256 : String → String) (p : P) :
    ExportStep → ExportFiles P → ExportFiles P
  | .renames, f => { f with registry := w.exportWeights sha256 p }
  | .unlinksSignal, f => { f with ready := none }
  | .touchesSignal, f => { f with ready := some p }
  | _, f => f

/-- `_dtype_from_string` raises where the size of the parameter is summed up. -/
def sizeRaises (name : String) : Bool :=
  ((w.model.parameters.lookup name).bind fun param => elementSize param.dtype).isNone

/-- Where the steps raise: as the world lets them, given by `fault`, or by themselves. -/
def exportFault (fault : ExportStep → Option Fault) (step : ExportStep) : Option Fault :=
  match fault step, step with
  | some f, _ => some f
  | none, .sizes name => if w.sizeRaises name then some .before else none
  | none, _ => none

/-- `export_weights`, run by primary `p`. -/
def publishWeights (sha256 : String → String) (p : P) (fault : ExportStep → Option Fault)
    (older : ExportFiles P) : Outcome (ExportFiles P) :=
  if w.config.mode ≠ .primary then ⟨[older], older, true⟩
  else if w.exportedNames = [] then ⟨[older], older, false⟩
  else run (w.exportEffect sha256 p) (w.exportFault fault)
    (w.stepsBeforeRename ++ .renames :: w.stepsAfterRename) older

end Worker

namespace ExportFiles

variable {P : Type} (worker : P → Worker) (sha256 : String → String)

/-- Something of export `p` is visible. -/
def Shows (f : ExportFiles P) (p : P) : Prop :=
  (∃ R, f.registry = some R ∧ R.primary = p) ∨ f.ready = some p

/-- The registry file holds what export `p` writes, one entry for each shareable parameter. -/
def Complete (f : ExportFiles P) (p : P) : Prop :=
  ∃ R, f.registry = some R ∧ (worker p).exportWeights sha256 p = some R ∧
    (R.weights.map (·.1)).Perm ((worker p).model.shareableParamNames (worker p).config)

/-- The registry file is complete for the export whose ready signal is visible. -/
def ReadyComplete (f : ExportFiles P) : Prop :=
  ∀ p, f.ready = some p → f.Complete worker sha256 p

end ExportFiles

/-- The files from the rename of export `p` on: the registry file is the export's, and the ready signal
is the older one, away, or the export's. -/
def ExportFiles.Replaced {P : Type} (f older : ExportFiles P) (p : P) (R : Registry P) : Prop :=
  f.registry = some R ∧ (f.ready = older.ready ∨ f.ready = none ∨ f.ready = some p)

/-- The files before export `p`; whatever is there is left from other exports. -/
structure OlderFiles {P : Type} (worker : P → Worker) (sha256 : String → String) (p : P) extends
    ExportFiles P where
  other : ¬toExportFiles.Shows p
  complete : toExportFiles.ReadyComplete worker sha256

/-- The ready signal is never visible without the registry that it is for, and where the export
raises nothing of it is visible. -/
def PublishesLast {P : Type} (worker : P → Worker) (sha256 : String → String) (p : P)
    (o : Outcome (ExportFiles P)) : Prop :=
  (∀ f ∈ o.seen, f.ReadyComplete worker sha256) ∧ (o.raised = true → ¬o.last.Shows p)

namespace Worker

variable {P : Type}

/-- The export gets as far as replacing the registry file. -/
def ReplacesRegistry (w : Worker) (fault : ExportStep → Option Fault) : Prop :=
  w.config.mode = .primary ∧ w.exportedNames ≠ [] ∧
    (∀ step ∈ w.stepsBeforeRename, fault step = none) ∧ fault .renames ≠ some .before

/-- Nothing raises from the replacement of the registry file on. -/
def EndsQuietly (w : Worker) (fault : ExportStep → Option Fault) : Prop :=
  (∀ step ∈ .renames :: w.stepsAfterRename, fault step = none) ∧
    ∀ name ∈ w.exportedNames, w.sizeRaises name = false

variable {w : Worker} {sha256 : String → String} {p : P} {fault : ExportStep → Option Fault}
  {older : ExportFiles P} {R : Registry P}

theorem mem_exportedNames {name : String} :
    name ∈ w.exportedNames ↔ name ∈ w.model.shareableParamNames w.config :=
  (List.perm_insertionSort _ _).mem_iff

theorem exists_exportWeights (h : w.exportedNames ≠ []) :
    ∃ R, w.exportWeights sha256 p = some R := by
  unfold exportWeights
  exact ⟨_, if_neg h⟩

theorem exportWeights_primary (hR : w.exportWeights sha256 p = some R) : R.primary = p := by
  unfold exportWeights at hR
  dsimp only at hR
  split_ifs at hR
  cases hR
  rfl

/-- A registry has one entry for each shareable parameter. -/
theorem exportWeights_names (hR : w.exportWeights sha256 p = some R) :
    (R.weights.map (·.1)).Perm (w.model.shareableParamNames w.config) := by
  unfold exportWeights at hR
  dsimp only at hR
  split_ifs at hR
  cases hR
  refine List.Perm.trans (.of_eq ?_) (List.perm_insertionSort (· ≤ ·) _)
  rw [List.map_filterMap]
  refine (List.filterMap_congr fun name hname => ?_).trans List.filterMap_some
  obtain ⟨param, hparam⟩ := exists_lookup (List.mem_filter.mp (mem_exportedNames.mp hname)).1
  rw [hparam]
  rfl

theorem exportFault_eq_none {step : ExportStep} : w.exportFault fault step = none ↔
    fault step = none ∧ ∀ name, step = .sizes name → w.sizeRaises name = false := by
  unfold exportFault
  cases fault step with
  | some f => simp
  | none =>
    cases step with
    | sizes name => cases hsize : w.sizeRaises name <;> simp [hsize]
    | _ => simp

/-- The steps before the rename leave the files alone. -/
theorem exportEffect_before {step : ExportStep} (h : step ∈ w.stepsBeforeRename)
    (f : ExportFiles P) : w.exportEffect sha256 p step f = f := by
  simp only [stepsBeforeRename, List.cons_append, List.nil_append, List.mem_cons, List.mem_append,
    List.mem_map, List.not_mem_nil, or_false] at h
  rcases h with rfl | rfl | ⟨name, _, rfl⟩ | rfl | rfl <;> rfl

/-- The steps up to the rename raise only where the world lets them. -/
theorem exportFault_before {step : ExportStep} (h : step ∈ w.stepsBeforeRename) :
    w.exportFault fault step = fault step := by
  simp only [stepsBeforeRename, List.cons_append, List.nil_append, List.mem_cons, List.mem_append,
    List.mem_map, List.not_mem_nil, or_false] at h
  unfold exportFault
  rcases h with rfl | rfl | ⟨name, _, rfl⟩ | rfl | rfl <;> cases fault _ <;> rfl

@[simp] theorem exportFault_renames : w.exportFault fault .renames = fault .renames := by
  unfold exportFault
  cases fault _ <;> rfl

/-- What can raise from the rename on. -/
theorem endsQuietly_iff : w.EndsQuietly fault ↔
    ∀ step ∈ .renames :: w.stepsAfterRename, w.exportFault fault step = none := by
  constructor
  · rintro ⟨hfault, hsizes⟩ step hstep
    refine exportFault_eq_none.mpr ⟨hfault step hstep, ?_⟩
    rintro name rfl
    have hname : name ∈ w.exportedNames := by simpa [stepsAfterRename] using hstep
    exact hsizes name hname
  · intro h
    refine ⟨fun step hstep => (exportFault_eq_none.mp (h step hstep)).1, fun name hname => ?_⟩
    have hmem : .sizes name ∈ w.stepsAfterRename :=
      List.mem_append_right _ (List.mem_map_of_mem hname)
    exact (exportFault_eq_none.mp (h _ (List.mem_cons_of_mem _ hmem))).2 name rfl

theorem exportEffect_after (hR : w.exportWeights sha256 p = some R) {step : ExportStep}
    {f : ExportFiles P} (h : f.Replaced older p R) :
    (w.exportEffect sha256 p step f).Replaced older p R := by
  cases step with
  | renames => exact ⟨hR, h.2⟩
  | unlinksSignal => exact ⟨h.1, .inr (.inl rfl)⟩
  | touchesSignal => exact ⟨h.1, .inr (.inr rfl)⟩
  | _ => exact h

theorem seen_before {raises : ExportStep → Option Fault} :
    ∀ f ∈ (run (w.exportEffect sha256 p) raises w.stepsBeforeRename older).seen, f = older :=
  run_invariant (fun _ hstep f hf => (exportEffect_before hstep f).trans hf) rfl

theorem last_before {raises : ExportStep → Option Fault} :
    (run (w.exportEffect sha256 p) raises w.stepsBeforeRename older).last = older :=
  seen_before _ last_mem_seen

/-- An export that does not get as far as the rename leaves the older files. -/
theorem publishWeights_older (sha256 : String → String) (p : P) (older : ExportFiles P)
    (h : ¬w.ReplacesRegistry fault) :
    ∀ f ∈ (w.publishWeights sha256 p fault older).seen, f = older := by
  unfold publishWeights
  split_ifs with hmode hnames
  · simp
  · simp
  by_cases hbefore : ∃ step ∈ w.stepsBeforeRename, w.exportFault fault step ≠ none
  · rw [run_append_raised hbefore]
    exact seen_before
  have hquiet : ∀ step ∈ w.stepsBeforeRename, w.exportFault fault step = none := by
    simpa using hbefore
  have hrename : fault .renames = some .before := by
    by_contra hrename
    refine h ⟨not_not.mp hmode, hnames, fun step hstep => ?_, hrename⟩
    exact (exportFault_before hstep).symm.trans (hquiet step hstep)
  obtain ⟨_, _, hseen⟩ := run_append (w.exportEffect sha256 p)
    (.renames :: w.stepsAfterRename) older hquiet
  intro f hf
  rcases (hseen f).mp hf with hf | hf
  · exact seen_before f hf
  · rw [last_before] at hf
    simpa [run, hrename] using hf

theorem publishWeights_last : (w.publishWeights sha256 p fault older).last ∈
    (w.publishWeights sha256 p fault older).seen := by
  unfold publishWeights
  split_ifs
  · exact List.mem_singleton_self _
  · exact List.mem_singleton_self _
  · exact last_mem_seen

/-- The rename and what follows it: the files it shows first, the ones it ends with, and whether it
raises. -/
theorem run_rename (older : ExportFiles P) (hrename : fault .renames ≠ some .before)
    (hR : w.exportWeights sha256 p = some R) :
    let o := run (w.exportEffect sha256 p) (w.exportFault fault) (.renames :: w.stepsAfterRename)
      older
    ⟨some R, older.ready⟩ ∈ o.seen ∧ o.last.registry = some R ∧
      ∀ f ∈ o.seen, f = older ∨ f.Replaced older p R := by
  have heffect : w.exportEffect sha256 p .renames older = ⟨some R, older.ready⟩ := by
    rw [← hR]
    rfl
  cases hfault : fault .renames with
  | some f =>
    cases f with
    | before => exact absurd hfault hrename
    | after => simp [run, hfault, heffect, ExportFiles.Replaced]
  | none =>
    rw [run_cons_none (by rw [exportFault_renames, hfault]), heffect]
    have hafter : ∀ f ∈ (run (w.exportEffect sha256 p) (w.exportFault fault) w.stepsAfterRename
        ⟨some R, older.ready⟩).seen, f.Replaced older p R :=
      run_invariant (fun _ _ _ => exportEffect_after hR) ⟨rfl, .inl rfl⟩
    exact ⟨List.mem_cons_of_mem _ start_mem_seen, (hafter _ last_mem_seen).1,
      List.forall_mem_cons.mpr ⟨.inl rfl, fun f hf => .inr (hafter f hf)⟩⟩

/-- What an export does that gets as far as the rename. -/
theorem publishWeights_replaces (older : ExportFiles P) (h : w.ReplacesRegistry fault)
    (hR : w.exportWeights sha256 p = some R) :
    let o := w.publishWeights sha256 p fault older
    ⟨some R, older.ready⟩ ∈ o.seen ∧ o.last.registry = some R ∧
      (o.raised = true ↔ ¬w.EndsQuietly fault) ∧
      ∀ f ∈ o.seen, f = older ∨ f.Replaced older p R := by
  obtain ⟨hmode, hnames, hbefore, hrename⟩ := h
  have hquiet : ∀ step ∈ w.stepsBeforeRename, w.exportFault fault step = none := by
    intro step hstep
    rw [exportFault_before hstep]
    exact hbefore step hstep
  obtain ⟨hlast, hraised, hseen⟩ := run_append (w.exportEffect sha256 p)
    (.renames :: w.stepsAfterRename) older hquiet
  rw [last_before] at hlast hraised hseen
  obtain ⟨hfirst, hregistry, hshown⟩ := run_rename older hrename hR
  dsimp only
  unfold publishWeights
  rw [if_neg (not_not.mpr hmode), if_neg hnames, hlast, hraised, raised_iff, endsQuietly_iff]
  refine ⟨(hseen _).mpr (.inr hfirst), hregistry, ?_, fun f hf => ?_⟩
  · push Not
    rfl
  rcases (hseen f).mp hf with hf | hf
  · exact .inl (seen_before f hf)
  · exact hshown f hf

end Worker

namespace ExportFiles

variable {P : Type} {worker : P → Worker} {sha256 : String → String} {p : P}
  {fault : ExportStep → Option Fault} {older : OlderFiles worker sha256 p}

/-- An export publishes its registry and ready signal last, together and without a mixture with older
files, when, and only when, it raises before the rename or not at all and no older ready signal is
there at the rename. -/
theorem publishesLast_iff :
    PublishesLast worker sha256 p
        ((worker p).publishWeights sha256 p fault older.toExportFiles) ↔
      ((worker p).ReplacesRegistry fault →
        older.ready = none ∧ (worker p).EndsQuietly fault) := by
  by_cases h : (worker p).ReplacesRegistry fault
  · rw [forall_prop_of_true h]
    obtain ⟨R, hR⟩ : ∃ R, (worker p).exportWeights sha256 p = some R :=
      Worker.exists_exportWeights h.2.1
    have hprimary := Worker.exportWeights_primary hR
    obtain ⟨hfirst, hlast, hraised, hseen⟩ := Worker.publishWeights_replaces
      older.toExportFiles h hR
    constructor
    · rintro ⟨hcomplete, hnothing⟩
      constructor
      · by_contra hready
        obtain ⟨q, hq⟩ := Option.ne_none_iff_exists'.mp hready
        obtain ⟨R', hR', hexport, _⟩ := hcomplete _ hfirst q hq
        cases hR'
        rw [← Worker.exportWeights_primary hexport, hprimary] at hq
        exact older.other (.inr hq)
      · by_contra hloud
        exact hnothing (hraised.mpr hloud) (.inl ⟨R, hlast, hprimary⟩)
    · rintro ⟨hready, hquiet⟩
      refine ⟨fun f hf => ?_, fun h => absurd hquiet (hraised.mp h)⟩
      rcases hseen f hf with rfl | ⟨hregistry, hsignal⟩
      · exact older.complete
      · intro q hq
        rw [hready, hq] at hsignal
        obtain rfl : q = p := by simpa using hsignal
        exact ⟨R, hregistry, hR, Worker.exportWeights_names hR⟩
  · have holder := Worker.publishWeights_older sha256 p older.toExportFiles h
    simp only [h, false_implies, iff_true]
    refine ⟨fun f hf => ?_, fun _ => ?_⟩
    · rw [holder f hf]
      exact older.complete
    · rw [holder _ Worker.publishWeights_last]
      exact older.other

/-- A quantised layer whose packed weights are of type `int32`. -/
def quantizedWorker : Worker where
  config := ⟨.primary, false, false, false, false, false, false⟩
  model := ⟨"m", [("model.layers.0.fc.qweight", ⟨"int32", [4, 2], 5⟩)], ["Linear"]⟩
  modelId := "m"
  tpRank := 0
  localTpRank := 0
  localTpSize := 1
  gpuUuid := "GPU-0"
  deviceIndex := 0

/-- SHA-256 of the one text that is hashed here, `m1torch.int32`. -/
def quantizedDigest (_ : String) : String :=
  "289217a610dd5faa8df152e897168d0ff376f734f86611771347dc7d34d68721"

/-- The export raises with its registry and its ready signal visible, in a directory that was
empty. -/
theorem publishes_then_raises :
    let o := quantizedWorker.publishWeights quantizedDigest (0 : Fin 2) (fun _ => none) ⟨none, none⟩
    o.raised = true ∧ o.last.registry.map (·.primary) = some 0 ∧ o.last.ready = some 0 ∧
      ¬PublishesLast (fun _ => quantizedWorker) quantizedDigest 0 o := by
  have hvisible : (quantizedWorker.publishWeights quantizedDigest (0 : Fin 2) (fun _ => none)
      ⟨none, none⟩).raised = true ∧
    (quantizedWorker.publishWeights quantizedDigest (0 : Fin 2) (fun _ => none)
      ⟨none, none⟩).last.registry.map (·.primary) = some 0 ∧
    (quantizedWorker.publishWeights quantizedDigest (0 : Fin 2) (fun _ => none)
      ⟨none, none⟩).last.ready = some 0 := by decide +kernel
  obtain ⟨hraised, hregistry, hready⟩ := hvisible
  exact ⟨hraised, hregistry, hready, fun h => h.2 hraised (.inr hready)⟩

end ExportFiles

end GpuSharing.WeightSharing
