import Mathlib.Data.List.DropRight
import Mathlib.Data.List.Nodup

namespace GpuSharing.Sardeenz.SavedLaunches

inductive PlacementMode
  | balanced
  | concentrated
  deriving DecidableEq, Repr

inductive SleepLevel
  | weightsToCpu
  | discardAll
  deriving DecidableEq, Repr

/-- The options that decide a launch's model, arguments, GPUs, placement and sleep settings. -/
structure LaunchModelOptions where
  modelPath : String
  maxTokens : Option Int
  extraArgs : Option (List String)
  gpuIds : Option (List Nat)
  topologyGpuIds : Option (List Nat)
  tensorParallelSize : Option Int
  pipelineParallelSize : Option Int
  placementMode : Option PlacementMode
  placementGpuId : Option Nat
  servedModelName : Option String
  enableSleepMode : Option Bool
  idleSleepTimeoutSeconds : Option Int
  idleSleepLevel : Option SleepLevel
  autoWakeOnRequest : Option Bool
  deriving DecidableEq, Repr

/-- The fields of a `ModelInstance` that a launch sets from these options. -/
structure ModelInstance where
  modelPath : String
  modelName : String
  maxTokens : Int
  gpuIds : List Nat
  topologyGpuIds : List Nat
  placementMode : PlacementMode
  placementGpuId : Option Nat
  tensorParallelSize : Int
  sleepModeEnabled : Bool
  idleSleepTimeoutSeconds : Option Int
  idleSleepLevel : SleepLevel
  autoWakeOnRequest : Bool
  deriving DecidableEq, Repr

/-- What a launch starts: the instance, and the user's arguments of its process, which the instance
does not keep. -/
structure Launch where
  model : ModelInstance
  extraArgs : List String
  deriving DecidableEq, Repr

/-- The characters that JavaScript's `trim` takes away. -/
def isWhiteSpace (c : Char) : Bool :=
  c ∈ ['\t', '\n', '\x0b', '\x0c', '\r', ' ', '\u00a0', '\u1680', '\u2028', '\u2029', '\u202f',
    '\u205f', '\u3000', '\ufeff'] || ('\u2000' ≤ c && c ≤ '\u200a')

def trim (s : String) : String :=
  String.ofList ((s.toList.dropWhile isWhiteSpace).rdropWhile isWhiteSpace)

def FORBIDDEN_ARGS : List String :=
  ["--gpu-memory-utilization", "--port", "--no-enable-prefix-caching", "--disable-log-requests",
    "--disable-log-stats"]

/-- What stands before the first `=`, in lower case. -/
def argName (arg : String) : String :=
  String.ofList ((arg.toList.takeWhile (· ≠ '=')).map Char.toLower)

def isForbiddenArg (arg : String) : Bool :=
  FORBIDDEN_ARGS.any fun forbidden => argName arg = forbidden

def isOption (arg : String) : Bool := arg.toList.head? = some '-'

def sanitizeTrimmed : List String → List String
  | [] => []
  | [arg] => if isOption arg && !isForbiddenArg arg then [arg] else []
  | arg :: nextArg :: rest =>
    if isOption arg && !isForbiddenArg arg then
      if !arg.toList.contains '=' && !isOption nextArg then
        (arg ++ "=" ++ nextArg) :: sanitizeTrimmed rest
      else arg :: sanitizeTrimmed (nextArg :: rest)
    else sanitizeTrimmed (nextArg :: rest)

def sanitizeVllmArgs (args : List String) : List String :=
  sanitizeTrimmed ((args.map trim).filter (· ≠ ""))

/-- The first of the names whose argument has a number as its value. `number` reads a value: what
`Math.floor(Number(value))` gives if that is finite and positive. -/
def getNumericArg (number : String → Option Int) (args argNames : List String) : Option Int :=
  argNames.findSome? fun name => (args.find? (argName · = name)).bind fun arg =>
    if arg.toList.contains '=' then
      number (String.ofList ((arg.toList.dropWhile (· ≠ '=')).drop 1))
    else none

/-- The ids in the order in which they come first, each once. -/
def uniqueIds : List Nat → List Nat
  | [] => []
  | id :: ids => id :: (uniqueIds ids).filter (· ≠ id)

/-- The GPUs of a launch: the requested ones as far as they are needed, or those that follow the
recommended one. That the requested GPUs exist is not looked at here. -/
def getTargetGpus (recommended : Nat → Nat) (gpuIds : Option (List Nat)) (requiredGpuCount : Nat) :
    Option (List Nat) :=
  let requested := uniqueIds (gpuIds.getD [])
  if requested = [] then
    some ((List.range (max requiredGpuCount 1)).map (recommended requiredGpuCount + ·))
  else if 1 < requiredGpuCount ∧ requested.length < requiredGpuCount then none
  else some (requested.take (max requiredGpuCount 1))

def LaunchModelOptions.requestedGpuIds (o : LaunchModelOptions) : Option (List Nat) :=
  if o.topologyGpuIds.getD [] = [] then o.gpuIds else o.topologyGpuIds

/-- The name that vLLM serves the model under. -/
def effectiveModelName (servedModelName : Option String) (modelPath : String) : String :=
  let name := (servedModelName.map trim).getD ""
  if name = "" then modelPath else name

section Launch

variable (number : String → Option Int) (recommended : Nat → Nat)

def effectivePipelineParallelSize (o : LaunchModelOptions) : Int :=
  max ((o.pipelineParallelSize.orElse fun _ =>
    getNumericArg number (sanitizeVllmArgs (o.extraArgs.getD []))
      ["--pipeline-parallel-size", "-pp"]).getD 1) 1

def effectiveTensorParallelSize (o : LaunchModelOptions) : Int := max (o.tensorParallelSize.getD 1) 1

/-- The GPUs that the launch needs. -/
def requiredGpuCount (o : LaunchModelOptions) : Nat :=
  (effectiveTensorParallelSize o * effectivePipelineParallelSize number o).toNat

/-- The execution GPUs and the GPU that a concentrated launch is placed on. -/
def placement (o : LaunchModelOptions) : Option (List Nat × Option Nat) :=
  match o.placementMode.getD .balanced with
  | .balanced =>
    (getTargetGpus recommended o.requestedGpuIds (requiredGpuCount number o)).map fun gpuIds =>
      (gpuIds, none)
  | .concentrated =>
    let requested := uniqueIds (o.requestedGpuIds.getD [])
    let topology :=
      if requested = [] then getTargetGpus recommended none (requiredGpuCount number o)
      else some requested
    match topology with
    | none => none
    | some topologyGpuIds =>
      match o.placementGpuId.orElse fun _ => topologyGpuIds.head? with
      | none => none
      | some placementGpuId =>
        if placementGpuId ∈ topologyGpuIds ∧ requiredGpuCount number o ≤ topologyGpuIds.length then
          some (topologyGpuIds, some placementGpuId)
        else none

def launchModel (o : LaunchModelOptions) : Option Launch :=
  (placement number recommended o).map fun (gpuIds, placementGpuId) =>
    { model :=
        { modelPath := o.modelPath
          modelName := effectiveModelName o.servedModelName o.modelPath
          maxTokens := o.maxTokens.getD 4096
          gpuIds := gpuIds
          topologyGpuIds := gpuIds
          placementMode := o.placementMode.getD .balanced
          placementGpuId := placementGpuId
          tensorParallelSize := effectiveTensorParallelSize o
          sleepModeEnabled := o.enableSleepMode.getD false
          idleSleepTimeoutSeconds := o.idleSleepTimeoutSeconds
          idleSleepLevel := o.idleSleepLevel.getD .weightsToCpu
          autoWakeOnRequest := o.autoWakeOnRequest.getD true }
      extraArgs := sanitizeVllmArgs (o.extraArgs.getD []) }

end Launch

theorem trim_trim (s : String) : trim (trim s) = trim s := by
  have hchars : ∀ l : List Char, ((l.dropWhile isWhiteSpace).rdropWhile isWhiteSpace).dropWhile
      isWhiteSpace = (l.dropWhile isWhiteSpace).rdropWhile isWhiteSpace := by
    intro l
    obtain ⟨rest, hrest⟩ := List.rdropWhile_prefix isWhiteSpace (l.dropWhile isWhiteSpace)
    cases hkept : (l.dropWhile isWhiteSpace).rdropWhile isWhiteSpace with
    | nil => rfl
    | cons c cs =>
      have hhead : (l.dropWhile isWhiteSpace).head? = some c := by
        rw [← hrest, hkept]
        rfl
      have hc : isWhiteSpace c = false := by
        have hnot := List.head?_dropWhile_not isWhiteSpace l
        rw [hhead] at hnot
        exact hnot
      rw [List.dropWhile_cons_of_neg (by simp [hc])]
  rw [trim, trim, String.toList_ofList, hchars, List.rdropWhile_idempotent]

theorem effectiveModelName_saved (servedModelName : Option String) (modelPath : String) :
    effectiveModelName
      (if effectiveModelName servedModelName modelPath ≠ modelPath then
        some (effectiveModelName servedModelName modelPath) else none) modelPath =
      effectiveModelName servedModelName modelPath := by
  by_cases hpath : effectiveModelName servedModelName modelPath = modelPath
  · rw [if_neg (not_not.mpr hpath), hpath]
    rfl
  · rw [if_pos hpath]
    by_cases hempty : (servedModelName.map trim).getD "" = ""
    · exact absurd (if_pos hempty) hpath
    · have hname : effectiveModelName servedModelName modelPath =
          (servedModelName.map trim).getD "" :=
        if_neg hempty
      cases servedModelName with
      | none => exact absurd rfl hempty
      | some name =>
        simp only [Option.map_some, Option.getD_some] at hempty hname
        rw [hname, effectiveModelName]
        simp only [Option.map_some, Option.getD_some, trim_trim, if_neg hempty]

theorem nodup_uniqueIds (ids : List Nat) : (uniqueIds ids).Nodup := by
  induction ids with
  | nil => exact List.nodup_nil
  | cons x ids ih =>
    refine List.nodup_cons.mpr ⟨fun hmem => ?_, ih.filter _⟩
    simpa using (List.mem_filter.mp hmem).2

theorem uniqueIds_of_nodup {ids : List Nat} (h : ids.Nodup) : uniqueIds ids = ids := by
  induction ids with
  | nil => rfl
  | cons x ids ih =>
    obtain ⟨hx, hids⟩ := List.nodup_cons.mp h
    rw [uniqueIds, ih hids, List.filter_eq_self.mpr]
    intro id hid
    exact decide_eq_true fun heq => hx (heq ▸ hid)

/-- A launch is given as many distinct GPUs as it needs. -/
theorem getTargetGpus_some {recommended : Nat → Nat} {gpuIds : Option (List Nat)} {n : Nat}
    {out : List Nat} (hn : 1 ≤ n) (h : getTargetGpus recommended gpuIds n = some out) :
    out.Nodup ∧ out.length = n := by
  have hmax : max n 1 = n := max_eq_left hn
  simp only [getTargetGpus, hmax] at h
  split_ifs at h with hnone hfew
  · cases h
    refine ⟨List.nodup_range.map fun a b hab => Nat.add_left_cancel hab, ?_⟩
    rw [List.length_map, List.length_range]
  · cases h
    refine ⟨(nodup_uniqueIds _).sublist (List.take_sublist _ _), ?_⟩
    have hpos : 0 < (uniqueIds (gpuIds.getD [])).length := List.length_pos_iff.mpr hnone
    rw [List.length_take]
    omega

/-- A launch that asks for as many distinct GPUs as it needs is given these. -/
theorem getTargetGpus_of_nodup (recommended : Nat → Nat) {gpuIds : List Nat} (hnodup : gpuIds.Nodup)
    (hpos : 1 ≤ gpuIds.length) :
    getTargetGpus recommended (some gpuIds) gpuIds.length = some gpuIds := by
  have hne : gpuIds ≠ [] := List.length_pos_iff.mp hpos
  simp only [getTargetGpus, Option.getD_some, uniqueIds_of_nodup hnodup, if_neg hne]
  rw [if_neg (by omega), max_eq_left hpos, List.take_length]

section Launch

variable {number : String → Option Int} {recommended : Nat → Nat} {o : LaunchModelOptions}
  {launch : Launch}

theorem one_le_effectiveTensorParallelSize : 1 ≤ effectiveTensorParallelSize o := by
  rw [effectiveTensorParallelSize]
  omega

theorem one_le_effectivePipelineParallelSize : 1 ≤ effectivePipelineParallelSize number o := by
  rw [effectivePipelineParallelSize]
  omega

theorem one_le_requiredGpuCount : 1 ≤ requiredGpuCount number o := by
  have htp : 0 < effectiveTensorParallelSize o := one_le_effectiveTensorParallelSize
  have hpp : 0 < effectivePipelineParallelSize number o := one_le_effectivePipelineParallelSize
  have hmul := Int.mul_pos htp hpp
  rw [requiredGpuCount]
  omega

/-- What is set of a balanced launch's GPUs. -/
theorem launchModel_balanced (hmode : o.placementMode.getD .balanced = .balanced)
    (h : launchModel number recommended o = some launch) :
    launch.model.gpuIds.Nodup ∧ launch.model.gpuIds.length = requiredGpuCount number o ∧
      launch.model.topologyGpuIds = launch.model.gpuIds ∧ launch.model.placementGpuId = none := by
  obtain ⟨⟨gpuIds, placementGpuId⟩, hplacement, rfl⟩ := Option.map_eq_some_iff.mp h
  simp only [placement, hmode] at hplacement
  obtain ⟨out, hout, heq⟩ := Option.map_eq_some_iff.mp hplacement
  cases heq
  obtain ⟨hnodup, hlength⟩ := getTargetGpus_some one_le_requiredGpuCount hout
  exact ⟨hnodup, hlength, rfl, rfl⟩

/-- What else a launch sets. -/
theorem launchModel_fields (h : launchModel number recommended o = some launch) :
    launch =
      { model :=
          { modelPath := o.modelPath
            modelName := effectiveModelName o.servedModelName o.modelPath
            maxTokens := o.maxTokens.getD 4096
            gpuIds := launch.model.gpuIds
            topologyGpuIds := launch.model.topologyGpuIds
            placementMode := o.placementMode.getD .balanced
            placementGpuId := launch.model.placementGpuId
            tensorParallelSize := effectiveTensorParallelSize o
            sleepModeEnabled := o.enableSleepMode.getD false
            idleSleepTimeoutSeconds := o.idleSleepTimeoutSeconds
            idleSleepLevel := o.idleSleepLevel.getD .weightsToCpu
            autoWakeOnRequest := o.autoWakeOnRequest.getD true }
        extraArgs := sanitizeVllmArgs (o.extraArgs.getD []) } := by
  obtain ⟨⟨gpuIds, placementGpuId⟩, -, rfl⟩ := Option.map_eq_some_iff.mp h
  rfl

end Launch

end GpuSharing.Sardeenz.SavedLaunches
