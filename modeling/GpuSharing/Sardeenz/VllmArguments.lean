import GpuSharing.Lib.ArgumentParser
import GpuSharing.Sardeenz.LaunchOptions

namespace GpuSharing.Sardeenz.VllmArguments

open ArgumentParser SavedLaunches

def hasArg (args : List String) (name : String) : Bool := args.any (argName · = name)

def hasAnyArg (args names : List String) : Bool := names.any (hasArg args ·)

/-- What a launch puts on the command line besides the user's arguments. The utilisation is given as
the text of its number. -/
structure LaunchLine where
  modelPath : String
  port : Nat
  effectiveModelName : String
  maxTokens : Int
  derivedGpuMemoryUtilization : Option String
  kvCacheMemoryBytes : Option Nat
  effectiveTensorParallelSize : Nat
  effectivePipelineParallelSize : Nat
  disablePrefixCaching : Bool
  enableSleepMode : Bool
  enforceEager : Bool
  isOption_modelPath : isOption modelPath = false

/-- The options of a launch, with the values that stand after their `=`. -/
def LaunchLine.options (l : LaunchLine) (sanitizedExtraArgs : List String) :
    List (String × Option String) :=
  [("--disable-log-stats", none), ("--port", some (toString l.port))] ++
    (if hasArg sanitizedExtraArgs "--served-model-name" then []
      else [("--served-model-name", some l.effectiveModelName)]) ++
    (if hasArg sanitizedExtraArgs "--max-model-len" then []
      else [("--max-model-len", some (toString l.maxTokens))]) ++
    (l.derivedGpuMemoryUtilization.toList.map fun utilization =>
      ("--gpu-memory-utilization", some utilization)) ++
    (l.kvCacheMemoryBytes.toList.map fun bytes =>
      ("--kv-cache-memory-bytes", some (toString bytes))) ++
    (if 1 < l.effectiveTensorParallelSize then
      [("--tensor-parallel-size", some (toString l.effectiveTensorParallelSize))] else []) ++
    (if 1 < l.effectivePipelineParallelSize ∧
        !hasAnyArg sanitizedExtraArgs ["--pipeline-parallel-size", "-pp"] then
      [("--pipeline-parallel-size", some (toString l.effectivePipelineParallelSize))] else []) ++
    (if l.disablePrefixCaching then [("--no-enable-prefix-caching", none)] else []) ++
    (if l.enableSleepMode then [("--enable-sleep-mode", none)] else []) ++
    (if l.enforceEager then [("--enforce-eager", none)] else [])

def optionArg : String × Option String → String
  | (name, none) => name
  | (name, some value) => name ++ "=" ++ value

def LaunchLine.baseArgs (l : LaunchLine) (sanitizedExtraArgs : List String) : List String :=
  "serve" :: l.modelPath :: (l.options sanitizedExtraArgs).map optionArg

def LaunchLine.vllmArgs (l : LaunchLine) (extraArgs : List String) : List String :=
  l.baseArgs (sanitizeVllmArgs extraArgs) ++ sanitizeVllmArgs extraArgs

/-- The user's arguments: the lines without the white space around them, and no empty ones. -/
def userArgs (extraArgs : List String) : List String := (extraArgs.map trim).filter (· ≠ "")

/-- Underscores before the first point become dashes. -/
def normaliseKey (key : String) : String :=
  String.ofList ((key.toList.takeWhile (· ≠ '.')).map (fun c => if c = '_' then '-' else c) ++
    key.toList.dropWhile (· ≠ '.'))

def normaliseName (arg : String) : String :=
  if "--help=".toList <+: arg.toList then "--help"
  else if "--".toList <+: arg.toList then
    match attached arg with
    | some value => normaliseKey (key arg) ++ "=" ++ value
    | none => normaliseKey arg
  else arg

/-- The level in an argument such as `-O3` or `-O=3`. -/
def optimizationLevel (arg : String) : String :=
  match arg.toList.drop 2 with
  | '=' :: level => String.ofList level
  | level => String.ofList level

/-- What vLLM makes of an argument before it parses the line. -/
def normaliseArg (arg : String) (next : Option String) : List String :=
  if "-O".toList <+: arg.toList ∧ arg ≠ "-O" then ["--optimization-level", optimizationLevel arg]
  else if arg = "-O" ∧ ∃ level ∈ next, level ∈ ["0", "1", "2", "3"] then ["--optimization-level"]
  else [normaliseName arg]

def normalise : List String → List String
  | [] => []
  | arg :: args => normaliseArg arg args.head? ++ normalise args

/-- The options that a launch sets, and whether they have a value. -/
def LAUNCH_OPTIONS : List (String × Bool) :=
  [("--disable-log-stats", false), ("--port", true), ("--served-model-name", true),
    ("--max-model-len", true), ("--gpu-memory-utilization", true),
    ("--kv-cache-memory-bytes", true), ("--tensor-parallel-size", true),
    ("--pipeline-parallel-size", true), ("--no-enable-prefix-caching", false),
    ("--enable-sleep-mode", false), ("--enforce-eager", false)]

/-- The options of `vllm serve`, of which the model uses what it says of a launch's own options and
of those that are read in a way of their own. -/
structure Vllm extends Parser where
  launch : ∀ option ∈ LAUNCH_OPTIONS, option.1 ∈ names ∧
    if option.2 then (nargs option.1).accepts 1 else nargs option.1 = flag
  optimization_mem : "--optimization-level" ∈ names
  optimization_nargs : nargs "--optimization-level" = single
  optimization_long : ∀ name ∈ names, ¬"-O".toList <+: name.toList
  help_mem : "--help" ∈ names
  help_nargs : nargs "--help" = flag
  /-- No other option's name begins like one of these. -/
  forbidden_of_prefix : ∀ name ∈ names, ∀ forbidden ∈ FORBIDDEN_ARGS,
    forbidden.toList <+: name.toList.map Char.toLower → name ∈ FORBIDDEN_ARGS

/-- `vllm serve` with at most one model before the options. -/
def Vllm.parseArgs (v : Vllm) (args : List String) : Option (Option String × List Occurrence) :=
  match normalise args with
  | [] => none
  | command :: args =>
    if command = "serve" then
      (v.read args).bind fun (tags, options) =>
        if tags.length ≤ 1 then some (tags.head?, options) else none
    else none

def isManaged (o : Occurrence) : Bool := o.option ∈ FORBIDDEN_ARGS

/-- An option and its values, however they are written. -/
def given (o : Occurrence) : String × List String := (o.option, o.values)

/-- The options of a launch as vLLM reads them. -/
def LaunchLine.occurrences (l : LaunchLine) (sanitizedExtraArgs : List String) : List Occurrence :=
  (l.options sanitizedExtraArgs).map fun (name, value) => ⟨name, value, []⟩

/-- The user's arguments name no managed option on the final line; the managed options have there
what the launch gave them; and where vLLM takes the user's list, it reads in the final line, after
the launch's options, every other option of that list with all its values in order. -/
structure Vllm.Upholds (v : Vllm) (l : LaunchLine) (extraArgs : List String) : Prop where
  named : (v.named (normalise (l.vllmArgs extraArgs))).filter (· ∈ FORBIDDEN_ARGS) =
    (v.named (normalise (l.baseArgs (sanitizeVllmArgs extraArgs)))).filter (· ∈ FORBIDDEN_ARGS)
  managed : ∀ tag options, v.parseArgs (l.vllmArgs extraArgs) = some (tag, options) →
    options.filter isManaged = (l.occurrences (sanitizeVllmArgs extraArgs)).filter isManaged
  kept : ∀ options, v.read (normalise (userArgs extraArgs)) = some ([], options) →
    ∃ options', v.parseArgs (l.vllmArgs extraArgs) =
        some (some l.modelPath, l.occurrences (sanitizeVllmArgs extraArgs) ++ options') ∧
      options'.map given = (options.filter (!isManaged ·)).map given

/-- What vLLM takes for a managed option, `isForbiddenArg` does so too. -/
def Vllm.Caught (v : Vllm) (args : List String) : Prop :=
  ∀ arg ∈ args, isOption arg → isForbiddenArg arg = false →
    ∀ name ∈ v.named (normaliseArg arg none), name ∉ FORBIDDEN_ARGS

/-- A managed option has no value in an argument of its own that starts with a dash; any other
option has one value in an argument of its own, or only such that start with a dash. -/
def GivenPlainly (o : Occurrence) : Prop :=
  if o.option ∈ FORBIDDEN_ARGS then ∀ value ∈ o.separate, isOption value = false
  else o.separate.length = 1 ∨ ∀ value ∈ o.separate, isOption value

theorem toLower_eq {c d : Char} (hd : d.val < 'a'.val) (h : c.toLower = d) : c = d := by
  unfold Char.toLower at h
  split at h
  · next hupper =>
    have hval : c.val + ('a'.val - 'A'.val) = d.val := congrArg Char.val h
    have hle : 'A'.val ≤ c.val ∧ c.val ≤ 'Z'.val := hupper
    have hlow : 'A'.val.toNat = 65 ∧ 'Z'.val.toNat = 90 ∧ 'a'.val.toNat = 97 ∧
        ('a'.val - 'A'.val).toNat = 32 := by decide
    rw [← hval, UInt32.lt_iff_toNat_lt, UInt32.toNat_add] at hd
    rw [UInt32.le_iff_toNat_le, UInt32.le_iff_toNat_le] at hle
    omega
  · exact h

@[simp] theorem normalise_nil : normalise [] = [] := rfl

theorem normalise_cons (arg : String) (args : List String) :
    normalise (arg :: args) = normaliseArg arg args.head? ++ normalise args := rfl

theorem normaliseArg_of_not {arg : String} (h : ¬"-O".toList <+: arg.toList)
    (next : Option String) : normaliseArg arg next = [normaliseName arg] := by
  have hne : arg ≠ "-O" := fun harg => h (harg ▸ List.prefix_rfl)
  rw [normaliseArg, if_neg (fun hlevel => h hlevel.1), if_neg (fun hlevel => hne hlevel.1)]

theorem isOption_of_begins {start arg : String} (hstart : isOption start)
    (h : start.toList <+: arg.toList) : isOption arg := by
  obtain ⟨rest, hrest⟩ := h
  obtain ⟨cs, hcs⟩ := List.head?_eq_some_iff.mp (by simpa [isOption] using hstart)
  simp [isOption, ← hrest, hcs]

theorem normaliseArg_plain {arg : String} (h : isOption arg = false) (next : Option String) :
    normaliseArg arg next = [arg] := by
  have hnot : ∀ start : String, isOption start → ¬start.toList <+: arg.toList :=
    fun start hstart hbegins => by simp [isOption_of_begins hstart hbegins] at h
  rw [normaliseArg_of_not (hnot "-O" (by decide)), normaliseName,
    if_neg (hnot "--help=" (by decide)), if_neg (hnot "--" (by decide))]

theorem normalise_plain {arg : String} (h : isOption arg = false) (args : List String) :
    normalise (arg :: args) = arg :: normalise args := by
  rw [normalise_cons, normaliseArg_plain h, List.singleton_append]

theorem normalise_append {args : List String} (h : ∀ arg ∈ args, arg ≠ "-O") (rest : List String) :
    normalise (args ++ rest) = normalise args ++ normalise rest := by
  induction args with
  | nil => rfl
  | cons arg args ih =>
    have hnext : ∀ next, normaliseArg arg next = normaliseArg arg none := fun next => by
      simp [normaliseArg, h arg List.mem_cons_self]
    rw [List.cons_append, normalise_cons, normalise_cons, hnext, hnext args.head?,
      ih fun a ha => h a (List.mem_cons_of_mem arg ha), List.append_assoc]

theorem normaliseKey_eq_self {key : String} (h : '_' ∉ key.toList) : normaliseKey key = key := by
  have hmap : (key.toList.takeWhile (· ≠ '.')).map (fun c => if c = '_' then '-' else c) =
      key.toList.takeWhile (· ≠ '.') := by
    conv_rhs => rw [← List.map_id (key.toList.takeWhile (· ≠ '.'))]
    refine List.map_congr_left fun c hc => if_neg fun hunderscore => h ?_
    exact hunderscore ▸ (List.takeWhile_prefix _).subset hc
  rw [normaliseKey, hmap, List.takeWhile_append_dropWhile, String.ofList_toList]

theorem normaliseKey_no_equals {key : String} (h : '=' ∉ key.toList) :
    '=' ∉ (normaliseKey key).toList := by
  rw [normaliseKey, String.toList_ofList, List.mem_append, List.mem_map]
  rintro (⟨c, hc, hequals⟩ | hdrop)
  · split at hequals
    · simp at hequals
    · exact h (hequals ▸ (List.takeWhile_prefix _).subset hc)
  · exact h ((List.dropWhile_suffix _).subset hdrop)

theorem dashed_normaliseName {arg : String} (h : dashed arg) : dashed (normaliseName arg) := by
  obtain ⟨cs, hcs⟩ := List.head?_eq_some_iff.mp (by simpa [dashed] using h)
  unfold normaliseName
  split
  · decide
  split
  · split <;> simp [dashed, normaliseKey, key, hcs, String.toList_append]
  · exact h

theorem eq_help_of_begins {arg : String} (h : "--help=".toList <+: arg.toList) :
    key arg = "--help" := by
  obtain ⟨rest, hrest⟩ := h
  have harg : arg = "--help" ++ "=" ++ String.ofList rest := by
    rw [← String.toList_inj, toList_join, String.toList_ofList, ← hrest]
    simp
  rw [harg, key_join (by decide)]

theorem normaliseName_no_equals {arg : String} (h : '=' ∉ arg.toList) :
    '=' ∉ (normaliseName arg).toList := by
  unfold normaliseName
  split
  · decide
  split
  · simpa only [attached_eq_none h, key_eq_self h] using normaliseKey_no_equals h
  · exact h

theorem prefix_join {arg : String} (hdashed : dashed arg) {c : Char} (hc : c ≠ '=')
    (value : String) : ['-', c] <+: (arg ++ "=" ++ value).toList ↔ ['-', c] <+: arg.toList := by
  rw [toList_join]
  obtain ⟨cs, hcs⟩ := List.head?_eq_some_iff.mp (by simpa [dashed] using hdashed)
  cases cs with
  | nil => simp [hcs, hc]
  | cons d ds => exact prefix_append_iff (by simp [hcs]) _

/-- A value that follows an option's name stays as it is. -/
theorem normaliseName_join {arg : String} (hequals : '=' ∉ arg.toList) (hhelp : arg ≠ "--help")
    (hdashed : dashed arg) (value : String) :
    normaliseName (arg ++ "=" ++ value) = normaliseName arg ++ "=" ++ value := by
  have hhelp' : ¬"--help=".toList <+: (arg ++ "=" ++ value).toList := fun h =>
    hhelp ((key_join hequals value).symm.trans (eq_help_of_begins h))
  have hhelp'' : ¬"--help=".toList <+: arg.toList := fun h =>
    hequals (h.subset (by decide))
  have hlong : "--".toList <+: (arg ++ "=" ++ value).toList ↔ "--".toList <+: arg.toList :=
    prefix_join hdashed (by decide) value
  unfold normaliseName
  rw [if_neg hhelp', if_neg hhelp'']
  simp only [hlong, attached_join hequals, key_join hequals, attached_eq_none hequals]
  split <;> rfl

/-- A caught argument has a managed option's name up to the case, which vLLM keeps. -/
theorem key_of_isForbiddenArg {arg : String} (h : isForbiddenArg arg) :
    ∃ forbidden ∈ FORBIDDEN_ARGS, (key arg).toList.map Char.toLower = forbidden.toList := by
  obtain ⟨forbidden, hmem, hname⟩ := List.any_eq_true.mp h
  refine ⟨forbidden, hmem, ?_⟩
  rw [← of_decide_eq_true hname]
  simp [argName, key]

theorem dashes_of_map_toLower {cs : List Char}
    (h : (cs.map Char.toLower).take 2 = ['-', '-']) : ['-', '-'] <+: cs := by
  match cs, h with
  | [], h => simp at h
  | [c], h => simp at h
  | c :: d :: rest, h =>
    obtain ⟨hc, hd⟩ : c.toLower = '-' ∧ d.toLower = '-' := by simpa using h
    rw [toLower_eq (by decide) hc, toLower_eq (by decide) hd]
    exact ⟨rest, rfl⟩

theorem key_normaliseName {arg : String} (h : isForbiddenArg arg) :
    "--".toList <+: arg.toList ∧ "--".toList <+: (normaliseName arg).toList ∧
      key (normaliseName arg) = key arg := by
  obtain ⟨forbidden, hmem, hlower⟩ := key_of_isForbiddenArg h
  have hforbidden : ∀ f ∈ FORBIDDEN_ARGS, f.toList.take 2 = ['-', '-'] ∧ '_' ∉ f.toList ∧
      f.toList ≠ "--help".toList := by decide
  obtain ⟨htwo, hunderscore, hhelp⟩ := hforbidden forbidden hmem
  have hkey : normaliseKey (key arg) = key arg := by
    refine normaliseKey_eq_self fun hin => hunderscore (hlower ▸ ?_)
    exact List.mem_map.mpr ⟨'_', hin, by decide⟩
  have hdashes : "--".toList <+: (key arg).toList := by
    rw [← hlower] at htwo
    exact dashes_of_map_toLower htwo
  have hbegins : "--".toList <+: arg.toList := by
    refine hdashes.trans ?_
    rw [key, String.toList_ofList]
    exact List.takeWhile_prefix _
  have hnothelp : ¬"--help=".toList <+: arg.toList := fun hstart => by
    rw [eq_help_of_begins hstart] at hlower
    exact hhelp (hlower.symm.trans (by decide))
  have hequals : '=' ∉ (key arg).toList := fun hin => by
    rw [key, String.toList_ofList] at hin
    simpa using List.mem_takeWhile_imp hin
  refine ⟨hbegins, ?_⟩
  unfold normaliseName
  rw [if_neg hnothelp, if_pos hbegins]
  cases hattached : attached arg with
  | none =>
    have hself : key arg = arg := by
      refine key_eq_self fun hin => ?_
      simp [attached, hin] at hattached
    rw [hself] at hkey
    simpa only [hkey, and_true] using hbegins
  | some value =>
    rw [hkey, key_join hequals, toList_join]
    exact ⟨hdashes.trans (List.prefix_append _ _), rfl⟩

namespace Vllm

variable (v : Vllm)

theorem mem_of_isForbiddenArg {arg name : String} {text : Option String} (h : isForbiddenArg arg)
    (hread : v.classify (normaliseName arg) = .option name text) : name ∈ FORBIDDEN_ARGS := by
  obtain ⟨-, hdashes, hkey⟩ := key_normaliseName h
  obtain ⟨forbidden, hmem, hlower⟩ := key_of_isForbiddenArg h
  obtain ⟨hname, hbegins | hshort⟩ := v.mem_of_classify hread
  · refine v.forbidden_of_prefix name hname forbidden hmem ?_
    rw [← hlower, ← hkey]
    exact hbegins.map Char.toLower
  · exact absurd hdashes hshort.2.2

theorem classify_level : v.classify "--optimization-level" = .option "--optimization-level" none :=
  v.classify_of_mem v.optimization_mem

theorem classify_help : v.classify "--help" = .option "--help" none := v.classify_of_mem v.help_mem

theorem classify_O : v.classify "-O" = .error := by
  have hcandidates : v.names.filterMap (candidate "-O") = [] := by
    refine List.filterMap_eq_nil_iff.mpr fun name hname => ?_
    have hlong := v.optimization_long name hname
    have hshort : ¬(name.toList.length = 2 ∧ name.toList <+: "-O".toList ∧
        ¬"--".toList <+: "-O".toList) := fun h => by
      have heq : name.toList = "-O".toList := h.2.1.eq_of_length (by rw [h.1]; rfl)
      exact hlong (heq ▸ List.prefix_rfl)
    unfold candidate
    rw [if_neg hshort, if_neg (by rwa [key_eq_self (by decide)])]
  have hnot : "-O" ∉ v.names := fun hmem => v.optimization_long _ hmem List.prefix_rfl
  rw [v.classify_of_notMem (by decide) (by decide) hnot (by rwa [key_eq_self (by decide)]),
    hcandidates]
  rfl

/-- The option for the level of optimization takes the level and nothing else. -/
theorem read_level_iff {level : String} {args values : List String} {options : List Occurrence} :
    v.read ("--optimization-level" :: level :: args) = some (values, options) ↔
      ∃ rest, v.classify level = .value ∧ v.read args = some ([], rest) ∧ values = [] ∧
        options = ⟨"--optimization-level", none, [level]⟩ :: rest := by
  have haccepts : ∀ count, (v.nargs "--optimization-level").accepts count ↔ count = 1 := by
    intro count
    rw [v.optimization_nargs, single_accepts]
  simp only [Parser.read_cons, Option.bind_eq_some_iff, Prod.exists]
  constructor
  · rintro ⟨values₁, options₁, ⟨values₂, options₂, hargs, hlevel⟩, hoption⟩
    obtain ⟨rfl, rfl, hcount, -⟩ := v.step_option v.classify_level hoption
    have hone := (haccepts _).mp (hcount rfl)
    cases hread : v.classify level with
    | value =>
      rw [v.step_value hread] at hlevel
      obtain ⟨rfl, rfl⟩ : level :: values₂ = values₁ ∧ options₂ = options₁ := by
        simpa using hlevel
      obtain rfl : values₂ = [] := by simpa using hone
      exact ⟨options₂, rfl, hargs, rfl, rfl⟩
    | option name text =>
      obtain ⟨rfl, -⟩ := v.step_option hread hlevel
      simp at hone
    | error => simp [v.step_error hread] at hlevel
  · rintro ⟨rest, hread, hargs, rfl, rfl⟩
    refine ⟨[level], rest, ⟨[], rest, hargs, v.step_value hread [] rest⟩, ?_⟩
    rw [v.step_bare v.classify_level]
    exact if_pos ((haccepts 1).mpr rfl)

theorem normaliseArg_O (next : Option String) :
    normaliseArg "-O" next = ["--optimization-level"] ∧ (∃ level ∈ next, level ∈ ["0", "1", "2", "3"]) ∨
      normaliseArg "-O" next = ["-O"] := by
  by_cases h : ∃ level ∈ next, level ∈ ["0", "1", "2", "3"]
  · refine .inl ⟨?_, h⟩
    rw [normaliseArg, if_neg (fun hne => hne.2 rfl), if_pos ⟨rfl, h⟩]
  · refine .inr ?_
    rw [normaliseArg, if_neg (fun hne => hne.2 rfl), if_neg (fun hlevel => h hlevel.2)]
    rfl

theorem normaliseArg_level {arg : String} (h : "-O".toList <+: arg.toList) (hne : arg ≠ "-O")
    (next : Option String) :
    normaliseArg arg next = ["--optimization-level", optimizationLevel arg] := by
  rw [normaliseArg, if_pos ⟨h, hne⟩]

theorem optimizationLevel_eq {arg : String} (h : '=' ∉ arg.toList) :
    optimizationLevel arg = String.ofList (arg.toList.drop 2) := by
  unfold optimizationLevel
  split
  · next hlevel => exact absurd ((List.drop_suffix 2 _).subset (hlevel ▸ List.mem_cons_self)) h
  · rfl

theorem toList_of_level {arg : String} (h : "-O".toList <+: arg.toList) (hne : arg ≠ "-O") :
    ∃ c cs, arg.toList = '-' :: 'O' :: c :: cs := by
  obtain ⟨cs, hcs⟩ := h
  cases cs with
  | nil => exact absurd (String.toList_inj.mp (hcs.symm.trans (List.append_nil _))) hne
  | cons c cs => exact ⟨c, cs, hcs.symm⟩

theorem optimizationLevel_no_equals {arg : String} (h : '=' ∉ arg.toList) :
    '=' ∉ (optimizationLevel arg).toList := by
  rw [optimizationLevel_eq h, String.toList_ofList]
  exact fun hin => h ((List.drop_suffix 2 _).subset hin)

theorem optimizationLevel_ne {arg : String} (h : "-O".toList <+: arg.toList) (hne : arg ≠ "-O")
    (hequals : '=' ∉ arg.toList) : optimizationLevel arg ≠ "" := by
  obtain ⟨c, cs, hchars⟩ := toList_of_level h hne
  rw [optimizationLevel_eq hequals, hchars, ← String.toList_inj.ne]
  simp

theorem optimizationLevel_join {arg : String} (h : "-O".toList <+: arg.toList)
    (hne : arg ≠ "-O") (hequals : '=' ∉ arg.toList) (value : String) :
    optimizationLevel (arg ++ "=" ++ value) = optimizationLevel arg ++ "=" ++ value := by
  obtain ⟨c, cs, hchars⟩ := toList_of_level h hne
  have hc : c ≠ '=' := fun hc => hequals (by simp [hchars, hc])
  rw [optimizationLevel_eq hequals, optimizationLevel, toList_join, hchars]
  split
  · next hlevel => exact absurd (List.cons.inj hlevel).1 hc
  · rw [← String.toList_inj]
    simp

theorem optimizationLevel_O (value : String) :
    optimizationLevel ("-O" ++ "=" ++ value) = value := by
  rw [optimizationLevel, toList_join]
  exact String.ofList_toList

theorem normaliseArg_eq_cons {arg : String} (h : isOption arg) (next : Option String) :
    ∃ first rest, normaliseArg arg next = first :: rest ∧ isOption first := by
  unfold normaliseArg
  split
  · exact ⟨_, _, rfl, by decide⟩
  split
  · exact ⟨_, _, rfl, by decide⟩
  · exact ⟨_, _, rfl, dashed_normaliseName h⟩

/-- The values that wait before a list start with a dash if the list does. -/
theorem dropWhile_values {args values : List String} {options : List Occurrence}
    (hread : v.read (normalise args) = some (values, options))
    (hhead : ∀ next ∈ args.head?, isOption next) :
    values.dropWhile (!isOption ·) = values := by
  cases args with
  | nil =>
    obtain ⟨rfl, -⟩ : [] = values ∧ [] = options := by simpa using hread
    rfl
  | cons arg args =>
    obtain ⟨first, rest, hfirst, hoption⟩ := normaliseArg_eq_cons (hhead arg rfl) args.head?
    rw [normalise_cons, hfirst, List.cons_append, Parser.read_cons, Option.bind_eq_some_iff] at hread
    obtain ⟨⟨values', options'⟩, -, hstep⟩ := hread
    cases hclass : v.classify first with
    | value =>
      rw [v.step_value hclass] at hstep
      obtain ⟨rfl, -⟩ : first :: values' = values ∧ _ := by simpa using hstep
      simp [hoption]
    | option name text =>
      obtain ⟨rfl, -⟩ := v.step_option hclass hstep
      rfl
    | error => simp [v.step_error hclass] at hstep

theorem normaliseArg_join {arg : String} (hdashed : dashed arg) (hequals : '=' ∉ arg.toList)
    (hO : ¬"-O".toList <+: arg.toList) (hhelp : arg ≠ "--help") (value : String)
    (next : Option String) :
    normaliseArg (arg ++ "=" ++ value) next = [normaliseName arg ++ "=" ++ value] := by
  rw [normaliseArg_of_not (mt (prefix_join hdashed (by decide) value).mp hO),
    normaliseName_join hequals hhelp hdashed]

theorem classify_normaliseName_join {arg : String} (hdashed : dashed arg)
    (hequals : '=' ∉ arg.toList) (value : String) :
    v.classify (normaliseName arg ++ "=" ++ value) = (v.classify (normaliseName arg)).join value :=
  v.classify_join (dashed_normaliseName hdashed) (normaliseName_no_equals hequals) value

/-- How vLLM reads a line that starts with the argument: what waits before it, and its options. -/
inductive Start (arg : String) (next : Option String) (args : List String) :
    List String → List Occurrence → Prop
  | value (values : List String) (options : List Occurrence) (hO : ¬"-O".toList <+: arg.toList)
      (hclass : v.classify (normaliseName arg) = .value)
      (hargs : v.read args = some (values, options)) :
      Start arg next args (normaliseName arg :: values) options
  | option (name : String) (text : Option String) (values : List String)
      (options : List Occurrence) (hO : ¬"-O".toList <+: arg.toList)
      (hclass : v.classify (normaliseName arg) = .option name text)
      (hargs : v.read args = some (values, options))
      (hbare : text = none → (v.nargs name).accepts values.length)
      (hattached : text ≠ none → values = [] ∧ (v.nargs name).accepts 1) :
      Start arg next args [] (⟨name, text, values⟩ :: options)
  | level (options : List Occurrence) (hO : "-O".toList <+: arg.toList) (hne : arg ≠ "-O")
      (hclass : v.classify (optimizationLevel arg) = .value)
      (hargs : v.read args = some ([], options)) :
      Start arg next args [] (⟨"--optimization-level", none, [optimizationLevel arg]⟩ :: options)
  | digit (values : List String) (options : List Occurrence) (hO : arg = "-O")
      (hdigit : ∃ level ∈ next, level ∈ ["0", "1", "2", "3"])
      (hargs : v.read args = some (values, options)) (hone : values.length = 1) :
      Start arg next args [] (⟨"--optimization-level", none, values⟩ :: options)

theorem start_of_read {arg : String} {next : Option String} {args values : List String}
    {options : List Occurrence}
    (hread : v.read (normaliseArg arg next ++ args) = some (values, options)) :
    v.Start arg next args values options := by
  by_cases hO : "-O".toList <+: arg.toList
  · by_cases hne : arg = "-O"
    · subst hne
      rcases normaliseArg_O next with ⟨hnormal, hdigit⟩ | hnormal
      · rw [hnormal, List.singleton_append, Parser.read_cons, Option.bind_eq_some_iff] at hread
        obtain ⟨⟨values', options'⟩, hargs, hstep⟩ := hread
        obtain ⟨rfl, rfl, hcount, -⟩ := v.step_option v.classify_level hstep
        rw [v.optimization_nargs] at hcount
        exact .digit values' options' rfl hdigit hargs (single_accepts.mp (hcount rfl))
      · rw [hnormal, List.singleton_append, Parser.read_cons, Option.bind_eq_some_iff] at hread
        obtain ⟨read, -, hstep⟩ := hread
        simp [v.step_error v.classify_O] at hstep
    · rw [normaliseArg_level hO hne] at hread
      obtain ⟨rest, hclass, hargs, rfl, rfl⟩ := v.read_level_iff.mp hread
      exact .level rest hO hne hclass hargs
  · rw [normaliseArg_of_not hO, List.singleton_append, Parser.read_cons,
      Option.bind_eq_some_iff] at hread
    obtain ⟨⟨values', options'⟩, hargs, hstep⟩ := hread
    cases hclass : v.classify (normaliseName arg) with
    | value =>
      rw [v.step_value hclass] at hstep
      obtain ⟨rfl, rfl⟩ : _ = values ∧ options' = options := by simpa using hstep
      exact .value values' options' hO hclass hargs
    | option name text =>
      obtain ⟨rfl, rfl, hbare, hattached⟩ := v.step_option hclass hstep
      exact .option name text values' options' hO hclass hargs hbare hattached
    | error => simp [v.step_error hclass] at hstep

end Vllm

end GpuSharing.Sardeenz.VllmArguments
