import Mathlib.Data.List.Basic
import Mathlib.Data.List.TakeWhile

namespace GpuSharing.ArgumentParser

/-- How many values an option takes. There is no bound if `most` is `none`. -/
structure Nargs where
  least : Nat
  most : Option Nat
  deriving DecidableEq, Repr

def Nargs.accepts (n : Nargs) (count : Nat) : Bool := decide (n.least ≤ count) && n.most.all (count ≤ ·)

def flag : Nargs := ⟨0, some 0⟩

def single : Nargs := ⟨1, some 1⟩

theorem flag_accepts {count : Nat} : flag.accepts count ↔ count = 0 := by
  simp [flag, Nargs.accepts]

theorem single_accepts {count : Nat} : single.accepts count ↔ count = 1 := by
  change (decide (1 ≤ count) && decide (count ≤ 1)) = true ↔ count = 1
  rw [Bool.and_eq_true, decide_eq_true_eq, decide_eq_true_eq]
  omega

def dashed (arg : String) : Bool := arg.toList.head? = some '-'

/-- What stands before the first `=`. -/
def key (arg : String) : String := String.ofList (arg.toList.takeWhile (· ≠ '='))

/-- What stands after the first `=`, if there is one. -/
def attached (arg : String) : Option String :=
  if '=' ∈ arg.toList then some (String.ofList ((arg.toList.dropWhile (· ≠ '=')).drop 1)) else none

/-- A dash and a number: digits, with at most one point that digits follow. -/
def negativeNumber (arg : String) : Bool :=
  match arg.toList with
  | '-' :: digits =>
    let fraction := digits.dropWhile Char.isDigit
    (digits ≠ [] && fraction = []) ||
      (fraction.head? = some '.' && fraction ≠ ['.'] && (fraction.drop 1).all Char.isDigit)
  | _ => false

/-- The options of a parser whose positional arguments all stand first. The option of the help text
has two names, so there are at least two. -/
structure Parser where
  names : List String
  nargs : String → Nargs
  two_le_length : 2 ≤ names.length
  dashed_of_mem : ∀ name ∈ names, dashed name
  no_equals : ∀ name ∈ names, '=' ∉ name.toList
  dash_notMem : "-" ∉ names

/-- What an argument is taken for: a value, an option with what is attached to it, or neither, at
which the parser stops. -/
inductive Reading
  | value
  | option (name : String) (attached : Option String)
  | error
  deriving DecidableEq, Repr

/-- An option that an argument may stand for, with the value in it: a short option that the value
follows at once, or one of whose name the argument has the beginning. -/
def candidate (arg name : String) : Option (String × Option String) :=
  if name.toList.length = 2 ∧ name.toList <+: arg.toList ∧ ¬"--".toList <+: arg.toList then
    some (name, some (String.ofList (arg.toList.drop 2)))
  else if (key arg).toList <+: name.toList then some (name, attached arg)
  else none

/-- An option as a run of the parser sees it. The separate values are those that stand in arguments
of their own. -/
structure Occurrence where
  option : String
  attached : Option String
  separate : List String
  deriving DecidableEq, Repr

def Occurrence.values (o : Occurrence) : List String := o.attached.toList ++ o.separate

def Reading.name : Reading → Option String
  | .option name _ => some name
  | _ => none

section Join

theorem toList_join (arg text : String) :
    (arg ++ "=" ++ text).toList = arg.toList ++ '=' :: text.toList := by
  simp [String.toList_append]

variable {arg : String} (hequals : '=' ∉ arg.toList) (text : String)
include hequals

theorem key_join : key (arg ++ "=" ++ text) = arg := by
  have htake : (arg.toList ++ '=' :: text.toList).takeWhile (· ≠ '=') = arg.toList := by
    rw [List.takeWhile_append_of_pos]
    · simp
    · intro c hc
      simpa using fun h : c = '=' => hequals (h ▸ hc)
  rw [key, toList_join, htake, String.ofList_toList]

theorem attached_join : attached (arg ++ "=" ++ text) = some text := by
  have hdrop : (arg.toList ++ '=' :: text.toList).dropWhile (· ≠ '=') = '=' :: text.toList := by
    rw [List.dropWhile_append_of_pos]
    · simp
    · intro c hc
      simpa using fun h : c = '=' => hequals (h ▸ hc)
  rw [attached, toList_join, hdrop]
  simp

theorem key_eq_self : key arg = arg := by
  have htake : arg.toList.takeWhile (· ≠ '=') = arg.toList := by
    rw [List.takeWhile_eq_self_iff]
    intro c hc
    simpa using fun h : c = '=' => hequals (h ▸ hc)
  rw [key, htake, String.ofList_toList]

theorem attached_eq_none : attached arg = none := by simp [attached, hequals]

end Join

theorem negativeNumber_of_equals {arg : String} (h : '=' ∈ arg.toList) :
    negativeNumber arg = false := by
  unfold negativeNumber
  split
  · next digits hdigits =>
    have hin : '=' ∈ digits := by simpa [hdigits] using h
    have hfraction : '=' ∈ digits.dropWhile Char.isDigit := by
      rw [← List.takeWhile_append_dropWhile (p := Char.isDigit) (l := digits)] at hin
      refine (List.mem_append.mp hin).resolve_left fun htake => ?_
      exact absurd (List.mem_takeWhile_imp htake) (by decide)
    cases hrest : digits.dropWhile Char.isDigit with
    | nil => simp [hrest] at hfraction
    | cons c cs =>
      rw [hrest] at hfraction
      by_cases hc : c = '.'
      · have hcs : '=' ∈ cs := by simpa [hc] using hfraction
        have hnot : cs.all Char.isDigit = false :=
          List.all_eq_false.mpr ⟨'=', hcs, by decide⟩
        simp [hnot]
      · simp [hc]
  · rfl

/-- What becomes of a reading when `=` and a text are put after the argument. -/
def Reading.join (text : String) : Reading → Reading
  | .option name none => .option name (some text)
  | .option name (some start) => .option name (some (start ++ "=" ++ text))
  | _ => .error

@[simp] theorem Reading.name_join (text : String) (r : Reading) : (r.join text).name = r.name := by
  match r with
  | .value => rfl
  | .error => rfl
  | .option _ none => rfl
  | .option _ (some _) => rfl

theorem prefix_append_iff {xs ys : List Char} (h : xs.length ≤ ys.length) (zs : List Char) :
    xs <+: ys ++ zs ↔ xs <+: ys :=
  ⟨fun hxs => List.prefix_of_prefix_length_le hxs (List.prefix_append ys zs) h,
    fun hxs => hxs.trans (List.prefix_append ys zs)⟩

theorem candidate_join {arg : String} (hequals : '=' ∉ arg.toList) (hlong : 2 ≤ arg.toList.length)
    (text name : String) :
    candidate (arg ++ "=" ++ text) name = (candidate arg name).map fun (name, start) =>
      (name, some (start.elim text (· ++ "=" ++ text))) := by
  have hshort : (name.toList.length = 2 ∧ name.toList <+: (arg ++ "=" ++ text).toList ∧
      ¬"--".toList <+: (arg ++ "=" ++ text).toList) ↔
      (name.toList.length = 2 ∧ name.toList <+: arg.toList ∧ ¬"--".toList <+: arg.toList) := by
    rw [toList_join]
    refine and_congr_right fun hname => ?_
    rw [prefix_append_iff (by omega), prefix_append_iff (by simpa using hlong)]
  unfold candidate
  rw [key_join hequals, attached_join hequals, key_eq_self hequals, attached_eq_none hequals]
  simp only [hshort]
  split
  · have hdrop : (arg ++ "=" ++ text).toList.drop 2 = arg.toList.drop 2 ++ '=' :: text.toList := by
      rw [toList_join, List.drop_append_of_le_length hlong]
    rw [hdrop]
    simp [← String.toList_inj]
  · split <;> simp

namespace Parser

variable (p : Parser)

/-- How an argument is read, whatever stands around it. After a bare `--` only positional arguments
may follow, so that it is an error here. -/
def classify (arg : String) : Reading :=
  if dashed arg = false then .value
  else if arg ∈ p.names then .option arg none
  else if arg = "-" then .value
  else if '=' ∈ arg.toList ∧ key arg ∈ p.names then .option (key arg) (attached arg)
  else match p.names.filterMap (candidate arg) with
    | [(name, text)] => .option name text
    | _ :: _ :: _ => .error
    | [] => if negativeNumber arg then .value else .error

/-- Put an argument before others that have been read: a value waits for its option. -/
def step (arg : String) : List String × List Occurrence → Option (List String × List Occurrence)
  | (values, options) =>
    match p.classify arg with
    | .value => some (arg :: values, options)
    | .option name none =>
      if (p.nargs name).accepts values.length then some ([], ⟨name, none, values⟩ :: options)
      else none
    | .option name (some text) =>
      if values = [] ∧ (p.nargs name).accepts 1 then some ([], ⟨name, some text, []⟩ :: options)
      else none
    | .error => none

/-- The leading positional arguments and the options in order, or nothing where the parser ends with
an error. -/
def read : List String → Option (List String × List Occurrence)
  | [] => some ([], [])
  | arg :: args => (read args).bind (p.step arg)

/-- The options that the arguments name, whether or not the parser accepts the line. -/
def named (args : List String) : List String := args.filterMap fun arg => (p.classify arg).name

@[simp] theorem read_nil : p.read [] = some ([], []) := rfl

@[simp] theorem read_cons (arg : String) (args : List String) :
    p.read (arg :: args) = (p.read args).bind (p.step arg) := rfl

@[simp] theorem named_nil : p.named [] = [] := rfl

theorem named_append (xs ys : List String) : p.named (xs ++ ys) = p.named xs ++ p.named ys :=
  List.filterMap_append

theorem named_cons (arg : String) (args : List String) :
    p.named (arg :: args) = (p.classify arg).name.toList ++ p.named args := by
  unfold named
  cases h : (p.classify arg).name <;> simp [h]

theorem classify_plain {arg : String} (h : dashed arg = false) : p.classify arg = .value := by
  simp [classify, h]

theorem step_value {arg : String} (h : p.classify arg = .value) (values : List String)
    (options : List Occurrence) : p.step arg (values, options) = some (arg :: values, options) := by
  simp [step, h]

theorem step_bare {arg name : String} (h : p.classify arg = .option name none)
    (values : List String) (options : List Occurrence) :
    p.step arg (values, options) =
      if (p.nargs name).accepts values.length then some ([], ⟨name, none, values⟩ :: options)
      else none := by
  simp [step, h]

theorem step_attached {arg name text : String} (h : p.classify arg = .option name (some text))
    (values : List String) (options : List Occurrence) :
    p.step arg (values, options) =
      if values = [] ∧ (p.nargs name).accepts 1 then some ([], ⟨name, some text, []⟩ :: options)
      else none := by
  simp [step, h]

theorem step_error {arg : String} (h : p.classify arg = .error)
    (read : List String × List Occurrence) : p.step arg read = none := by
  obtain ⟨values, options⟩ := read
  simp [step, h]

theorem notMem_of_equals {arg : String} (h : '=' ∈ arg.toList) : arg ∉ p.names :=
  fun hmem => p.no_equals arg hmem h

/-- A lone dash is the beginning of every option's name. -/
theorem candidates_dash {arg : String} (hkey : key arg = "-") (hequals : arg.toList.take 2 = ['-', '=']) :
    2 ≤ (p.names.filterMap (candidate arg)).length := by
  have hall : p.names.filterMap (candidate arg) = p.names.map fun name => (name, attached arg) := by
    refine List.filterMap_eq_map_iff_forall_eq_some.mpr fun name hname => ?_
    have hbegins : (key arg).toList <+: name.toList := by
      have hhead : name.toList.head? = some '-' := by simpa [dashed] using p.dashed_of_mem name hname
      obtain ⟨rest, hrest⟩ := List.head?_eq_some_iff.mp hhead
      rw [hkey, hrest]
      exact ⟨rest, rfl⟩
    have hshort : ¬(name.toList.length = 2 ∧ name.toList <+: arg.toList) := by
      rintro ⟨hlength, hstart⟩
      have htake : name.toList = ['-', '='] := by
        rw [← hequals, ← hlength]
        exact List.prefix_iff_eq_take.mp hstart
      exact p.no_equals name hname (by simp [htake])
    have hnot : ¬(name.toList.length = 2 ∧ name.toList <+: arg.toList ∧ ¬"--".toList <+: arg.toList) :=
      fun h => hshort ⟨h.1, h.2.1⟩
    simp only [candidate, if_neg hnot, if_pos hbegins]
  rw [hall, List.length_map]
  exact p.two_le_length

theorem classify_of_notMem {arg : String} (hdashed : dashed arg) (hne : arg ≠ "-")
    (hmem : arg ∉ p.names) (hkey : key arg ∉ p.names) :
    p.classify arg =
      match p.names.filterMap (candidate arg) with
      | [(name, text)] => .option name text
      | _ :: _ :: _ => .error
      | [] => if negativeNumber arg then .value else .error := by
  unfold classify
  rw [if_neg (by simp [hdashed]), if_neg hmem, if_neg hne, if_neg fun h => hkey h.2]

/-- What follows an option after `=` is its value, and it does not change which option is meant. -/
theorem classify_join {arg : String} (hdashed : dashed arg) (hequals : '=' ∉ arg.toList)
    (text : String) : p.classify (arg ++ "=" ++ text) = (p.classify arg).join text := by
  have hin : '=' ∈ (arg ++ "=" ++ text).toList := by simp
  obtain ⟨cs, hcs⟩ : ∃ cs, arg.toList = '-' :: cs :=
    List.head?_eq_some_iff.mp (by simpa [dashed] using hdashed)
  have hdashed' : dashed (arg ++ "=" ++ text) := by simp [dashed, hcs]
  have hne : arg ++ "=" ++ text ≠ "-" := fun h => absurd (h ▸ hin) (by decide)
  by_cases hmem : arg ∈ p.names
  · simp only [classify, hdashed', p.notMem_of_equals hin, hne, hin, key_join hequals, hmem,
      attached_join hequals, hdashed]
    simp [Reading.join]
  · rw [p.classify_of_notMem hdashed' hne (p.notMem_of_equals hin)
      (by rwa [key_join hequals]), negativeNumber_of_equals hin]
    by_cases hdash : arg = "-"
    · have hmany := p.candidates_dash ((key_join hequals text).trans hdash) (by simp [hdash])
      have hvalue : p.classify arg = .value := by simp [classify, dashed, hdash, p.dash_notMem]
      rw [hvalue]
      match p.names.filterMap (candidate (arg ++ "=" ++ text)), hmany with
      | first :: second :: rest, _ => rfl
    · have hlong : 2 ≤ arg.toList.length := by
        cases cs with
        | nil => exact absurd (String.toList_inj.mp (by simpa using hcs)) hdash
        | cons c cs => simp [hcs]
      have hcandidates : p.names.filterMap (candidate (arg ++ "=" ++ text)) =
          (p.names.filterMap (candidate arg)).map fun (name, start) =>
            (name, some (start.elim text (· ++ "=" ++ text))) := by
        rw [List.map_filterMap]
        exact List.filterMap_congr fun name _ => candidate_join hequals hlong text name
      rw [hcandidates, p.classify_of_notMem hdashed hdash hmem (by rwa [key_eq_self hequals])]
      match p.names.filterMap (candidate arg) with
      | [] => cases negativeNumber arg <;> rfl
      | [(name, none)] => rfl
      | [(name, some start)] => rfl
      | _ :: _ :: _ => rfl

theorem classify_ne_value {arg : String} (h : "--".toList <+: arg.toList) :
    p.classify arg ≠ .value := by
  obtain ⟨cs, hcs⟩ := h
  have hchars : arg.toList = '-' :: '-' :: cs := hcs.symm
  have hdashed : dashed arg := by simp [dashed, hchars]
  have hne : arg ≠ "-" := fun harg => by simp [harg] at hchars
  have hnumber : negativeNumber arg = false := by
    rw [negativeNumber, hchars]
    rfl
  unfold classify
  rw [if_neg (by simp [hdashed])]
  split
  · simp
  split
  · simp
  split <;> simp [hnumber]

theorem name_classify_join {arg : String} (hne : arg ≠ "") (hequals : '=' ∉ arg.toList)
    (text : String) : (p.classify (arg ++ "=" ++ text)).name = (p.classify arg).name := by
  cases hdashed : dashed arg with
  | true => rw [p.classify_join hdashed hequals, Reading.name_join]
  | false =>
    have hdashed' : dashed (arg ++ "=" ++ text) = false := by
      cases hchars : arg.toList with
      | nil => exact absurd (String.toList_inj.mp hchars) hne
      | cons c cs => simpa [dashed, hchars] using hdashed
    rw [p.classify_plain hdashed, p.classify_plain hdashed']

/-- The argument has the beginning of the name of the option that it is taken for, unless this is a
short one. -/
theorem mem_of_classify {arg name : String} {text : Option String}
    (h : p.classify arg = .option name text) :
    name ∈ p.names ∧ ((key arg).toList <+: name.toList ∨
      name.toList.length = 2 ∧ name.toList <+: arg.toList ∧ ¬"--".toList <+: arg.toList) := by
  unfold classify at h
  split at h
  · simp at h
  split at h
  · next hmem =>
    obtain ⟨rfl, -⟩ := Reading.option.inj h
    exact ⟨hmem, .inl (by simp [key_eq_self (p.no_equals arg hmem)])⟩
  split at h
  · simp at h
  split at h
  · next hkey =>
    obtain ⟨rfl, -⟩ := Reading.option.inj h
    exact ⟨hkey.2, .inl List.prefix_rfl⟩
  split at h
  · next hcandidates =>
    obtain ⟨rfl, rfl⟩ := Reading.option.inj h
    have hin : (_, _) ∈ p.names.filterMap (candidate arg) := hcandidates ▸ List.mem_singleton_self _
    obtain ⟨name', hmem, hcandidate⟩ := List.mem_filterMap.mp hin
    unfold candidate at hcandidate
    split at hcandidate
    · next hshort =>
      obtain ⟨rfl, -⟩ := Prod.mk.inj (Option.some.inj hcandidate)
      exact ⟨hmem, .inr hshort⟩
    · split at hcandidate
      · next hbegins =>
        obtain ⟨rfl, -⟩ := Prod.mk.inj (Option.some.inj hcandidate)
        exact ⟨hmem, .inl hbegins⟩
      · simp at hcandidate
  · simp at h
  · split at h <;> simp at h

theorem classify_of_mem {arg : String} (h : arg ∈ p.names) : p.classify arg = .option arg none := by
  have hdashed : dashed arg := p.dashed_of_mem arg h
  simp [classify, hdashed, h]

/-- A value that starts with a dash is a dash or a number. -/
theorem no_equals_of_value {arg : String} (hdashed : dashed arg) (h : p.classify arg = .value) :
    '=' ∉ arg.toList := by
  intro hin
  have hne : arg ≠ "-" := fun harg => absurd (harg ▸ hin) (by decide)
  unfold classify at h
  rw [if_neg (by simp [hdashed]), if_neg (p.notMem_of_equals hin), if_neg hne] at h
  split at h
  · simp at h
  · split at h <;> simp [negativeNumber_of_equals hin] at h

/-- Where an argument has an `=`, its option has what follows as its value. -/
theorem no_equals_of_bare {arg name : String} (h : p.classify arg = .option name none) :
    '=' ∉ arg.toList := by
  intro hin
  have hattached : attached arg ≠ none := by simp [attached, hin]
  unfold classify at h
  split at h
  · simp at h
  rw [if_neg (p.notMem_of_equals hin)] at h
  split at h
  · simp at h
  split at h
  · exact hattached (Reading.option.inj h).2
  split at h
  · next hcandidates =>
    obtain ⟨rfl, rfl⟩ := Reading.option.inj h
    have hmem : (_, none) ∈ p.names.filterMap (candidate arg) :=
      hcandidates ▸ List.mem_singleton_self _
    obtain ⟨name', -, hcandidate⟩ := List.mem_filterMap.mp hmem
    unfold candidate at hcandidate
    split at hcandidate
    · simp at hcandidate
    · split at hcandidate
      · exact hattached (Prod.mk.inj (Option.some.inj hcandidate)).2
      · simp at hcandidate
  · simp at h
  · split at h <;> simp at h

/-- The values that wait go to the option that is put before them. -/
theorem step_option {arg name : String} {text : Option String} {values values' : List String}
    {options options' : List Occurrence} (h : p.classify arg = .option name text)
    (hstep : p.step arg (values, options) = some (values', options')) :
    values' = [] ∧ options' = ⟨name, text, values⟩ :: options ∧
      (text = none → (p.nargs name).accepts values.length) ∧
      (text ≠ none → values = [] ∧ (p.nargs name).accepts 1) := by
  cases text with
  | none =>
    rw [p.step_bare h] at hstep
    obtain ⟨haccepts, rfl, rfl⟩ : _ ∧ [] = values' ∧ _ = options' := by simpa using hstep
    exact ⟨rfl, rfl, fun _ => haccepts, fun hne => absurd rfl hne⟩
  | some text =>
    rw [p.step_attached h] at hstep
    obtain ⟨⟨rfl, haccepts⟩, rfl, rfl⟩ : _ ∧ [] = values' ∧ _ = options' := by simpa using hstep
    exact ⟨rfl, rfl, fun hnone => by simp at hnone, fun _ => ⟨rfl, haccepts⟩⟩

theorem step_option_eq {arg name : String} {text : Option String} {values : List String}
    (h : p.classify arg = .option name text)
    (hbare : text = none → (p.nargs name).accepts values.length)
    (hattached : text ≠ none → values = [] ∧ (p.nargs name).accepts 1)
    (options : List Occurrence) :
    p.step arg (values, options) = some ([], ⟨name, text, values⟩ :: options) := by
  cases text with
  | none => rw [p.step_bare h, if_pos (hbare rfl)]
  | some text =>
    obtain ⟨rfl, haccepts⟩ := hattached (by simp)
    rw [p.step_attached h, if_pos ⟨rfl, haccepts⟩]

/-- An accepted line has one occurrence for each option that it names. -/
theorem map_option_of_read {args values : List String} {options : List Occurrence}
    (h : p.read args = some (values, options)) : options.map Occurrence.option = p.named args := by
  induction args generalizing values options with
  | nil =>
    obtain ⟨-, rfl⟩ : values = [] ∧ options = [] := by simpa using h.symm
    rfl
  | cons arg args ih =>
    rw [read_cons, Option.bind_eq_some_iff] at h
    obtain ⟨⟨values', options'⟩, hrest, hstep⟩ := h
    rw [named_cons, ← ih hrest]
    cases hread : p.classify arg with
    | value =>
      rw [p.step_value hread] at hstep
      obtain ⟨-, rfl⟩ : _ ∧ options' = options := by simpa using hstep
      rfl
    | option name text =>
      obtain ⟨-, rfl, -⟩ := p.step_option hread hstep
      rfl
    | error => simp [p.step_error hread] at hstep

end Parser

end GpuSharing.ArgumentParser
