import GpuSharing.Sardeenz.VllmArguments

namespace GpuSharing.Sardeenz.VllmArguments

open ArgumentParser SavedLaunches

/-! Sanitizing goes through the arguments one or two at a time. -/

section Sanitize

theorem sanitizeTrimmed_skip {arg : String} (h : (isOption arg && !isForbiddenArg arg) = false)
    (args : List String) : sanitizeTrimmed (arg :: args) = sanitizeTrimmed args := by
  cases args <;> simp [sanitizeTrimmed, h]

theorem sanitizeTrimmed_join {arg next : String} (h : isOption arg && !isForbiddenArg arg)
    (hequals : '=' ∉ arg.toList) (hnext : isOption next = false) (args : List String) :
    sanitizeTrimmed (arg :: next :: args) = (arg ++ "=" ++ next) :: sanitizeTrimmed args := by
  simp [sanitizeTrimmed, h, hequals, hnext]

theorem sanitizeTrimmed_keep {arg : String} (h : isOption arg && !isForbiddenArg arg)
    {args : List String} (hnext : '=' ∈ arg.toList ∨ ∀ next ∈ args.head?, isOption next) :
    sanitizeTrimmed (arg :: args) = arg :: sanitizeTrimmed args := by
  cases args with
  | nil => simp [sanitizeTrimmed, h]
  | cons next args =>
    have hnot : (!arg.toList.contains '=' && !isOption next) = false := by
      rcases hnext with hin | hnext
      · simp [hin]
      · simp [hnext next rfl]
    simp only [sanitizeTrimmed, h, hnot, if_true]
    rfl

theorem sanitize_induction {motive : List String → Prop} (nil : motive [])
    (skip : ∀ arg args, (isOption arg && !isForbiddenArg arg) = false → motive args →
      motive (arg :: args))
    (join : ∀ arg next args, (isOption arg && !isForbiddenArg arg) = true → '=' ∉ arg.toList →
      isOption next = false → motive args → motive (arg :: next :: args))
    (keep : ∀ arg args, (isOption arg && !isForbiddenArg arg) = true →
      ('=' ∈ arg.toList ∨ ∀ next ∈ args.head?, isOption next) → motive args → motive (arg :: args))
    (args : List String) : motive args := by
  induction args using sanitizeTrimmed.induct with
  | case1 => exact nil
  | case2 arg h => exact keep arg [] h (.inr (by simp)) nil
  | case3 arg h => exact skip arg [] (by simpa only [Bool.not_eq_true] using h) nil
  | case4 arg next args h hjoin ih =>
    simp only [Bool.and_eq_true, Bool.not_eq_true', List.contains_eq_mem, decide_eq_false_iff_not]
      at hjoin
    exact join arg next args h hjoin.1 hjoin.2 ih
  | case5 arg next args h hjoin ih =>
    refine keep arg (next :: args) h ?_ ih
    by_cases hequals : '=' ∈ arg.toList
    · exact .inl hequals
    · exact .inr (by simpa [hequals] using hjoin)
  | case6 arg next args h ih =>
    exact skip arg (next :: args) (by simpa only [Bool.not_eq_true] using h) ih

end Sanitize

namespace Vllm

variable (v : Vllm)

/-- The arguments are read with these values waiting and, of the options, all that are not managed. -/
def Reads (args values : List String) (options : List Occurrence) : Prop :=
  ∃ options', v.read args = some (values, options') ∧
    options'.map given = (options.filter (!isManaged ·)).map given

section Reads

variable {v} {args values : List String} {options : List Occurrence}

theorem reads_managed {o : Occurrence} (h : o.option ∈ FORBIDDEN_ARGS) :
    v.Reads args values (o :: options) ↔ v.Reads args values options := by
  have hfilter : (o :: options).filter (!isManaged ·) = options.filter (!isManaged ·) :=
    List.filter_cons_of_neg (by simp [isManaged, h])
  rw [Reads, Reads, hfilter]

theorem filter_unmanaged {o : Occurrence} (h : o.option ∉ FORBIDDEN_ARGS) :
    (o :: options).filter (!isManaged ·) = o :: options.filter (!isManaged ·) :=
  List.filter_cons_of_pos (by simp [isManaged, h])

theorem reads_value {arg : String} (h : v.classify arg = .value) :
    v.Reads (arg :: args) (arg :: values) options ↔ v.Reads args values options := by
  refine exists_congr fun options' => and_congr_left fun _ => ?_
  rw [Parser.read_cons, Option.bind_eq_some_iff]
  constructor
  · rintro ⟨⟨values', options''⟩, hargs, hstep⟩
    rw [v.step_value h] at hstep
    obtain ⟨rfl, rfl⟩ : values' = values ∧ options'' = options' := by simpa using hstep
    exact hargs
  · exact fun hargs => ⟨_, hargs, v.step_value h values options'⟩

/-- An option that takes the same values before and after, in whatever form. -/
theorem reads_option {arg name : String} {text text' : Option String} {values' : List String}
    (hunmanaged : name ∉ FORBIDDEN_ARGS) (h : v.classify arg = .option name text)
    (hvalues : ∀ vs, text.toList ++ vs = text'.toList ++ values' ↔ vs = values)
    (hbare : text = none → (v.nargs name).accepts values.length)
    (hattached : text ≠ none → values = [] ∧ (v.nargs name).accepts 1) :
    v.Reads (arg :: args) [] (⟨name, text', values'⟩ :: options) ↔ v.Reads args values options := by
  constructor
  · rintro ⟨options', hread, hgiven⟩
    rw [Parser.read_cons, Option.bind_eq_some_iff] at hread
    obtain ⟨⟨vs, options''⟩, hargs, hstep⟩ := hread
    obtain ⟨-, rfl, -, -⟩ := v.step_option h hstep
    rw [filter_unmanaged hunmanaged, List.map_cons, List.map_cons] at hgiven
    obtain ⟨hhead, htail⟩ := List.cons.inj hgiven
    obtain rfl := (hvalues vs).mp (Prod.mk.inj hhead).2
    exact ⟨options'', hargs, htail⟩
  · rintro ⟨options', hargs, hgiven⟩
    refine ⟨⟨name, text, values⟩ :: options', ?_, ?_⟩
    · rw [Parser.read_cons, hargs]
      exact v.step_option_eq h hbare hattached options'
    · rw [filter_unmanaged hunmanaged, List.map_cons, List.map_cons, hgiven]
      exact congrArg (· :: _) (Prod.ext rfl ((hvalues values).mpr rfl))

theorem reads_level {level : String} (h : v.classify level = .value) :
    v.Reads ("--optimization-level" :: level :: args) []
        (⟨"--optimization-level", none, [level]⟩ :: options) ↔ v.Reads args [] options := by
  have hunmanaged : "--optimization-level" ∉ FORBIDDEN_ARGS := by decide
  constructor
  · rintro ⟨options', hread, hgiven⟩
    obtain ⟨rest, -, hargs, -, rfl⟩ := v.read_level_iff.mp hread
    rw [filter_unmanaged hunmanaged, List.map_cons, List.map_cons] at hgiven
    exact ⟨rest, hargs, (List.cons.inj hgiven).2⟩
  · rintro ⟨rest, hargs, hgiven⟩
    refine ⟨_, v.read_level_iff.mpr ⟨rest, h, hargs, rfl, rfl⟩, ?_⟩
    rw [filter_unmanaged hunmanaged, List.map_cons, List.map_cons, hgiven]

end Reads

theorem givenPlainly_managed {o : Occurrence} (h : o.option ∈ FORBIDDEN_ARGS) :
    GivenPlainly o ↔ o.separate.dropWhile (!isOption ·) = [] := by
  rw [GivenPlainly, if_pos h, List.dropWhile_eq_nil_iff]
  simp

/-- Where the first separate value starts with a dash, they all do. -/
theorem givenPlainly_dashed {o : Occurrence} (h : o.option ∉ FORBIDDEN_ARGS)
    (hdrop : o.separate.dropWhile (!isOption ·) = o.separate) :
    GivenPlainly o ↔ ∀ value ∈ o.separate, isOption value := by
  rw [GivenPlainly, if_neg h, or_iff_right_of_imp]
  intro hone
  obtain ⟨value, hvalue⟩ := List.length_eq_one_iff.mp hone
  rw [hvalue] at hdrop ⊢
  cases hoption : isOption value with
  | false => simp [hoption] at hdrop
  | true => simpa using hoption

theorem givenPlainly_one {name value : String} (h : name ∉ FORBIDDEN_ARGS) {text : Option String} :
    GivenPlainly ⟨name, text, [value]⟩ := by
  rw [GivenPlainly, if_neg h]
  exact .inl rfl

theorem givenPlainly_plain {name next : String} {values : List String} (h : name ∉ FORBIDDEN_ARGS)
    (hnext : isOption next = false) (text : Option String) :
    GivenPlainly ⟨name, text, next :: values⟩ ↔ values = [] := by
  rw [GivenPlainly, if_neg h]
  simp [hnext]

variable {v} in
theorem ne_help_of_value {arg : String} (h : v.classify (normaliseName arg) = .value) :
    arg ≠ "--help" := by
  rintro rfl
  exact Reading.noConfusion (v.classify_help.symm.trans h)

variable {v} in
/-- A dropped option of the user's leaves no value behind only if it had none that starts with a
dash. -/
theorem dropWhile_eq_nil {args values : List String} {options options' : List Occurrence}
    (hread : v.read (normalise args) = some (values, options))
    (hsanitized : v.read (normalise (sanitizeTrimmed args)) = some ([], options')) :
    values.dropWhile (!isOption ·) = [] := by
  induction args using sanitize_induction generalizing values options options' with
  | nil =>
    obtain ⟨rfl, -⟩ : [] = values ∧ [] = options := by simpa using hread
    rfl
  | skip arg args h ih =>
    rw [sanitizeTrimmed_skip h] at hsanitized
    cases hoption : isOption arg with
    | false =>
      rw [normalise_plain hoption, Parser.read_cons, Option.bind_eq_some_iff] at hread
      obtain ⟨⟨values', options''⟩, hargs, hstep⟩ := hread
      rw [v.step_value (v.classify_plain hoption)] at hstep
      obtain ⟨rfl, -⟩ : arg :: values' = values ∧ _ := by simpa using hstep
      rw [List.dropWhile_cons_of_pos (by simp [hoption])]
      exact ih hargs hsanitized
    | true =>
      have hforbidden : isForbiddenArg arg := by simpa [hoption] using h
      rw [normalise_cons] at hread
      cases v.start_of_read hread with
      | value values options hO hclass hargs =>
        exact absurd hclass (v.classify_ne_value (key_normaliseName hforbidden).2.1)
      | option | level | digit => rfl
  | join arg next args h hequals hnext ih =>
    have hdashed : dashed arg := (Bool.and_eq_true _ _ ▸ h).1
    rw [normalise_cons] at hread
    cases v.start_of_read hread with
    | value values options hO hclass hargs =>
      have hhelp := ne_help_of_value hclass
      rw [sanitizeTrimmed_join h hequals hnext, normalise_cons,
        normaliseArg_join hdashed hequals hO hhelp, List.singleton_append, Parser.read_cons,
        Option.bind_eq_some_iff] at hsanitized
      obtain ⟨read, -, hstep⟩ := hsanitized
      have herror := v.classify_normaliseName_join hdashed hequals next
      rw [hclass] at herror
      simp [v.step_error herror] at hstep
    | option | level | digit => rfl
  | keep arg args h hnext ih =>
    rw [normalise_cons] at hread
    cases v.start_of_read hread with
    | value values options hO hclass hargs =>
      rw [sanitizeTrimmed_keep h hnext, normalise_cons, normaliseArg_of_not hO,
        List.singleton_append, Parser.read_cons, Option.bind_eq_some_iff] at hsanitized
      obtain ⟨⟨values', options''⟩, -, hstep⟩ := hsanitized
      simp [v.step_value hclass] at hstep
    | option | level | digit => rfl

theorem Caught.of_cons {arg : String} {args : List String} (h : v.Caught (arg :: args)) :
    v.Caught args :=
  fun a ha => h a (List.mem_cons_of_mem arg ha)

theorem equals_normaliseName {arg : String} (h : '=' ∈ arg.toList) :
    normaliseName arg = "--help" ∨ '=' ∈ (normaliseName arg).toList := by
  unfold normaliseName
  split
  · exact .inl rfl
  split
  · simp [attached, h]
  · exact .inr h

theorem not_O_of_isForbiddenArg {arg : String} (h : isForbiddenArg arg) :
    ¬"-O".toList <+: arg.toList := fun hO =>
  absurd (List.prefix_of_prefix_length_le hO (key_normaliseName h).1 (by decide)) (by decide)

theorem read_plain {arg : String} (h : isOption arg = false) {args values : List String}
    {options : List Occurrence} (hread : v.read (normalise (arg :: args)) = some (values, options)) :
    ∃ values', values = arg :: values' ∧ v.read (normalise args) = some (values', options) := by
  rw [normalise_plain h, Parser.read_cons, Option.bind_eq_some_iff] at hread
  obtain ⟨⟨values', options'⟩, hargs, hstep⟩ := hread
  rw [v.step_value (v.classify_plain h)] at hstep
  obtain ⟨rfl, rfl⟩ : arg :: values' = values ∧ options' = options := by simpa using hstep
  exact ⟨values', rfl, hargs⟩

variable {v} in
/-- An option whose one value has been joined to it. -/
theorem reads_joined {arg name next : String} {args values : List String}
    {options : List Occurrence} (hunmanaged : name ∉ FORBIDDEN_ARGS)
    (h : v.classify arg = .option name (some next))
    (haccepts : (v.nargs name).accepts (values.length + 1)) :
    v.Reads (arg :: args) [] (⟨name, none, next :: values⟩ :: options) ↔
      values = [] ∧ v.Reads args [] options := by
  by_cases hvalues : values = []
  · subst hvalues
    rw [reads_option hunmanaged h (by simp) (by simp) fun _ => ⟨rfl, haccepts⟩]
    simp
  · refine iff_of_false ?_ fun h => hvalues h.1
    rintro ⟨options', hread, hgiven⟩
    rw [Parser.read_cons, Option.bind_eq_some_iff] at hread
    obtain ⟨⟨values', options''⟩, -, hstep⟩ := hread
    obtain ⟨-, rfl, -, hattached⟩ := v.step_option h hstep
    obtain ⟨rfl, -⟩ := hattached (by simp)
    rw [filter_unmanaged hunmanaged, List.map_cons, List.map_cons] at hgiven
    have hsame := (Prod.mk.inj (List.cons.inj hgiven).1).2
    exact hvalues (by simpa [Occurrence.values, eq_comm] using hsame)

section Sanitized

variable {v}

/-- The arguments are sanitized as they should exactly if their options are given plainly. -/
def SanitizesPlain (v : Vllm) (args : List String) : Prop :=
  ∀ values options, v.read (normalise args) = some (values, options) →
    (v.Reads (normalise (sanitizeTrimmed args)) (values.dropWhile (!isOption ·)) options ↔
      (∀ value ∈ values.dropWhile (!isOption ·), isOption value) ∧
        ∀ o ∈ options, GivenPlainly o)

theorem Caught.unmanaged {arg name : String} {args : List String} {text : Option String}
    (hcaught : v.Caught (arg :: args)) (hdashed : isOption arg)
    (hkept : isForbiddenArg arg = false) (hO : ¬"-O".toList <+: arg.toList)
    (hclass : v.classify (normaliseName arg) = .option name text) : name ∉ FORBIDDEN_ARGS := by
  refine hcaught arg List.mem_cons_self hdashed hkept name ?_
  simp [normaliseArg_of_not hO, Parser.named, hclass, Reading.name]

/-- An argument that is dropped. -/
theorem SanitizesPlain.skip {arg : String} {args : List String}
    (h : (isOption arg && !isForbiddenArg arg) = false) (ih : v.SanitizesPlain args) :
    v.SanitizesPlain (arg :: args) := by
  intro values options hread
  rw [sanitizeTrimmed_skip h]
  cases hoption : isOption arg with
  | false =>
    obtain ⟨values', rfl, hargs⟩ := v.read_plain hoption hread
    rw [List.dropWhile_cons_of_pos (by simp [hoption])]
    exact ih values' options hargs
  | true =>
    have hforbidden : isForbiddenArg arg := by simpa [hoption] using h
    have hnotO := not_O_of_isForbiddenArg hforbidden
    rw [normalise_cons] at hread
    cases v.start_of_read hread with
    | value values options hO hclass hargs =>
      exact absurd hclass (v.classify_ne_value (key_normaliseName hforbidden).2.1)
    | option name text values options hO hclass hargs hbare hattached =>
      have hname := v.mem_of_isForbiddenArg hforbidden hclass
      have ih := ih values options hargs
      rw [reads_managed hname, List.forall_mem_cons, givenPlainly_managed hname,
        List.dropWhile_nil]
      constructor
      · rintro ⟨options', hsanitized, hgiven⟩
        have hdrop := dropWhile_eq_nil hargs hsanitized
        rw [hdrop] at ih
        exact ⟨by simp, hdrop, (ih.mp ⟨options', hsanitized, hgiven⟩).2⟩
      · rintro ⟨-, hdrop, hrest⟩
        rw [hdrop] at ih
        exact ih.mpr ⟨by simp, hrest⟩
    | level options hO => exact absurd hO hnotO
    | digit values options hO => exact absurd (hO ▸ List.prefix_rfl) hnotO

/-- An option that is joined to its value. -/
theorem SanitizesPlain.join {arg next : String} {args : List String}
    (hcaught : v.Caught (arg :: next :: args))
    (h : (isOption arg && !isForbiddenArg arg) = true) (hequals : '=' ∉ arg.toList)
    (hnext : isOption next = false) (ih : v.SanitizesPlain args) :
    v.SanitizesPlain (arg :: next :: args) := by
  intro values options hread
  obtain ⟨hdashed, hkept⟩ : isOption arg ∧ isForbiddenArg arg = false := by simpa using h
  rw [sanitizeTrimmed_join h hequals hnext, normalise_cons]
  rw [normalise_cons] at hread
  cases v.start_of_read hread with
  | value values options hO hclass hargs =>
    obtain ⟨values, rfl, hplain⟩ := v.read_plain hnext hargs
    have hhelp := ne_help_of_value hclass
    have herror := v.classify_normaliseName_join hdashed hequals next
    rw [hclass] at herror
    rw [normaliseArg_join hdashed hequals hO hhelp,
      List.dropWhile_cons_of_neg (by simp [show isOption _ from dashed_normaliseName hdashed])]
    refine iff_of_false ?_ fun hall => ?_
    · rintro ⟨options', hsanitized, -⟩
      rw [List.singleton_append, Parser.read_cons, Option.bind_eq_some_iff] at hsanitized
      obtain ⟨read, -, hstep⟩ := hsanitized
      simp [v.step_error herror] at hstep
    · simp [hall.1 next (by simp)] at hnext
  | option name text values options hO hclass hargs hbare hattached =>
    obtain ⟨values, rfl, hplain⟩ := v.read_plain hnext hargs
    obtain rfl : text = none := by
      by_contra hne
      simpa using (hattached hne).1
    have haccepts := hbare rfl
    have hhelp : arg ≠ "--help" := fun harg => by
      rw [harg] at hclass
      obtain ⟨rfl, -⟩ := Reading.option.inj (v.classify_help.symm.trans hclass)
      rw [v.help_nargs] at haccepts
      simpa using flag_accepts.mp haccepts
    have hname := hcaught.unmanaged hdashed hkept hO hclass
    have hjoined := v.classify_normaliseName_join hdashed hequals next
    rw [hclass] at hjoined
    rw [normaliseArg_join hdashed hequals hO hhelp, List.singleton_append, List.dropWhile_nil,
      reads_joined hname hjoined haccepts, List.forall_mem_cons, givenPlainly_plain hname hnext]
    constructor
    · rintro ⟨rfl, hreads⟩
      exact ⟨by simp, rfl, ((ih [] options hplain).mp hreads).2⟩
    · rintro ⟨-, rfl, hrest⟩
      exact ⟨rfl, (ih [] options hplain).mpr ⟨by simp, hrest⟩⟩
  | level options hO hne hclass hargs =>
    obtain ⟨values, hvalues, -⟩ := v.read_plain hnext hargs
    simp at hvalues
  | digit values options hO hdigit hargs hone =>
    obtain ⟨values, rfl, hplain⟩ := v.read_plain hnext hargs
    obtain rfl : values = [] := by simpa using hone
    subst hO
    have hbegins : "-O".toList <+: ("-O" ++ "=" ++ next).toList := by
      rw [toList_join]
      exact List.prefix_append _ _
    have hne : "-O" ++ "=" ++ next ≠ "-O" := fun heq => by
      simpa using congrArg (fun s => s.toList.length) heq
    rw [normaliseArg_level hbegins hne, optimizationLevel_O, List.cons_append,
      List.singleton_append, List.dropWhile_nil, reads_level (v.classify_plain hnext)]
    refine (ih [] options hplain).trans (and_congr_right fun _ => ?_)
    rw [List.forall_mem_cons, givenPlainly_plain (by decide) hnext]
    simp

/-- An option that is kept as it is. -/
theorem SanitizesPlain.keep {arg : String} {args : List String} (hcaught : v.Caught (arg :: args))
    (h : (isOption arg && !isForbiddenArg arg) = true)
    (hnext : '=' ∈ arg.toList ∨ ∀ next ∈ args.head?, isOption next) (ih : v.SanitizesPlain args) :
    v.SanitizesPlain (arg :: args) := by
  intro values options hread
  obtain ⟨hdashed, hkept⟩ : isOption arg ∧ isForbiddenArg arg = false := by simpa using h
  rw [sanitizeTrimmed_keep h hnext, normalise_cons]
  rw [normalise_cons] at hread
  cases v.start_of_read hread with
  | value values options hO hclass hargs =>
    have hequals := v.no_equals_of_value (dashed_normaliseName hdashed) hclass
    have hhead : ∀ next ∈ args.head?, isOption next := by
      refine hnext.resolve_left fun hin => ?_
      rcases equals_normaliseName hin with hhelp | hin
      · rw [hhelp] at hclass
        exact Reading.noConfusion (v.classify_help.symm.trans hclass)
      · exact hequals hin
    have hdrop := v.dropWhile_values hargs hhead
    have hoption : isOption (normaliseName arg) := dashed_normaliseName hdashed
    rw [normaliseArg_of_not hO, List.singleton_append,
      List.dropWhile_cons_of_neg (by simp [hoption]), reads_value hclass, List.forall_mem_cons]
    have ih := ih values options hargs
    rw [hdrop] at ih
    simpa [hoption] using ih
  | option name text values options hO hclass hargs hbare hattached =>
    have hname := hcaught.unmanaged hdashed hkept hO hclass
    have hdrop : values.dropWhile (!isOption ·) = values := by
      by_cases hnone : text = none
      · subst hnone
        rcases hnext with hin | hhead
        · rcases equals_normaliseName hin with hhelp | hin
          · rw [hhelp] at hclass
            obtain ⟨rfl, -⟩ := Reading.option.inj (v.classify_help.symm.trans hclass)
            have haccepts := hbare rfl
            rw [v.help_nargs] at haccepts
            rw [List.length_eq_zero_iff.mp (flag_accepts.mp haccepts)]
            rfl
          · exact absurd hin (v.no_equals_of_bare hclass)
        · exact v.dropWhile_values hargs hhead
      · rw [(hattached hnone).1]
        rfl
    have ih := ih values options hargs
    rw [hdrop] at ih
    rw [normaliseArg_of_not hO, List.singleton_append, List.dropWhile_nil,
      reads_option hname hclass (by simp) hbare hattached, ih, List.forall_mem_cons,
      givenPlainly_dashed hname hdrop]
    simp
  | level options hO hne hclass hargs =>
    rw [normaliseArg_level hO hne, List.cons_append, List.singleton_append, List.dropWhile_nil,
      reads_level hclass]
    refine (ih [] options hargs).trans (and_congr_right fun _ => ?_)
    rw [List.forall_mem_cons]
    exact ⟨fun hrest => ⟨givenPlainly_one (by decide), hrest⟩, And.right⟩
  | digit values options hO hdigit hargs hone =>
    obtain ⟨level, hlevel, hmem⟩ := hdigit
    have hdigits : ∀ digit ∈ ["0", "1", "2", "3"], isOption digit = false := by decide
    rcases hnext with hin | hhead
    · exact absurd (hO ▸ hin) (by decide)
    · simpa [hdigits level hmem] using hhead level hlevel

/-- What vLLM reads of the user's arguments it reads of the sanitized ones, less the managed options,
exactly if the options are given plainly. -/
theorem reads_sanitizeTrimmed_iff {args values : List String} {options : List Occurrence}
    (hcaught : v.Caught args) (hread : v.read (normalise args) = some (values, options)) :
    v.Reads (normalise (sanitizeTrimmed args)) (values.dropWhile (!isOption ·)) options ↔
      (∀ value ∈ values.dropWhile (!isOption ·), isOption value) ∧
        ∀ o ∈ options, GivenPlainly o := by
  suffices h : v.SanitizesPlain args from h values options hread
  clear hread
  induction args using sanitize_induction with
  | nil =>
    intro values options hread
    obtain ⟨rfl, rfl⟩ : [] = values ∧ [] = options := by simpa using hread
    simp [Reads, sanitizeTrimmed]
  | skip arg args h ih => exact (ih hcaught.of_cons).skip h
  | join arg next args h hequals hnext ih =>
    exact (ih hcaught.of_cons.of_cons).join hcaught h hequals hnext
  | keep arg args h hnext ih => exact (ih hcaught.of_cons).keep hcaught h hnext

end Sanitized

/-! The managed options that the sanitized arguments name. -/

section Named

/-- No argument is taken for a managed option. -/
def Unmanaged (args : List String) : Prop := ∀ name ∈ v.named args, name ∉ FORBIDDEN_ARGS

theorem unmanaged_append {xs ys : List String} :
    v.Unmanaged (xs ++ ys) ↔ v.Unmanaged xs ∧ v.Unmanaged ys := by
  rw [Unmanaged, v.named_append, List.forall_mem_append]
  rfl

theorem unmanaged_cons {arg : String} {args : List String} :
    v.Unmanaged (arg :: args) ↔
      (∀ name ∈ (v.classify arg).name, name ∉ FORBIDDEN_ARGS) ∧ v.Unmanaged args := by
  rw [Unmanaged, v.named_cons, List.forall_mem_append]
  simp [Unmanaged]

theorem unmanaged_nil : v.Unmanaged [] := by simp [Unmanaged]

theorem unmanaged_level : ∀ name ∈ (v.classify "--optimization-level").name,
    name ∉ FORBIDDEN_ARGS := by
  rw [v.classify_level]
  simp only [Reading.name, Option.mem_some_iff, forall_eq']
  decide

theorem unmanaged_plain {arg : String} (h : isOption arg = false) : v.Unmanaged [arg] := by
  rw [unmanaged_cons, v.classify_plain h]
  exact ⟨by simp [Reading.name], v.unmanaged_nil⟩

theorem unmanaged_O (next : Option String) : v.Unmanaged (normaliseArg "-O" next) := by
  rcases normaliseArg_O next with ⟨hnormal, -⟩ | hnormal
  · rw [hnormal, unmanaged_cons]
    exact ⟨v.unmanaged_level, v.unmanaged_nil⟩
  · rw [hnormal, unmanaged_cons, v.classify_O]
    exact ⟨by simp [Reading.name], v.unmanaged_nil⟩

theorem unmanaged_next (arg : String) (next : Option String) :
    v.Unmanaged (normaliseArg arg next) ↔ v.Unmanaged (normaliseArg arg none) := by
  by_cases hO : arg = "-O"
  · subst hO
    exact iff_of_true (v.unmanaged_O next) (v.unmanaged_O none)
  · simp [normaliseArg, hO]

theorem unmanaged_join {arg value : String} (hdashed : dashed arg) (hequals : '=' ∉ arg.toList)
    (hvalue : isOption value = false) (next : Option String) :
    v.Unmanaged (normaliseArg (arg ++ "=" ++ value) next) ↔
      v.Unmanaged (normaliseArg arg none) := by
  by_cases hO : "-O".toList <+: arg.toList
  · have hO' : "-O".toList <+: (arg ++ "=" ++ value).toList :=
      (prefix_join hdashed (by decide) value).mpr hO
    have hne' : arg ++ "=" ++ value ≠ "-O" := fun heq => by
      have hin : '=' ∈ (arg ++ "=" ++ value).toList := by simp
      exact absurd (heq ▸ hin) (by decide)
    rw [normaliseArg_level hO' hne', unmanaged_cons, and_iff_right v.unmanaged_level]
    by_cases hne : arg = "-O"
    · subst hne
      rw [optimizationLevel_O]
      exact iff_of_true (v.unmanaged_plain hvalue) (v.unmanaged_O none)
    · rw [normaliseArg_level hO hne, unmanaged_cons, unmanaged_cons, unmanaged_cons,
        and_iff_right v.unmanaged_level, optimizationLevel_join hO hne hequals,
        v.name_classify_join (optimizationLevel_ne hO hne hequals)
          (optimizationLevel_no_equals hequals)]
  · by_cases hhelp : arg = "--help"
    · subst hhelp
      have hnormal : normaliseName ("--help" ++ "=" ++ value) = normaliseName "--help" := by
        rw [normaliseName, if_pos (by rw [toList_join]; exact List.prefix_append _ _)]
        rfl
      rw [normaliseArg_of_not (mt (prefix_join hdashed (by decide) value).mp hO),
        normaliseArg_of_not hO, hnormal]
    · rw [normaliseArg_join hdashed hequals hO hhelp, normaliseArg_of_not hO, unmanaged_cons,
        unmanaged_cons, v.classify_normaliseName_join hdashed hequals, Reading.name_join]

theorem unmanaged_sanitizeTrimmed (args : List String) :
    v.Unmanaged (normalise (sanitizeTrimmed args)) ↔ v.Caught args := by
  induction args using sanitize_induction with
  | nil => simp [sanitizeTrimmed, unmanaged_nil, Caught]
  | skip arg args h ih =>
    rw [sanitizeTrimmed_skip h, ih, Caught, Caught, List.forall_mem_cons]
    exact (and_iff_right fun hoption hkept => by simp [hoption, hkept] at h).symm
  | join arg next args h hequals hnext ih =>
    obtain ⟨hdashed, hkept⟩ : isOption arg ∧ isForbiddenArg arg = false := by simpa using h
    rw [sanitizeTrimmed_join h hequals hnext, normalise_cons, unmanaged_append, ih,
      v.unmanaged_join hdashed hequals hnext]
    rw [Caught, Caught, List.forall_mem_cons, List.forall_mem_cons]
    simp [hdashed, hkept, hnext, Unmanaged]
  | keep arg args h hnext ih =>
    obtain ⟨hdashed, hkept⟩ : isOption arg ∧ isForbiddenArg arg = false := by simpa using h
    rw [sanitizeTrimmed_keep h hnext, normalise_cons, unmanaged_append, ih, v.unmanaged_next]
    rw [Caught, Caught, List.forall_mem_cons]
    simp [hdashed, hkept, Unmanaged]

end Named

/-! The options of the launch itself. -/

section Launch

theorem mem_launch {l : LaunchLine} {sanitizedExtraArgs : List String}
    {option : String × Option String} (h : option ∈ l.options sanitizedExtraArgs) :
    (option.1, option.2.isSome) ∈ LAUNCH_OPTIONS := by
  simp only [LaunchLine.options, List.mem_append, List.mem_cons, List.not_mem_nil, or_false,
    List.mem_ite_nil_left, List.mem_ite_nil_right, List.mem_map, or_assoc] at h
  rcases h with rfl | rfl | ⟨-, rfl⟩ | ⟨-, rfl⟩ | ⟨utilization, -, rfl⟩ | ⟨bytes, -, rfl⟩ |
    ⟨-, rfl⟩ | ⟨-, rfl⟩ | ⟨-, rfl⟩ | ⟨-, rfl⟩ | ⟨-, rfl⟩ <;>
  simp [LAUNCH_OPTIONS]

theorem launch_names : ∀ launch ∈ LAUNCH_OPTIONS, dashed launch.1 ∧ '=' ∉ launch.1.toList ∧
    ¬"-O".toList <+: launch.1.toList ∧ launch.1 ≠ "--help" ∧ normaliseName launch.1 = launch.1 := by
  decide +kernel

theorem normaliseArg_optionArg {option : String × Option String}
    (h : (option.1, option.2.isSome) ∈ LAUNCH_OPTIONS) (next : Option String) :
    normaliseArg (optionArg option) next = [optionArg option] := by
  obtain ⟨hdashed, hequals, hO, hhelp, hnormal⟩ := launch_names _ h
  match option with
  | (name, none) => rw [optionArg, normaliseArg_of_not hO, hnormal]
  | (name, some value) => rw [optionArg, normaliseArg_join hdashed hequals hO hhelp, hnormal]

theorem classify_optionArg {option : String × Option String}
    (h : (option.1, option.2.isSome) ∈ LAUNCH_OPTIONS) :
    v.classify (optionArg option) = .option option.1 option.2 := by
  obtain ⟨hdashed, hequals, -⟩ := launch_names _ h
  have hclass := v.classify_of_mem (v.launch _ h).1
  match option with
  | (name, none) => exact hclass
  | (name, some value) =>
    rw [optionArg, v.classify_join hdashed hequals, hclass]
    rfl

theorem normalise_options {options : List (String × Option String)}
    (h : ∀ option ∈ options, (option.1, option.2.isSome) ∈ LAUNCH_OPTIONS) :
    normalise (options.map optionArg) = options.map optionArg := by
  induction options with
  | nil => rfl
  | cons option options ih =>
    rw [List.map_cons, normalise_cons, normaliseArg_optionArg (h option List.mem_cons_self),
      List.singleton_append, ih fun o ho => h o (List.mem_cons_of_mem option ho)]

theorem read_optionArg_iff {option : String × Option String}
    (h : (option.1, option.2.isSome) ∈ LAUNCH_OPTIONS) {args values : List String}
    {found : List Occurrence} :
    v.read (optionArg option :: args) = some (values, found) ↔
      ∃ rest, v.read args = some ([], rest) ∧ values = [] ∧
        found = ⟨option.1, option.2, []⟩ :: rest := by
  have hclass := v.classify_optionArg h
  have hnargs := (v.launch _ h).2
  rw [Parser.read_cons, Option.bind_eq_some_iff]
  constructor
  · rintro ⟨⟨values', rest⟩, hargs, hstep⟩
    obtain ⟨rfl, rfl, hbare, hattached⟩ := v.step_option hclass hstep
    obtain rfl : values' = [] := by
      cases hvalue : option.2 with
      | none =>
        have hflag : v.nargs option.1 = flag := by simpa [hvalue] using hnargs
        have haccepts := hbare hvalue
        rw [hflag] at haccepts
        exact List.length_eq_zero_iff.mp (flag_accepts.mp haccepts)
      | some value => exact (hattached (by simp [hvalue])).1
    exact ⟨rest, hargs, rfl, rfl⟩
  · rintro ⟨rest, hargs, rfl, rfl⟩
    refine ⟨_, hargs, v.step_option_eq hclass (fun hnone => ?_) (fun hsome => ⟨rfl, ?_⟩) rest⟩
    · have hflag : v.nargs option.1 = flag := by simpa [hnone] using hnargs
      rw [hflag]
      exact flag_accepts.mpr rfl
    · simpa [Option.isSome_iff_ne_none.mpr hsome] using hnargs

theorem read_options_iff {options : List (String × Option String)}
    (h : ∀ option ∈ options, (option.1, option.2.isSome) ∈ LAUNCH_OPTIONS) (hne : options ≠ [])
    {args values : List String} {found : List Occurrence} :
    v.read (options.map optionArg ++ args) = some (values, found) ↔
      ∃ rest, v.read args = some ([], rest) ∧ values = [] ∧
        found = (options.map fun (name, value) => ⟨name, value, []⟩) ++ rest := by
  induction options generalizing values found with
  | nil => exact absurd rfl hne
  | cons option options ih =>
    have hrest := fun o ho => h o (List.mem_cons_of_mem option ho)
    rw [List.map_cons, List.cons_append, v.read_optionArg_iff (h option List.mem_cons_self)]
    by_cases hempty : options = []
    · simp [hempty]
    · constructor
      · rintro ⟨found', hread, rfl, rfl⟩
        obtain ⟨rest, hargs, -, rfl⟩ := (ih hrest hempty).mp hread
        exact ⟨rest, hargs, rfl, rfl⟩
      · rintro ⟨rest, hargs, rfl, rfl⟩
        exact ⟨_, (ih hrest hempty).mpr ⟨rest, hargs, rfl, rfl⟩, rfl, rfl⟩

variable (l : LaunchLine)

theorem normalise_baseArgs (sanitizedExtraArgs args : List String) :
    normalise (l.baseArgs sanitizedExtraArgs ++ args) = "serve" :: l.modelPath ::
      ((l.options sanitizedExtraArgs).map optionArg ++ normalise args) := by
  have hbase : ∀ arg ∈ (l.options sanitizedExtraArgs).map optionArg, arg ≠ "-O" := by
    rintro arg harg rfl
    obtain ⟨option, hoption, hsame⟩ := List.mem_map.mp harg
    have hnormal := normaliseArg_optionArg (mem_launch hoption) (some "0")
    rw [hsame] at hnormal
    exact absurd hnormal (by decide)
  rw [LaunchLine.baseArgs, List.cons_append, List.cons_append, normalise_plain (by decide),
    normalise_plain l.isOption_modelPath, normalise_append hbase,
    normalise_options fun option => mem_launch]

theorem parseArgs_iff {sanitizedExtraArgs args : List String} {tag : Option String}
    {options : List Occurrence} :
    v.parseArgs (l.baseArgs sanitizedExtraArgs ++ args) = some (tag, options) ↔
      ∃ rest, v.read (normalise args) = some ([], rest) ∧ tag = some l.modelPath ∧
        options = l.occurrences sanitizedExtraArgs ++ rest := by
  have hne : l.options sanitizedExtraArgs ≠ [] := by simp [LaunchLine.options]
  have hmodel := v.classify_plain l.isOption_modelPath
  rw [parseArgs, normalise_baseArgs]
  simp only [if_true, Parser.read_cons, Option.bind_eq_some_iff]
  constructor
  · rintro ⟨⟨tags, options'⟩, ⟨⟨values, found⟩, hread, hstep⟩, htags⟩
    obtain ⟨rest, hargs, rfl, rfl⟩ :=
      (v.read_options_iff (fun option => mem_launch) hne).mp hread
    rw [v.step_value hmodel] at hstep
    obtain ⟨rfl, rfl⟩ : [l.modelPath] = tags ∧ _ = options' := by simpa using hstep
    obtain ⟨rfl, rfl⟩ : some l.modelPath = tag ∧ _ = options := by simpa using htags
    exact ⟨rest, hargs, rfl, rfl⟩
  · rintro ⟨rest, hargs, rfl, rfl⟩
    have hread := (v.read_options_iff (fun option => mem_launch) hne).mpr ⟨rest, hargs, rfl, rfl⟩
    exact ⟨_, ⟨_, hread, v.step_value hmodel _ _⟩, rfl⟩

theorem named_vllmArgs (extraArgs : List String) :
    v.named (normalise (l.vllmArgs extraArgs)) =
      v.named (normalise (l.baseArgs (sanitizeVllmArgs extraArgs))) ++
        v.named (normalise (sanitizeVllmArgs extraArgs)) := by
  have hbase := normalise_baseArgs l (sanitizeVllmArgs extraArgs) []
  rw [List.append_nil, normalise_nil, List.append_nil] at hbase
  rw [LaunchLine.vllmArgs, normalise_baseArgs, hbase, ← v.named_append]
  rfl

end Launch

end Vllm

/-- A few of the options of `vllm serve` besides those of a launch. -/
def serveOptions : Vllm where
  names := LAUNCH_OPTIONS.map Prod.fst ++
    ["--help", "--optimization-level", "--allowed-origins", "--seed"]
  nargs name :=
    if name ∈ ["--disable-log-stats", "--no-enable-prefix-caching", "--enable-sleep-mode",
      "--enforce-eager", "--help"] then flag
    else if name = "--allowed-origins" then ⟨1, none⟩
    else single
  two_le_length := by decide
  dashed_of_mem := by decide +kernel
  no_equals := by decide +kernel
  dash_notMem := by decide
  launch := by decide +kernel
  optimization_mem := by decide +kernel
  optimization_nargs := by decide +kernel
  optimization_long := by decide +kernel
  help_mem := by decide +kernel
  help_nargs := by decide +kernel
  forbidden_of_prefix := by decide +kernel

def smallLaunch : LaunchLine where
  modelPath := "org/model"
  port := 8001
  effectiveModelName := "org/model"
  maxTokens := 4096
  derivedGpuMemoryUtilization := some "0.45"
  kvCacheMemoryBytes := none
  effectiveTensorParallelSize := 1
  effectivePipelineParallelSize := 1
  disablePrefixCaching := true
  enableSleepMode := false
  enforceEager := false
  isOption_modelPath := rfl

end GpuSharing.Sardeenz.VllmArguments
