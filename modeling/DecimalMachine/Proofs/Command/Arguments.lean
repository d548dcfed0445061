import DecimalMachine.Command.Assemble
import DecimalMachine.Command.Run
import DecimalMachine.Proofs.Result

/-!
# Arguments in front of others

Options may be put in front of other arguments. If they take values, these come to stand behind the
values that the other arguments give, so that they count only where those give none. An argument
that is no plain one is refused as the value of an option, whatever comes behind it.

## Main definitions

- `Arguments.withEarlier` — arguments with values of options that were given before them
-/

namespace DecimalMachine

namespace Grammar

variable {grammar : Grammar} {option : OptionForm} {name argument : String}

/-- A name of an option mentions it. -/
theorem classify_name (hdash : name.toList.head? = some '-')
    (hfind : grammar.find? name = some option) :
    grammar.classify name = .ok (.mention ⟨name, some option, name, none⟩) := by
  simp [classify, hdash, hfind]

/-- An argument that is taken for nothing but itself. -/
structure IsPlain (grammar : Grammar) (argument : String) : Prop where
  ne_separator : argument ≠ separator
  classify_eq : grammar.classify argument = .ok (.plain argument)

theorem isPlain_of_head (h : argument.toList.head? ≠ some '-') : grammar.IsPlain argument where
  ne_separator := by
    rintro rfl
    exact h rfl
  classify_eq := by
    have hhead : (argument.toList.head? != some '-') = true := bne_iff_ne.2 h
    rw [classify, if_pos hhead]

theorem eq_of_classify {text : String} (h : grammar.classify argument = .ok (.plain text)) :
    text = argument := by
  simp only [classify] at h
  repeat' split at h
  all_goals
    cases h
    try rfl

theorem classify_ne_separator : grammar.classify argument ≠ .ok .separator := by
  intro h
  simp only [classify] at h
  repeat' split at h
  all_goals cases h

theorem classifyAll_cons {item : Item} (hne : argument ≠ separator)
    (h : grammar.classify argument = .ok item) (rest : List String) :
    grammar.classifyAll (argument :: rest) = (fun items => item :: items) <$>
      grammar.classifyAll rest := by
  rw [classifyAll, if_neg hne, h]
  cases grammar.classifyAll rest <;> rfl

end Grammar

namespace Arguments

variable {grammar : Grammar} {arguments : Arguments} {values : List (String × OptionValue)}

/-- The arguments with values of options that were given before them. -/
def withEarlier (arguments : Arguments) (values : List (String × OptionValue)) : Arguments :=
  { arguments with values := arguments.values ++ values }

theorem use_withEarlier (u : Use) :
    (arguments.withEarlier values).use u =
      (fun later => later.withEarlier values) <$> arguments.use u := by
  simp only [use]
  cases u.option.role <;> rfl

theorem foldlM_use_withEarlier (uses : List Use) :
    uses.foldlM use (arguments.withEarlier values) =
      (fun later => later.withEarlier values) <$> uses.foldlM use arguments := by
  induction uses generalizing arguments with
  | nil => rfl
  | cons u uses ih =>
    rw [List.foldlM_cons, List.foldlM_cons, use_withEarlier]
    cases arguments.use u with
    | error refusal => rfl
    | ok used => exact ih

theorem useAll_withEarlier (uses : Uses) :
    (arguments.withEarlier values).useAll uses =
      (fun later => later.withEarlier values) <$> arguments.useAll uses := by
  rw [useAll, useAll, foldlM_use_withEarlier]
  cases uses.uses.foldlM use arguments with
  | error refusal => rfl
  | ok used => cases uses.extra <;> rfl

/-- Values that were given earlier stay behind those that are read. -/
theorem readItems_withEarlier (items : List Item) :
    readItems grammar items (arguments.withEarlier values) =
      (fun later => later.withEarlier values) <$> readItems grammar items arguments := by
  fun_induction readItems grammar items arguments with
  | case1 => rw [readItems]; rfl
  | case2 arguments text rest hplaced ih =>
    have hplaced' : (arguments.withEarlier values).positional.isSome = true := hplaced
    rw [readItems, if_pos hplaced']
    exact ih
  | case3 arguments text rest hfree ih =>
    have hfree' : ¬(arguments.withEarlier values).positional.isSome = true := hfree
    rw [readItems, if_neg hfree']
    exact ih
  | case4 arguments rest hplaced ih =>
    have hplaced' : (arguments.withEarlier values).positional.isSome = true := hplaced
    rw [readItems.eq_def]
    simp only [hplaced', if_true]
    exact ih
  | case5 arguments hfree text rest ih =>
    have hfree' : ¬(arguments.withEarlier values).positional.isSome = true := hfree
    rw [readItems, if_neg hfree']
    exact ih
  | case6 arguments rest hfree hrest ih =>
    have hfree' : ¬(arguments.withEarlier values).positional.isSome = true := hfree
    rw [readItems, if_neg hfree']
    · exact ih
    · exact hrest
  | case7 arguments mention rest ihTail ih =>
    rw [readItems]
    cases mention.expand grammar (nextPlain rest) with
    | error refusal => rfl
    | ok uses =>
      simp only [bind, Except.bind, useAll_withEarlier]
      cases arguments.useAll uses with
      | error refusal => rfl
      | ok used =>
        cases htakes : uses.takesNext with
        | true => exact ihTail used
        | false => exact ih used

theorem takesNext_of_withNext {option : OptionForm} {uses : Uses}
    (h : Use.withNext option .none = .ok uses) : uses.takesNext = false := by
  unfold Use.withNext at h
  split at h
  · cases h
  · cases h
    rfl

theorem takesNext_of_withJoined {option : OptionForm} {joined : String} {uses : Uses}
    (h : Use.withJoined option joined = .ok uses) : uses.takesNext = false := by
  unfold Use.withJoined at h
  split at h <;> cases h
  rfl

theorem takesNext_of_expandShort {option : OptionForm} {letters : List Char} {uses : Uses}
    (h : expandShort grammar .none option letters = .ok uses) : uses.takesNext = false := by
  induction letters generalizing option uses with
  | nil => exact takesNext_of_withJoined h
  | cons letter rest ih =>
    rw [expandShort] at h
    split at h
    · exact takesNext_of_withJoined h
    · split at h
      · cases h
      · split at h
        all_goals obtain ⟨later, hlater, ⟨⟩⟩ := Result.bind_eq_ok_iff.1 h
        · show later.takesNext = false
          exact takesNext_of_withNext hlater
        · show later.takesNext = false
          exact ih hlater

/-- A mention with no plain argument behind it takes none. -/
theorem takesNext_of_expand {mention : Mention} {uses : Uses}
    (h : mention.expand grammar .none = .ok uses) : uses.takesNext = false := by
  unfold Mention.expand at h
  split at h
  · cases h
    rfl
  · split at h
    · exact takesNext_of_withNext h
    · split at h
      · exact takesNext_of_withJoined h
      · exact takesNext_of_expandShort h

theorem positional_of_use {u : Use} {used : Arguments} (h : arguments.use u = .ok used) :
    used.positional = arguments.positional := by
  unfold use at h
  split at h <;> cases h <;> rfl

/-- Options leave the argument by position. -/
theorem positional_of_useAll {uses : Uses} {used : Arguments}
    (h : arguments.useAll uses = .ok used) : used.positional = arguments.positional := by
  obtain ⟨reached, hreached, hused⟩ := Result.bind_eq_ok_iff.1 h
  have hfold : reached.positional = arguments.positional := by
    clear h
    generalize uses.uses = list at hreached
    induction list generalizing arguments with
    | nil =>
      cases hreached
      rfl
    | cons u list ih =>
      obtain ⟨next, hnext, hrest⟩ := Result.bind_eq_ok_iff.1 hreached
      exact (ih hrest).trans (positional_of_use hnext)
  cases hused
  split
  · exact hfold
  · exact hfold

/-- A mention with no plain argument behind it leaves the argument by position to the items behind
it. -/
theorem exists_of_readItems_mention {mention : Mention} {items : List Item} {read : Arguments}
    (hnext : nextPlain items = .none)
    (h : readItems grammar (.mention mention :: items) arguments = .ok read) :
    ∃ used, used.positional = arguments.positional ∧ readItems grammar items used = .ok read := by
  rw [readItems, hnext] at h
  obtain ⟨uses, huses, hread⟩ := Result.bind_eq_ok_iff.1 h
  obtain ⟨used, hused, hrest⟩ := Result.bind_eq_ok_iff.1 hread
  rw [takesNext_of_expand huses, if_neg Bool.false_ne_true] at hrest
  exact ⟨used, positional_of_useAll hused, hrest⟩

/-- Arguments that are taken lack none that must be given. -/
theorem exists_of_parse {argv : List String} (h : parse grammar argv = .ok arguments) :
    ∃ items, grammar.classifyAll argv = .ok items ∧ readItems grammar items none = .ok arguments ∧
      missing grammar arguments = [] := by
  obtain ⟨items, hitems, hparse⟩ := Result.bind_eq_ok_iff.1 h
  obtain ⟨read, hread, hresult⟩ := Result.bind_eq_ok_iff.1 hparse
  split at hresult
  · next hmissing _ =>
    cases hresult
    exact ⟨items, hitems, hread, hmissing⟩
  · cases hresult
  · cases hresult

section Options

variable {option : OptionForm} {name value : String}

/-- The items of an option that takes the plain argument behind it. -/
theorem readItems_option (hrole : option.role = .value) (items : List Item) :
    readItems grammar (.mention ⟨name, some option, name, .none⟩ :: .plain value :: items)
        arguments =
      readItems grammar items
        { arguments with values := (option.key, .text value) :: arguments.values } := by
  rw [readItems]
  simp only [Mention.expand, nextPlain, Use.withNext, hrole, if_true, bind, Except.bind, useAll,
    List.foldlM_cons, List.foldlM_nil, use, pure, Except.pure, List.tail_cons, Option.getD_some]

/-- An option without an argument that it could take is refused. -/
theorem readItems_option_of_not_plain (hrole : option.role = .value) {items : List Item}
    (hnext : nextPlain items = .none) :
    readItems grammar (.mention ⟨name, some option, name, .none⟩ :: items) arguments =
      .error (.ofOption option "expected one argument") := by
  rw [readItems, hnext]
  simp only [Mention.expand, Use.withNext, hrole, if_true, bind, Except.bind]

variable (hname : name ≠ separator) (hdash : name.toList.head? = some '-')
  (hfind : grammar.find? name = some option) (hrole : option.role = .value)

include hname hdash hfind hrole

/-- An option in front of other arguments counts as one that was given earlier. -/
theorem parse_option (hmissing : ∀ arguments, missing grammar arguments = [])
    (hvalue : grammar.IsPlain value) (rest : List String) :
    parse grammar (name :: value :: rest) =
      (fun arguments => arguments.withEarlier [(option.key, .text value)]) <$>
        parse grammar rest := by
  rw [parse, parse, Grammar.classifyAll_cons hname (Grammar.classify_name hdash hfind),
    Grammar.classifyAll_cons hvalue.ne_separator hvalue.classify_eq]
  cases grammar.classifyAll rest with
  | error refusal => rfl
  | ok items =>
    have hread : readItems grammar items
        { none with values := (option.key, .text value) :: none.values } =
          (fun later => later.withEarlier [(option.key, .text value)]) <$>
            readItems grammar items none :=
      readItems_withEarlier items
    simp only [bind, Except.bind, Functor.map, Except.map, readItems_option hrole, hread]
    cases readItems grammar items none with
    | error refusal => rfl
    | ok read =>
      have hextras : (read.withEarlier [(option.key, .text value)]).extras = read.extras := rfl
      simp only [hmissing, hextras]
      cases read.extras <;> rfl

/-- An argument that is not plain is refused behind the option, for the same reason whatever else is
given. -/
theorem exists_refusal_of_not_isPlain (hvalue : ¬grammar.IsPlain value) :
    ∃ refusal, ∀ rest items, grammar.classifyAll rest = .ok items →
      parse grammar (name :: value :: rest) = .error refusal := by
  have hcons := Grammar.classifyAll_cons hname (Grammar.classify_name hdash hfind)
  have hexpected (items : List Item) (hnext : nextPlain items = .none) {rest : List String}
      (hrest : grammar.classifyAll rest = .ok items) :
      parse grammar (name :: rest) = .error (.ofOption option "expected one argument") := by
    rw [parse, hcons, hrest]
    simp only [bind, Except.bind, Functor.map, Except.map,
      readItems_option_of_not_plain hrole hnext]
  by_cases hseparator : value = separator
  · subst hseparator
    refine ⟨_, fun rest items _ => hexpected (.separator :: rest.map .plain) rfl ?_⟩
    rw [Grammar.classifyAll, if_pos rfl]
  · cases hitem : grammar.classify value with
    | error refusal =>
      refine ⟨refusal, fun rest items _ => ?_⟩
      rw [parse, hcons, Grammar.classifyAll, if_neg hseparator, hitem]
      rfl
    | ok item =>
      refine ⟨_, fun rest items hrest => hexpected (item :: items) ?_ ?_⟩
      · cases item with
        | plain text =>
          cases Grammar.eq_of_classify hitem
          exact absurd ⟨hseparator, hitem⟩ hvalue
        | mention mention => rfl
        | separator => rfl
      · rw [Grammar.classifyAll_cons hseparator hitem, hrest]
        rfl

end Options

end Arguments

namespace RunCommand

theorem missing_eq_nil (arguments : Arguments) : arguments.missing grammar = [] := rfl

/-- The option for the dump. -/
def ramOption : OptionForm := ⟨["--ram"], .value, false⟩

theorem find?_ram : grammar.find? "--ram" = some ramOption := by decide

/-- A dump in front of arguments counts as one that was given earlier. -/
theorem parse_ram {path : String} {rest : List String} {arguments : Arguments}
    (hpath : grammar.IsPlain path) (hrest : Arguments.parse grammar rest = .ok arguments) :
    Arguments.parse grammar ("--ram" :: path :: rest) =
      .ok (arguments.withEarlier [("--ram", .text path)]) := by
  rw [Arguments.parse_option (by decide) (by decide) find?_ram rfl missing_eq_nil hpath rest, hrest]
  rfl

theorem exists_refusal {path : String} (hpath : ¬grammar.IsPlain path) :
    ∃ refusal, ∀ rest items, grammar.classifyAll rest = .ok items →
      Arguments.parse grammar ("--ram" :: path :: rest) = .error refusal :=
  Arguments.exists_refusal_of_not_isPlain (by decide) (by decide) find?_ram rfl hpath

end RunCommand

namespace AssembleCommand

/-- The option for the dump. -/
def outputOption : OptionForm := ⟨["--output", "-o"], .value, true⟩

/-- How the option for the dump is read. -/
def outputMention : Mention := ⟨"--output", some outputOption, "--output", none⟩

theorem classifyAll_output {output : String} (houtput : grammar.IsPlain output) :
    grammar.classifyAll ["--output", output] = .ok [.mention outputMention, .plain output] := by
  have hfind : grammar.find? "--output" = some outputOption := by decide
  rw [Grammar.classifyAll_cons (by decide) (Grammar.classify_name (by decide) hfind),
    Grammar.classifyAll_cons houtput.ne_separator houtput.classify_eq]
  rfl

theorem readItems_output (output : String) (arguments : Arguments) :
    Arguments.readItems grammar [.mention outputMention, .plain output] arguments =
      .ok { arguments with values := ("--output", .text output) :: arguments.values } := by
  rw [outputMention, Arguments.readItems_option rfl, Arguments.readItems]
  rfl

/-- A path and a dump in the order in which the launcher gives them. -/
theorem parse_output {path output : String} (hpath : grammar.IsPlain path)
    (houtput : grammar.IsPlain output) :
    Arguments.parse grammar [path, "--output", output] =
      .ok ⟨some path, [("--output", .text output)], [], []⟩ := by
  rw [Arguments.parse, Grammar.classifyAll_cons hpath.ne_separator hpath.classify_eq,
    classifyAll_output houtput]
  simp only [bind, Except.bind, Functor.map, Except.map]
  rw [Arguments.readItems, if_neg (by decide)]
  simp only [Arguments.skipSeparator, readItems_output]
  rfl

theorem isSome_of_missing {arguments : Arguments} (h : arguments.missing grammar = []) :
    arguments.positional.isSome = true ∧ (arguments.values.lookup "--output").isSome = true := by
  obtain ⟨hpositional, habsent⟩ := List.append_eq_nil_iff.1 h
  constructor
  · cases hgiven : arguments.positional with
    | none =>
      rw [hgiven] at hpositional
      cases hpositional
    | some path => rfl
  · cases hgiven : arguments.values.lookup "--output" with
    | none =>
      have hkept : outputOption ∈ grammar.options.filter fun option =>
          option.required && (arguments.values.lookup option.key).isNone := by
        rw [List.mem_filter]
        exact ⟨by decide, by simp [outputOption, OptionForm.key, hgiven]⟩
      rw [List.map_eq_nil_iff.1 habsent] at hkept
      cases hkept
    | some value => rfl

/-- Behind a separator the option is taken for the path. -/
theorem readItems_separator (output : String) :
    Arguments.readItems grammar [.separator, .plain "--output", .plain output] .none =
      .ok ⟨some "--output", [], [], [output]⟩ := by
  rw [Arguments.readItems, if_neg (by decide), Arguments.readItems, if_pos (by rfl),
    Arguments.readItems]
  rfl

/-- Behind an argument that is not plain there is no path. -/
theorem positional_of_readItems {argument output : String} {item : Item} {arguments : Arguments}
    (hargument : ¬grammar.IsPlain argument) (hseparator : argument ≠ separator)
    (hitem : grammar.classify argument = .ok item)
    (hread : Arguments.readItems grammar [item, .mention outputMention, .plain output] .none =
      .ok arguments) : arguments.positional = none := by
  cases item with
  | plain text =>
    cases Grammar.eq_of_classify hitem
    exact absurd ⟨hseparator, hitem⟩ hargument
  | separator => exact absurd hitem Grammar.classify_ne_separator
  | mention mention =>
    obtain ⟨used, hnone, hrest⟩ := Arguments.exists_of_readItems_mention rfl hread
    rw [readItems_output] at hrest
    cases hrest
    exact hnone

/-- A path that is taken for an option is missing then. -/
theorem exists_refusal {path output : String} (hpath : ¬grammar.IsPlain path)
    (houtput : grammar.IsPlain output) :
    ∃ refusal, Arguments.parse grammar [path, "--output", output] = .error refusal := by
  cases hparse : Arguments.parse grammar [path, "--output", output] with
  | error refusal => exact ⟨refusal, rfl⟩
  | ok arguments =>
    exfalso
    obtain ⟨items, hitems, hread, hmissing⟩ := Arguments.exists_of_parse hparse
    obtain ⟨hpositional, hvalue⟩ := isSome_of_missing hmissing
    by_cases hseparator : path = separator
    · rw [Grammar.classifyAll, if_pos hseparator] at hitems
      cases hitems
      cases (readItems_separator output).symm.trans hread
      cases hvalue
    · cases hitem : grammar.classify path with
      | error refusal =>
        rw [Grammar.classifyAll, if_neg hseparator, hitem] at hitems
        cases hitems
      | ok item =>
        rw [Grammar.classifyAll_cons hseparator hitem, classifyAll_output houtput] at hitems
        cases hitems
        rw [positional_of_readItems hpath hseparator hitem hread] at hpositional
        cases hpositional

end AssembleCommand

end DecimalMachine
