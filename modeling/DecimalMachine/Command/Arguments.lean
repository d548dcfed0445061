import DecimalMachine.Command.Grammar

/-! # Command-line arguments

Arguments are read from left to right. The first plain argument that no option takes is the one
given by position; later ones are left over. An option that takes a value takes the text joined to
it or the next plain argument, and of several values the last counts. To the short name of an option
that takes no value, letters of further options may be joined, of which all must be known. Missing
arguments are refused before arguments that are left over.
-/

namespace DecimalMachine

/-- What a command was given: the argument by position, the values of options by their keys, the
last one first, the keys of flags, and what is left over. -/
structure Arguments where
  positional : Option String
  values : List (String × OptionValue)
  flags : List String
  extras : List String
  deriving DecidableEq, Repr

/-- An option that is given, with its value if it takes one. -/
structure Use where
  option : OptionForm
  value : Option OptionValue
  deriving DecidableEq, Repr

/-- What a mention comes to: the options used, whether the next argument is the value of the last
one, and what is left over. -/
structure Uses where
  uses : List Use
  takesNext : Bool
  extra : Option String
  deriving DecidableEq, Repr

namespace Refusal

def ofOption (option : OptionForm) (problem : String) : Refusal :=
  .misuse s!"argument {option.title}: {problem}"

def ignored (option : OptionForm) (joined : String) : Refusal :=
  ofOption option s!"ignored explicit argument {Text.quoted joined}"

end Refusal

namespace Use

/-- A use of an option whose value, if it takes one, is the next argument. -/
def withNext (option : OptionForm) (next : Option String) : Except Refusal Uses :=
  if option.role = .value then
    match next with
    | some value => .ok ⟨[⟨option, some (.text value)⟩], true, none⟩
    | none => .error (.ofOption option "expected one argument")
  else .ok ⟨[⟨option, none⟩], false, none⟩

/-- A use of an option that has a long name or takes a value, with a text joined to it. -/
def withJoined (option : OptionForm) (joined : String) : Except Refusal Uses :=
  if option.role = .value then .ok ⟨[⟨option, some (.ofJoined joined)⟩], false, none⟩
  else .error (.ignored option joined)

end Use

/-- The uses of an option under a short name and of those whose letters are joined to it. -/
def expandShort (grammar : Grammar) (next : Option String) (option : OptionForm) :
    List Char → Except Refusal Uses
  | [] => Use.withJoined option ""
  | letter :: rest =>
    if option.role = .value then Use.withJoined option (String.ofList (letter :: rest))
    else
      match grammar.find? (String.ofList ['-', letter]) with
      | none => .error (.ignored option (String.ofList (letter :: rest)))
      | some other => do
        let later ← if rest.isEmpty then Use.withNext other next
          else expandShort grammar next other rest
        return { later with uses := ⟨option, none⟩ :: later.uses }

/-- What a mention of an option comes to before a next argument. -/
def Mention.expand (grammar : Grammar) (next : Option String) (mention : Mention) :
    Except Refusal Uses :=
  match mention.option with
  | none => .ok ⟨[], false, some mention.argument⟩
  | some option =>
    match mention.joined with
    | none => Use.withNext option next
    | some joined =>
      match mention.name.toList with
      | '-' :: '-' :: _ => Use.withJoined option joined
      | _ => expandShort grammar next option joined.toList

namespace Arguments

def none : Arguments := ⟨.none, [], [], []⟩

/-- The arguments with another one left over. -/
def leave (arguments : Arguments) (text : String) : Arguments :=
  { arguments with extras := arguments.extras ++ [text] }

/-- The arguments with the one by position. -/
def place (arguments : Arguments) (text : String) : Arguments :=
  { arguments with positional := some text }

/-- The arguments after the use of an option. -/
def use (arguments : Arguments) (use : Use) : Except Refusal Arguments :=
  match use.option.role with
  | .help => .error .help
  | .version => .error .version
  | .flag => .ok { arguments with flags := use.option.key :: arguments.flags }
  | .value =>
    .ok { arguments with
      values := (use.option.key, use.value.getD .nothing) :: arguments.values }

/-- The arguments after several uses and what they left over. -/
def useAll (arguments : Arguments) (uses : Uses) : Except Refusal Arguments := do
  let used ← uses.uses.foldlM use arguments
  return match uses.extra with
    | some text => used.leave text
    | .none => used

def nextPlain : List Item → Option String
  | .plain text :: _ => some text
  | _ => .none

/-- The items after a separator, if one comes next. -/
def skipSeparator : List Item → List Item
  | .separator :: rest => rest
  | items => items

theorem length_skipSeparator_le (items : List Item) :
    (skipSeparator items).length ≤ items.length := by
  unfold skipSeparator
  split <;> simp

/-- Reads classified arguments after those read before. -/
def readItems (grammar : Grammar) (items : List Item) (arguments : Arguments) :
    Except Refusal Arguments :=
  match items with
  | [] => .ok arguments
  | .plain text :: rest =>
    if arguments.positional.isSome then readItems grammar rest (arguments.leave text)
    else readItems grammar (skipSeparator rest) (arguments.place text)
  | .separator :: rest =>
    if arguments.positional.isSome then readItems grammar rest (arguments.leave "--")
    else
      match rest with
      | .plain text :: more => readItems grammar more (arguments.place text)
      | rest => readItems grammar rest arguments
  | .mention mention :: rest => do
    let uses ← mention.expand grammar (nextPlain rest)
    let used ← arguments.useAll uses
    if uses.takesNext then readItems grammar rest.tail used else readItems grammar rest used
termination_by items.length
decreasing_by
  all_goals simp only [List.length_cons, List.length_tail]
  all_goals first
    | omega
    | exact Nat.lt_succ_of_le (length_skipSeparator_le _)

/-- The arguments that must be given and are missing. -/
def missing (grammar : Grammar) (arguments : Arguments) : List String :=
  let positional :=
    if grammar.positionalRequired && arguments.positional.isNone then [grammar.positional] else []
  let absent := grammar.options.filter fun option =>
    option.required && (arguments.values.lookup option.key).isNone
  positional ++ absent.map OptionForm.title

def parse (grammar : Grammar) (argv : List String) : Except Refusal Arguments := do
  let items ← grammar.classifyAll argv
  let arguments ← readItems grammar items none
  match arguments.missing grammar, arguments.extras with
  | [], [] => return arguments
  | [], extras =>
    let left := String.intercalate " " extras
    .error (.misuse s!"unrecognized arguments: {left}")
  | missing, _ =>
    let names := String.intercalate ", " missing
    .error (.misuse s!"the following arguments are required: {names}")

end Arguments

end DecimalMachine
