import DecimalMachine.Text.Digit
import DecimalMachine.Text.Quoted

/-! # Command-line grammars

A grammar tells which options a command has and which argument it takes by position. An argument
that starts with a dash mentions an option: by one of its names, by an unambiguous beginning of a
long name, with a value after an equals sign, or with a value right after a short name. Arguments
that look like negative numbers or hold a space are plain, and so is everything after two dashes
that stand alone.
-/

namespace DecimalMachine

/-- What an option does. -/
inductive OptionRole where
  | help
  | version
  /-- Is given or not. -/
  | flag
  | value
  deriving DecidableEq, Repr

/-- An option of a command: the ways to write it, what it does, and whether it must be given. -/
structure OptionForm where
  names : List String
  role : OptionRole
  required : Bool
  deriving DecidableEq, Repr

/-- What a command takes: its name, how its use is described, the argument by position and whether
that must be given, and the options. -/
structure Grammar where
  program : String
  usage : String
  positional : String
  positionalRequired : Bool
  options : List OptionForm
  deriving DecidableEq, Repr

/-- What an option is given. -/
inductive OptionValue where
  | text (value : String)
  /-- Nothing, because what was joined to the option was a separator. -/
  | nothing
  deriving DecidableEq, Repr

/-- Why a command does not start. -/
inductive Refusal where
  | help
  | version
  /-- The arguments do not fit. -/
  | misuse (message : String)
  deriving DecidableEq, Repr

/-- An option as it is mentioned: the option unless there is none of the name, the name, and the
text joined to it, right after the name or after an equals sign. -/
structure Mention where
  argument : String
  option : Option OptionForm
  name : String
  joined : Option String
  deriving DecidableEq, Repr

/-- An argument as it is classified. -/
inductive Item where
  | plain (text : String)
  | mention (mention : Mention)
  | separator
  deriving DecidableEq, Repr

/-- The argument that sets off the plain arguments. -/
def separator : String := "--"

/-- What an option is given by a text that is joined to it; a separator is dropped. -/
def OptionValue.ofJoined (joined : String) : OptionValue :=
  if joined = separator then nothing else text joined

namespace OptionForm

/-- All names of an option. -/
def title (option : OptionForm) : String := String.intercalate "/" option.names

/-- The name under which the values of an option are kept. -/
def key (option : OptionForm) : String := option.names.headD ""

end OptionForm

namespace Grammar

def names (grammar : Grammar) : List (String × OptionForm) :=
  grammar.options.flatMap fun option => option.names.map fun name => (name, option)

def find? (grammar : Grammar) (name : String) : Option OptionForm :=
  grammar.names.lookup name

/-- A text before and after its first equals sign, if it has one. -/
def splitEquals (text : List Char) : Option (String × String) :=
  match text.dropWhile (· != '=') with
  | [] => none
  | _ :: value => some (String.ofList (text.takeWhile (· != '=')), String.ofList value)

/-- Whether an argument looks like a negative number: a dash, digits, and perhaps a point among or
before them; a line feed may follow. -/
def looksNegative (argument : List Char) : Bool :=
  match argument with
  | '-' :: number =>
    let number := if number.getLast? = some '\n' then number.dropLast else number
    match number.splitOn '.' with
    | [whole] => !whole.isEmpty && whole.all Text.isDigit
    | [whole, fraction] =>
      whole.all Text.isDigit && !fraction.isEmpty && fraction.all Text.isDigit
    | _ => false
  | _ => false

/-- The names that an argument may stand for, each with its option and the text joined to it. -/
def candidates (grammar : Grammar) (argument : List Char) :
    List (String × OptionForm × Option String) :=
  match argument with
  | '-' :: '-' :: _ =>
    let (start, joined) :=
      match splitEquals argument with
      | some (start, value) => (start, some value)
      | none => (String.ofList argument, none)
    grammar.names.filterMap fun (name, option) =>
      if start.toList.isPrefixOf name.toList then some (name, option, joined) else none
  | '-' :: letter :: value =>
    grammar.names.filterMap fun (name, option) =>
      if name.toList = ['-', letter] then some (name, option, some (String.ofList value))
      else if argument.isPrefixOf name.toList then some (name, option, none)
      else none
  | _ => []

def classify (grammar : Grammar) (argument : String) : Except Refusal Item :=
  let text := argument.toList
  if text.head? != some '-' then .ok (.plain argument)
  else
    match grammar.find? argument with
    | some option => .ok (.mention ⟨argument, some option, argument, none⟩)
    | none =>
      if text.length = 1 then .ok (.plain argument)
      else
        let exact := (splitEquals text).bind fun (name, value) =>
          (grammar.find? name).map fun option => (name, option, value)
        match exact with
        | some (name, option, value) =>
          .ok (.mention ⟨argument, some option, name, some value⟩)
        | none =>
          match grammar.candidates text with
          | [(name, option, joined)] => .ok (.mention ⟨argument, some option, name, joined⟩)
          | [] =>
            if looksNegative text || text.contains ' ' then .ok (.plain argument)
            else .ok (.mention ⟨argument, none, argument, none⟩)
          | several =>
            let matching := String.intercalate ", " (several.map (·.1))
            .error (.misuse s!"ambiguous option: {argument} could match {matching}")

def classifyAll (grammar : Grammar) : List String → Except Refusal (List Item)
  | [] => .ok []
  | argument :: rest =>
    if argument = separator then .ok (.separator :: rest.map .plain)
    else do
      let item ← grammar.classify argument
      return item :: (← grammar.classifyAll rest)

end Grammar

end DecimalMachine
