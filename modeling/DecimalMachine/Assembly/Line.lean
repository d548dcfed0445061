import DecimalMachine.Error
import DecimalMachine.Instruction.Mnemonic
import DecimalMachine.Text.Blank
import DecimalMachine.Text.LineBreak

/-! # Source lines

A line of assembly text is a label, if its first word is no mnemonic, a mnemonic, and an operand;
what follows is ignored, as is everything from the first word that starts with two slashes. An
operand in the form of a literal is a number and has to be in the range of words; any other operand
refers to a label.
-/

namespace DecimalMachine

/-- What a statement is about. -/
inductive Target where
  | literal (value : Int)
  /-- The address of a label. -/
  | reference (label : String)
  deriving DecidableEq, Repr

/-- A line with an instruction: its number in the source, its mnemonic, the label it carries and its
operand, if it has them. -/
structure Statement where
  line : Int
  mnemonic : Mnemonic
  label : Option String
  target : Option Target
  deriving DecidableEq, Repr

/-- A line of assembly text. -/
inductive Line where
  | empty (line : Int)
  | statement (statement : Statement)
  deriving DecidableEq, Repr

def startsComment : List Char → Bool
  | '/' :: '/' :: _ => true
  | _ => false

/-- The words of a line before its comment. -/
def tokens (text : List Char) : List String :=
  ((Text.words text).takeWhile fun word => !startsComment word).map String.ofList

def Target.parse (token : String) (line : Int) : Except Error Target :=
  if Text.isLiteral token.toList then do
    let value ← readInt token
    if value < -999 ∨ 999 < value then .error (.operandOutOfRange value line)
    else .ok (.literal value)
  else .ok (.reference token)

/-- Reads the operand of a line from the words after its mnemonic. -/
def Target.parseFirst (rest : List String) (line : Int) : Except Error (Option Target) :=
  match rest with
  | [] => .ok none
  | token :: _ => some <$> Target.parse token line

namespace Line

/-- Reads a line from its words. -/
def ofTokens (line : Int) : List String → Except Error Line
  | [] => .ok (.empty line)
  | first :: rest =>
    match Mnemonic.ofName? first with
    | some mnemonic => do
      return .statement ⟨line, mnemonic, none, ← Target.parseFirst rest line⟩
    | none =>
      match rest with
      | [] => .error (.invalidOpcode first line)
      | second :: more =>
        match Mnemonic.ofName? second with
        | none => .error (.invalidOpcode second line)
        | some mnemonic => do
          return .statement ⟨line, mnemonic, some first, ← Target.parseFirst more line⟩

def parse (text : List Char) (line : Int) : Except Error Line :=
  ofTokens line (tokens text)

/-- Reads lines that are numbered from a number on. -/
def parseFrom (line : Int) : List (List Char) → Except Error (List Line)
  | [] => .ok []
  | text :: rest => do
    let parsed ← parse text line
    return parsed :: (← parseFrom (line + 1) rest)

/-- Reads the lines of a source. -/
def parseSource (source : String) : Except Error (List Line) :=
  parseFrom 1 (Text.lines source.toList)

def statement? : Line → Option Statement
  | empty _ => none
  | statement s => some s

def statements (lines : List Line) : List Statement :=
  lines.filterMap statement?

end Line

end DecimalMachine
