/-! # Example programs

Programs to start from, each with its source and the numbers it reads. The last one is empty, to be
filled in.
-/

namespace DecimalMachine

/-- A program with the text of its source and of its input. -/
structure Example where
  name : String
  source : String
  inputs : String
  deriving DecidableEq, Repr

namespace Example

/-- A text of lines that all end with a line feed. -/
def textOfLines (lines : List String) : String :=
  String.join (lines.map (· ++ "\n"))

def sum : Example where
  name := "Add"
  source := textOfLines [
    "// Outputs the sum of two inputs",
    "INP",
    "STA 99",
    "INP",
    "ADD 99",
    "OUT",
    "HLT"]
  inputs := "3, -5"

def sumAndDifference : Example where
  name := "Add and subtract"
  source := textOfLines [
    "// Reads a, b and c, then outputs a + b and c - a",
    "        INP",
    "        STA first",
    "        INP",
    "        ADD first",
    "        OUT",
    "        INP",
    "        SUB first",
    "        OUT",
    "        HLT",
    "first   DAT"]
  inputs := "10, 11, 100"

def factorial : Example where
  name := "Factorial"
  source := textOfLines [
    "// Reads n and outputs n!",
    "// Multiplication is repeated addition, so n must be small (n <= 6)",
    "        INP",
    "        STA n",
    "        LDA one",
    "        STA result",
    "",
    "// Multiply result by n, then decrement n, until n reaches 1",
    "outer   LDA n",
    "        SUB one",
    "        BRZ done",
    "        BRP mult",
    "        // n was 0 or negative: 0! = 1",
    "        BRA done",
    "",
    "mult    LDA zero",
    "        STA acc",
    "        LDA n",
    "        STA count",
    "mloop   LDA acc",
    "        ADD result",
    "        STA acc",
    "        LDA count",
    "        SUB one",
    "        STA count",
    "        BRZ mdone",
    "        BRA mloop",
    "mdone   LDA acc",
    "        STA result",
    "        LDA n",
    "        SUB one",
    "        STA n",
    "        BRA outer",
    "",
    "done    LDA result",
    "        OUT",
    "        HLT",
    "",
    "n       DAT",
    "result  DAT",
    "acc     DAT",
    "count   DAT",
    "one     DAT 1",
    "zero    DAT 0"]
  inputs := "6"

/-- All printable ASCII characters. -/
def characters : Example where
  name := "ASCII table"
  source := textOfLines [
    "// Prints every printable ASCII character, from space (32) to tilde (126)",
    "        LDA start",
    "loop    OTC",
    "        ADD one",
    "        STA char",
    "        SUB limit",
    "        BRZ done",
    "        LDA char",
    "        BRA loop",
    "done    HLT",
    "",
    "start   DAT 32",
    "one     DAT 1",
    "limit   DAT 127",
    "char    DAT 0"]
  inputs := ""

/-- No program yet. -/
def custom : Example := ⟨"Custom", "", ""⟩

def all : List Example := [sum, sumAndDifference, factorial, characters, custom]

def find? (name : String) : Option Example :=
  all.find? fun sample => sample.name == name

/-- The source and the input of the example of a name; without one, both are empty. -/
def load (name : String) : String × String :=
  match find? name with
  | some sample => (sample.source, sample.inputs)
  | none => ("", "")

end Example

end DecimalMachine
