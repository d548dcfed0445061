import DecimalMachine.Assembly.Encode
import DecimalMachine.Console.Notice
import DecimalMachine.Instruction.Decode
import DecimalMachine.Word.Dump

/-! # Assembling

A source is assembled in stages: its lines are read, the labels are collected, and the statements
are encoded. The first error of the first stage that has one is the error of the source.
-/

namespace DecimalMachine

/-- An assembled source: one word for each statement, and the labels. -/
structure Assembly where
  words : List Word
  labels : List Label
  deriving DecidableEq

namespace Assembly

def ofStatements (statements : List Statement) : Except Error Assembly := do
  let labels ← Label.collect statements
  let words ← encodeAll statements (Label.addresses labels)
  return ⟨words, labels⟩

def ofSource (source : String) : Except Error Assembly := do
  ofStatements (Line.statements (← Line.parseSource source))

def dump (assembly : Assembly) : List UInt8 := Word.dump assembly.words

/-- The listing of an assembled source, a text for each word. -/
def listing (assembly : Assembly) : List String := assembly.words.map Word.listing

def notice (assembly : Assembly) : Notice :=
  .assembled assembly.words.length assembly.labels.length

end Assembly

/-- The words of a source. -/
def assemble (source : String) : Except Error (List Word) :=
  Assembly.words <$> Assembly.ofSource source

/-- The dump of a source. -/
def assembleDump (source : String) : Except Error (List UInt8) :=
  Assembly.dump <$> Assembly.ofSource source

end DecimalMachine
