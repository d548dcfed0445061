import DecimalMachine.Command.Outcome
import DecimalMachine.Operand.Basic
import DecimalMachine.Text.Blank
import DecimalMachine.Word.Dump

/-! # Packing typed numbers

The command that turns one line of typed numbers into a dump. The dump is written only if every
number is a word.
-/

namespace DecimalMachine

/-- The words that a line of numbers holds. -/
def wordsOfLine (line : String) : Except Error (List Word) :=
  (Text.words line.toList).mapM fun token => (Operand.text (String.ofList token)).readWord

namespace PackCommand

def grammar : Grammar where
  program := "littleman-bin"
  usage := "usage: littleman-bin [-h] output"
  positional := "output"
  positionalRequired := true
  options := [⟨["-h", "--help"], .help, false⟩]

def path (arguments : Arguments) : Text.Pathname := .ofString (arguments.positional.getD "")

/-- The text that asks for the numbers. -/
def invitation : String := "Paste in the memory data:\n"

/-- What is written about a line that holds something other than words, and how the command ends. -/
def concludeLine (error : Error) : List Piece × Exit :=
  if error.isReported then error.conclude
  else ([.err (errorText ("Invalid memory data: " ++ error.message) ++ "\n")], .completed 1)

/-- Packs a line of numbers into a dump at a path, given what comes of writing to a path. -/
def perform (write : Text.Pathname → List UInt8 → Except PathFault FileTree)
    (output : Text.Pathname) (files : FileTree) (line : String) : Outcome :=
  match wordsOfLine line with
  | .error error =>
    let (pieces, exit) := concludeLine error
    ⟨exit, pieces, files⟩
  | .ok words =>
    match onFile .writeOutput output (write output (Word.dump words)) with
    | .ok written =>
      ⟨.completed 0, Notice.pieces .info (.wrote words.length output.render), written⟩
    | .error error => .failed error files

end PackCommand

/-- The command that packs the first typed line into a dump, given what comes of writing to a
path. -/
def packCommandOn (write : Text.Pathname → List UInt8 → Except PathFault FileTree)
    (argv : List String) (files : FileTree) (lines : List String) : Outcome :=
  PackCommand.grammar.start argv files fun arguments =>
    (PackCommand.perform write (PackCommand.path arguments) files (lines.headD "")).after
      [.out PackCommand.invitation]

/-- The command that packs a line into a dump in a file tree. -/
def packCommand (argv : List String) (files : FileTree) (lines : List String) : Outcome :=
  packCommandOn files.write argv files lines

end DecimalMachine
