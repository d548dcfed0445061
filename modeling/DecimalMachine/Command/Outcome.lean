import DecimalMachine.Command.Arguments
import DecimalMachine.Command.FileTree
import DecimalMachine.Console.Event
import DecimalMachine.Display.Style

/-! # Outcomes of commands

What a command leaves behind: what it wrote on the two streams of a terminal, how it ended, and the
files. A command ends with a status of its own, or before it starts because of its arguments, or by
an error that it has no report for.
-/

namespace DecimalMachine

/-- A text on one of the two streams of a terminal. -/
inductive Piece where
  /-- On the stream for output. -/
  | out (text : String)
  /-- On the stream for messages. -/
  | err (text : String)
  deriving DecidableEq, Repr

namespace Piece

def out? : Piece → Option String
  | out text => some text
  | err _ => none

def err? : Piece → Option String
  | out _ => none
  | err text => some text

end Piece

/-- How a command ends. -/
inductive Exit where
  /-- With a status. -/
  | completed (status : Nat)
  /-- With a status, before it started. -/
  | dismissed (status : Nat)
  /-- By an error without a report. -/
  | crashed (error : Error)
  /-- Not at all, as far as it was followed. -/
  | unfinished
  deriving DecidableEq

/-- What a command leaves behind. -/
structure Outcome where
  exit : Exit
  pieces : List Piece
  files : FileTree

namespace Outcome

/-- All that was written on the stream for output. -/
def stdout (outcome : Outcome) : String := String.join (outcome.pieces.filterMap Piece.out?)

/-- All that was written on the stream for messages. -/
def stderr (outcome : Outcome) : String := String.join (outcome.pieces.filterMap Piece.err?)

/-- The outcome after pieces that were written before. -/
def after (outcome : Outcome) (pieces : List Piece) : Outcome :=
  { outcome with pieces := pieces ++ outcome.pieces }

@[simp] theorem exit_after (outcome : Outcome) (pieces : List Piece) :
    (outcome.after pieces).exit = outcome.exit := rfl

@[simp] theorem files_after (outcome : Outcome) (pieces : List Piece) :
    (outcome.after pieces).files = outcome.files := rfl

end Outcome

def version : String := "0.1.0"

/-- What a command that is kept from starting writes, and how it ends. -/
def Refusal.conclude (grammar : Grammar) : Refusal → List Piece × Exit
  | help => ([.out (grammar.usage ++ "\n")], .dismissed 0)
  | version => ([.out s!"{grammar.program} {DecimalMachine.version}\n"], .dismissed 0)
  | misuse message =>
    ([.err s!"{grammar.usage}\n{grammar.program}: error: {message}\n"], .dismissed 2)

namespace Error

def status (error : Error) : Nat := if error.isFileFailure then 2 else 1

/-- What a command that fails writes, and how it ends. -/
def conclude (error : Error) : List Piece × Exit :=
  if error.isReported then ([.err (errorText error.message ++ "\n")], .completed error.status)
  else ([], .crashed error)

end Error

/-- The outcome of a command that fails and leaves the files as they are. -/
def Outcome.failed (error : Error) (files : FileTree) : Outcome :=
  let (pieces, exit) := error.conclude
  ⟨exit, pieces, files⟩

/-- What shows of a notice under the least level that is shown. -/
def Notice.pieces (least : Level) (notice : Notice) : List Piece :=
  if least.rank ≤ notice.level.rank then [.err (notice.text ++ "\n")] else []

/-- What shows of an event under the least level that is shown, and emissions only on request. -/
def Event.pieces (least : Level) (showsOutput : Bool) : Event → List Piece
  | noticed notice => notice.pieces least
  | prompted text => [.out text]
  | complained text => [.err (text ++ "\n")]
  | emitted text => if showsOutput then [.out text] else []
  | displayed text => [.out (text ++ "\n")]

/-- The outcome of a command that reads its arguments first. -/
def Grammar.start (grammar : Grammar) (argv : List String) (files : FileTree)
    (command : Arguments → Outcome) : Outcome :=
  match Arguments.parse grammar argv with
  | .ok arguments => command arguments
  | .error refusal =>
    let (pieces, exit) := refusal.conclude grammar
    ⟨exit, pieces, files⟩

end DecimalMachine
