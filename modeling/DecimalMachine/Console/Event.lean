import DecimalMachine.Console.Notice

/-! # Events

What shows on a terminal while the machine runs, in the order in which it happens. Which of the
events are shown, and on which of the two streams, is up to the command that runs the machine.
-/

namespace DecimalMachine

/-- Something that may show on a terminal. -/
inductive Event where
  /-- A part reports about its work. -/
  | noticed (notice : Notice)
  /-- A number is asked for. -/
  | prompted (text : String)
  /-- A typed line is refused. -/
  | complained (text : String)
  /-- A number or a character is put out. -/
  | emitted (text : String)
  /-- The state of the machine is displayed. -/
  | displayed (text : String)
  deriving DecidableEq

namespace Event

def notice? : Event → Option Notice
  | noticed notice => some notice
  | _ => none

def prompt? : Event → Option String
  | prompted text => some text
  | _ => none

def complaint? : Event → Option String
  | complained text => some text
  | _ => none

def emission? : Event → Option String
  | emitted text => some text
  | _ => none

end Event

end DecimalMachine
