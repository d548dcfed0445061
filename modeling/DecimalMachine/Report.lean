import DecimalMachine.Assembly.Assemble
import DecimalMachine.Display.State
import DecimalMachine.Machine.Run

/-! # Reports

A program is assembled, run for at most a number of cycles on numbers given in advance, and reported
in four texts: a summary, the output, the trace of the first cycles, and the state at the end. If
there is nothing to run, the summary tells why and the other texts are empty.
-/

namespace DecimalMachine

namespace Text

/-- A text with spaces after it up to a width. -/
def leftAligned (width : Nat) (text : String) : String :=
  text ++ String.ofList (List.replicate (width - text.length) ' ')

/-- A text with spaces before it up to a width. -/
def rightAligned (width : Nat) (text : String) : String :=
  String.ofList (List.replicate (width - text.length) ' ') ++ text

end Text

/-- The numbers in a text, set apart by commas or blanks. -/
def readInts (text : String) : Except Error (List Int) :=
  let spaced := text.toList.map fun c => if c = ',' then ' ' else c
  (Text.words spaced).mapM fun token => readInt (String.ofList token)

/-- The four texts of a report. -/
structure Report where
  summary : String
  output : String
  trace : String
  state : String
  deriving DecidableEq, Repr

namespace Report

/-- A rule of a width under a heading. -/
def rule (width : Nat) (mark : Char) : String := String.ofList (List.replicate width mark)

/-- Lines on top of each other. -/
def stack (lines : List String) : String := String.intercalate "\n" lines

/-- The report on something that cannot be run. -/
def refusal (reason : String) : Report := ⟨"Error: " ++ reason, "", "", ""⟩

/-- The report on a blank source. -/
def noProgram : Report := refusal "No program provided"

/-- Why a run did not halt within its limit. -/
def problem (limit : Int) : Ending → Option String
  | .halted => none
  | .failed error => some error.message
  | .cutOff => some s!"Stopped after {limit} cycles"

/-- The summary of a run. -/
def summaryText (words : Nat) (limit : Int) (m : Machine) (ending : Ending) : String :=
  let halted := if m.halted then "Yes" else "No"
  let runtime := (problem limit ending).toList.map fun text => "\nRuntime: " ++ text
  stack (["EXECUTION SUMMARY", rule 40 '=', s!"Words: {words}", s!"Cycles: {m.cycles}",
    s!"Halted: {halted}"] ++ runtime)

/-- One cycle: its number, the address, the word and its listing, and then the accumulator and the
program counter where the cycle did more than count up. -/
def traceLine (entry : TraceEntry) : String :=
  let cycle := Text.rightAligned 4 s!"{entry.cycle}"
  let address := Text.zeroPadded 2 entry.address
  let word := Text.zeroPadded 4 entry.word.toInt
  let listing := Text.leftAligned 8 entry.listing
  let before := entry.before.accumulator
  let after := entry.after.accumulator
  let counter := entry.after.programCounter
  let computed := if before = after then "" else s!"  ACC {before.text} -> {after.text}"
  let jumped :=
    if counter = entry.address + 1 then "" else "  PC -> " ++ Text.zeroPadded 2 counter
  s!"[{cycle}] {address}: {word}  {listing}{computed}{jumped}"

/-- How many cycles a report shows. -/
def shownCycles : Nat := 100

def traceText (trace : Array TraceEntry) : String :=
  let shown := (trace.toList.take shownCycles).map traceLine
  let more :=
    if shownCycles < trace.size then [s!"\n... ({trace.size - shownCycles} more entries)"] else []
  stack (["EXECUTION TRACE", rule 60 '='] ++ shown ++ more)

def stateText (m : Machine) : String :=
  let counter := Text.zeroPadded 2 m.registers.programCounter
  let address := Text.zeroPadded 2 m.registers.addressRegister
  stack ["FINAL REGISTERS", rule 30 '=', s!"  PC:  {counter}",
    s!"  IR:  {m.registers.instructionRegister}", s!"  AR:  {address}",
    s!"  ACC: {m.registers.accumulator.text}", "", "MEMORY", rule 30 '-', m.memory.text]

/-- The report on a run of a program with a number of words. -/
def ofRun (words : Nat) (limit : Int) (run : Run) : Report where
  summary := summaryText words limit run.machine run.ending
  output := run.machine.output.text
  trace := traceText run.machine.trace
  state := stateText run.machine

/-- The assembled program, and the machine that is about to run it. -/
def prepare (source inputs : String) : Except Error (Assembly × Machine) := do
  let assembly ← Assembly.ofSource source
  let input ← Input.ofOperands ((← readInts inputs).map .int)
  let (m, _) ← (Machine.fresh input true).loadProgram (assembly.words.map .word)
  return (assembly, m)

/-- The report on a source that is run on numbers for at most a number of cycles. -/
def ofSource (source inputs : String) (limit : Int) : Report :=
  if source.toList.all Text.isBlank then noProgram
  else
    match prepare source inputs with
    | .ok (assembly, m) => ofRun assembly.words.length limit (m.runUnobserved limit.toNat)
    | .error error => refusal error.message

end Report

end DecimalMachine
