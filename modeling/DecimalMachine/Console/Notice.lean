import DecimalMachine.Instruction.Opcode
import DecimalMachine.Text.Numeral
import DecimalMachine.Text.Quoted

/-! # Notices

What the parts of the machine report about their work besides its result, each with a level, the
part that it comes from and a text.
-/

namespace DecimalMachine

/-- How much a notice matters, the least first. -/
inductive Level where
  | debug
  | info
  | warning
  deriving DecidableEq, Repr

def Level.rank : Level → Nat
  | debug => 0
  | info => 1
  | warning => 2

/-- The part that a notice comes from. -/
inductive Part where
  | handlers
  | machine
  | devices
  | assembler
  | settings
  | commands
  deriving DecidableEq, Repr

/-- A report about the work of a part. -/
inductive Notice where
  /-- A branch was taken. -/
  | jumped (opcode : Opcode) (address : Int)
  /-- No channel has the number of an instruction for input and output. -/
  | ignoredChannel (code address : Int)
  | haltedAfter (cycles : Nat)
  /-- A typed line holds no word. -/
  | rejectedLine (line : String)
  | assembled (words labels : Nat)
  | wrote (words : Nat) (path : String)
  | loaded (cells : Nat)
  /-- No dump was given. -/
  | emptyMemory
  /-- The dump given by position was ignored for the one given by option. -/
  | positionIgnored
  /-- A dump should not be given by position. -/
  | positionDiscouraged
  /-- A dump should be given by option. -/
  | optionRecommended
  deriving DecidableEq, Repr

namespace Notice

def level : Notice → Level
  | jumped .. | haltedAfter _ | rejectedLine _ | assembled .. => .debug
  | wrote .. | loaded _ | emptyMemory => .info
  | ignoredChannel .. | positionIgnored | positionDiscouraged | optionRecommended => .warning

def part : Notice → Part
  | jumped .. | ignoredChannel .. => .handlers
  | haltedAfter _ => .machine
  | rejectedLine _ => .devices
  | assembled .. | wrote .. => .assembler
  | loaded _ | emptyMemory => .commands
  | positionIgnored | positionDiscouraged | optionRecommended => .settings

def text : Notice → String
  | jumped opcode address => s!"{opcode.name}: Jumping to address {address}"
  | ignoredChannel code address =>
    s!"Ignoring unknown I/O sub-code {Text.zeroPadded 2 code} at address {address}"
  | haltedAfter cycles => s!"Halted after {cycles} cycles"
  | rejectedLine line => s!"Rejected input {Text.quoted line}"
  | assembled words labels => s!"Assembled {words} words, {labels} labels"
  | wrote words path => s!"Wrote {words} words to {path}"
  | loaded cells => s!"Loaded {cells} data cells into RAM"
  | emptyMemory => "Initial RAM (.bin) file not provided. RAM will be empty."
  | positionIgnored => "Warning: Ignoring positional argument and using --ram argument instead."
  | positionDiscouraged => "Specifying a RAM file without --ram is no longer recommended."
  | optionRecommended =>
    "Note: It is recommended to use the --ram argument to specify a RAM file."

end Notice

end DecimalMachine
