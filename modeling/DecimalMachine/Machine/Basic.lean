import DecimalMachine.Device.Input
import DecimalMachine.Device.Output
import DecimalMachine.Instruction.Decode
import DecimalMachine.Memory.Dump
import DecimalMachine.Registers

/-! # The machine

The state of the machine and the operations on it from outside: loading, resetting, looking at cells
and changing them. A trace entry records one cycle; the trace is kept only on request.
-/

namespace DecimalMachine

/-- Whether the machine goes on after a cycle. -/
inductive Progress where
  | continues
  | halted
  deriving DecidableEq, Repr

/-- The record of one cycle: its number, where the word was fetched from, the word and its assembly
text, the registers before and after, and whether the machine goes on. -/
structure TraceEntry where
  cycle : Nat
  address : Int
  word : Word
  listing : String
  before : Registers
  after : Registers
  progress : Progress
  deriving DecidableEq

structure Machine where
  memory : Memory memorySize
  registers : Registers
  input : Input
  output : Output
  /-- Whether the trace is kept. -/
  recordTrace : Bool
  /-- The cycles since the last reset, if they are kept. -/
  trace : Array TraceEntry
  halted : Bool
  /-- The number of cycles since the last reset. -/
  cycles : Nat
  deriving DecidableEq

namespace Machine

/-- The machine before anything was loaded. -/
def fresh (input : Input) (recordTrace : Bool) : Machine where
  memory := .blank memorySize
  registers := .initial
  input := input
  output := .empty
  recordTrace := recordTrace
  trace := #[]
  halted := false
  cycles := 0

/-- The machine with its registers, trace and cycle count as before the first cycle; memory and
devices stay. -/
def reset (m : Machine) : Machine :=
  { m with registers := .initial, trace := #[], halted := false, cycles := 0 }

/-- The machine with a program alone in its memory, ready for the first cycle, and the number of
words loaded. -/
def loadProgram (m : Machine) (program : List Operand) : Except Error (Machine × Nat) := do
  let (memory, count) ← (Memory.blank memorySize).loadOperands program 0
  return ({ m with memory := memory }.reset, count)

/-- The machine with a dump in the leading cells of its memory, and the number of cells filled. -/
def loadDump (m : Machine) (bytes : List UInt8) : Except Error (Machine × Nat) := do
  let (memory, count) ← m.memory.loadDump bytes
  return ({ m with memory := memory }, count)

/-- The error that a running machine gives for an address without a cell. -/
def addressFault (m : Machine) (address : Int) : Error :=
  .addressOutOfRange address (some m.registers.programCounter)

/-- The word at an address, as the machine reads it. -/
def readCell (m : Machine) (address : Int) : Except Error Word :=
  match m.memory.get? address with
  | some w => .ok w
  | none => .error (m.addressFault address)

/-- The machine with a word at an address, as the machine writes it. -/
def writeCell (m : Machine) (address : Int) (w : Word) : Except Error Machine :=
  match m.memory.set? address w with
  | some memory => .ok { m with memory := memory }
  | none => .error (m.addressFault address)

/-- The machine with a word put at an address from outside. -/
def poke (m : Machine) (address : Int) (w : Word) : Except Error Machine := do
  return { m with memory := ← m.memory.store address w }

def setAccumulator (m : Machine) (w : Word) : Machine :=
  { m with registers := { m.registers with accumulator := w } }

def setProgramCounter (m : Machine) (address : Int) : Machine :=
  { m with registers := { m.registers with programCounter := address } }

/-- The machine with the word of an operand last in its input queue. -/
def pushInput (m : Machine) (operand : Operand) : Except Error Machine := do
  return { m with input := ← m.input.push operand }

end Machine

end DecimalMachine
