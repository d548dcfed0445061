import DecimalMachine.Escape
import DecimalMachine.Machine.Basic
import DecimalMachine.Machine.HandlerTable

/-! # Handlers

What each opcode does to the machine. A handler looks for everything that can fail before it changes
the machine, so that a failing handler leaves memory, registers and output alone.
-/

namespace DecimalMachine

/-- What an action did: the machine that it left, what showed, and its answer or its error. -/
structure Effect (α : Type) where
  machine : Machine
  events : List Event
  outcome : Except Error α

/-- The answer of an action, or what leaves it if it fails. -/
def Effect.answer {α : Type} (effect : Effect α) : Except Escape α :=
  effect.outcome.mapError Escape.ofError

/-- What an opcode does with the address and the channel of an instruction. -/
abbrev Handler := Instruction → Machine → Effect Progress

namespace Machine

def proceed (m : Machine) (events : List Event) : Effect Progress :=
  ⟨m, events, .ok .continues⟩

def fail (m : Machine) (error : Error) : Effect Progress :=
  ⟨m, [], .error error⟩

end Machine

namespace Handler

def halt : Handler := fun _ m => ⟨m, [], .ok .halted⟩

/-- Puts into the accumulator what a function makes of it and of a cell. -/
def combine (f : Word → Word → Word) : Handler := fun instruction m =>
  match m.readCell instruction.address with
  | .ok w => (m.setAccumulator (f m.registers.accumulator w)).proceed []
  | .error error => m.fail error

def store : Handler := fun instruction m =>
  match m.writeCell instruction.address m.registers.accumulator with
  | .ok stored => stored.proceed []
  | .error error => m.fail error

/-- Goes on at an address if the accumulator is right, with events that tell so. -/
def branch (taken : Word → Bool) (events : Int → List Event) : Handler := fun instruction m =>
  if taken m.registers.accumulator then
    (m.setProgramCounter instruction.address).proceed (events instruction.address)
  else m.proceed []

/-- Fails: no operation has the digit. -/
def reserved : Handler := fun _ m => m.fail (.reservedOpcode m.registers.programCounter)

def readInput (m : Machine) : Effect Progress :=
  let reading := m.input.read
  let left := { m with input := reading.input }
  match reading.outcome with
  | .ok w => (left.setAccumulator w).proceed reading.events
  | .error error => ⟨left, reading.events, .error error⟩

def writeNumber (m : Machine) : Effect Progress :=
  let piece := m.output.numberPiece m.registers.accumulator.toInt
  { m with output := m.output.append piece true }.proceed [.emitted piece]

/-- The character that a word stands for: the low eight bits of the word are its code point. -/
def characterOf (w : Word) : Char := Char.ofNat (w.toInt % 256).toNat

def writeCharacter (m : Machine) : Effect Progress :=
  let piece := Output.characterPiece (characterOf m.registers.accumulator)
  { m with output := m.output.append piece false }.proceed [.emitted piece]

/-- Reads or writes through a channel; without a channel nothing is done but to tell so. -/
def transfer : Handler := fun instruction m =>
  match instruction.channel with
  | some .inp => readInput m
  | some .out => writeNumber m
  | some .otc => writeCharacter m
  | none =>
    m.proceed [.noticed (.ignoredChannel instruction.address (m.registers.programCounter - 1))]

def jumped (op : Opcode) (address : Int) : List Event := [.noticed (.jumped op address)]

def ofOpcode : Opcode → Handler
  | .hlt => halt
  | .add => combine (· + ·)
  | .sub => combine (· - ·)
  | .sta => store
  | .reserved => reserved
  | .lda => combine fun _ w => w
  | .bra => branch (fun _ => true) (jumped .bra)
  | .brz => branch Word.isZero (jumped .brz)
  | .brp => branch (fun w => !w.isNegative) fun _ => []
  | .io => transfer

/-- The table by which the machine finds the handler of an opcode. -/
def table : HandlerTable Handler := (HandlerTable.full ofOpcode).freeze

end Handler

namespace Machine

/-- Runs the handler of an instruction. -/
def perform (m : Machine) (instruction : Instruction) : Effect Progress :=
  match Handler.table.find? instruction.opcode with
  | some handler => handler instruction m
  | none =>
    let counter := m.registers.programCounter
    m.fail (.unhandledOpcode instruction.opcode.digit (some counter))

/-- Runs the handler for a digit, an address and a channel that were not fetched from memory. -/
def execute (m : Machine) (digit address : Int) (channel : Option Channel) : Effect Progress :=
  match Opcode.ofDigit? digit with
  | some opcode => m.perform ⟨opcode, address, channel⟩
  | none => m.fail (.unhandledOpcode digit (some m.registers.programCounter))

/-- Every opcode is performed by its handler. -/
theorem perform_eq (m : Machine) (instruction : Instruction) :
    m.perform instruction = Handler.ofOpcode instruction.opcode instruction m := by
  simp [perform, Handler.table]

end Machine

end DecimalMachine
