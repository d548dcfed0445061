import DecimalMachine.Machine.Handlers

/-! # Cycles

One cycle fetches the word at the program counter, counts the program counter up, decodes the word
into the instruction and address registers and runs its handler. A cycle that fails keeps what it
did before it failed, but is not counted and not recorded.
-/

namespace DecimalMachine.Machine

/-- The machine with its program counter one further. -/
def advance (m : Machine) : Machine :=
  m.setProgramCounter (m.registers.programCounter + 1)

/-- The machine with the parts of an instruction in its decode registers. -/
def latch (m : Machine) (instruction : Instruction) : Machine :=
  { m with
    registers :=
      { m.registers with
        instructionRegister := instruction.opcode.digit
        addressRegister := instruction.address } }

/-- The machine after a cycle that did not fail: the cycle is counted, and recorded on request. -/
def complete (m : Machine) (entry : TraceEntry) : Machine :=
  { m with
    cycles := m.cycles + 1
    halted := entry.progress == .halted
    trace := if m.recordTrace then m.trace.push entry else m.trace }

/-- The event of a cycle that stops the machine. -/
def haltEvents (m : Machine) (progress : Progress) : List Event :=
  match progress with
  | .halted => [.noticed (.haltedAfter (m.cycles + 1))]
  | .continues => []

/-- The rest of a cycle that has fetched a word from an address; the registers are those before the
cycle. -/
@[noinline]
def executeFetched (m : Machine) (before : Registers) (address : Int) (word : Word) :
    Effect TraceEntry :=
  match word.decode with
  | .error _ =>
    let counter := m.registers.programCounter
    ⟨m, [], .error (.unhandledOpcode word.leadingDigit (some counter))⟩
  | .ok instruction =>
    let effect := (m.latch instruction).perform instruction
    match effect.outcome with
    | .error error => ⟨effect.machine, effect.events, .error error⟩
    | .ok progress =>
      let after := effect.machine
      let entry : TraceEntry :=
        ⟨after.cycles, address, word, word.listing, before, after.registers, progress⟩
      let events := effect.events ++ after.haltEvents progress
      ⟨after.complete entry, events, .ok entry⟩

/-- One cycle. -/
def step (m : Machine) : Effect TraceEntry :=
  if m.halted then ⟨m, [], .error .machineHalted⟩
  else
    let address := m.registers.programCounter
    match m.memory.get? address with
    | none => ⟨m, [], .error (m.addressFault address)⟩
    | some word => m.advance.executeFetched m.registers address word

end DecimalMachine.Machine
