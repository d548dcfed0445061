import DecimalMachine.Machine.Cycle

/-!
# Operations

What the machine does, told without opcodes, channels and handlers. A word asks for an operation by
the range its number lies in, and an operation says what it does to a machine that has fetched the
word. `Machine.step_eq_obey` is the tie to the cycle of the machine: a cycle obeys the word at the
program counter.

## Main definitions

- `Operation.ofNumber?` — the operation that the word with a number asks for
- `Operation.run` — what an operation does to the machine
- `Machine.obey` — a whole cycle, given the word and its operation
-/

namespace DecimalMachine

/-- What a word asks of the machine. -/
inductive Operation where
  | halt
  | add (address : Int)
  | subtract (address : Int)
  | store (address : Int)
  | reserved
  | load (address : Int)
  | jump (address : Int)
  | jumpIfZero (address : Int)
  | jumpIfNotNegative (address : Int)
  | input
  | writeNumber
  | writeCharacter
  /-- A transfer through a channel that does not exist. -/
  | idle (code : Int)
  deriving DecidableEq, Repr

/-- The machine with its accumulator computed from a cell. -/
def Machine.compute (m : Machine) (address : Int) (f : Word → Word) : Effect Progress :=
  match m.memory.get? address with
  | some w => ⟨m.setAccumulator (f w), [], .ok .continues⟩
  | none => ⟨m, [], .error (m.addressFault address)⟩

namespace Operation

/-- The transfer through a channel. -/
def ofCode : Int → Operation
  | 1 => input
  | 2 => writeNumber
  | 22 => writeCharacter
  | code => idle code

/-- The operation that a leading digit above zero asks for, with the last two digits. -/
def ofDigits? (digit lastTwo : Int) : Option Operation :=
  match digit with
  | 1 => some (add lastTwo)
  | 2 => some (subtract lastTwo)
  | 3 => some (store lastTwo)
  | 4 => some reserved
  | 5 => some (load lastTwo)
  | 6 => some (jump lastTwo)
  | 7 => some (jumpIfZero lastTwo)
  | 8 => some (jumpIfNotNegative lastTwo)
  | 9 => some (ofCode lastTwo)
  | _ => none

/-- The operation that the word with a number asks for. -/
def ofNumber? (n : Int) : Option Operation :=
  if n < -99 then none
  else if n < 100 then some halt
  else ofDigits? (n / 100) (n % 100)

/-- What an operation does to a machine that has fetched the word for it. -/
def run (m : Machine) : Operation → Effect Progress
  | halt => ⟨m, [], .ok .halted⟩
  | add address => m.compute address fun w => m.registers.accumulator + w
  | subtract address => m.compute address fun w => m.registers.accumulator - w
  | load address => m.compute address fun w => w
  | store address =>
    match m.memory.set? address m.registers.accumulator with
    | some memory => ⟨{ m with memory := memory }, [], .ok .continues⟩
    | none => ⟨m, [], .error (m.addressFault address)⟩
  | jump address => ⟨m.setProgramCounter address, [.noticed (.jumped .bra address)], .ok .continues⟩
  | jumpIfZero address =>
    if m.registers.accumulator.toInt = 0 then
      ⟨m.setProgramCounter address, [.noticed (.jumped .brz address)], .ok .continues⟩
    else ⟨m, [], .ok .continues⟩
  | jumpIfNotNegative address =>
    if 0 ≤ m.registers.accumulator.toInt then
      ⟨m.setProgramCounter address, [], .ok .continues⟩
    else ⟨m, [], .ok .continues⟩
  | input =>
    let left := { m with input := m.input.read.input }
    match m.input.read.outcome with
    | .ok w => ⟨left.setAccumulator w, m.input.read.events, .ok .continues⟩
    | .error error => ⟨left, m.input.read.events, .error error⟩
  | writeNumber =>
    ⟨{ m with output := m.output.putNumber m.registers.accumulator.toInt },
      [.emitted (m.output.numberPiece m.registers.accumulator.toInt)], .ok .continues⟩
  | writeCharacter =>
    let character := Char.ofNat (m.registers.accumulator.toInt % 256).toNat
    ⟨{ m with output := m.output.putCharacter character },
      [.emitted (String.singleton character)], .ok .continues⟩
  | idle code =>
    ⟨m, [.noticed (.ignoredChannel code (m.registers.programCounter - 1))], .ok .continues⟩
  | reserved => ⟨m, [], .error (.reservedOpcode m.registers.programCounter)⟩

def ofInstruction (instruction : Instruction) : Operation :=
  match instruction.opcode with
  | .hlt => halt
  | .add => add instruction.address
  | .sub => subtract instruction.address
  | .sta => store instruction.address
  | .reserved => reserved
  | .lda => load instruction.address
  | .bra => jump instruction.address
  | .brz => jumpIfZero instruction.address
  | .brp => jumpIfNotNegative instruction.address
  | .io =>
    match instruction.channel with
    | some .inp => input
    | some .out => writeNumber
    | some .otc => writeCharacter
    | none => idle instruction.address

/-- The handler of an opcode carries out the operation of the instruction. -/
theorem perform_eq_run (m : Machine) (instruction : Instruction) :
    m.perform instruction = (ofInstruction instruction).run m := by
  rw [Machine.perform_eq]
  obtain ⟨opcode, address, channel⟩ := instruction
  cases opcode with
  | hlt | reserved | bra => rfl
  | add | sub | lda =>
    simp only [Handler.ofOpcode, Handler.combine, Machine.readCell, ofInstruction, run,
      Machine.compute]
    cases m.memory.get? address <;> rfl
  | sta =>
    simp only [Handler.ofOpcode, Handler.store, Machine.writeCell, ofInstruction, run]
    cases m.memory.set? address m.registers.accumulator <;> rfl
  | brz =>
    simp only [Handler.ofOpcode, Handler.branch, Word.isZero, ofInstruction, run, beq_iff_eq]
    rfl
  | brp =>
    simp only [Handler.ofOpcode, Handler.branch, Word.isNegative, ofInstruction, run,
      Bool.not_eq_true', decide_eq_false_iff_not, Int.not_lt]
    rfl
  | io =>
    cases channel with
    | none => rfl
    | some channel => cases channel <;> rfl

/-- The address that an operation is about. -/
def address? : Operation → Option Int
  | add address | subtract address | store address | load address | jump address
  | jumpIfZero address | jumpIfNotNegative address => some address
  | _ => none

/-- All that an operation can do: it changes memory, devices, program counter and accumulator at
most, the program counter only to its address and memory only by a store, and it halts the machine
only if it is asked to. -/
theorem run_frame (m : Machine) (operation : Operation) :
    ∃ memory input output counter accumulator events outcome,
      operation.run m =
        ⟨{ m with
            memory := memory
            input := input
            output := output
            registers :=
              { m.registers with programCounter := counter, accumulator := accumulator } },
          events, outcome⟩ ∧
      (counter = m.registers.programCounter ∨ operation.address? = some counter) ∧
      (∀ address, operation ≠ store address → memory.get? address = m.memory.get? address) ∧
      (outcome = .ok .halted → operation = halt) := by
  cases operation with
  | halt => exact ⟨_, _, _, _, _, _, _, rfl, .inl rfl, fun _ _ => rfl, fun _ => rfl⟩
  | add address | subtract address | load address =>
    simp only [run, Machine.compute]
    cases m.memory.get? address <;>
      exact ⟨_, _, _, _, _, _, _, rfl, .inl rfl, fun _ _ => rfl, by simp⟩
  | store address =>
    simp only [run]
    cases hset : m.memory.set? address m.registers.accumulator with
    | none => exact ⟨_, _, _, _, _, _, _, rfl, .inl rfl, fun _ _ => rfl, by simp⟩
    | some memory =>
      -- The only case in which memory is not the same.
      refine ⟨_, _, _, _, _, _, _, rfl, .inl rfl, ?_, by simp⟩
      intro other hne
      have hother : other ≠ address := by
        rintro rfl
        exact hne rfl
      rw [Memory.get?_of_set? hset, if_neg hother]
  | jump address => exact ⟨_, _, _, _, _, _, _, rfl, .inr rfl, fun _ _ => rfl, by simp⟩
  | jumpIfZero address | jumpIfNotNegative address =>
    simp only [run]
    split
    · exact ⟨_, _, _, _, _, _, _, rfl, .inr rfl, fun _ _ => rfl, by simp⟩
    · exact ⟨_, _, _, _, _, _, _, rfl, .inl rfl, fun _ _ => rfl, by simp⟩
  | input =>
    simp only [run]
    cases m.input.read.outcome <;>
      exact ⟨_, _, _, _, _, _, _, rfl, .inl rfl, fun _ _ => rfl, by simp⟩
  | reserved | writeNumber | writeCharacter | idle =>
    exact ⟨_, _, _, _, _, _, _, rfl, .inl rfl, fun _ _ => rfl, by simp⟩

@[simp]
theorem recordTrace_run (m : Machine) (operation : Operation) :
    (operation.run m).machine.recordTrace = m.recordTrace := by
  obtain ⟨_, _, _, _, _, _, _, hframe, -⟩ := run_frame m operation
  rw [hframe]

@[simp]
theorem trace_run (m : Machine) (operation : Operation) :
    (operation.run m).machine.trace = m.trace := by
  obtain ⟨_, _, _, _, _, _, _, hframe, -⟩ := run_frame m operation
  rw [hframe]

@[simp]
theorem halted_run (m : Machine) (operation : Operation) :
    (operation.run m).machine.halted = m.halted := by
  obtain ⟨_, _, _, _, _, _, _, hframe, -⟩ := run_frame m operation
  rw [hframe]

@[simp]
theorem cycles_run (m : Machine) (operation : Operation) :
    (operation.run m).machine.cycles = m.cycles := by
  obtain ⟨_, _, _, _, _, _, _, hframe, -⟩ := run_frame m operation
  rw [hframe]

@[simp]
theorem instructionRegister_run (m : Machine) (operation : Operation) :
    (operation.run m).machine.registers.instructionRegister =
      m.registers.instructionRegister := by
  obtain ⟨_, _, _, _, _, _, _, hframe, -⟩ := run_frame m operation
  rw [hframe]

@[simp]
theorem addressRegister_run (m : Machine) (operation : Operation) :
    (operation.run m).machine.registers.addressRegister = m.registers.addressRegister := by
  obtain ⟨_, _, _, _, _, _, _, hframe, -⟩ := run_frame m operation
  rw [hframe]

theorem programCounter_run (m : Machine) (operation : Operation) :
    (operation.run m).machine.registers.programCounter = m.registers.programCounter ∨
      operation.address? = some (operation.run m).machine.registers.programCounter := by
  obtain ⟨_, _, _, _, _, _, _, hframe, hcounter, -⟩ := run_frame m operation
  rw [hframe]
  exact hcounter

theorem get?_run_of_ne {m : Machine} {operation : Operation} {address : Int}
    (h : operation ≠ store address) :
    (operation.run m).machine.memory.get? address = m.memory.get? address := by
  obtain ⟨_, _, _, _, _, _, _, hframe, -, hmemory, -⟩ := run_frame m operation
  rw [hframe]
  exact hmemory address h

theorem get?_run_store {m : Machine} {address : Int}
    (h : 0 ≤ address ∧ address < memorySize) :
    ((store address).run m).machine.memory.get? address = some m.registers.accumulator := by
  have hcell : m.memory.set? address m.registers.accumulator ≠ none := by
    rw [Ne, Memory.set?_eq_none_iff]
    omega
  obtain ⟨stored, hstored⟩ := Option.ne_none_iff_exists'.1 hcell
  simp only [run, hstored]
  rw [Memory.get?_of_set? hstored, if_pos rfl]

theorem eq_halt_of_run {m : Machine} {operation : Operation}
    (h : (operation.run m).outcome = .ok .halted) : operation = halt := by
  obtain ⟨_, _, _, _, _, _, _, hframe, -, -, hhalt⟩ := run_frame m operation
  rw [hframe] at h
  exact hhalt h

/-- The numbers of the words that ask for an operation. -/
def Codes (n : Int) : Operation → Prop
  | halt => -99 ≤ n ∧ n ≤ 99
  | add address => n = 100 + address ∧ 0 ≤ address ∧ address ≤ 99
  | subtract address => n = 200 + address ∧ 0 ≤ address ∧ address ≤ 99
  | store address => n = 300 + address ∧ 0 ≤ address ∧ address ≤ 99
  | reserved => 400 ≤ n ∧ n ≤ 499
  | load address => n = 500 + address ∧ 0 ≤ address ∧ address ≤ 99
  | jump address => n = 600 + address ∧ 0 ≤ address ∧ address ≤ 99
  | jumpIfZero address => n = 700 + address ∧ 0 ≤ address ∧ address ≤ 99
  | jumpIfNotNegative address => n = 800 + address ∧ 0 ≤ address ∧ address ≤ 99
  | input => n = 901
  | writeNumber => n = 902
  | writeCharacter => n = 922
  | idle code =>
    n = 900 + code ∧ 0 ≤ code ∧ code ≤ 99 ∧ code ≠ 1 ∧ code ≠ 2 ∧ code ≠ 22

theorem ofCode_eq_idle {code : Int} (h : code ≠ 1 ∧ code ≠ 2 ∧ code ≠ 22) :
    ofCode code = idle code := by
  unfold ofCode
  split <;> simp_all

/-- From 100 on, a number asks for what its digits ask for. -/
theorem ofNumber?_of_digits {n : Int} (digit lastTwo : Int) (hdigit : 1 ≤ digit)
    (hlow : 0 ≤ lastTwo) (hhigh : lastTwo ≤ 99) (hn : n = 100 * digit + lastTwo) :
    ofNumber? n = ofDigits? digit lastTwo := by
  have hhundreds : n / 100 = digit := by omega
  have hrest : n % 100 = lastTwo := by omega
  rw [ofNumber?, if_neg (by omega), if_neg (by omega), hhundreds, hrest]

/-- The operation that digits ask for has the number of the digits in its range. -/
theorem codes_of_ofDigits? {digit lastTwo : Int} {operation : Operation}
    (h : ofDigits? digit lastTwo = some operation) (hlow : 0 ≤ lastTwo) (hhigh : lastTwo ≤ 99) :
    operation.Codes (100 * digit + lastTwo) := by
  unfold ofDigits? at h
  split at h
  case h_9 =>
    -- A transfer: its last two digits name a channel or none.
    cases h
    unfold ofCode
    split <;> simp only [Codes] <;> grind
  all_goals cases h
  all_goals simp only [Codes]; omega

/-- A number asks for an operation if it is in the range of the operation. -/
theorem ofNumber?_eq_some_iff {n : Int} {operation : Operation} :
    ofNumber? n = some operation ↔ operation.Codes n := by
  constructor
  · intro h
    unfold ofNumber? at h
    split at h
    · cases h
    split at h
    · cases h
      simp only [Codes]
      omega
    · -- The number is put together again from the digits it was split into.
      have hcodes := codes_of_ofDigits? h (by omega) (by omega)
      rwa [Int.mul_ediv_add_emod] at hcodes
  · intro h
    cases operation with
    | halt => rw [ofNumber?, if_neg (by have := h.1; omega), if_pos (by have := h.2; omega)]
    | add address => exact ofNumber?_of_digits 1 address (by decide) h.2.1 h.2.2 h.1
    | subtract address => exact ofNumber?_of_digits 2 address (by decide) h.2.1 h.2.2 h.1
    | store address => exact ofNumber?_of_digits 3 address (by decide) h.2.1 h.2.2 h.1
    | reserved =>
      obtain ⟨hlow, hhigh⟩ := h
      exact ofNumber?_of_digits 4 (n - 400) (by decide) (by omega) (by omega) (by omega)
    | load address => exact ofNumber?_of_digits 5 address (by decide) h.2.1 h.2.2 h.1
    | jump address => exact ofNumber?_of_digits 6 address (by decide) h.2.1 h.2.2 h.1
    | jumpIfZero address => exact ofNumber?_of_digits 7 address (by decide) h.2.1 h.2.2 h.1
    | jumpIfNotNegative address =>
      exact ofNumber?_of_digits 8 address (by decide) h.2.1 h.2.2 h.1
    | input | writeNumber | writeCharacter =>
      cases h
      rfl
    | idle code =>
      obtain ⟨hn, hlow, hhigh, hcode⟩ := h
      rw [ofNumber?_of_digits 9 code (by decide) hlow hhigh hn, ofDigits?,
        ofCode_eq_idle hcode]

theorem ofNumber?_of_decode {w : Word} {instruction : Instruction}
    (h : w.decode = .ok instruction) :
    ofNumber? w.toInt = some (ofInstruction instruction) := by
  have hsum := w.hundred_mul_leadingDigit_add
  obtain ⟨hlow, hhigh⟩ := w.lastTwoDigits_bounds
  rw [ofNumber?_eq_some_iff]
  unfold Word.decode at h
  cases hop : Opcode.ofDigit? w.leadingDigit with
  | none => simp [hop] at h
  | some opcode =>
    have hdigit := Opcode.ofDigit?_eq_some_iff.1 hop
    rw [hop] at h
    -- The opcode fixes the hundreds of the word, and so the range that it lies in.
    cases opcode <;> simp only [Opcode.digit] at hdigit
    case io =>
      cases h
      cases hch : Channel.ofCode? w.lastTwoDigits with
      | none =>
        obtain ⟨h1, h2, h22⟩ := Channel.ofCode?_eq_none_iff.1 hch
        simp only [ofInstruction, Codes]
        omega
      | some channel =>
        have hcode := Channel.ofCode?_eq_some_iff.1 hch
        cases channel <;> simp only [Channel.code] at hcode <;>
          simp only [ofInstruction, Codes] <;> omega
    all_goals
      cases h
      simp only [ofInstruction, Codes]
      omega

theorem lt_of_decode_error {w : Word} {error : Error} (h : w.decode = .error error) :
    w.toInt < -99 := by
  unfold Word.decode at h
  split at h
  next hop =>
    -- No leading digit is above 9, so one without an opcode is below 0.
    have hsum := w.hundred_mul_leadingDigit_add
    obtain ⟨hlow, hhigh⟩ := w.lastTwoDigits_bounds
    have hupper := w.upper
    have hdigit := Opcode.ofDigit?_eq_none_iff.1 hop
    omega
  all_goals cases h

/-- Exactly the words below −99 ask for nothing. -/
theorem ofNumber?_eq_none_iff {w : Word} : ofNumber? w.toInt = none ↔ w.toInt < -99 := by
  constructor
  · intro h
    cases hdecode : w.decode with
    | error error => exact lt_of_decode_error hdecode
    | ok instruction => simp [ofNumber?_of_decode hdecode] at h
  · intro h
    rw [ofNumber?, if_pos h]

theorem address?_bounds {n address : Int} {operation : Operation}
    (h : ofNumber? n = some operation) (haddress : operation.address? = some address) :
    0 ≤ address ∧ address < memorySize := by
  have hcodes := ofNumber?_eq_some_iff.1 h
  cases operation <;> cases haddress <;> simp only [Codes, memorySize] at hcodes ⊢ <;> omega

end Operation

namespace Machine

/-- The machine that has fetched a word and split it into its digits. -/
def fetched (m : Machine) (w : Word) : Machine :=
  { m with
    registers :=
      { m.registers with
        programCounter := m.registers.programCounter + 1
        instructionRegister := w.leadingDigit
        addressRegister := w.lastTwoDigits } }

@[simp] theorem memory_fetched (m : Machine) (w : Word) : (m.fetched w).memory = m.memory := rfl

@[simp] theorem input_fetched (m : Machine) (w : Word) : (m.fetched w).input = m.input := rfl

@[simp] theorem output_fetched (m : Machine) (w : Word) : (m.fetched w).output = m.output := rfl

@[simp] theorem recordTrace_fetched (m : Machine) (w : Word) :
    (m.fetched w).recordTrace = m.recordTrace := rfl

@[simp] theorem trace_fetched (m : Machine) (w : Word) : (m.fetched w).trace = m.trace := rfl

@[simp] theorem halted_fetched (m : Machine) (w : Word) : (m.fetched w).halted = m.halted := rfl

@[simp] theorem cycles_fetched (m : Machine) (w : Word) : (m.fetched w).cycles = m.cycles := rfl

@[simp] theorem registers_fetched (m : Machine) (w : Word) :
    (m.fetched w).registers = ⟨m.registers.programCounter + 1, w.leadingDigit, w.lastTwoDigits,
      m.registers.accumulator⟩ := rfl

/-- The cycle of a word that asks for an operation. A word that asks for none is refused after it
was fetched and before it is split. -/
def obey (m : Machine) (w : Word) : Option Operation → Effect TraceEntry
  | none =>
    ⟨m.setProgramCounter (m.registers.programCounter + 1), [],
      .error (.unhandledOpcode w.leadingDigit (some (m.registers.programCounter + 1)))⟩
  | some operation =>
    let effect := operation.run (m.fetched w)
    match effect.outcome with
    | .error error => ⟨effect.machine, effect.events, .error error⟩
    | .ok progress =>
      let entry : TraceEntry :=
        ⟨m.cycles, m.registers.programCounter, w, w.listing, m.registers,
          effect.machine.registers, progress⟩
      ⟨effect.machine.complete entry, effect.events ++ m.haltEvents progress, .ok entry⟩

theorem obey_of_error {m : Machine} {w : Word} {operation : Operation} {error : Error}
    (h : (operation.run (m.fetched w)).outcome = .error error) :
    m.obey w (some operation) =
      ⟨(operation.run (m.fetched w)).machine, (operation.run (m.fetched w)).events,
        .error error⟩ := by
  simp only [obey, h]

/-- An operation that succeeds has its cycle counted, and recorded on request. -/
theorem obey_of_ok {m : Machine} {w : Word} {operation : Operation} {progress : Progress}
    (h : (operation.run (m.fetched w)).outcome = .ok progress) :
    ∃ entry : TraceEntry, entry.progress = progress ∧ entry.word = w ∧
      (m.obey w (some operation)).machine =
        (operation.run (m.fetched w)).machine.complete entry ∧
      (m.obey w (some operation)).outcome = .ok entry := by
  simp only [obey, h]
  exact ⟨_, rfl, rfl, rfl, rfl⟩

/-- Counting up and splitting into digits is all that happens to a machine before the operation. -/
theorem latch_advance {m : Machine} {w : Word} {instruction : Instruction}
    (h : w.decode = .ok instruction) : m.advance.latch instruction = m.fetched w := by
  obtain ⟨hdigit, haddress⟩ := Word.digits_of_decode h
  simp only [latch, advance, setProgramCounter, fetched, hdigit, haddress]

/-- A cycle obeys the word at the program counter. -/
theorem step_eq_obey {m : Machine} {w : Word} (hrunning : m.halted = false)
    (hword : m.memory.get? m.registers.programCounter = some w) :
    m.step = m.obey w (Operation.ofNumber? w.toInt) := by
  simp only [step, hrunning, Bool.false_eq_true, if_false, hword, executeFetched]
  cases hdecode : w.decode with
  | error error =>
    rw [Operation.ofNumber?_eq_none_iff.2 (Operation.lt_of_decode_error hdecode)]
    rfl
  | ok instruction =>
    rw [Operation.ofNumber?_of_decode hdecode]
    simp only [latch_advance hdecode, Operation.perform_eq_run, obey, haltEvents,
      Operation.cycles_run]
    rfl

theorem step_of_halted {m : Machine} (h : m.halted = true) :
    m.step = ⟨m, [], .error .machineHalted⟩ := by
  simp only [step, h, if_true]

theorem step_of_no_cell {m : Machine} (hrunning : m.halted = false)
    (hword : m.memory.get? m.registers.programCounter = none) :
    m.step = ⟨m, [], .error (m.addressFault m.registers.programCounter)⟩ := by
  simp only [step, hrunning, Bool.false_eq_true, if_false, hword]

end Machine

end DecimalMachine
