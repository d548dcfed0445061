import DecimalMachine.Machine.Run
import DecimalMachine.Proofs.Cycle.Outcome

/-!
# Reachable states

Whatever is done to a fresh machine from outside, in any order and whether it succeeds or fails, the
machine stays in order: `Machine.Invariant` lists what holds of its registers, its halt flag and its
trace. A cycle that fails halfway has counted up the program counter and may have filled the decode
registers; the invariant holds for what it leaves behind, too.
-/

namespace DecimalMachine.Machine

/-- Something that is done to the machine from outside. -/
inductive Action where
  | loadProgram (program : List Operand)
  | loadDump (bytes : List UInt8)
  | poke (address : Int) (w : Word)
  | cycle
  | run (observe : Machine → List Event) (limit : Nat)
  | reset
  | push (operand : Operand)

/-- The machine after an action. Loading, poking and pushing leave it as it was if they fail; cycles
leave what they did before they failed. -/
def after (m : Machine) : Action → Machine
  | .loadProgram program =>
    match m.loadProgram program with
    | .ok (loaded, _) => loaded
    | .error _ => m
  | .loadDump bytes =>
    match m.loadDump bytes with
    | .ok (loaded, _) => loaded
    | .error _ => m
  | .poke address w =>
    match m.poke address w with
    | .ok poked => poked
    | .error _ => m
  | .cycle => m.step.machine
  | .run observe limit => (m.run observe limit).machine
  | .reset => m.reset
  | .push operand =>
    match m.pushInput operand with
    | .ok pushed => pushed
    | .error _ => m

/-- What holds of the registers, the halt flag and the trace of every machine that was fresh once,
given its choice about the trace. -/
structure Invariant (recordTrace : Bool) (m : Machine) : Prop where
  programCounter : 0 ≤ m.registers.programCounter ∧ m.registers.programCounter ≤ 100
  instructionRegister :
    0 ≤ m.registers.instructionRegister ∧ m.registers.instructionRegister ≤ 9
  addressRegister : -99 ≤ m.registers.addressRegister ∧ m.registers.addressRegister ≤ 99
  halted_of_neg : m.registers.addressRegister < 0 → m.halted = true
  of_halted : m.halted = true →
    m.registers.instructionRegister = 0 ∧ 1 ≤ m.registers.programCounter ∧ 1 ≤ m.cycles
  recordTrace_eq : m.recordTrace = recordTrace
  size_trace : m.trace.size = if recordTrace then m.cycles else 0

variable {recordTrace : Bool} {m : Machine}

theorem invariant_reset (h : m.recordTrace = recordTrace) : m.reset.Invariant recordTrace where
  programCounter := by simp [reset, Registers.initial]
  instructionRegister := by simp [reset, Registers.initial]
  addressRegister := by simp [reset, Registers.initial]
  halted_of_neg := by simp [reset, Registers.initial]
  of_halted := by simp [reset]
  recordTrace_eq := h
  size_trace := by cases recordTrace <;> rfl

/-- A word that asks for anything but to halt has a positive leading digit, and digits without a
sign. -/
theorem digits_of_ne_halt {w : Word} {operation : Operation}
    (h : Operation.ofNumber? w.toInt = some operation) (hne : operation ≠ .halt) :
    (0 ≤ w.leadingDigit ∧ w.leadingDigit ≤ 9) ∧
      (0 ≤ w.lastTwoDigits ∧ w.lastTwoDigits ≤ 99) := by
  have hcodes := Operation.ofNumber?_eq_some_iff.1 h
  have hsum := w.hundred_mul_leadingDigit_add
  obtain ⟨hlow, hhigh⟩ := w.lastTwoDigits_bounds
  cases operation with
  | halt => exact absurd rfl hne
  | _ =>
    simp only [Operation.Codes] at hcodes
    omega

/-- A machine that runs is in order if its registers are in range and its trace has the right
size. -/
theorem invariant_of_running (hrunning : m.halted = false)
    (hcounter : 0 ≤ m.registers.programCounter ∧ m.registers.programCounter ≤ 100)
    (hdigit : 0 ≤ m.registers.instructionRegister ∧ m.registers.instructionRegister ≤ 9)
    (haddress : 0 ≤ m.registers.addressRegister ∧ m.registers.addressRegister ≤ 99)
    (hrecord : m.recordTrace = recordTrace)
    (hsize : m.trace.size = if recordTrace then m.cycles else 0) : m.Invariant recordTrace where
  programCounter := hcounter
  instructionRegister := hdigit
  addressRegister := by omega
  halted_of_neg := by omega
  of_halted := by simp [hrunning]
  recordTrace_eq := hrecord
  size_trace := hsize

/-- Completing a cycle lengthens the trace with the cycle count, or neither keeps a trace. -/
theorem size_trace_complete (entry : TraceEntry) (hrecord : m.recordTrace = recordTrace)
    (hsize : m.trace.size = if recordTrace then m.cycles else 0) :
    (m.complete entry).trace.size = if recordTrace then (m.complete entry).cycles else 0 := by
  subst hrecord
  cases hkept : m.recordTrace <;> simp [complete, hkept] at hsize ⊢
  · exact hsize
  · exact hsize

theorem programCounter_bounds {w : Word} {operation : Operation}
    (hoperation : Operation.ofNumber? w.toInt = some operation)
    (hcell : 0 ≤ m.registers.programCounter ∧ m.registers.programCounter ≤ 99) :
    0 ≤ (operation.run (m.fetched w)).machine.registers.programCounter ∧
      (operation.run (m.fetched w)).machine.registers.programCounter ≤ 100 := by
  rcases Operation.programCounter_run (m.fetched w) operation with hsame | haddress
  · rw [hsame]
    simp only [fetched]
    omega
  · have hbounds := Operation.address?_bounds hoperation haddress
    simp only [memorySize] at hbounds
    omega

theorem invariant_of_halt {w : Word} (entry : TraceEntry)
    (hnumber : -99 ≤ w.toInt ∧ w.toInt ≤ 99) (hprogress : entry.progress = .halted)
    (hcell : 0 ≤ m.registers.programCounter ∧ m.registers.programCounter ≤ 99)
    (hrecord : m.recordTrace = recordTrace)
    (hsize : m.trace.size = if recordTrace then m.cycles else 0) :
    ((m.fetched w).complete entry).Invariant recordTrace := by
  have hsum := w.hundred_mul_leadingDigit_add
  obtain ⟨hlow, hhigh⟩ := w.lastTwoDigits_bounds
  have hdigit : w.leadingDigit = 0 := by omega
  constructor
  case programCounter => simp [complete]; omega
  case instructionRegister => simp [complete, hdigit]
  case addressRegister => simp [complete]; omega
  case halted_of_neg => simp [complete, hprogress]
  case of_halted => simp [complete, hdigit]; omega
  case recordTrace_eq => exact hrecord
  case size_trace => exact size_trace_complete entry hrecord hsize

/-- A running machine that obeys the word at its program counter stays in order, whether the
operation fails or not. -/
theorem Invariant.obey (h : m.Invariant recordTrace) (hrunning : m.halted = false) {w : Word}
    (hword : m.memory.get? m.registers.programCounter = some w) {operation : Operation}
    (hoperation : Operation.ofNumber? w.toInt = some operation) :
    (m.obey w (some operation)).machine.Invariant recordTrace := by
  have hcell : 0 ≤ m.registers.programCounter ∧ m.registers.programCounter ≤ 99 := by
    have hbounds := Memory.bounds_of_get? hword
    simp only [memorySize] at hbounds
    omega
  have hcounter := programCounter_bounds hoperation hcell
  have hrecord : (operation.run (m.fetched w)).machine.recordTrace = recordTrace := by
    simpa using h.recordTrace_eq
  have hsize : (operation.run (m.fetched w)).machine.trace.size =
      if recordTrace then (operation.run (m.fetched w)).machine.cycles else 0 := by
    simpa using h.size_trace
  cases houtcome : (operation.run (m.fetched w)).outcome with
  | error error =>
    -- Halting does not fail, so the digits in the registers have no sign.
    have hne : operation ≠ .halt := by
      rintro rfl
      cases houtcome
    obtain ⟨hdigit, haddress⟩ := digits_of_ne_halt hoperation hne
    rw [obey_of_error houtcome]
    exact invariant_of_running (by simpa using hrunning) hcounter (by simpa using hdigit)
      (by simpa using haddress) hrecord hsize
  | ok progress =>
    obtain ⟨entry, hprogress, -, hmachine, -⟩ := obey_of_ok houtcome
    rw [hmachine]
    by_cases hne : operation = .halt
    · subst hne
      cases houtcome
      exact invariant_of_halt entry (Operation.ofNumber?_eq_some_iff.1 hoperation) hprogress
        hcell h.recordTrace_eq h.size_trace
    · obtain ⟨hdigit, haddress⟩ := digits_of_ne_halt hoperation hne
      have hcontinues : progress = .continues := by
        cases progress with
        | halted => exact absurd (Operation.eq_halt_of_run houtcome) hne
        | continues => rfl
      exact invariant_of_running (by simp [complete, hprogress, hcontinues]) hcounter
        (by simpa [complete] using hdigit) (by simpa [complete] using haddress) hrecord
        (size_trace_complete entry hrecord hsize)

theorem Invariant.step (h : m.Invariant recordTrace) : m.step.machine.Invariant recordTrace := by
  cases hhalted : m.halted with
  | true =>
    rw [step_of_halted hhalted]
    exact h
  | false =>
    cases hword : m.memory.get? m.registers.programCounter with
    | none =>
      rw [step_of_no_cell hhalted hword]
      exact h
    | some w =>
      rw [step_eq_obey hhalted hword]
      cases hoperation : Operation.ofNumber? w.toInt with
      | some operation => exact h.obey hhalted hword hoperation
      | none =>
        -- The word is refused before it reaches the decode registers.
        have hsign : 0 ≤ m.registers.addressRegister := by
          apply Int.not_lt.1
          intro hneg
          have htrue := h.halted_of_neg hneg
          simp [hhalted] at htrue
        have hbounds := Memory.bounds_of_get? hword
        refine invariant_of_running hhalted ?_ h.instructionRegister ⟨hsign, h.addressRegister.2⟩
          h.recordTrace_eq h.size_trace
        simp only [memorySize] at hbounds
        simp only [Machine.obey, setProgramCounter]
        omega

theorem Invariant.replace (h : m.Invariant recordTrace) (memory : Memory memorySize)
    (input : Input) :
    { m with memory := memory, input := input }.Invariant recordTrace :=
  ⟨h.programCounter, h.instructionRegister, h.addressRegister, h.halted_of_neg, h.of_halted,
    h.recordTrace_eq, h.size_trace⟩

/-- What every cycle keeps, a run keeps. -/
theorem runFrom_induction {P : Machine → Prop} (hstep : ∀ m : Machine, P m → P m.step.machine)
    (observe : Machine → List Event) (limit : Nat) {m : Machine} (hm : P m)
    (shown : Array Event) : P (m.runFrom observe limit shown).machine := by
  induction limit generalizing m shown with
  | zero => exact hm
  | succ limit ih =>
    have hnext := hstep m hm
    simp only [runFrom]
    split
    · exact hnext
    · split
      · exact hnext
      · exact ih hnext _

theorem Invariant.after (h : m.Invariant recordTrace) (action : Action) :
    (m.after action).Invariant recordTrace := by
  cases action with
  | loadProgram program =>
    simp only [Machine.after, Machine.loadProgram]
    cases (Memory.blank memorySize).loadOperands program 0 with
    | error error => exact h
    | ok loaded => exact invariant_reset h.recordTrace_eq
  | loadDump bytes =>
    simp only [Machine.after, Machine.loadDump]
    cases m.memory.loadDump bytes with
    | error error => exact h
    | ok loaded => exact h.replace loaded.1 m.input
  | poke address w =>
    simp only [Machine.after, Machine.poke]
    cases m.memory.store address w with
    | error error => exact h
    | ok stored => exact h.replace stored m.input
  | cycle => exact h.step
  | run observe limit => exact runFrom_induction (fun _ => Invariant.step) observe limit h #[]
  | reset => exact invariant_reset h.recordTrace_eq
  | push operand =>
    simp only [Machine.after, Machine.pushInput]
    cases m.input.push operand with
    | error error => exact h
    | ok input => exact h.replace m.memory input

/-- Every state that actions bring about, in any order and with any of them failing, is in order:
memory has its hundred cells, all of them and the accumulator hold words, and the registers, the
halt flag and the trace satisfy the invariant. -/
theorem invariant_of_actions (input : Input) (recordTrace : Bool) (actions : List Action) :
    let m := actions.foldl after (fresh input recordTrace)
    m.memory.toList.length = 100 ∧
      (∀ w ∈ m.memory.toList, -999 ≤ w.toInt ∧ w.toInt ≤ 999) ∧
      (-999 ≤ m.registers.accumulator.toInt ∧ m.registers.accumulator.toInt ≤ 999) ∧
      m.Invariant recordTrace := by
  intro m
  refine ⟨Memory.length_toList _, fun w _ => ⟨w.lower, w.upper⟩, ⟨Word.lower _, Word.upper _⟩, ?_⟩
  have hfresh : (fresh input recordTrace).reset.Invariant recordTrace := invariant_reset rfl
  have hkeeps : ∀ start : Machine, start.Invariant recordTrace →
      (actions.foldl after start).Invariant recordTrace := by
    induction actions with
    | nil => exact fun _ hstart => hstart
    | cons action rest ih => exact fun start hstart => ih (start.after action) (hstart.after action)
  exact hkeeps _ hfresh

end DecimalMachine.Machine
