import DecimalMachine.Proofs.Cycle.Outcome

/-!
# What a cycle reads and writes

A cycle looks at the registers, at the cell it fetches from, at the cell it computes with and, if it
is to read input, at the input device. Two machines that agree on these end the cycle alike and go
on agreeing (`Agrees.step`), whatever else is in their memories and devices. What the cycle makes of
memory, of the devices and of the trace is one equation for each, and holds of failing cycles too.

## Main definitions

- `Machine.next?` — the operation that the next cycle runs
- `Machine.Reads` — the next cycle looks at a cell
- `Machine.Agrees` — two machines with the same registers, halt flag and cycle count
- `Machine.Twin` — two machines that differ in their devices at most
-/

namespace DecimalMachine

namespace Operation

/-- The address of the cell that an operation computes with. -/
def source? : Operation → Option Int
  | add address | subtract address | load address => some address
  | _ => none

/-- What an operation makes of the output, given the accumulator. -/
def emit (accumulator : Word) (output : Output) : Operation → Output
  | writeNumber => output.putNumber accumulator.toInt
  | writeCharacter => output.putCharacter (Char.ofNat (accumulator.toInt % 256).toNat)
  | _ => output

/-- Only a write changes the output, and only a read the input. -/
theorem devices_run (m : Machine) (operation : Operation) :
    (operation.run m).machine.output = operation.emit m.registers.accumulator m.output ∧
      (operation.run m).machine.input =
        if operation = .input then m.input.read.input else m.input := by
  cases operation with
  | add address | subtract address | load address =>
    simp only [run, Machine.compute]
    cases m.memory.get? address <;> exact ⟨rfl, rfl⟩
  | store address =>
    simp only [run]
    cases m.memory.set? address m.registers.accumulator <;> exact ⟨rfl, rfl⟩
  | jumpIfZero address | jumpIfNotNegative address =>
    simp only [run]
    split <;> exact ⟨rfl, rfl⟩
  | input =>
    simp only [run]
    cases m.input.read.outcome <;> exact ⟨rfl, rfl⟩
  | _ => exact ⟨rfl, rfl⟩

/-- How an operation ends, and what it leaves in the registers, depends on the registers, the cell
it computes with and the answer of the input. -/
theorem run_congr {m m' : Machine} {operation : Operation}
    (hregisters : m'.registers = m.registers)
    (hcell : ∀ address, operation.source? = some address →
      m'.memory.get? address = m.memory.get? address)
    (hread : operation = .input → m'.input.read.outcome = m.input.read.outcome) :
    (operation.run m').outcome = (operation.run m).outcome ∧
      (operation.run m').machine.registers = (operation.run m).machine.registers := by
  cases operation with
  | add address | subtract address | load address =>
    simp only [run, Machine.compute, hcell address rfl, hregisters]
    cases m.memory.get? address <;>
      simp [Machine.setAccumulator, Machine.addressFault, hregisters]
  | store address =>
    -- Whether there is a cell to store to is the same in every memory of the size.
    have hnone : m'.memory.set? address m.registers.accumulator = none ↔
        m.memory.set? address m.registers.accumulator = none := by
      rw [Memory.set?_eq_none_iff, Memory.set?_eq_none_iff]
    simp only [run, hregisters]
    cases hset : m.memory.set? address m.registers.accumulator with
    | none => simp [hnone.2 hset, Machine.addressFault, hregisters]
    | some stored =>
      obtain ⟨stored', hstored'⟩ := Option.ne_none_iff_exists'.1
        (fun h => Option.some_ne_none stored (hset.symm.trans (hnone.1 h)))
      simp [hstored']
  | jumpIfZero address | jumpIfNotNegative address =>
    simp only [run, hregisters]
    split <;> simp [Machine.setProgramCounter, hregisters]
  | input =>
    simp only [run, hread rfl]
    cases m.input.read.outcome <;> simp [Machine.setAccumulator, hregisters]
  | _ => simp [run, Machine.setProgramCounter, hregisters]

end Operation

namespace Machine

variable {m m' : Machine}

/-- The operation that the next cycle runs; none if the machine has halted, if no cell is at the
program counter or if the word there asks for none. -/
def next? (m : Machine) : Option Operation :=
  if m.halted then none
  else (m.memory.get? m.registers.programCounter).bind fun w => Operation.ofNumber? w.toInt

/-- The next cycle looks at a cell: it fetches its word from there, or computes with what the cell
holds. -/
def Reads (m : Machine) (address : Int) : Prop :=
  m.halted = false ∧ (0 ≤ address ∧ address < memorySize) ∧
    (m.registers.programCounter = address ∨ m.next?.bind Operation.source? = some address)

instance (m : Machine) (address : Int) : Decidable (m.Reads address) :=
  inferInstanceAs (Decidable (_ ∧ _ ∧ _))

/-- Two machines with the same registers, halt flag and cycle count. -/
structure Agrees (m m' : Machine) : Prop where
  registers : m'.registers = m.registers
  halted : m'.halted = m.halted
  cycles : m'.cycles = m.cycles

/-! ## One cycle, component by component -/

/-- Obeying a word does what its operation does, and at most counts and records that it did. -/
theorem machine_obey (m : Machine) (w : Word) (operation : Operation) :
    ∃ trace halted cycles, (m.obey w (some operation)).machine =
      { (operation.run (m.fetched w)).machine with
        trace := trace
        halted := halted
        cycles := cycles } := by
  cases houtcome : (operation.run (m.fetched w)).outcome with
  | error error =>
    rw [obey_of_error houtcome]
    exact ⟨_, _, _, rfl⟩
  | ok progress =>
    obtain ⟨entry, -, -, hmachine, -⟩ := obey_of_ok houtcome
    exact ⟨_, _, _, hmachine⟩

/-- The next cycle obeys a word if it runs an operation, and fails without touching anything but the
registers if it runs none. -/
theorem step_cases (m : Machine) :
    (∃ w operation, m.next? = some operation ∧ m.halted = false ∧
      m.memory.get? m.registers.programCounter = some w ∧
      Operation.ofNumber? w.toInt = some operation ∧ m.step = m.obey w (some operation)) ∨
    (m.next? = none ∧ ∃ registers error,
      m.step = ⟨{ m with registers := registers }, [], .error error⟩) := by
  by_cases hhalted : m.halted = true
  · exact .inr ⟨by simp [next?, hhalted], m.registers, _, step_of_halted hhalted⟩
  have hrunning : m.halted = false := by simpa using hhalted
  cases hword : m.memory.get? m.registers.programCounter with
  | none =>
    exact .inr ⟨by simp [next?, hword], m.registers, _, step_of_no_cell hrunning hword⟩
  | some w =>
    have hnext : m.next? = Operation.ofNumber? w.toInt := by simp [next?, hrunning, hword]
    have hstep := step_eq_obey hrunning hword
    cases hoperation : Operation.ofNumber? w.toInt with
    | none =>
      rw [hoperation] at hstep hnext
      exact .inr ⟨hnext, _, _, hstep⟩
    | some operation =>
      rw [hoperation] at hstep hnext
      exact .inl ⟨w, operation, hnext, hrunning, rfl, hoperation, hstep⟩

@[simp]
theorem recordTrace_step (m : Machine) : m.step.machine.recordTrace = m.recordTrace := by
  rcases step_cases m with ⟨w, operation, -, -, -, -, hstep⟩ | ⟨-, registers, error, hstep⟩
  · obtain ⟨_, _, _, hmachine⟩ := m.machine_obey w operation
    rw [hstep, hmachine]
    exact Operation.recordTrace_run (m.fetched w) operation
  · rw [hstep]

theorem input_step (m : Machine) :
    m.step.machine.input = if m.next? = some .input then m.input.read.input else m.input := by
  rcases step_cases m with ⟨w, operation, hnext, -, -, -, hstep⟩ | ⟨hnext, registers, error, hstep⟩
  · obtain ⟨_, _, _, hmachine⟩ := m.machine_obey w operation
    simpa [hstep, hmachine, hnext] using (operation.devices_run (m.fetched w)).2
  · simp [hstep, hnext]

theorem output_step (m : Machine) :
    m.step.machine.output =
      m.next?.elim m.output (Operation.emit m.registers.accumulator m.output) := by
  rcases step_cases m with ⟨w, operation, hnext, -, -, -, hstep⟩ | ⟨hnext, registers, error, hstep⟩
  · obtain ⟨_, _, _, hmachine⟩ := m.machine_obey w operation
    simpa [hstep, hmachine, hnext] using (operation.devices_run (m.fetched w)).1
  · simp [hstep, hnext]

/-- A cycle writes to no cell but the one that it stores the accumulator in. -/
theorem get?_step (m : Machine) (address : Int) :
    m.step.machine.memory.get? address =
      if m.next? = some (.store address) then some m.registers.accumulator
      else m.memory.get? address := by
  rcases step_cases m with
    ⟨w, operation, hnext, -, -, hoperation, hstep⟩ | ⟨hnext, registers, error, hstep⟩
  · obtain ⟨_, _, _, hmachine⟩ := m.machine_obey w operation
    rw [hstep, hmachine, hnext]
    by_cases hstore : operation = .store address
    · subst hstore
      rw [if_pos rfl]
      exact Operation.get?_run_store (m := m.fetched w) (Operation.address?_bounds hoperation rfl)
    · rw [if_neg fun h => hstore (Option.some.inj h)]
      exact Operation.get?_run_of_ne (m := m.fetched w) hstore
  · simp [hstep, hnext]

theorem trace_step (m : Machine) :
    m.step.machine.trace =
      match m.step.outcome with
      | .ok entry => if m.recordTrace then m.trace.push entry else m.trace
      | .error _ => m.trace := by
  rcases step_cases m with ⟨w, operation, -, -, -, -, hstep⟩ | ⟨-, registers, error, hstep⟩
  · rw [hstep]
    cases h : (operation.run (m.fetched w)).outcome <;> simp [obey, h, complete]
  · rw [hstep]

/-- A cycle that is to read input fails if the device does. -/
theorem step_of_read_error {error : Error} (hnext : m.next? = some .input)
    (hread : m.input.read.outcome = .error error) :
    ∃ w, m.memory.get? m.registers.programCounter = some w ∧
      m.step = ⟨{ m.fetched w with input := m.input.read.input }, m.input.read.events,
        .error error⟩ := by
  rcases step_cases m with ⟨w, operation, hnext', -, hword, -, hstep⟩ | ⟨hnone, -⟩
  · obtain rfl : operation = .input := by simpa [hnext] using hnext'.symm
    have hrun : Operation.input.run (m.fetched w) =
        ⟨{ m.fetched w with input := m.input.read.input }, m.input.read.events,
          .error error⟩ := by
      simp [Operation.run, hread]
    refine ⟨w, hword, ?_⟩
    rw [hstep, obey_of_error (by rw [hrun]), hrun]
  · rw [hnext] at hnone
    cases hnone

/-! ## Two machines -/

section Cells

variable (hcells : ∀ address, m.Reads address → m'.memory.get? address = m.memory.get? address)

include hcells

/-- Nothing is fetched from outside memory, so the cells that are read decide on the fetched
word. -/
theorem get?_programCounter_of_reads (hrunning : m.halted = false) :
    m'.memory.get? m.registers.programCounter = m.memory.get? m.registers.programCounter := by
  by_cases hcell : 0 ≤ m.registers.programCounter ∧ m.registers.programCounter < memorySize
  · exact hcells _ ⟨hrunning, hcell, .inl rfl⟩
  · rw [Memory.get?_eq_none_iff.2 (by omega), Memory.get?_eq_none_iff.2 (by omega)]

theorem Agrees.next? (h : m.Agrees m') : m'.next? = m.next? := by
  unfold Machine.next?
  rw [h.halted, h.registers]
  cases hhalted : m.halted with
  | true => rfl
  | false => rw [get?_programCounter_of_reads hcells hhalted]

end Cells

/-- Machines that agree, and whose operations come to the same, end the cycle alike and go on
agreeing. -/
theorem Agrees.obey {w : Word} {operation : Operation} (h : m.Agrees m')
    (houtcome : (operation.run (m'.fetched w)).outcome = (operation.run (m.fetched w)).outcome)
    (hregisters : (operation.run (m'.fetched w)).machine.registers =
      (operation.run (m.fetched w)).machine.registers) :
    (m'.obey w (some operation)).outcome = (m.obey w (some operation)).outcome ∧
      (m.obey w (some operation)).machine.Agrees (m'.obey w (some operation)).machine := by
  have hhalted := h.halted
  have hcycles := h.cycles
  cases hrun : (operation.run (m.fetched w)).outcome with
  | error error =>
    rw [obey_of_error hrun, obey_of_error (houtcome.trans hrun)]
    exact ⟨rfl, hregisters, by simpa using hhalted, by simpa using hcycles⟩
  | ok progress =>
    simp only [Machine.obey, hrun, houtcome.trans hrun]
    refine ⟨?_, hregisters, rfl, by simpa [complete] using hcycles⟩
    rw [hregisters, h.registers, hcycles]

/-- A cycle depends on nothing but what it reads. Machines that agree, and hold the same words in
the cells that the next cycle reads, end the cycle alike and go on agreeing, if their input devices
give the same answer when they are asked for one. -/
theorem Agrees.step (h : m.Agrees m')
    (hcells : ∀ address, m.Reads address → m'.memory.get? address = m.memory.get? address)
    (hread : m.next? = some .input → m'.input.read.outcome = m.input.read.outcome) :
    m'.step.outcome = m.step.outcome ∧ m.step.machine.Agrees m'.step.machine := by
  cases hhalted : m.halted with
  | true =>
    rw [step_of_halted hhalted, step_of_halted (h.halted.trans hhalted)]
    exact ⟨rfl, h⟩
  | false =>
    have hhalted' := h.halted.trans hhalted
    have hfetch := get?_programCounter_of_reads hcells hhalted
    rw [← h.registers] at hfetch
    cases hword : m.memory.get? m.registers.programCounter with
    | none =>
      have hword' := hfetch.trans (h.registers ▸ hword)
      rw [step_of_no_cell hhalted hword, step_of_no_cell hhalted' hword']
      exact ⟨by simp [addressFault, h.registers], h⟩
    | some w =>
      have hword' := hfetch.trans (h.registers ▸ hword)
      have hnext : m.next? = Operation.ofNumber? w.toInt := by simp [Machine.next?, hhalted, hword]
      rw [step_eq_obey hhalted hword, step_eq_obey hhalted' hword']
      cases hoperation : Operation.ofNumber? w.toInt with
      | none =>
        refine ⟨by simp [Machine.obey, h.registers], ?_, hhalted'.trans hhalted.symm, h.cycles⟩
        simp [Machine.obey, setProgramCounter, h.registers]
      | some operation =>
        rw [hoperation] at hnext
        have hsource : ∀ address, operation.source? = some address →
            m'.memory.get? address = m.memory.get? address := by
          intro address hsource
          refine hcells address ⟨hhalted, ?_, .inr (by rw [hnext]; exact hsource)⟩
          apply Operation.address?_bounds hoperation
          cases operation <;> cases hsource <;> rfl
        have hregisters : (m'.fetched w).registers = (m.fetched w).registers := by
          simp [h.registers]
        have hrun := Operation.run_congr hregisters hsource fun hinput => hread (hinput ▸ hnext)
        exact h.obey hrun.1 hrun.2

/-- Two machines that differ in their devices at most. -/
structure Twin (m m' : Machine) : Prop extends m.Agrees m' where
  memory : m'.memory = m.memory
  recordTrace : m'.recordTrace = m.recordTrace
  trace : m'.trace = m.trace

theorem Twin.eq (h : m.Twin m') : m' = { m with input := m'.input, output := m'.output } := by
  obtain ⟨⟨hregisters, hhalted, hcycles⟩, hmemory, hrecord, htrace⟩ := h
  cases m
  cases m'
  simp_all

theorem Twin.next? (h : m.Twin m') : m'.next? = m.next? :=
  h.toAgrees.next? fun _ _ => by rw [h.memory]

/-- Machines that differ in their devices at most end the next cycle alike, unless the cycle reads
input and gets different answers, and differ no more after it. -/
theorem Twin.step (h : m.Twin m')
    (hread : m.next? = some .input → m'.input.read.outcome = m.input.read.outcome) :
    m'.step.outcome = m.step.outcome ∧ m.step.machine.Twin m'.step.machine := by
  obtain ⟨houtcome, hagrees⟩ := h.toAgrees.step (fun _ _ => by rw [h.memory]) hread
  refine ⟨houtcome, hagrees, ?_, ?_, ?_⟩
  · apply Memory.ext
    intro i _
    rw [get?_step, get?_step, h.next?, h.registers, h.memory]
  · rw [recordTrace_step, recordTrace_step, h.recordTrace]
  · rw [trace_step, trace_step, houtcome, h.recordTrace, h.trace]

/-- A device that gives the same answer leaves the cycle the same but for what is left of it. -/
theorem step_withInput (input : Input)
    (hread : m.next? = some .input → input.read.outcome = m.input.read.outcome) :
    ({ m with input := input } : Machine).step.outcome = m.step.outcome ∧
      ({ m with input := input } : Machine).step.machine =
        { m.step.machine with
          input := if m.next? = some .input then input.read.input else input } := by
  have htwin : m.Twin { m with input := input } := ⟨⟨rfl, rfl, rfl⟩, rfl, rfl, rfl⟩
  obtain ⟨houtcome, hafter⟩ := htwin.step hread
  have hinput := input_step { m with input := input }
  have houtput : ({ m with input := input } : Machine).step.machine.output =
      m.step.machine.output := by
    rw [output_step, output_step, htwin.next?]
  rw [htwin.next?] at hinput
  refine ⟨houtcome, hafter.eq.trans ?_⟩
  rw [hinput, houtput]

end Machine

end DecimalMachine
