import DecimalMachine.Proofs.Cycle.Fault
import DecimalMachine.Proofs.Cycle.Outcome

/-!
# Failing cycles

A cycle fails in five ways, and in none of them does it reach beyond the registers.
`Machine.Failure` lists the ways, each with its error and the machine that it leaves; for a machine
that reads its input from a queue there are no others. `step_frame_of_error` says component by
component what is left as it was.

## Main definitions

- `Machine.Failure` — an error of a cycle with the machine that it leaves
- `Registers.LeftBy` — the registers that an error leaves
-/

namespace DecimalMachine

/-- An operation that fails although its address has a cell is the reserved one, or it reads from an
empty queue. It has done nothing by then. -/
theorem Operation.run_of_error {m : Machine} {queue : List Word} {operation : Operation}
    {error : Error} (hinput : m.input = .queue queue)
    (haddress : ∀ address, operation.address? = some address → 0 ≤ address ∧ address < memorySize)
    (herror : (operation.run m).outcome = .error error) :
    operation.run m = ⟨m, [], .error error⟩ ∧
      (error = .reservedOpcode m.registers.programCounter ∨ error = .queueExhausted) := by
  have hfault := (outcome_eq_error_iff hinput).1 herror
  refine ⟨run_of_fault hinput hfault, ?_⟩
  cases operation with
  | add address | subtract address | store address | load address =>
    obtain ⟨hrange, -⟩ := Option.ite_none_right_eq_some.1 hfault
    have hcell := haddress address rfl
    omega
  | reserved =>
    cases hfault
    exact .inl rfl
  | input =>
    obtain ⟨-, hcause⟩ := Option.ite_none_right_eq_some.1 hfault
    cases hcause
    exact .inr rfl
  | _ => cases hfault

namespace Machine

/-- The ways in which a cycle fails: the error of each, and the machine that it leaves. The program
counter in an error is the one that the failing cycle has counted up to. -/
inductive Failure (m : Machine) : Error → Machine → Prop
  | halted (hhalted : m.halted = true) : Failure m .machineHalted m
  | noCell (hword : m.memory.get? m.registers.programCounter = none) :
    Failure m (m.addressFault m.registers.programCounter) m
  | refused {w : Word} (hword : m.memory.get? m.registers.programCounter = some w) :
    Failure m (.unhandledOpcode w.leadingDigit (some (m.registers.programCounter + 1))) m.advance
  | reserved {w : Word} (hword : m.memory.get? m.registers.programCounter = some w) :
    Failure m (.reservedOpcode (m.registers.programCounter + 1)) (m.fetched w)
  | exhausted {w : Word} (hword : m.memory.get? m.registers.programCounter = some w) :
    Failure m .queueExhausted (m.fetched w)

/-- A cycle of a machine with queued input fails in one of the five ways, and shows nothing. -/
theorem failure_of_step {m : Machine} {queue : List Word} {error : Error}
    (hinput : m.input = .queue queue) (herror : m.step.outcome = .error error) :
    Failure m error m.step.machine ∧ m.step.events = [] := by
  cases hhalted : m.halted with
  | true =>
    rw [step_of_halted hhalted] at herror ⊢
    cases herror
    exact ⟨.halted hhalted, rfl⟩
  | false =>
    cases hword : m.memory.get? m.registers.programCounter with
    | none =>
      rw [step_of_no_cell hhalted hword] at herror ⊢
      cases herror
      exact ⟨.noCell hword, rfl⟩
    | some w =>
      rw [step_eq_obey hhalted hword] at herror ⊢
      cases hoperation : Operation.ofNumber? w.toInt with
      | none =>
        rw [hoperation] at herror
        cases herror
        exact ⟨.refused hword, rfl⟩
      | some operation =>
        rw [hoperation] at herror
        cases houtcome : (operation.run (m.fetched w)).outcome with
        | ok progress =>
          obtain ⟨entry, -, -, -, hok⟩ := obey_of_ok houtcome
          cases hok.symm.trans herror
        | error cause =>
          rw [obey_of_error houtcome] at herror ⊢
          cases herror
          obtain ⟨hrun, hcause⟩ := Operation.run_of_error (m := m.fetched w) hinput
            (fun _ => Operation.address?_bounds hoperation) houtcome
          rw [hrun]
          rcases hcause with rfl | rfl
          · exact ⟨.reserved hword, rfl⟩
          · exact ⟨.exhausted hword, rfl⟩

end Machine

/-- The registers after a cycle of a machine that failed with an error: none has changed if nothing
was fetched, only the program counter if the fetched word was refused, and else the decode registers
as well, which hold the digits of the word. -/
def Registers.LeftBy (m : Machine) (left : Registers) : Error → Prop
  | .machineHalted | .addressOutOfRange _ _ => left = m.registers
  | .unhandledOpcode _ counter =>
    left = { m.registers with programCounter := m.registers.programCounter + 1 } ∧
      counter = some left.programCounter
  | .reservedOpcode _ | .queueExhausted =>
    ∃ w, m.memory.get? m.registers.programCounter = some w ∧
      left = ⟨m.registers.programCounter + 1, w.leadingDigit, w.lastTwoDigits,
        m.registers.accumulator⟩
  | _ => False

namespace Machine

/-- A failing cycle of a machine with queued input changes nothing but the program counter and the
decode registers, these only as far as it has come, and shows nothing. -/
theorem step_frame_of_error {m : Machine} {queue : List Word} {error : Error}
    (hinput : m.input = .queue queue) (herror : m.step.outcome = .error error) :
    let left := m.step.machine
    (left.memory = m.memory ∧ left.registers.accumulator = m.registers.accumulator ∧
      left.output = m.output ∧ left.input = m.input ∧ left.halted = m.halted ∧
      left.cycles = m.cycles ∧ left.trace = m.trace ∧ left.recordTrace = m.recordTrace) ∧
    left.registers.LeftBy m error ∧ m.step.events = [] := by
  intro left
  obtain ⟨hfailure, hevents⟩ := failure_of_step hinput herror
  change Failure m error left at hfailure
  generalize left = left at hfailure ⊢
  have hsame : left = { m with registers := left.registers } := by
    cases hfailure <;> rfl
  have haccumulator : left.registers.accumulator = m.registers.accumulator := by
    cases hfailure <;> rfl
  have hregisters : left.registers.LeftBy m error := by
    cases hfailure with
    | halted => exact rfl
    | noCell => exact rfl
    | refused => exact ⟨rfl, rfl⟩
    | reserved hword => exact ⟨_, hword, rfl⟩
    | exhausted hword => exact ⟨_, hword, rfl⟩
  refine ⟨?_, hregisters, hevents⟩
  rw [hsame]
  exact ⟨rfl, haccumulator, rfl, rfl, rfl, rfl, rfl, rfl⟩

/-- Input from an empty queue after a number was put out, with a trace: the cycle before is in the
trace and in the output, and the failing one is seen in three registers only. -/
theorem step_frame_of_empty_queue :
    let m := ({ Machine.fresh (.queue []) true with
      memory := (Memory.blank memorySize).overwrite 0 [.wrap 902, .wrap 901] } : Machine)
    let start := m.step.machine
    let left := start.step.machine
    start.step.outcome = .error .queueExhausted ∧
      start.registers = ⟨1, 9, 2, .zero⟩ ∧ start.output = ⟨"0", true⟩ ∧ start.trace.size = 1 ∧
      (left.memory = start.memory ∧
        left.registers.accumulator = start.registers.accumulator ∧
        left.output = start.output ∧ left.input = start.input ∧ left.halted = start.halted ∧
        left.cycles = start.cycles ∧ left.trace = start.trace ∧
        left.recordTrace = start.recordTrace) ∧
      left.registers.LeftBy start .queueExhausted ∧ left.registers = ⟨2, 9, 1, .zero⟩ := by
  intro m start left
  have hinput : start.input = .queue [] := by decide +kernel
  have herror : start.step.outcome = .error .queueExhausted := by rfl
  obtain ⟨hframe, hleft, -⟩ := step_frame_of_error hinput herror
  exact ⟨herror, by decide +kernel, by decide +kernel, by decide +kernel, hframe, hleft,
    by decide +kernel⟩

end Machine

end DecimalMachine
