import DecimalMachine.Proofs.Cycle.Operation
import DecimalMachine.Proofs.Escape
import DecimalMachine.Proofs.Result

/-!
# Failing instructions

An instruction that was not fetched from memory can have any digit, any address and any channel.
What is wrong with it, if anything, can be told from the instruction, the program counter and the
queue of the input before it is carried out: `Machine.executeFault?` says it. An instruction with a
fault fails with just this error and leaves the machine as it was, one without a fault succeeds. The
error names the digit or the address, so that one of these that cannot be written leaves the
instruction by itself.

## Main definitions

- `Operation.fault?` — the error that an operation gives
- `Machine.executeFault?` — the error that an instruction gives, whatever its digit
-/

namespace DecimalMachine

namespace Operation

/-- The error that an operation gives on a machine with queued input; none if it succeeds. -/
def fault? (m : Machine) (queue : List Word) : Operation → Option Error
  | add address | subtract address | store address | load address =>
    if address < 0 ∨ memorySize ≤ address then some (m.addressFault address) else none
  | reserved => some (.reservedOpcode m.registers.programCounter)
  | input => if queue = [] then some .queueExhausted else none
  | _ => none

variable {m : Machine} {queue : List Word} {operation : Operation} {error : Error}

/-- An operation with a fault gives it before it has done anything. -/
theorem run_of_fault (hinput : m.input = .queue queue)
    (hfault : operation.fault? m queue = some error) : operation.run m = m.fail error := by
  cases operation with
  | add address | subtract address | load address =>
    obtain ⟨hrange, herror⟩ := Option.ite_none_right_eq_some.1 hfault
    cases herror
    have hword : m.memory.get? address = none := Memory.get?_eq_none_iff.2 hrange
    simp only [run, Machine.compute, hword]
    rfl
  | store address =>
    obtain ⟨hrange, herror⟩ := Option.ite_none_right_eq_some.1 hfault
    cases herror
    have hstored : m.memory.set? address m.registers.accumulator = none :=
      Memory.set?_eq_none_iff.2 hrange
    simp only [run, hstored]
    rfl
  | reserved =>
    cases hfault
    rfl
  | input =>
    obtain ⟨rfl, herror⟩ := Option.ite_none_right_eq_some.1 hfault
    cases herror
    -- An empty queue is left as empty as it was.
    have hkept : { m with input := .queue [] } = m := by
      rw [← hinput]
    simp only [run, hinput, Input.read, hkept]
    rfl
  | _ => cases hfault

theorem exists_outcome_of_fault?_eq_none (hinput : m.input = .queue queue)
    (hfault : operation.fault? m queue = none) :
    ∃ progress, (operation.run m).outcome = .ok progress := by
  cases operation with
  | add address | subtract address | load address =>
    have hcell : m.memory.get? address ≠ none := by
      intro hnone
      rw [fault?, if_pos (Memory.get?_eq_none_iff.1 hnone)] at hfault
      cases hfault
    obtain ⟨w, hword⟩ := Option.ne_none_iff_exists'.1 hcell
    exact ⟨.continues, by simp only [run, Machine.compute, hword]⟩
  | store address =>
    have hcell : m.memory.set? address m.registers.accumulator ≠ none := by
      intro hnone
      rw [fault?, if_pos (Memory.set?_eq_none_iff.1 hnone)] at hfault
      cases hfault
    obtain ⟨memory, hstored⟩ := Option.ne_none_iff_exists'.1 hcell
    exact ⟨.continues, by simp only [run, hstored]⟩
  | reserved => cases hfault
  | input =>
    cases queue with
    | nil => cases hfault
    | cons w rest => exact ⟨.continues, by simp only [run, hinput, Input.read]⟩
  | jumpIfZero address | jumpIfNotNegative address =>
    simp only [run]
    split <;> exact ⟨.continues, rfl⟩
  | _ => exact ⟨_, rfl⟩

theorem outcome_eq_error_iff (hinput : m.input = .queue queue) :
    (operation.run m).outcome = .error error ↔ operation.fault? m queue = some error := by
  cases hfault : operation.fault? m queue with
  | none =>
    obtain ⟨progress, hok⟩ := exists_outcome_of_fault?_eq_none hinput hfault
    simp [hok]
  | some cause => simp [run_of_fault hinput hfault, Machine.fail]

end Operation

namespace Machine

/-- The error that an instruction gives on a machine with queued input; none if it succeeds. -/
def executeFault? (m : Machine) (queue : List Word) (digit address : Int)
    (channel : Option Channel) : Option Error :=
  match Opcode.ofDigit? digit with
  | some opcode => (Operation.ofInstruction ⟨opcode, address, channel⟩).fault? m queue
  | none => some (.unhandledOpcode digit (some m.registers.programCounter))

variable {m : Machine} {queue : List Word}

theorem execute_eq_run {digit : Int} {opcode : Opcode}
    (hdigit : Opcode.ofDigit? digit = some opcode) (m : Machine) (address : Int)
    (channel : Option Channel) :
    m.execute digit address channel =
      (Operation.ofInstruction ⟨opcode, address, channel⟩).run m := by
  simp only [execute, hdigit]
  exact Operation.perform_eq_run m ⟨opcode, address, channel⟩

theorem execute_of_no_opcode {digit : Int} (hdigit : Opcode.ofDigit? digit = none) (m : Machine)
    (address : Int) (channel : Option Channel) :
    m.execute digit address channel =
      m.fail (.unhandledOpcode digit (some m.registers.programCounter)) := by
  simp only [execute, hdigit]

/-- An instruction with a fault gives it before it has done anything. -/
theorem execute_of_fault (hinput : m.input = .queue queue) {digit address : Int}
    {channel : Option Channel} {error : Error}
    (hfault : m.executeFault? queue digit address channel = some error) :
    m.execute digit address channel = m.fail error := by
  unfold executeFault? at hfault
  cases hdigit : Opcode.ofDigit? digit with
  | none =>
    rw [hdigit] at hfault
    cases hfault
    exact execute_of_no_opcode hdigit m address channel
  | some opcode =>
    rw [hdigit] at hfault
    rw [execute_eq_run hdigit]
    exact Operation.run_of_fault hinput hfault

theorem execute_outcome_eq_error_iff (hinput : m.input = .queue queue) {digit address : Int}
    {channel : Option Channel} {error : Error} :
    (m.execute digit address channel).outcome = .error error ↔
      m.executeFault? queue digit address channel = some error := by
  unfold executeFault?
  cases hdigit : Opcode.ofDigit? digit with
  | none =>
    rw [execute_of_no_opcode hdigit]
    simp [fail]
  | some opcode =>
    rw [execute_eq_run hdigit]
    exact Operation.outcome_eq_error_iff hinput

/-- The instructions that have a fault, fault by fault. -/
theorem executeFault?_eq_some_iff {digit address : Int} {channel : Option Channel} {error : Error} :
    m.executeFault? queue digit address channel = some error ↔
      (digit < 0 ∨ 9 < digit) ∧
        error = .unhandledOpcode digit (some m.registers.programCounter) ∨
      digit = 4 ∧ error = .reservedOpcode m.registers.programCounter ∨
      (digit = 1 ∨ digit = 2 ∨ digit = 3 ∨ digit = 5) ∧ (address < 0 ∨ 99 < address) ∧
        error = .addressOutOfRange address (some m.registers.programCounter) ∨
      digit = 9 ∧ channel = some .inp ∧ queue = [] ∧ error = .queueExhausted := by
  unfold executeFault?
  cases hdigit : Opcode.ofDigit? digit with
  | none =>
    have hrange := Opcode.ofDigit?_eq_none_iff.1 hdigit
    constructor
    · rintro ⟨⟩
      exact .inl ⟨hrange, rfl⟩
    · rintro (⟨-, rfl⟩ | ⟨hdigit, -⟩ | ⟨hdigit, -⟩ | ⟨hdigit, -⟩)
      · rfl
      all_goals omega
  | some opcode =>
    -- The digit of the opcode leaves one of the four faults at most.
    obtain rfl := Opcode.ofDigit?_eq_some_iff.1 hdigit
    simp only [Opcode.digit, Operation.ofInstruction]
    cases opcode with
    | hlt | bra | brz | brp => simp [Operation.fault?]
    | reserved => simp [Operation.fault?, eq_comm]
    | add | sub | sta | lda =>
      have hlast : 99 < address ↔ (memorySize : Int) ≤ address := by
        simp only [memorySize]
        omega
      simp [Operation.fault?, addressFault, hlast, eq_comm (a := error)]
    | io =>
      cases channel with
      | none => simp [Operation.fault?]
      | some channel => cases channel <;> simp [Operation.fault?, eq_comm]

theorem frame_execute (m : Machine) (digit address : Int) (channel : Option Channel) :
    (m.execute digit address channel).machine.halted = m.halted ∧
      (m.execute digit address channel).machine.cycles = m.cycles ∧
      (m.execute digit address channel).machine.trace = m.trace ∧
      (m.execute digit address channel).machine.recordTrace = m.recordTrace := by
  cases hdigit : Opcode.ofDigit? digit with
  | none =>
    rw [execute_of_no_opcode hdigit]
    exact ⟨rfl, rfl, rfl, rfl⟩
  | some opcode =>
    rw [execute_eq_run hdigit]
    simp

/-- What leaves an instruction that fails: the digit and the address are written in the errors that
name them. -/
theorem execute_answer_eq_error_iff (hinput : m.input = .queue queue) {digit address : Int}
    {channel : Option Channel} {escape : Escape} :
    (m.execute digit address channel).answer = .error escape ↔
      (digit < 0 ∨ 9 < digit) ∧
        escape = (if Text.IsWritable digit then
          .raised (.unhandledOpcode digit (some m.registers.programCounter))
        else .overlong digit) ∨
      digit = 4 ∧ escape = .raised (.reservedOpcode m.registers.programCounter) ∨
      (digit = 1 ∨ digit = 2 ∨ digit = 3 ∨ digit = 5) ∧ (address < 0 ∨ 99 < address) ∧
        escape = (if Text.IsWritable address then
          .raised (.addressOutOfRange address (some m.registers.programCounter))
        else .overlong address) ∨
      digit = 9 ∧ channel = some .inp ∧ queue = [] ∧ escape = .raised .queueExhausted := by
  have hdigit (counter : Option Int) : Escape.ofError (.unhandledOpcode digit counter) =
      if Text.IsWritable digit then .raised (.unhandledOpcode digit counter)
      else .overlong digit := Escape.ofError_of_numbers_eq rfl
  have haddress (counter : Option Int) : Escape.ofError (.addressOutOfRange address counter) =
      if Text.IsWritable address then .raised (.addressOutOfRange address counter)
      else .overlong address := Escape.ofError_of_numbers_eq rfl
  simp only [Effect.answer, Result.mapError_eq_error_iff, execute_outcome_eq_error_iff hinput,
    executeFault?_eq_some_iff, ← hdigit, ← haddress]
  constructor
  · rintro ⟨error, ⟨h, rfl⟩ | ⟨h, rfl⟩ | ⟨h, hrange, rfl⟩ | ⟨h, hchannel, hqueue, rfl⟩, rfl⟩
    · exact .inl ⟨h, rfl⟩
    · exact .inr (.inl ⟨h, rfl⟩)
    · exact .inr (.inr (.inl ⟨h, hrange, rfl⟩))
    · exact .inr (.inr (.inr ⟨h, hchannel, hqueue, rfl⟩))
  · rintro (⟨h, rfl⟩ | ⟨h, rfl⟩ | ⟨h, hrange, rfl⟩ | ⟨h, hchannel, hqueue, rfl⟩)
    · exact ⟨_, .inl ⟨h, rfl⟩, rfl⟩
    · exact ⟨_, .inr (.inl ⟨h, rfl⟩), rfl⟩
    · exact ⟨_, .inr (.inr (.inl ⟨h, hrange, rfl⟩)), rfl⟩
    · exact ⟨_, .inr (.inr (.inr ⟨h, hchannel, hqueue, rfl⟩)), rfl⟩

/-- A digit or an address that cannot be written leaves the instruction if this accesses a cell or
has no opcode. -/
theorem execute_answer_eq_overlong_iff (hinput : m.input = .queue queue) {digit address : Int}
    {channel : Option Channel} {n : Int} :
    (m.execute digit address channel).answer = .error (.overlong n) ↔
      ¬Text.IsWritable n ∧
        (n = digit ∨ (digit = 1 ∨ digit = 2 ∨ digit = 3 ∨ digit = 5) ∧ n = address) := by
  have hdigit : ¬Text.IsWritable digit → digit < 0 ∨ 9 < digit := by
    intro h
    by_contra hrange
    exact h (Text.isWritable_of_small (by omega))
  have haddress : ¬Text.IsWritable address → address < 0 ∨ 99 < address := by
    intro h
    by_contra hrange
    exact h (Text.isWritable_of_small (by omega))
  rw [execute_answer_eq_error_iff hinput]
  constructor
  · rintro (⟨-, h⟩ | ⟨-, ⟨⟩⟩ | ⟨hcell, -, h⟩ | ⟨-, -, -, ⟨⟩⟩)
    · split_ifs at h with hwritable
      cases h
      exact ⟨hwritable, .inl rfl⟩
    · split_ifs at h with hwritable
      cases h
      exact ⟨hwritable, .inr ⟨hcell, rfl⟩⟩
  · rintro ⟨hwritable, rfl | ⟨hcell, rfl⟩⟩
    · exact .inl ⟨hdigit hwritable, (if_neg hwritable).symm⟩
    · exact .inr (.inr (.inl ⟨hcell, haddress hwritable, (if_neg hwritable).symm⟩))

/-- Handlers are atomic. An instruction with any digit, address and channel succeeds or leaves a
machine with queued input as it was. Its errors are those of an unknown digit, of the reserved one,
of an address without a cell under the digits that access one, and of reading from an empty queue,
each exactly where its condition holds, and no others; but a digit or an address that an error would
name and that has more digits than can be written leaves the instruction in place of the error. No
instruction touches the halt flag, the cycle count or the trace. -/
theorem execute_atomic (hinput : m.input = .queue queue) (digit address : Int)
    (channel : Option Channel) :
    let effect := m.execute digit address channel
    let counter := m.registers.programCounter
    let accesses := digit = 1 ∨ digit = 2 ∨ digit = 3 ∨ digit = 5
    ((∃ progress, effect.answer = .ok progress) ∨
      effect.machine = m ∧ effect.events = [] ∧ ∃ escape, effect.answer = .error escape ∧
        (escape = .raised (.unhandledOpcode digit (some counter)) ∨
          escape = .raised (.reservedOpcode counter) ∨
          escape = .raised (.addressOutOfRange address (some counter)) ∨
          escape = .raised .queueExhausted ∨
          ∃ n, ¬Text.IsWritable n ∧ (n = digit ∨ n = address) ∧ escape = .overlong n)) ∧
    (effect.answer = .error (.raised (.unhandledOpcode digit (some counter))) ↔
      (digit < 0 ∨ 9 < digit) ∧ Text.IsWritable digit) ∧
    (effect.answer = .error (.raised (.reservedOpcode counter)) ↔ digit = 4) ∧
    (effect.answer = .error (.raised (.addressOutOfRange address (some counter))) ↔
      accesses ∧ (address < 0 ∨ 99 < address) ∧ Text.IsWritable address) ∧
    (effect.answer = .error (.raised .queueExhausted) ↔
      digit = 9 ∧ channel = some .inp ∧ queue = []) ∧
    (∀ n, effect.answer = .error (.overlong n) ↔
      ¬Text.IsWritable n ∧ (n = digit ∨ accesses ∧ n = address)) ∧
    effect.machine.halted = m.halted ∧ effect.machine.cycles = m.cycles ∧
    effect.machine.trace = m.trace ∧ effect.machine.recordTrace = m.recordTrace := by
  intro effect counter accesses
  have hescape (escape : Escape) : effect.answer = .error escape ↔ _ :=
    execute_answer_eq_error_iff hinput
  refine ⟨?_, ?_, ?_, ?_, ?_, fun _ => execute_answer_eq_overlong_iff hinput,
    frame_execute m digit address channel⟩
  · cases houtcome : effect.outcome with
    | ok progress => exact .inl ⟨progress, Result.mapError_eq_ok_iff.2 houtcome⟩
    | error error =>
      have hfault := (execute_outcome_eq_error_iff hinput).1 houtcome
      have heffect : effect = m.fail error := execute_of_fault hinput hfault
      have hanswer : effect.answer = .error (Escape.ofError error) := by rw [heffect]; rfl
      refine .inr ⟨by rw [heffect]; rfl, by rw [heffect]; rfl, _, hanswer, ?_⟩
      rcases (hescape _).1 hanswer with ⟨-, h⟩ | ⟨-, h⟩ | ⟨-, -, h⟩ | ⟨-, -, -, h⟩
      · split_ifs at h with hwritable
        · exact .inl h
        · exact .inr (.inr (.inr (.inr ⟨digit, hwritable, .inl rfl, h⟩)))
      · exact .inr (.inl h)
      · split_ifs at h with hwritable
        · exact .inr (.inr (.inl h))
        · exact .inr (.inr (.inr (.inr ⟨address, hwritable, .inr rfl, h⟩)))
      · exact .inr (.inr (.inr (.inl h)))
  · rw [hescape]
    by_cases hdigit : Text.IsWritable digit <;> by_cases haddress : Text.IsWritable address <;>
      simp [hdigit, haddress, counter]
  · rw [hescape]
    by_cases hdigit : Text.IsWritable digit <;> by_cases haddress : Text.IsWritable address <;>
      simp [hdigit, haddress, counter]
  · rw [hescape]
    by_cases hdigit : Text.IsWritable digit <;> by_cases haddress : Text.IsWritable address <;>
      simp [hdigit, haddress, counter, accesses]
  · rw [hescape]
    by_cases hdigit : Text.IsWritable digit <;> by_cases haddress : Text.IsWritable address <;>
      simp [hdigit, haddress]

/-- A store to a negative address, by an instruction that was made by hand after a number was put
out: the output and the queue keep what they hold, and nothing is stored. -/
theorem execute_atomic_of_negative_address :
    let m := ({ fresh (.queue [.wrap 7]) true with
      output := Output.empty.putNumber 5
      registers := ⟨12, 3, 44, .wrap 321⟩ } : Machine)
    let effect := m.execute 3 (-1) none
    m.input = .queue [.wrap 7] ∧ effect.machine = m ∧
      effect.answer = .error (.raised (.addressOutOfRange (-1) (some 12))) := by
  intro m effect
  have hatomic := execute_atomic (m := m) rfl 3 (-1) none
  have hfails := hatomic.2.2.2.1.2 ⟨by decide, by decide, by decide⟩
  refine ⟨rfl, ?_, hfails⟩
  rcases hatomic.1 with ⟨progress, hok⟩ | ⟨hmachine, -⟩
  · cases hok.symm.trans hfails
  · exact hmachine

/-- An error does not name every digit that has no opcode: one that is too long to be written leaves
the instruction by itself. -/
theorem not_forall_execute_eq_unhandledOpcode :
    ¬∀ (m : Machine) (queue : List Word) (digit address : Int) (channel : Option Channel),
      m.input = .queue queue →
      ((m.execute digit address channel).answer =
          .error (.raised (.unhandledOpcode digit (some m.registers.programCounter))) ↔
        digit < 0 ∨ 9 < digit) := by
  intro h
  let m := fresh (.queue []) false
  have hoverlong : (m.execute (10 ^ Text.maxDigits) 0 none).answer =
      .error (.overlong (10 ^ Text.maxDigits)) :=
    (execute_answer_eq_overlong_iff rfl).2 ⟨Text.not_isWritable_pow, .inl rfl⟩
  have hraised := (h m [] (10 ^ Text.maxDigits) 0 none rfl).2 <| by
    by_contra hrange
    exact Text.not_isWritable_pow (Text.isWritable_of_small (by omega))
  cases hraised.symm.trans hoverlong

end Machine

end DecimalMachine
