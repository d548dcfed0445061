import DecimalMachine.Proofs.Cycle.Operation
import DecimalMachine.Proofs.Escape
import DecimalMachine.Proofs.Result

/-!
# Outcomes of a cycle

How a cycle ends is decided by the halt flag, the program counter and the number of the fetched
word, and where this number is 901 by the input. Nothing else can go wrong: the address in a word
always has a cell, and every word that is not refused has an operation. The error for a program
counter without a cell leaves the cycle only if the program counter has no more digits than can be
written; all other errors leave it as they are. All of this is said for a machine that reads its
input from a queue.

## Main definitions

- `Machine.nextOutcome` — how the next cycle ends
- `Machine.nextAnswer` — how it ends for its caller, who sees what leaves it if it fails
-/

namespace DecimalMachine

namespace Operation

/-- How an operation ends on a machine in which its address has a cell. -/
def outcome (m : Machine) : Operation → Except Error Progress
  | halt => .ok .halted
  | reserved => .error (.reservedOpcode m.registers.programCounter)
  | input => m.input.read.outcome.map fun _ => .continues
  | _ => .ok .continues

/-- An operation whose address has a cell ends as it should. -/
theorem outcome_run {m : Machine} {operation : Operation}
    (h : ∀ address, operation.address? = some address → 0 ≤ address ∧ address < memorySize) :
    (operation.run m).outcome = operation.outcome m := by
  cases operation with
  | add address | subtract address | load address =>
    have hcell : m.memory.get? address ≠ none := by
      rw [Ne, Memory.get?_eq_none_iff]
      have := h address rfl
      omega
    obtain ⟨w, hw⟩ := Option.ne_none_iff_exists'.1 hcell
    simp [run, Machine.compute, hw, outcome]
  | store address =>
    have hcell : m.memory.set? address m.registers.accumulator ≠ none := by
      rw [Ne, Memory.set?_eq_none_iff]
      have := h address rfl
      omega
    obtain ⟨memory, hmemory⟩ := Option.ne_none_iff_exists'.1 hcell
    simp [run, hmemory, outcome]
  | input =>
    cases hword : m.input.read.outcome <;> simp [run, hword, outcome, Except.map]
  | jumpIfZero address =>
    by_cases hzero : m.registers.accumulator.toInt = 0 <;> simp [run, hzero, outcome]
  | jumpIfNotNegative address =>
    by_cases hsign : 0 ≤ m.registers.accumulator.toInt <;> simp [run, hsign, outcome]
  | _ => rfl

end Operation

namespace Machine

/-- How the next cycle ends. -/
def nextOutcome (m : Machine) : Except Error Progress :=
  m.step.outcome.map TraceEntry.progress

theorem outcome_obey (m : Machine) (w : Word) (operation : Operation) :
    (m.obey w (some operation)).outcome.map TraceEntry.progress =
      (operation.run (m.fetched w)).outcome := by
  cases hrun : (operation.run (m.fetched w)).outcome <;> simp [obey, hrun, Except.map]

/-- The fetched word decides how the cycle of a running machine ends. -/
theorem nextOutcome_of_word {m : Machine} {w : Word} (hrunning : m.halted = false)
    (hword : m.memory.get? m.registers.programCounter = some w) :
    m.nextOutcome =
      match Operation.ofNumber? w.toInt with
      | none =>
        .error (.unhandledOpcode w.leadingDigit (some (m.registers.programCounter + 1)))
      | some operation => operation.outcome (m.fetched w) := by
  rw [nextOutcome, step_eq_obey hrunning hword]
  cases hoperation : Operation.ofNumber? w.toInt with
  | none => rfl
  | some operation =>
    rw [outcome_obey]
    exact Operation.outcome_run fun _ => Operation.address?_bounds hoperation

/-- The number of the fetched word tells the five ways apart in which a running machine with queued
input ends a cycle. -/
theorem nextOutcome_iff {m : Machine} {queue : List Word} {w : Word}
    (hinput : m.input = .queue queue) (hrunning : m.halted = false)
    (hword : m.memory.get? m.registers.programCounter = some w) :
    (m.nextOutcome =
        .error (.unhandledOpcode w.leadingDigit (some (m.registers.programCounter + 1))) ↔
      w.toInt ≤ -100) ∧
    (m.nextOutcome = .error (.reservedOpcode (m.registers.programCounter + 1)) ↔
      400 ≤ w.toInt ∧ w.toInt ≤ 499) ∧
    (m.nextOutcome = .error .queueExhausted ↔ w.toInt = 901 ∧ queue = []) ∧
    (m.nextOutcome = .ok .halted ↔ -99 ≤ w.toInt ∧ w.toInt ≤ 99) ∧
    (m.nextOutcome = .ok .continues ↔
      99 < w.toInt ∧ ¬(400 ≤ w.toInt ∧ w.toInt ≤ 499) ∧ ¬(w.toInt = 901 ∧ queue = [])) := by
  have houtcome := nextOutcome_of_word hrunning hword
  cases hoperation : Operation.ofNumber? w.toInt with
  | none =>
    have hnumber := Operation.ofNumber?_eq_none_iff.1 hoperation
    simp only [houtcome, hoperation]
    simp
    omega
  | some operation =>
    -- Each operation has its own range of numbers, and only input looks at anything else.
    have hcodes := Operation.ofNumber?_eq_some_iff.1 hoperation
    simp only [houtcome, hoperation]
    cases operation with
    | input =>
      simp only [Operation.Codes] at hcodes
      cases queue <;> simp [Operation.outcome, fetched, hinput, Input.read, Except.map, hcodes]
    | _ =>
      simp only [Operation.Codes] at hcodes
      simp [Operation.outcome, fetched]
      omega

/-- A running machine with queued input ends the cycle of a word in one of five ways. -/
theorem nextOutcome_cases {m : Machine} {queue : List Word} {w : Word}
    (hinput : m.input = .queue queue) (hrunning : m.halted = false)
    (hword : m.memory.get? m.registers.programCounter = some w) :
    (m.nextOutcome =
        .error (.unhandledOpcode w.leadingDigit (some (m.registers.programCounter + 1))) ∧
      w.toInt ≤ -100) ∨
    m.nextOutcome = .error (.reservedOpcode (m.registers.programCounter + 1)) ∨
    m.nextOutcome = .error .queueExhausted ∨
    m.nextOutcome = .ok .halted ∨
    m.nextOutcome = .ok .continues := by
  obtain ⟨hunhandled, hreserved, hexhausted, hhalt, hcontinue⟩ :=
    nextOutcome_iff hinput hrunning hword
  by_cases hlow : w.toInt ≤ -100
  · exact .inl ⟨hunhandled.2 hlow, hlow⟩
  by_cases hfour : 400 ≤ w.toInt ∧ w.toInt ≤ 499
  · exact .inr (.inl (hreserved.2 hfour))
  by_cases hempty : w.toInt = 901 ∧ queue = []
  · exact .inr (.inr (.inl (hexhausted.2 hempty)))
  by_cases hzero : w.toInt ≤ 99
  · exact .inr (.inr (.inr (.inl (hhalt.2 ⟨by omega, hzero⟩))))
  · exact .inr (.inr (.inr (.inr (hcontinue.2 ⟨by omega, hfour, hempty⟩))))

/-! ## What leaves a cycle -/

/-- How the next cycle ends for its caller. -/
def nextAnswer (m : Machine) : Except Escape Progress :=
  m.step.answer.map TraceEntry.progress

theorem nextAnswer_eq (m : Machine) : m.nextAnswer = m.nextOutcome.mapError Escape.ofError := by
  rw [nextAnswer, nextOutcome, Effect.answer]
  cases m.step.outcome <;> rfl

variable {m : Machine} {queue : List Word} {w : Word}

theorem nextAnswer_of_halted (h : m.halted = true) :
    m.nextAnswer = .error (.raised .machineHalted) := by
  rw [nextAnswer, step_of_halted h]
  rfl

/-- A program counter without a cell is named in the error, if it can be written. -/
theorem nextAnswer_of_no_cell (hrunning : m.halted = false)
    (hword : m.memory.get? m.registers.programCounter = none) :
    m.nextAnswer =
      .error (if Text.IsWritable m.registers.programCounter then
          .raised (.addressOutOfRange m.registers.programCounter (some m.registers.programCounter))
        else .overlong m.registers.programCounter) := by
  have hnumbers : (m.addressFault m.registers.programCounter).numbers =
      [m.registers.programCounter] := rfl
  have hanswer : m.nextAnswer =
      .error (Escape.ofError (m.addressFault m.registers.programCounter)) := by
    rw [nextAnswer, step_of_no_cell hrunning hword]
    rfl
  rw [hanswer, Escape.ofError_of_numbers_eq hnumbers]
  rfl

theorem writable_of_cell (hword : m.memory.get? m.registers.programCounter = some w) :
    Text.IsWritable m.registers.programCounter := by
  have hbounds := Memory.bounds_of_get? hword
  simp only [memorySize] at hbounds
  exact Text.isWritable_of_small (by omega)

/-- The errors for a word leave the cycle as they are. -/
theorem nextAnswer_of_word (hinput : m.input = .queue queue) (hrunning : m.halted = false)
    (hword : m.memory.get? m.registers.programCounter = some w) :
    m.nextAnswer = m.nextOutcome.mapError .raised := by
  rw [nextAnswer_eq]
  rcases nextOutcome_cases hinput hrunning hword with ⟨h, -⟩ | h | h | h | h
  · have hdigit : Text.IsWritable w.leadingDigit := by
      have hsum := w.hundred_mul_leadingDigit_add
      have hdigits := w.lastTwoDigits_bounds
      have hlower := w.lower
      have hupper := w.upper
      exact Text.isWritable_of_small (by omega)
    rw [h]
    exact congrArg Except.error
      ((Escape.ofError_of_numbers_eq rfl).trans (if_pos hdigit))
  all_goals rw [h]; rfl

/-- The number of the fetched word tells the five ways apart in which a cycle ends for its
caller. -/
theorem nextAnswer_iff (hinput : m.input = .queue queue) (hrunning : m.halted = false)
    (hword : m.memory.get? m.registers.programCounter = some w) :
    (m.nextAnswer = .error (.raised
        (.unhandledOpcode w.leadingDigit (some (m.registers.programCounter + 1)))) ↔
      w.toInt ≤ -100) ∧
    (m.nextAnswer = .error (.raised (.reservedOpcode (m.registers.programCounter + 1))) ↔
      400 ≤ w.toInt ∧ w.toInt ≤ 499) ∧
    (m.nextAnswer = .error (.raised .queueExhausted) ↔ w.toInt = 901 ∧ queue = []) ∧
    (m.nextAnswer = .ok .halted ↔ -99 ≤ w.toInt ∧ w.toInt ≤ 99) ∧
    (m.nextAnswer = .ok .continues ↔
      99 < w.toInt ∧ ¬(400 ≤ w.toInt ∧ w.toInt ≤ 499) ∧ ¬(w.toInt = 901 ∧ queue = [])) := by
  have herror (error : Error) :
      m.nextAnswer = .error (.raised error) ↔ m.nextOutcome = .error error := by
    rw [nextAnswer_of_word hinput hrunning hword, Result.mapError_eq_error_iff]
    simp
  have hok (progress : Progress) :
      m.nextAnswer = .ok progress ↔ m.nextOutcome = .ok progress := by
    rw [nextAnswer_of_word hinput hrunning hword, Result.mapError_eq_ok_iff]
  simp only [herror, hok]
  exact nextOutcome_iff hinput hrunning hword

theorem escape_of_word (hinput : m.input = .queue queue) (hrunning : m.halted = false)
    (hword : m.memory.get? m.registers.programCounter = some w) {escape : Escape}
    (h : m.nextAnswer = .error escape) :
    (w.toInt ≤ -100 ∧ escape = .raised
        (.unhandledOpcode w.leadingDigit (some (m.registers.programCounter + 1)))) ∨
      escape = .raised (.reservedOpcode (m.registers.programCounter + 1)) ∨
      escape = .raised .queueExhausted := by
  rw [nextAnswer_of_word hinput hrunning hword, Result.mapError_eq_error_iff] at h
  obtain ⟨error, herror, rfl⟩ := h
  rcases nextOutcome_cases hinput hrunning hword with ⟨hcase, hlow⟩ | hcase | hcase | hcase | hcase
  · cases herror.symm.trans hcase
    exact .inl ⟨hlow, rfl⟩
  · cases herror.symm.trans hcase
    exact .inr (.inl rfl)
  · cases herror.symm.trans hcase
    exact .inr (.inr rfl)
  · cases herror.symm.trans hcase
  · cases herror.symm.trans hcase

/-- A program counter that cannot be written has no cell, and what leaves the cycle is about it. -/
theorem nextAnswer_of_overlong (hrunning : m.halted = false)
    (hcounter : ¬Text.IsWritable m.registers.programCounter) :
    m.nextAnswer = .error (.overlong m.registers.programCounter) := by
  cases hword : m.memory.get? m.registers.programCounter with
  | some w => exact absurd (writable_of_cell hword) hcounter
  | none => rw [nextAnswer_of_no_cell hrunning hword, if_neg hcounter]

/-- The exact outcome of a cycle, whatever the state of the machine and the words in its memory: it
fails if the machine has halted, else if no cell is at the program counter, and else the number of
the word in this cell decides. The program counter that has no cell is named in the error that
leaves the cycle, unless it has more digits than can be written; then this is what leaves it. No
other error is possible; in particular the address in a word is never missed, and no word is
without a handler once it is decoded. -/
theorem nextAnswer_exact (hinput : m.input = .queue queue) :
    (m.nextAnswer = .error (.raised .machineHalted) ↔ m.halted = true) ∧
    let counter := m.registers.programCounter
    (m.halted = false →
      (m.nextAnswer = .error (.raised (.addressOutOfRange counter (some counter))) ↔
        (counter < 0 ∨ 99 < counter) ∧ Text.IsWritable counter) ∧
      (m.nextAnswer = .error (.overlong counter) ↔ ¬Text.IsWritable counter) ∧
      ∀ w, m.memory.get? counter = some w →
        (m.nextAnswer =
            .error (.raised (.unhandledOpcode w.leadingDigit (some (counter + 1)))) ↔
          w.toInt ≤ -100) ∧
        (m.nextAnswer = .error (.raised (.reservedOpcode (counter + 1))) ↔
          400 ≤ w.toInt ∧ w.toInt ≤ 499) ∧
        (m.nextAnswer = .error (.raised .queueExhausted) ↔ w.toInt = 901 ∧ queue = []) ∧
        (m.nextAnswer = .ok .halted ↔ -99 ≤ w.toInt ∧ w.toInt ≤ 99) ∧
        (m.nextAnswer = .ok .continues ↔
          99 < w.toInt ∧ ¬(400 ≤ w.toInt ∧ w.toInt ≤ 499) ∧ ¬(w.toInt = 901 ∧ queue = []))) ∧
    ∀ escape, m.nextAnswer = .error escape →
      escape = .raised .machineHalted ∨
      escape = .raised (.addressOutOfRange counter (some counter)) ∨
      (¬Text.IsWritable counter ∧ escape = .overlong counter) ∨
      (∃ w, m.memory.get? counter = some w ∧ w.toInt ≤ -100 ∧
        escape = .raised (.unhandledOpcode w.leadingDigit (some (counter + 1)))) ∨
      escape = .raised (.reservedOpcode (counter + 1)) ∨
      escape = .raised .queueExhausted := by
  extract_lets counter
  cases hhalted : m.halted with
  | true =>
    rw [nextAnswer_of_halted hhalted]
    refine ⟨by simp, by simp, ?_⟩
    rintro escape ⟨⟩
    exact .inl rfl
  | false =>
    cases hword : m.memory.get? counter with
    | none =>
      have hrange : counter < 0 ∨ 99 < counter := by
        have hout := Memory.get?_eq_none_iff.1 hword
        simp only [memorySize] at hout
        omega
      rw [nextAnswer_of_no_cell hhalted hword]
      by_cases hcounter : Text.IsWritable counter
      · rw [if_pos hcounter]
        refine ⟨by simp, fun _ => ⟨by simp [counter, hrange, hcounter], by simp [hcounter],
          by simp⟩, ?_⟩
        rintro escape ⟨⟩
        exact .inr (.inl rfl)
      · rw [if_neg hcounter]
        refine ⟨by simp, fun _ => ⟨by simp [hcounter], by simp [counter, hcounter], by simp⟩, ?_⟩
        rintro escape ⟨⟩
        exact .inr (.inr (.inl ⟨hcounter, rfl⟩))
    | some w =>
      have hcell : ¬(counter < 0 ∨ 99 < counter) := by
        have hbounds := Memory.bounds_of_get? hword
        simp only [memorySize] at hbounds
        omega
      have hcounter : Text.IsWritable counter := writable_of_cell hword
      have hescape {escape : Escape} (h : m.nextAnswer = .error escape) :=
        escape_of_word hinput hhalted hword h
      refine ⟨⟨fun h => ?_, by simp⟩, fun _ => ⟨⟨fun h => ?_, fun h => absurd h.1 hcell⟩,
        ⟨fun h => ?_, fun h => absurd hcounter h⟩, ?_⟩, fun escape h => ?_⟩
      · obtain ⟨-, ⟨⟩⟩ | ⟨⟨⟩⟩ | ⟨⟨⟩⟩ := hescape h
      · obtain ⟨-, ⟨⟩⟩ | ⟨⟨⟩⟩ | ⟨⟨⟩⟩ := hescape h
      · obtain ⟨-, ⟨⟩⟩ | ⟨⟨⟩⟩ | ⟨⟨⟩⟩ := hescape h
      · rintro _ ⟨⟩
        exact nextAnswer_iff hinput hhalted hword
      · rcases hescape h with ⟨hlow, rfl⟩ | rfl | rfl
        · exact .inr (.inr (.inr (.inl ⟨w, rfl, hlow, rfl⟩)))
        · exact .inr (.inr (.inr (.inr (.inl rfl))))
        · exact .inr (.inr (.inr (.inr (.inr rfl))))

/-- A transfer from an empty queue fails although the machine runs and its word is in order. -/
theorem nextAnswer_of_empty_queue :
    { Machine.fresh (.queue []) true with
      memory := (Memory.blank memorySize).overwrite 0 [.wrap 901] }.nextAnswer =
        .error (.raised .queueExhausted) :=
  ((nextAnswer_exact rfl).2.1 rfl).2.2 (.wrap 901) (by decide +kernel) |>.2.2.1.2
    ⟨by decide, rfl⟩

/-- The error does not name every program counter without a cell: one of too many digits leaves the
cycle by itself. -/
theorem not_forall_nextAnswer_eq_addressOutOfRange :
    ¬∀ (m : Machine) (queue : List Word), m.input = .queue queue → m.halted = false →
      (m.nextAnswer = .error (.raised (.addressOutOfRange m.registers.programCounter
          (some m.registers.programCounter))) ↔
        m.registers.programCounter < 0 ∨ 99 < m.registers.programCounter) := by
  intro h
  let m := (fresh (.queue []) false).setProgramCounter (10 ^ Text.maxDigits)
  have hoverlong : m.nextAnswer = .error (.overlong m.registers.programCounter) :=
    nextAnswer_of_overlong rfl Text.not_isWritable_pow
  have hcell : ¬(0 ≤ m.registers.programCounter ∧ m.registers.programCounter ≤ 99) := by
    intro hrange
    have hsmall : Text.IsWritable m.registers.programCounter :=
      Text.isWritable_of_small (by omega)
    exact Text.not_isWritable_pow hsmall
  have hraised := (h m [] rfl rfl).2 (by omega)
  cases hraised.symm.trans hoverlong

end Machine

end DecimalMachine
