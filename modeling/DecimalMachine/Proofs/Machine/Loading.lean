import DecimalMachine.Proofs.Cycle.Agreement
import DecimalMachine.Proofs.Machine.Footprint
import DecimalMachine.Proofs.Machine.Invariant
import DecimalMachine.Proofs.Result

/-!
# Loading erases history

A program that is loaded into a used machine runs as it would on a fresh one with the same input
device. Loading leaves one thing of the past behind, the output, and this is never read: a used and
a fresh machine go through the same cycles. They differ in what is put out by one line feed at most,
which sets a number that comes first off from a number that was put out before the program was
loaded.

## Main definitions

- `Machine.firstEmission?` — the first operation among a number of cycles that puts something out
- `Output.Continues` — an output that was begun before, against one that starts with the program
-/

namespace DecimalMachine

/-- Whether an operation puts something out. -/
def Operation.emits : Operation → Bool
  | writeNumber | writeCharacter => true
  | _ => false

/-- The first of the operations of the first `n` cycles that puts something out. -/
def Machine.firstEmission? (m : Machine) (n : Nat) : Option Operation :=
  (List.range n).findSome? fun i => (m.cycled i).next?.filter Operation.emits

theorem Machine.firstEmission?_succ (m : Machine) (n : Nat) :
    m.firstEmission? (n + 1) =
      (m.firstEmission? n).or ((m.cycled n).next?.filter Operation.emits) := by
  simp [firstEmission?, List.range_succ, List.findSome?_append]

namespace Output

/-- An output that was `old` when the program began, against the output of the program alone, given
the first operation that has put something out. -/
structure Continues (old : Output) (first : Option Operation) (alone output : Output) : Prop where
  text : output.text = old.text ++
    (if old.endsInNumber = true ∧ first = some .writeNumber then "\n" else "") ++ alone.text
  endsInNumber :
    output.endsInNumber = if first = none then old.endsInNumber else alone.endsInNumber
  alone_eq_empty : first = none → alone = .empty

variable {old alone output : Output} {first : Option Operation}

theorem continues_refl (old : Output) : old.Continues none .empty old :=
  ⟨by simp [empty], by simp, fun _ => rfl⟩

/-- A piece that comes after others is the same in both outputs; one that comes first may have to be
set off from the old output. -/
theorem Continues.append {operation : Operation} {piece piece' : String} {isNumber : Bool}
    (h : old.Continues first alone output)
    (hfirst : first = none → piece' =
      (if old.endsInNumber = true ∧ operation = .writeNumber then "\n" else "") ++ piece)
    (hlater : first ≠ none → piece' = piece) :
    old.Continues (first.or (some operation)) (alone.append piece isNumber)
      (output.append piece' isNumber) := by
  cases first with
  | none =>
    have halone := h.alone_eq_empty rfl
    have htext := h.text
    refine ⟨?_, by simp [Output.append], by simp⟩
    simp [Output.append, htext, hfirst rfl, halone, empty, String.append_assoc]
  | some earlier =>
    refine ⟨?_, by simp [Output.append], by simp⟩
    simp [Output.append, h.text, hlater (by simp), String.append_assoc]

theorem Continues.emit (h : old.Continues first alone output) (accumulator : Word)
    (operation : Operation) :
    old.Continues (first.or ((some operation).filter Operation.emits))
      (operation.emit accumulator alone) (operation.emit accumulator output) := by
  cases operation with
  | writeNumber =>
    -- The piece of a number depends on the flag, which is that of the old output at first.
    refine h.append (fun hfirst => ?_) (fun hlater => ?_)
    · simp only [numberPiece, h.endsInNumber, hfirst, h.alone_eq_empty hfirst, empty]
      cases old.endsInNumber <;> simp
    · simp only [numberPiece, h.endsInNumber, if_neg hlater]
  | writeCharacter => exact h.append (fun _ => by simp) fun _ => rfl
  | _ =>
    show old.Continues (first.or none) alone output
    rw [Option.or_none]
    exact h

end Output

namespace Machine

/-! ## Two runs -/

/-- A machine that differs from another in its output only goes through the same cycles and differs
in its output only, which it continues with what the other puts out. -/
theorem cycled_twin_of_output {m used : Machine} (h : m.Twin used)
    (hinput : used.input = m.input) (hempty : m.output = .empty) (n : Nat) :
    (m.cycled n).Twin (used.cycled n) ∧ (used.cycled n).input = (m.cycled n).input ∧
      used.output.Continues (m.firstEmission? n) (m.cycled n).output (used.cycled n).output := by
  induction n with
  | zero =>
    refine ⟨h, hinput, ?_⟩
    show used.output.Continues none m.output used.output
    rw [hempty]
    exact Output.continues_refl _
  | succ n ih =>
    obtain ⟨htwin, hsame, houtput⟩ := ih
    refine ⟨(htwin.step fun _ => by rw [hsame]).2, ?_, ?_⟩
    · rw [cycled, cycled, input_step, input_step, htwin.next?, hsame]
    · rw [firstEmission?_succ, cycled, cycled, output_step, output_step, htwin.next?,
        htwin.registers]
      cases (m.cycled n).next? with
      | none => simpa using houtput
      | some operation => exact houtput.emit _ operation

/-! ## Loading -/

variable {m : Machine} {program : List Operand} {error : Error}

theorem loadProgram_eq_ok_iff {loaded : Machine} {count : Nat} :
    m.loadProgram program = .ok (loaded, count) ↔
      ∃ memory, (Memory.blank memorySize).loadOperands program 0 = .ok (memory, count) ∧
        ({ m with memory := memory } : Machine).reset = loaded := by
  unfold loadProgram
  rw [Result.bind_eq_ok_iff]
  constructor
  · rintro ⟨⟨memory, count⟩, hload, ⟨⟩⟩
    exact ⟨memory, hload, rfl⟩
  · rintro ⟨memory, hload, rfl⟩
    exact ⟨_, hload, rfl⟩

theorem loadProgram_eq_error_iff :
    m.loadProgram program = .error error ↔
      (Memory.blank memorySize).loadOperands program 0 = .error error := by
  unfold loadProgram
  rw [Result.bind_eq_error_iff]
  constructor
  · rintro (hload | ⟨_, -, ⟨⟩⟩)
    exact hload
  · exact .inl

/-- An operand that makes no word is a number out of range or no whole number at all. -/
theorem error_of_toWord {operand : Operand} (h : operand.toWord = .error error) :
    (∃ n, error = .valueOutOfRange n) ∨ ∃ kind, error = .notAnInteger kind := by
  cases operand with
  | word w => cases h
  | int n =>
    left
    simp only [Operand.toWord, Operand.newWord, Word.ofInt] at h
    split at h <;> cases h
    exact ⟨n, rfl⟩
  | _ =>
    cases h
    exact .inr ⟨_, rfl⟩

/-- What loading leaves of a machine are its devices and its choice about the trace. -/
theorem twin_of_loadProgram {m' loaded' : Machine} {count : Nat}
    (hload : m'.loadProgram program = .ok (loaded', count))
    (hrecord : m'.recordTrace = m.recordTrace) :
    ∃ loaded, m.loadProgram program = .ok (loaded, count) ∧ loaded.Twin loaded' ∧
      (loaded.input = m.input ∧ loaded.output = m.output) ∧
      (loaded'.input = m'.input ∧ loaded'.output = m'.output) := by
  obtain ⟨memory, hmemory, rfl⟩ := loadProgram_eq_ok_iff.1 hload
  exact ⟨_, loadProgram_eq_ok_iff.2 ⟨memory, hmemory, rfl⟩, ⟨⟨rfl, rfl, rfl⟩, rfl, hrecord, rfl⟩,
    ⟨rfl, rfl⟩, ⟨rfl, rfl⟩⟩

/-- A program is refused for an operand that makes no word, or else for its length. -/
theorem error_of_loadProgram (h : m.loadProgram program = .error error) :
    (∃ operand ∈ program, operand.toWord = .error error ∧
      ((∃ n, error = .valueOutOfRange n) ∨ ∃ kind, error = .notAnInteger kind)) ∨
    (error = .programTooLarge program.length memorySize ∧ memorySize < program.length) := by
  have hload := loadProgram_eq_error_iff.1 h
  unfold Memory.loadOperands at hload
  rcases Result.bind_eq_error_iff.1 hload with hwords | ⟨words, hwords, hrest⟩
  · obtain ⟨before, operand, rest, rfl, -, hoperand⟩ := Result.mapM_eq_error_iff.1 hwords
    exact .inl ⟨operand, by simp, hoperand, error_of_toWord hoperand⟩
  · have hlength : words.length = program.length := (Result.mapM_eq_ok_iff.1 hwords).length_eq.symm
    rcases Result.bind_eq_error_iff.1 hrest with hload | ⟨_, -, ⟨⟩⟩
    unfold Memory.load at hload
    split at hload <;> cases hload
    right
    rw [hlength] at *
    refine ⟨by simp, by omega⟩

/-- Loading a program erases what was done before. Whatever state a machine is in, once a program is
loaded into it, every cycle ends as it does on a fresh machine with the same input and the same
program, with the same record or the same error, and leaves the same state but for the output. The
output is that of the fresh machine after the old one, with a line feed between them exactly if the
old output ends in a number and the first piece of the new one is a number. A program that is
refused leaves the machine as it was; it holds something that makes no word, or is too long. -/
theorem loadProgram_erases (s : Machine) (program : List Operand) :
    (∀ used count, s.loadProgram program = .ok (used, count) →
      ∃ clean, (fresh s.input s.recordTrace).loadProgram program = .ok (clean, count) ∧
        ∀ n, (used.cycled n).step.outcome = (clean.cycled n).step.outcome ∧
          used.cycled n = { clean.cycled n with output := (used.cycled n).output } ∧
          (used.cycled n).output.text = s.output.text ++
            (if s.output.endsInNumber = true ∧ clean.firstEmission? n = some .writeNumber
              then "\n" else "") ++ (clean.cycled n).output.text) ∧
    ∀ error, s.loadProgram program = .error error →
      s.after (.loadProgram program) = s ∧
        ((∃ operand ∈ program, operand.toWord = .error error ∧
            ((∃ n, error = .valueOutOfRange n) ∨ ∃ kind, error = .notAnInteger kind)) ∨
          (error = .programTooLarge program.length memorySize ∧ memorySize < program.length)) := by
  constructor
  · intro used count hused
    obtain ⟨clean, hclean, htwin, ⟨hinput, hempty⟩, hinput', hold⟩ :=
      twin_of_loadProgram (m := fresh s.input s.recordTrace) hused rfl
    refine ⟨clean, hclean, fun n => ?_⟩
    obtain ⟨htwin, hsame, houtput⟩ :=
      cycled_twin_of_output htwin (hinput'.trans hinput.symm) hempty n
    refine ⟨(htwin.step fun _ => by rw [hsame]).1, ?_, ?_⟩
    · calc used.cycled n
          = { clean.cycled n with
              input := (used.cycled n).input
              output := (used.cycled n).output } := htwin.eq
        _ = { clean.cycled n with output := (used.cycled n).output } := by rw [hsame]
    · rw [← hold]
      exact houtput.text
  · intro error herror
    exact ⟨by simp [after, herror], error_of_loadProgram herror⟩

example :
    let program := [.int 902, .int 0]
    let once := ((fresh (.queue []) false).after (.loadProgram program)).cycled 2
    ((once.after (.loadProgram program)).cycled 2).output.text = "0\n0" := by decide +kernel

end Machine

end DecimalMachine
