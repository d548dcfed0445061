import DecimalMachine.Proofs.Cycle.Agreement
import DecimalMachine.Proofs.Cycle.Failure
import DecimalMachine.Proofs.Machine.Loading

/-!
# Typed input as a queue

Typed lines serve a program as well as a queue of the words that they hold. A read may consume any
number of refused lines before the one that answers it, so lines and words do not go in step; but
the lines that are left after a read hold exactly the words that are left in the queue, and this is
all that a program can notice. What shows is a prompt for each line that was consumed.

## Main definitions

- `wordOfLine?` — the word that a typed line holds
- `typedWords` — the words of the lines before the end of what is typed
- `EndsAfter` — the input has ended after some of the lines
- `Machine.prompts` — the prompts that a number of cycles show
-/

namespace DecimalMachine

/-- The word that a typed line holds: its text without the blanks around it is the numeral of a
number in range. -/
def wordOfLine? (line : String) : Option Word :=
  (Text.readNumeral (Text.trim line.toList)).toOption.bind Word.ofInt?

/-- The words that typed lines hold, in order, up to the line that ends the input. -/
def typedWords (lines : List String) : List Word :=
  (lines.takeWhile fun line => !line.isEmpty).filterMap wordOfLine?

/-- The input ended after some of the lines were read: no line was left then, or the next one was
the empty line, which is gone as well. -/
def EndsAfter (lines read left : List String) : Prop :=
  "" ∉ read ∧ (lines = read ∧ left = [] ∨ lines = read ++ "" :: left)

/-- The prompts among events. -/
def promptsOf (events : List Event) : List String := events.filterMap Event.prompt?

/-! ## Reading -/

theorem answerLine_cases (line : String) :
    (∃ w, wordOfLine? line = some w ∧ answerLine line = .ok w) ∨
      (wordOfLine? line = none ∧ ∃ complaint, answerLine line = .error complaint) := by
  unfold wordOfLine? answerLine
  cases Text.readNumeral (Text.trim line.toList) with
  | error fault => exact .inr ⟨rfl, _, rfl⟩
  | ok n =>
    cases hword : Word.ofInt? n with
    | none => exact .inr ⟨hword, outOfRangeComplaint, by simp only [hword]⟩
    | some w => exact .inl ⟨w, hword, by simp only [hword]⟩

theorem EndsAfter.append {before lines read left : List String} (h : EndsAfter lines read left)
    (hbefore : "" ∉ before) : EndsAfter (before ++ lines) (before ++ read) left := by
  obtain ⟨hread, ⟨rfl, rfl⟩ | rfl⟩ := h
  · exact ⟨by simpa using ⟨hbefore, hread⟩, .inl ⟨rfl, rfl⟩⟩
  · exact ⟨by simpa using ⟨hbefore, hread⟩, .inr (List.append_assoc before read _).symm⟩

theorem typedWords_cons {line : String} (hne : line ≠ "") (rest : List String) :
    typedWords (line :: rest) = (wordOfLine? line).toList ++ typedWords rest := by
  have hfull : line.isEmpty = false := by simpa using hne
  cases hword : wordOfLine? line <;> simp [typedWords, hfull, hword]

/-- A refused line is answered by the lines behind it, and adds a prompt. -/
theorem readTyped_of_refused {line complaint : String} (prompt : String) (rest : List String)
    (hne : line ≠ "") (hanswer : answerLine line = .error complaint) :
    (readTyped prompt (line :: rest)).outcome = (readTyped prompt rest).outcome ∧
      (readTyped prompt (line :: rest)).input = (readTyped prompt rest).input ∧
      promptsOf (readTyped prompt (line :: rest)).events =
        prompt :: promptsOf (readTyped prompt rest).events := by
  have hfull : line.isEmpty = false := by simpa using hne
  simp only [readTyped, hfull, hanswer]
  exact ⟨rfl, rfl, rfl⟩

/-- A read goes on to the first line that holds a word, which is the next word of the queue, and the
lines behind it hold the other words; or it comes to the end, and then no line held a word. Each
line that it consumes is the answer to a prompt, and the end is the answer to one more. -/
theorem readTyped_cases (prompt : String) (lines : List String) :
    (∃ w read left, lines = read ++ left ∧ "" ∉ read ∧ typedWords lines = w :: typedWords left ∧
      (readTyped prompt lines).outcome = .ok w ∧
      (readTyped prompt lines).input = .typed prompt left ∧
      promptsOf (readTyped prompt lines).events = List.replicate read.length prompt) ∨
    (typedWords lines = [] ∧ (readTyped prompt lines).outcome = .error .linesExhausted ∧
      ∃ read left, EndsAfter lines read left ∧
        (readTyped prompt lines).input = .typed prompt left ∧
        promptsOf (readTyped prompt lines).events = List.replicate (read.length + 1) prompt) := by
  induction lines with
  | nil => exact .inr ⟨rfl, rfl, [], [], ⟨by simp, .inl ⟨rfl, rfl⟩⟩, rfl, rfl⟩
  | cons line rest ih =>
    by_cases hempty : line = ""
    · subst hempty
      exact .inr ⟨rfl, rfl, [], rest, ⟨by simp, .inr rfl⟩, rfl, rfl⟩
    have hline : "" ∉ [line] := by simpa using Ne.symm (a := line) hempty
    rcases answerLine_cases line with ⟨w, hword, hanswer⟩ | ⟨hnone, complaint, hanswer⟩
    · have hfull : line.isEmpty = false := by simpa using hempty
      refine .inl ⟨w, [line], rest, rfl, hline, ?_, ?_⟩
      · rw [typedWords_cons hempty, hword]
        rfl
      · simp [readTyped, hfull, hanswer, promptsOf, Event.prompt?]
    · have hwords : typedWords (line :: rest) = typedWords rest := by
        rw [typedWords_cons hempty, hnone]
        rfl
      obtain ⟨houtcome, hinput, hprompts⟩ := readTyped_of_refused prompt rest hempty hanswer
      rw [hwords, houtcome, hinput, hprompts]
      rcases ih with
        ⟨w, read, left, rfl, hread, hword, hok, hleft, hshown⟩ |
        ⟨hnil, herror, read, left, hends, hleft, hshown⟩
      · refine .inl ⟨w, line :: read, left, rfl, ?_, hword, hok, hleft, ?_⟩
        · exact List.not_mem_cons_of_ne_of_not_mem (Ne.symm hempty) hread
        · rw [hshown]
          rfl
      · refine .inr ⟨hnil, herror, line :: read, left, hends.append hline, hleft, ?_⟩
        rw [hshown]
        rfl

namespace Machine

variable {m : Machine} {prompt : String} {lines : List String}

/-- The prompts that the first `n` cycles show. -/
def prompts (m : Machine) (n : Nat) : List String :=
  (List.range n).flatMap fun i => promptsOf (m.cycled i).step.events

theorem prompts_succ (m : Machine) (n : Nat) :
    m.prompts (n + 1) = m.prompts n ++ promptsOf (m.cycled n).step.events := by
  simp [prompts, List.range_succ]

/-! ## One cycle -/

theorem promptsOf_run (m : Machine) (operation : Operation) :
    promptsOf (operation.run m).events =
      if operation = .input then promptsOf m.input.read.events else [] := by
  cases operation with
  | add address | subtract address | load address =>
    simp only [Operation.run, compute]
    cases m.memory.get? address <;> rfl
  | store address =>
    simp only [Operation.run]
    cases m.memory.set? address m.registers.accumulator <;> rfl
  | jumpIfZero address | jumpIfNotNegative address =>
    simp only [Operation.run]
    split <;> rfl
  | input =>
    simp only [Operation.run]
    cases m.input.read.outcome <;> rfl
  | _ => rfl

/-- Nothing but a read shows a prompt. -/
theorem promptsOf_step (m : Machine) :
    promptsOf m.step.events =
      if m.next? = some .input then promptsOf m.input.read.events else [] := by
  rcases step_cases m with ⟨w, operation, hnext, -, -, -, hstep⟩ | ⟨hnext, registers, error, hstep⟩
  · have hrun := promptsOf_run (m.fetched w) operation
    rw [hstep, hnext]
    cases houtcome : (operation.run (m.fetched w)).outcome with
    | error error =>
      rw [obey_of_error houtcome]
      simpa using hrun
    | ok progress =>
      have hhalt : promptsOf (m.haltEvents progress) = [] := by cases progress <;> rfl
      simp only [obey, houtcome, promptsOf, List.filterMap_append] at hrun hhalt ⊢
      simpa [hhalt] using hrun
  · simp [hstep, hnext, promptsOf]

/-- A cycle that finds the queue empty was to read input. -/
theorem next?_of_queueExhausted {queue : List Word} (hinput : m.input = .queue queue)
    (herror : m.step.outcome = .error .queueExhausted) : m.next? = some .input ∧ queue = [] := by
  cases hhalted : m.halted with
  | true =>
    rw [step_of_halted hhalted] at herror
    cases herror
  | false =>
    cases hword : m.memory.get? m.registers.programCounter with
    | none =>
      rw [step_of_no_cell hhalted hword] at herror
      cases herror
    | some w =>
      obtain ⟨hnumber, hempty⟩ := (nextOutcome_iff hinput hhalted hword).2.2.1.1
        (by rw [nextOutcome, herror]; rfl)
      refine ⟨?_, hempty⟩
      simp only [next?, hhalted, hword, Bool.false_eq_true, if_false, Option.bind_some, hnumber]
      rfl

/-- With lines in place of the words that they hold, a cycle that does not find the queue empty ends
the same, and consumes the lines up to the one that holds the word it read. -/
theorem step_typed (prompt : String) (hqueue : m.input = .queue (typedWords lines))
    (hsupplied : m.step.outcome ≠ .error .queueExhausted) :
    let typed := ({ m with input := .typed prompt lines } : Machine)
    typed.step.outcome = m.step.outcome ∧
      ∃ read left, lines = read ++ left ∧ "" ∉ read ∧
        m.step.machine.input = .queue (typedWords left) ∧
        typed.step.machine = { m.step.machine with input := .typed prompt left } ∧
        promptsOf typed.step.events = List.replicate read.length prompt := by
  intro typed
  have hshown := promptsOf_step typed
  by_cases hnext : m.next? = some .input
  · have hnext' : typed.next? = some .input := hnext
    rw [if_pos hnext'] at hshown
    rcases readTyped_cases prompt lines with
      ⟨w, read, left, hlines, hne, hwords, hok, hleft, hprompts⟩ | ⟨hnil, -⟩
    · have hread : m.input.read = ⟨.queue (typedWords left), [], .ok w⟩ := by
        rw [hqueue, hwords]
        rfl
      obtain ⟨houtcome, hmachine⟩ := step_withInput (m := m) (.typed prompt lines)
        fun _ => by rw [hread]; exact hok
      refine ⟨houtcome, read, left, hlines, hne, ?_, ?_, hshown.trans hprompts⟩
      · rw [input_step, if_pos hnext, hread]
      · rw [hmachine, if_pos hnext]
        exact congrArg (fun input => { m.step.machine with input := input }) hleft
    · have hread : m.input.read.outcome = .error .queueExhausted := by
        rw [hqueue, hnil]
        rfl
      obtain ⟨w, -, hstep⟩ := step_of_read_error hnext hread
      exact absurd (by rw [hstep]) hsupplied
  · have hnext' : ¬typed.next? = some .input := hnext
    obtain ⟨houtcome, hmachine⟩ := step_withInput (m := m) (.typed prompt lines)
      fun hinput => absurd hinput hnext
    refine ⟨houtcome, [], lines, rfl, by simp, ?_, ?_, ?_⟩
    · rw [input_step, if_neg hnext, hqueue]
    · rw [hmachine, if_neg hnext]
    · rw [hshown, if_neg hnext']
      rfl

/-- Where the queue is found empty, the lines come to their end. -/
theorem step_typed_of_exhausted (prompt : String) (hqueue : m.input = .queue (typedWords lines))
    (hexhausted : m.step.outcome = .error .queueExhausted) :
    let typed := ({ m with input := .typed prompt lines } : Machine)
    typed.step.outcome = .error .linesExhausted ∧
      ∃ read left, EndsAfter lines read left ∧
        typed.step.machine = { m.step.machine with input := .typed prompt left } ∧
        promptsOf typed.step.events = List.replicate (read.length + 1) prompt := by
  intro typed
  obtain ⟨hnext, hnil⟩ := next?_of_queueExhausted hqueue hexhausted
  have hnext' : typed.next? = some .input := hnext
  rcases readTyped_cases prompt lines with
    ⟨w, read, left, -, -, hwords, -⟩ | ⟨-, herror, read, left, hends, hleft, hprompts⟩
  · rw [hnil] at hwords
    cases hwords
  · have hread : m.input.read.outcome = .error .queueExhausted := by
      rw [hqueue, hnil]
      rfl
    obtain ⟨w, hword, hstep⟩ := step_of_read_error hnext hread
    obtain ⟨w', hword', hstep'⟩ := step_of_read_error hnext' herror
    obtain rfl : w = w' := Option.some.inj (hword.symm.trans hword')
    refine ⟨by rw [hstep'], read, left, hends, ?_, ?_⟩
    · rw [hstep, hstep']
      exact congrArg (fun input => { m.fetched w with input := input }) hleft
    · rw [hstep']
      exact hprompts

/-- The lines come to their end nowhere else. -/
theorem linesExhausted_iff (prompt : String) (hqueue : m.input = .queue (typedWords lines)) :
    ({ m with input := .typed prompt lines } : Machine).step.outcome = .error .linesExhausted ↔
      m.step.outcome = .error .queueExhausted := by
  constructor
  · intro hended
    by_contra hgoes
    rw [(step_typed prompt hqueue hgoes).1] at hended
    -- A machine with a queue has no such failure.
    obtain ⟨hfailure, -⟩ := failure_of_step hqueue hended
    cases hfailure
  · intro hexhausted
    exact (step_typed_of_exhausted prompt hqueue hexhausted).1

/-! ## Whole runs -/

/-- As long as no cycle finds the queue empty, lines in place of the words that they hold change
nothing but the input device. -/
theorem cycled_typed {n : Nat} (prompt : String) (hqueue : m.input = .queue (typedWords lines))
    (hsupplied : ∀ i < n, (m.cycled i).step.outcome ≠ .error .queueExhausted) :
    let typed := ({ m with input := .typed prompt lines } : Machine)
    (∀ i < n, (typed.cycled i).step.outcome = (m.cycled i).step.outcome) ∧
      ∃ read left, lines = read ++ left ∧ "" ∉ read ∧
        (m.cycled n).input = .queue (typedWords left) ∧
        typed.cycled n = { m.cycled n with input := .typed prompt left } ∧
        typed.prompts n = List.replicate read.length prompt := by
  intro typed
  induction n with
  | zero =>
    exact ⟨fun i hi => absurd hi (Nat.not_lt_zero i), [], lines, rfl, by simp, hqueue, rfl, rfl⟩
  | succ n ih =>
    obtain ⟨houtcomes, read, left, hlines, hne, hleft, htyped, hprompts⟩ :=
      ih fun i hi => hsupplied i (by omega)
    obtain ⟨houtcome, more, rest, hmore, hne', hrest, hmachine, hshown⟩ :=
      step_typed prompt hleft (hsupplied n (by omega))
    rw [← htyped] at houtcome hmachine hshown
    refine ⟨Nat.forall_lt_succ_right.2 ⟨houtcomes, houtcome⟩, read ++ more, rest, ?_, ?_, hrest,
      hmachine, ?_⟩
    · rw [hlines, hmore, List.append_assoc]
    · simpa using ⟨hne, hne'⟩
    · rw [prompts_succ, hprompts, hshown, List.length_append, List.replicate_add]

/-- Typed and queued input are interchangeable. A program is loaded into a machine that reads typed
lines and into one that reads the words which these lines hold. Up to the first cycle that finds the
queue empty, both go through the same cycles: each ends with the same record or the same error and
leaves the same state but for the input device. The typed machine has then consumed some of the
lines, and shown a prompt for each. Where one machine comes to the end of its input the other does,
too, with the same state still; the prompt that the end was the answer to is then one more. -/
theorem typed_interchanges_queue {s typed : Machine} {program : List Operand} {count : Nat}
    (hload : ({ s with input := .typed prompt lines } : Machine).loadProgram program =
      .ok (typed, count)) :
    ∃ queued, ({ s with input := .queue (typedWords lines) } : Machine).loadProgram program =
        .ok (queued, count) ∧
      ∀ n, (∀ i < n, (queued.cycled i).step.outcome ≠ .error .queueExhausted) →
        (∀ i < n, (typed.cycled i).step.outcome = (queued.cycled i).step.outcome) ∧
        (∃ read left, lines = read ++ left ∧ "" ∉ read ∧
          typed.cycled n = { queued.cycled n with input := .typed prompt left } ∧
          typed.prompts n = List.replicate read.length prompt) ∧
        ((typed.cycled n).step.outcome = .error .linesExhausted ↔
          (queued.cycled n).step.outcome = .error .queueExhausted) ∧
        ((typed.cycled n).step.outcome = .error .linesExhausted →
          ∃ read left, EndsAfter lines read left ∧
            typed.cycled (n + 1) = { queued.cycled (n + 1) with input := .typed prompt left } ∧
            typed.prompts (n + 1) = List.replicate (read.length + 1) prompt) := by
  obtain ⟨queued, hqueued, htwin, ⟨hqueue, hold⟩, hlines, hold'⟩ :=
    twin_of_loadProgram (m := { s with input := .queue (typedWords lines) }) hload rfl
  have htyped : typed = { queued with input := .typed prompt lines } := by
    have hdevices := htwin.eq
    rwa [hlines, hold'.trans hold.symm] at hdevices
  refine ⟨queued, hqueued, fun n hsupplied => ?_⟩
  obtain ⟨houtcomes, read, left, hsplit, hne, hleft, hcycled, hprompts⟩ :=
    cycled_typed prompt hqueue hsupplied
  rw [← htyped] at houtcomes hcycled hprompts
  have hends := linesExhausted_iff prompt hleft
  rw [← hcycled] at hends
  refine ⟨houtcomes, ⟨read, left, hsplit, hne, hcycled, hprompts⟩, hends, fun hended => ?_⟩
  obtain ⟨-, more, rest, hmore, hmachine, hshown⟩ :=
    step_typed_of_exhausted prompt hleft (hends.1 hended)
  rw [← hcycled] at hmachine hshown
  refine ⟨read ++ more, rest, ?_, hmachine, ?_⟩
  · rw [hsplit]
    exact hmore.append hne
  · rw [prompts_succ, hprompts, hshown, ← List.replicate_add, List.length_append, Nat.add_assoc]

/-- Two lines are refused before one is read, the next one ends the input, and the last is never
read: four prompts for three lines. -/
theorem typed_interchanges_queue_to_end :
    let s := fresh (.queue []) true
    let program := [901, 902, 901, 0].map Operand.int
    let lines := ["x\n", "1000\n", " 7 \n", "", "5\n"]
    typedWords lines = [.wrap 7] ∧
      ∃ typed queued : Machine,
        ({ s with input := .typed "? " lines } : Machine).loadProgram program = .ok (typed, 4) ∧
        ({ s with input := .queue [.wrap 7] } : Machine).loadProgram program = .ok (queued, 4) ∧
        (queued.cycled 2).output.text = "7" ∧
        (typed.cycled 2).output = (queued.cycled 2).output ∧
        (queued.cycled 2).step.outcome = .error .queueExhausted ∧
        (typed.cycled 2).step.outcome = .error .linesExhausted ∧
        ∃ read left, EndsAfter lines read left ∧
          typed.cycled 3 = { queued.cycled 3 with input := .typed "? " left } ∧
          typed.prompts 3 = List.replicate (read.length + 1) "? " := by
  intro s program lines
  have hwords : typedWords lines = [.wrap 7] := by decide +kernel
  let queued := ({ s with
    input := .queue [.wrap 7]
    memory := (Memory.blank memorySize).overwrite 0
      ([901, 902, 901, 0].map .wrap) } : Machine).reset
  let typed := ({ queued with input := .typed "? " lines } : Machine)
  have hqueued : ({ s with input := .queue [.wrap 7] } : Machine).loadProgram program =
      .ok (queued, 4) := by decide +kernel
  have htyped : ({ s with input := .typed "? " lines } : Machine).loadProgram program =
      .ok (typed, 4) := by decide +kernel
  obtain ⟨queued', hqueued', hruns⟩ := typed_interchanges_queue htyped
  obtain rfl : queued = queued' := by
    rw [hwords, hqueued] at hqueued'
    exact (Prod.mk.inj (Except.ok.inj hqueued')).1
  obtain ⟨-, ⟨_, left, -, -, hsame, -⟩, hends, hended⟩ := hruns 2 (by decide +kernel)
  have hexhausted : (queued.cycled 2).step.outcome = .error .queueExhausted := by decide +kernel
  refine ⟨hwords, typed, queued, htyped, hqueued, by decide +kernel, by rw [hsame], hexhausted,
    hends.2 hexhausted, hended (hends.2 hexhausted)⟩

end Machine

end DecimalMachine
