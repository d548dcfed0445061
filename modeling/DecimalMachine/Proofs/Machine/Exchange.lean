import DecimalMachine.Proofs.Cycle.Failure
import DecimalMachine.Proofs.Device.Emission
import DecimalMachine.Proofs.Machine.Footprint
import DecimalMachine.Proofs.Machine.Invariant
import DecimalMachine.Proofs.Machine.Record

/-!
# Input and output over a history

A machine is in use: cycles run, and between them words are pushed into its queue. Nothing that goes
in or out is lost, doubled or put in another order. The words that cycles have read, followed by
those still in the queue, are the words that were there at first, followed by those that were
pushed; and the output has grown by the text of what cycles have put out. Turns that fail have no
part in this.

## Main definitions

- `Machine.Turn` — a cycle, or a push
- `TraceEntry.read?`, `TraceEntry.emission?` — what a recorded cycle read and put out
- `Machine.records` — the records of the cycles among turns
-/

namespace DecimalMachine

/-- The word that a recorded cycle read: the accumulator that it left. -/
def TraceEntry.read? (entry : TraceEntry) : Option Word :=
  if entry.word.toInt = 901 then some entry.after.accumulator else none

/-- What a recorded cycle put out: its accumulator as a number, or the character that has the low
eight bits of the accumulator as its code point. -/
def TraceEntry.emission? (entry : TraceEntry) : Option Emission :=
  if entry.word.toInt = 902 then some (.number entry.before.accumulator.toInt)
  else if entry.word.toInt = 922 then
    some (.character (Char.ofNat (entry.before.accumulator.toInt % 256).toNat))
  else none

namespace Machine

/-- Something that is done to a machine in use. -/
inductive Turn where
  | cycle
  | push (operand : Operand)

namespace Turn

def action : Turn → Action
  | cycle => .cycle
  | push operand => .push operand

/-- The word that a turn adds to the queue. -/
def pushed? : Turn → Option Word
  | cycle => none
  | push operand => operand.readWord.toOption

/-- A turn fails. -/
def Fails (m : Machine) : Turn → Prop
  | cycle => ∃ error, m.step.outcome = .error error
  | push operand => ∃ error, m.pushInput operand = .error error

/-- The record of a turn: that of its cycle, if it has one that does not fail. -/
def record? (m : Machine) : Turn → Option TraceEntry
  | cycle => m.step.outcome.toOption
  | push _ => none

end Turn

/-- The machine after turns, failed ones included. -/
def afterTurns (m : Machine) (turns : List Turn) : Machine :=
  turns.foldl (fun now turn => now.after turn.action) m

/-- The records of the cycles among turns that do not fail. -/
def records (m : Machine) : List Turn → List TraceEntry
  | [] => []
  | turn :: rest => (turn.record? m).toList ++ (m.after turn.action).records rest

variable {m : Machine} {entry : TraceEntry} {queue : List Word}

/-! ## One turn -/

theorem read?_eq_none (hok : m.step.outcome = .ok entry) (hnext : m.next? ≠ some .input) :
    entry.read? = none := by
  unfold TraceEntry.read?
  rw [if_neg]
  intro hnumber
  apply hnext
  rw [next?_of_step hok, Operation.ofNumber?_eq_some_iff]
  exact hnumber

/-- A cycle that reads takes the word at the head of the queue into the accumulator. -/
theorem read_step (hinput : m.input = .queue queue) (hok : m.step.outcome = .ok entry) :
    ∃ left, m.step.machine.input = .queue left ∧ entry.read?.toList ++ left = queue := by
  have hleft := input_step m
  by_cases hnext : m.next? = some .input
  · rw [if_pos hnext, hinput] at hleft
    have hnumber : entry.word.toInt = 901 :=
      Operation.ofNumber?_eq_some_iff.1 ((next?_of_step hok).symm.trans hnext)
    cases queue with
    | nil =>
      have hread : m.input.read.outcome = .error .queueExhausted := by
        rw [hinput]
        rfl
      obtain ⟨_, -, hstep⟩ := step_of_read_error hnext hread
      rw [hstep] at hok
      cases hok
    | cons w rest =>
      have hfetches : m.Fetches 901 := by
        rw [Fetches, (records_of_step hok).word, Option.map_some, hnumber]
      have hread : Operation.ofNumber? 901 = some .input := rfl
      have haccumulator : entry.after.accumulator = w := by
        rw [(records_of_step hok).after, step_of_fetches hok hfetches hread]
        simp [Operation.run, hinput, Input.read, complete, setAccumulator]
      refine ⟨rest, hleft, ?_⟩
      rw [TraceEntry.read?, if_pos hnumber, haccumulator]
      rfl
  · refine ⟨queue, ?_, ?_⟩
    · rw [hleft, if_neg hnext, hinput]
    · rw [read?_eq_none hok hnext]
      rfl

/-- A cycle puts out what its record says. -/
theorem emission_step (hok : m.step.outcome = .ok entry) :
    m.step.machine.output = entry.emission?.toList.foldl Output.put m.output := by
  rw [output_step, next?_of_step hok, TraceEntry.emission?, (records_of_step hok).before]
  cases hoperation : Operation.ofNumber? entry.word.toInt with
  | none =>
    have hlow := Operation.ofNumber?_eq_none_iff.1 hoperation
    rw [if_neg (by omega), if_neg (by omega)]
    rfl
  | some operation =>
    have hcodes := Operation.ofNumber?_eq_some_iff.1 hoperation
    cases operation with
    | writeNumber =>
      have hnumber : entry.word.toInt = 902 := hcodes
      rw [if_pos hnumber]
      rfl
    | writeCharacter =>
      have hnumber : entry.word.toInt = 922 := hcodes
      rw [if_neg (by omega), if_pos hnumber]
      rfl
    | _ =>
      simp only [Operation.Codes] at hcodes
      rw [if_neg (by omega), if_neg (by omega)]
      rfl

/-- A push adds the word of its operand to the queue, and fails if the operand has none. -/
theorem pushInput_of_queue (hinput : m.input = .queue queue) (operand : Operand) :
    m.pushInput operand =
      operand.readWord.map fun w => { m with input := .queue (queue ++ [w]) } := by
  rw [pushInput, hinput]
  cases hword : operand.readWord with
  | error error =>
    simp only [Input.push, hword]
    rfl
  | ok w =>
    simp only [Input.push, hword]
    rfl

/-- A turn that fails leaves the devices as they were; it has no record and pushes nothing. -/
theorem devices_of_fails {turn : Turn} (hinput : m.input = .queue queue) (h : turn.Fails m) :
    turn.pushed? = none ∧ turn.record? m = none ∧
      (m.after turn.action).input = m.input ∧ (m.after turn.action).output = m.output := by
  cases turn with
  | cycle =>
    obtain ⟨error, herror⟩ := h
    obtain ⟨⟨-, -, houtput, hleft, -⟩, -⟩ := step_frame_of_error hinput herror
    refine ⟨rfl, ?_, hleft, houtput⟩
    rw [Turn.record?, herror]
    rfl
  | push operand =>
    obtain ⟨error, herror⟩ := h
    have hkept : m.after (.push operand) = m := by
      simp only [after, herror]
    have hword : operand.readWord.toOption = none := by
      rw [pushInput_of_queue hinput] at herror
      cases hword : operand.readWord with
      | error error => rfl
      | ok w =>
        rw [hword] at herror
        cases herror
    exact ⟨hword, rfl, congrArg input hkept, congrArg output hkept⟩

/-- A turn moves words through the queue, and extends the output, by what it has to do with them. -/
theorem exchange_turn (hinput : m.input = .queue queue) (turn : Turn) :
    (∃ left, (m.after turn.action).input = .queue left ∧
      (turn.record? m).toList.filterMap TraceEntry.read? ++ left =
        queue ++ turn.pushed?.toList) ∧
    (m.after turn.action).output =
      ((turn.record? m).toList.filterMap TraceEntry.emission?).foldl Output.put m.output := by
  by_cases hfails : turn.Fails m
  · obtain ⟨hpushed, hrecord, hleft, houtput⟩ := devices_of_fails hinput hfails
    rw [hpushed, hrecord, hleft, houtput]
    exact ⟨⟨queue, hinput, by simp⟩, rfl⟩
  cases turn with
  | cycle =>
    cases houtcome : m.step.outcome with
    | error error => exact absurd ⟨error, houtcome⟩ hfails
    | ok entry =>
      have hrecord : Turn.cycle.record? m = some entry := by
        rw [Turn.record?, houtcome]
        rfl
      obtain ⟨left, hleft, hread⟩ := read_step hinput houtcome
      refine ⟨⟨left, hleft, ?_⟩, ?_⟩
      · rw [hrecord, ← hread]
        cases hword : entry.read? <;> simp [hword, Turn.pushed?]
      · rw [hrecord]
        refine (emission_step houtcome).trans ?_
        cases hemission : entry.emission? <;> simp [hemission]
  | push operand =>
    cases hword : operand.readWord with
    | error error =>
      refine absurd ⟨error, ?_⟩ hfails
      rw [pushInput_of_queue hinput, hword]
      rfl
    | ok w =>
      have hpushed : m.after (.push operand) = { m with input := .queue (queue ++ [w]) } := by
        simp only [after, pushInput_of_queue hinput, hword, Except.map]
      simp only [Turn.action, hpushed, Turn.pushed?, hword]
      exact ⟨⟨queue ++ [w], rfl, rfl⟩, rfl⟩

/-! ## Histories -/

theorem exchange_turns (hinput : m.input = .queue queue) (turns : List Turn) :
    (∃ left, (m.afterTurns turns).input = .queue left ∧
      (m.records turns).filterMap TraceEntry.read? ++ left =
        queue ++ turns.filterMap Turn.pushed?) ∧
    (m.afterTurns turns).output =
      ((m.records turns).filterMap TraceEntry.emission?).foldl Output.put m.output := by
  induction turns generalizing m queue with
  | nil => exact ⟨⟨queue, hinput, by simp [records]⟩, rfl⟩
  | cons turn rest ih =>
    obtain ⟨⟨between, hbetween, hfirst⟩, houtput⟩ := exchange_turn hinput turn
    obtain ⟨⟨left, hleft, hlater⟩, hlaterOutput⟩ := ih hbetween
    have hpushes : (turn :: rest).filterMap Turn.pushed? =
        turn.pushed?.toList ++ rest.filterMap Turn.pushed? := by
      cases hpushed : turn.pushed? <;> simp [hpushed]
    rw [records, List.filterMap_append, List.filterMap_append]
    refine ⟨⟨left, hleft, ?_⟩, ?_⟩
    · rw [hpushes, List.append_assoc, hlater, ← List.append_assoc, hfirst, List.append_assoc]
    · rw [List.foldl_append, ← houtput]
      exact hlaterOutput

theorem afterTurns_append (m : Machine) (before rest : List Turn) :
    m.afterTurns (before ++ rest) = (m.afterTurns before).afterTurns rest :=
  List.foldl_append

/-- Nothing is lost, doubled or put in another order. After cycles and pushes in any order, the
words that cycles have read, followed by those still in the queue, are the words that were in the
queue at first, followed by those that were pushed; and the output is the old one, extended by the
text of the numbers and characters that cycles have put out, and remembers of these whether the last
was a number. A turn that fails takes part in neither and leaves the devices as they were, and no
turn takes back what was put out before. -/
theorem exchange_conserved (hinput : m.input = .queue queue) (turns : List Turn) :
    let emissions := (m.records turns).filterMap TraceEntry.emission?
    (∃ left, (m.afterTurns turns).input = .queue left ∧
      (m.records turns).filterMap TraceEntry.read? ++ left =
        queue ++ turns.filterMap Turn.pushed?) ∧
    ((m.afterTurns turns).output.text =
        m.output.text ++ Emission.text m.output.endsInNumber emissions ∧
      (m.afterTurns turns).output.endsInNumber =
        (emissions.getLast?.map Emission.isNumber).getD m.output.endsInNumber) ∧
    ∀ before turn rest, turns = before ++ turn :: rest →
      let now := m.afterTurns before
      let next := m.afterTurns (before ++ [turn])
      (∃ more, next.output.text = now.output.text ++ more) ∧
        (turn.Fails now → turn.pushed? = none ∧ turn.record? now = none ∧
          next.input = now.input ∧ next.output = now.output) := by
  intro emissions
  obtain ⟨hqueue, houtput⟩ := exchange_turns hinput turns
  refine ⟨hqueue, ?_, ?_⟩
  · rw [houtput]
    exact ⟨Output.text_foldl_put _ _, Output.endsInNumber_foldl_put _ _⟩
  · intro before turn rest _ now next
    obtain ⟨⟨between, hbetween, -⟩, -⟩ := exchange_turns hinput before
    have hnext : next = now.after turn.action := afterTurns_append m before [turn]
    rw [hnext]
    refine ⟨?_, devices_of_fails hbetween⟩
    rw [(exchange_turn hbetween turn).2, Output.text_foldl_put]
    exact ⟨_, rfl⟩

/-- A word is read, put out twice as a number and once as a character; pushes and a read fail in
between. -/
theorem exchange_conserved_with_failures :
    let m := ({ fresh (.queue [.wrap (-191)]) false with
      memory := (Memory.blank memorySize).overwrite 0
        ([901, 902, 901, 902, 922, 901].map Word.wrap) } : Machine)
    let turns : List Turn := [.cycle, .push (.int 1000), .cycle, .cycle, .push (.text " +7 "),
      .cycle, .cycle, .cycle, .push (.bool true)]
    (m.afterTurns turns).input = .queue [.wrap 1] ∧
      (m.records turns).filterMap TraceEntry.read? ++ [.wrap 1] =
        [.wrap (-191)] ++ turns.filterMap Turn.pushed? ∧
      (m.afterTurns turns).output.text = "-191\n-191A" := by
  intro m turns
  have hqueue : (m.afterTurns turns).input = .queue [.wrap 1] := by decide +kernel
  obtain ⟨⟨left, hleft, hreads⟩, ⟨htext, -⟩, -⟩ := exchange_conserved (m := m) rfl turns
  obtain rfl : left = [.wrap 1] := Input.queue.inj (hleft.symm.trans hqueue)
  refine ⟨hqueue, hreads, ?_⟩
  rw [htext]
  decide +kernel

end Machine

end DecimalMachine
