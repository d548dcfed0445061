import DecimalMachine.Proofs.Cycle.Agreement
import DecimalMachine.Proofs.Result

/-!
# Records of cycles

What the record of a cycle says of the machine before the cycle and of the machine after it, and
which of the cycles have a record: those that do not fail. A cycle that fails is not counted and
leaves the halt flag alone.

## Main definitions

- `TraceEntry.Records` — an entry is the record of a cycle from one machine to another
-/

namespace DecimalMachine

/-- An entry is the record of a cycle from a machine to another. -/
structure TraceEntry.Records (entry : TraceEntry) (m later : Machine) : Prop where
  running : m.halted = false
  word : m.memory.get? m.registers.programCounter = some entry.word
  cycle : entry.cycle = m.cycles
  address : entry.address = m.registers.programCounter
  listing : entry.listing = entry.word.listing
  before : entry.before = m.registers
  after : entry.after = later.registers
  halted : later.halted = (entry.progress == .halted)
  cycles : later.cycles = m.cycles + 1

namespace Machine

variable {m : Machine} {entry : TraceEntry} {error : Error}

theorem records_of_step (h : m.step.outcome = .ok entry) : entry.Records m m.step.machine := by
  rcases step_cases m with ⟨w, operation, -, hrunning, hword, -, hstep⟩ | ⟨-, _, _, hstep⟩
  · rw [hstep] at h ⊢
    cases houtcome : (operation.run (m.fetched w)).outcome with
    | error error =>
      rw [obey_of_error houtcome] at h
      cases h
    | ok progress =>
      simp only [obey, houtcome] at h ⊢
      cases h
      exact ⟨hrunning, hword, rfl, rfl, rfl, rfl, rfl, rfl, by simp [complete]⟩
  · rw [hstep] at h
    cases h

theorem next?_of_step (h : m.step.outcome = .ok entry) :
    m.next? = Operation.ofNumber? entry.word.toInt := by
  have hrecords := records_of_step h
  simp [next?, hrecords.running, hrecords.word]

/-- A cycle that does not fail is counted, and sets the halt flag if it stops the machine. -/
theorem counts_of_nextOutcome {progress : Progress} (h : m.nextOutcome = .ok progress) :
    m.step.machine.cycles = m.cycles + 1 ∧ m.step.machine.halted = (progress == .halted) := by
  obtain ⟨entry, hstep, rfl⟩ := Result.map_eq_ok_iff.1 h
  exact ⟨(records_of_step hstep).cycles, (records_of_step hstep).halted⟩

/-- A cycle that fails leaves the halt flag and the cycle count as they were. -/
theorem halted_cycles_of_step_error (h : m.step.outcome = .error error) :
    m.step.machine.halted = m.halted ∧ m.step.machine.cycles = m.cycles := by
  rcases step_cases m with ⟨w, operation, -, -, -, -, hstep⟩ | ⟨-, _, _, hstep⟩
  · rw [hstep] at h ⊢
    cases houtcome : (operation.run (m.fetched w)).outcome with
    | error error =>
      rw [obey_of_error houtcome]
      exact ⟨by simp, by simp⟩
    | ok progress =>
      obtain ⟨_, -, -, -, hok⟩ := obey_of_ok houtcome
      rw [hok] at h
      cases h
  · rw [hstep]
    exact ⟨rfl, rfl⟩

end Machine

end DecimalMachine
