import DecimalMachine.Proofs.Cycle.Operation

/-!
# Sequences of cycles

`Machine.Cycles` relates a machine, the records of any number of cycles that succeed one after the
other, and the machine they lead to. A cell that none of the cycles stores to keeps its word,
however often the program changes its other words.
-/

namespace DecimalMachine

/-- The cycle of an entry stored to an address. -/
def TraceEntry.StoresAt (entry : TraceEntry) (address : Int) : Prop :=
  Operation.ofNumber? entry.word.toInt = some (.store address)

instance (entry : TraceEntry) (address : Int) : Decidable (entry.StoresAt address) :=
  inferInstanceAs (Decidable (_ = _))

namespace Machine

/-- Cycles that succeed one after the other, with their records. -/
inductive Cycles : Machine → List TraceEntry → Machine → Prop
  | nil (m : Machine) : Cycles m [] m
  | cons {m later : Machine} {entry : TraceEntry} {entries : List TraceEntry}
    (hstep : m.step.outcome = .ok entry) (hrest : Cycles m.step.machine entries later) :
    Cycles m (entry :: entries) later

/-- A cycle that succeeds has run the operation of the word at the program counter. -/
theorem exists_of_step_ok {m : Machine} {entry : TraceEntry} (h : m.step.outcome = .ok entry) :
    ∃ operation, m.halted = false ∧
      m.memory.get? m.registers.programCounter = some entry.word ∧
      Operation.ofNumber? entry.word.toInt = some operation ∧
      m.step.machine = (operation.run (m.fetched entry.word)).machine.complete entry := by
  cases hhalted : m.halted with
  | true =>
    rw [step_of_halted hhalted] at h
    cases h
  | false =>
    cases hword : m.memory.get? m.registers.programCounter with
    | none =>
      rw [step_of_no_cell hhalted hword] at h
      cases h
    | some w =>
      rw [step_eq_obey hhalted hword] at h ⊢
      cases hoperation : Operation.ofNumber? w.toInt with
      | none =>
        rw [hoperation] at h
        cases h
      | some operation =>
        rw [hoperation] at h
        cases houtcome : (operation.run (m.fetched w)).outcome with
        | error error =>
          rw [obey_of_error houtcome] at h
          cases h
        | ok progress =>
          obtain ⟨recorded, -, hrecorded, hmachine, hok⟩ := obey_of_ok houtcome
          cases h.symm.trans hok
          cases hrecorded
          exact ⟨operation, rfl, rfl, hoperation, hmachine⟩

theorem get?_step_of_not_stores {m : Machine} {entry : TraceEntry} {address : Int}
    (h : m.step.outcome = .ok entry) (hstores : ¬entry.StoresAt address) :
    m.step.machine.memory.get? address = m.memory.get? address := by
  obtain ⟨operation, -, -, hoperation, hmachine⟩ := exists_of_step_ok h
  have hne : operation ≠ .store address := by
    rintro rfl
    exact hstores hoperation
  rw [hmachine]
  exact Operation.get?_run_of_ne (m := m.fetched entry.word) hne

theorem Cycles.get?_of_not_stores {m later : Machine} {entries : List TraceEntry} {address : Int}
    (h : Cycles m entries later) (hstores : ∀ entry ∈ entries, ¬entry.StoresAt address) :
    later.memory.get? address = m.memory.get? address := by
  induction h with
  | nil => rfl
  | cons hstep _ ih =>
    obtain ⟨hfirst, hrest⟩ := List.forall_mem_cons.1 hstores
    rw [ih hrest]
    exact get?_step_of_not_stores hstep hfirst

end Machine

end DecimalMachine
