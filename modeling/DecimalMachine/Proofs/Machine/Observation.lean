import DecimalMachine.Proofs.Machine.Limit
import DecimalMachine.Proofs.Machine.TypedInput

/-!
# Observed runs

Whoever looks on while a machine runs changes nothing but what shows: the machine that a run leaves,
and how the run ends, are the same for every observer. The emissions that show in a run make up the
text of the output, and an error that a run ends with is one of the program, whichever device the
machine reads from.

## Main definitions

- `emissionsOf` — the texts put out among events
- `Error.isProgramFault` — an error that is reported and does not lie with a file
-/

namespace DecimalMachine

/-- The texts put out among events. -/
def emissionsOf (events : List Event) : List String := events.filterMap Event.emission?

/-- An error is reported, and it is a fault of the program. -/
def Error.isProgramFault (error : Error) : Bool := error.isReported && !error.isFileFailure

theorem emissionsOf_append (events more : List Event) :
    emissionsOf (events ++ more) = emissionsOf events ++ emissionsOf more :=
  List.filterMap_append

/-- Reading puts nothing out. -/
theorem emissionsOf_read (input : Input) : emissionsOf input.read.events = [] := by
  cases input with
  | queue words => cases words <;> rfl
  | typed prompt lines =>
    simp only [Input.read]
    fun_induction readTyped prompt lines with
    | case1 | case2 | case3 => rfl
    | case4 line rest hfull complaint hanswer later rejected ih => exact ih

/-- A device that has no word to give fails with an error of the program. -/
theorem Input.isProgramFault_of_read {input : Input} {error : Error}
    (h : input.read.outcome = .error error) : error.isProgramFault = true := by
  cases input with
  | queue words =>
    cases words with
    | nil =>
      cases h
      rfl
    | cons w rest => cases h
  | typed prompt lines =>
    rcases readTyped_cases prompt lines with ⟨w, read, left, -, -, -, hok, -⟩ | ⟨-, herror, -⟩
    · cases hok.symm.trans h
    · cases herror.symm.trans h
      rfl

namespace Operation

/-- An operation extends the output by what it puts out. -/
theorem text_run (m : Machine) (operation : Operation) :
    (operation.run m).machine.output.text =
      m.output.text ++ String.join (emissionsOf (operation.run m).events) := by
  cases operation with
  | add address | subtract address | load address =>
    simp only [run, Machine.compute]
    cases m.memory.get? address <;> exact (String.append_empty).symm
  | store address =>
    simp only [run]
    cases m.memory.set? address m.registers.accumulator <;> exact (String.append_empty).symm
  | jumpIfZero address | jumpIfNotNegative address =>
    simp only [run]
    split <;> exact (String.append_empty).symm
  | input =>
    have hnone := emissionsOf_read m.input
    simp only [run]
    cases m.input.read.outcome <;> simp [hnone, Machine.setAccumulator]
  | writeNumber | writeCharacter =>
    simp [run, emissionsOf, Event.emission?, Output.characterPiece]
  | _ => exact (String.append_empty).symm

theorem isProgramFault_of_outcome {m : Machine} {operation : Operation} {error : Error}
    (h : operation.outcome m = .error error) : error.isProgramFault = true := by
  cases operation with
  | reserved =>
    cases h
    rfl
  | input => exact Input.isProgramFault_of_read (Result.map_eq_error_iff.1 h)
  | _ => cases h

end Operation

namespace Machine

variable {m : Machine} {error : Error}

/-- A cycle extends the output by what it puts out. -/
theorem text_step (m : Machine) :
    m.step.machine.output.text =
      m.output.text ++ String.join (emissionsOf m.step.events) := by
  rcases step_cases m with ⟨w, operation, -, -, -, -, hstep⟩ | ⟨-, registers, error, hstep⟩
  · obtain ⟨_, _, _, hmachine⟩ := m.machine_obey w operation
    have hevents : emissionsOf (m.obey w (some operation)).events =
        emissionsOf (operation.run (m.fetched w)).events := by
      cases houtcome : (operation.run (m.fetched w)).outcome with
      | error error => rw [obey_of_error houtcome]
      | ok progress =>
        have hhalt : emissionsOf (m.haltEvents progress) = [] := by cases progress <;> rfl
        simp [obey, houtcome, emissionsOf_append, hhalt]
    rw [hstep, hevents, hmachine]
    exact Operation.text_run (m.fetched w) operation
  · rw [hstep]
    exact (String.append_empty).symm

theorem isProgramFault_of_nextOutcome (h : m.nextOutcome = .error error) :
    error.isProgramFault = true := by
  cases hhalted : m.halted with
  | true =>
    rw [nextOutcome, step_of_halted hhalted] at h
    cases h
    rfl
  | false =>
    cases hword : m.memory.get? m.registers.programCounter with
    | none =>
      rw [nextOutcome, step_of_no_cell hhalted hword] at h
      cases h
      rfl
    | some w =>
      rw [nextOutcome_of_word hhalted hword] at h
      cases hoperation : Operation.ofNumber? w.toInt with
      | none =>
        rw [hoperation] at h
        cases h
        rfl
      | some operation =>
        rw [hoperation] at h
        exact Operation.isProgramFault_of_outcome h

/-! ## Whole runs -/

section Runs

variable (observe observe' : Machine → List Event) (shown shown' : Array Event)

/-- The observer of a run, and what showed before it, are of no account for the run. -/
theorem runFrom_congr (m : Machine) (limit : Nat) :
    (m.runFrom observe limit shown).ending = (m.runFrom observe' limit shown').ending ∧
      (m.runFrom observe limit shown).machine = (m.runFrom observe' limit shown').machine := by
  have hlimit : limit = ((m.cycles + limit : Int) - m.cycles).toNat := by omega
  exact (runsTo_runFrom observe' shown' hlimit).runFrom_eq observe shown hlimit

theorem isProgramFault_of_runFrom {limit : Nat}
    (h : (m.runFrom observe limit shown).ending = .failed error) : error.isProgramFault = true := by
  induction limit generalizing m shown with
  | zero => cases h
  | succ limit ih =>
    rw [runFrom_succ] at h
    cases hnext : m.nextOutcome with
    | error cause =>
      rw [hnext] at h
      cases h
      exact isProgramFault_of_nextOutcome hnext
    | ok progress =>
      rw [hnext] at h
      cases progress with
      | halted => cases h
      | continues => exact ih _ h

/-- What shows in a run comes behind what showed before. -/
theorem events_runFrom (m : Machine) (limit : Nat) :
    (m.runFrom observe limit shown).events.toList =
      shown.toList ++ (m.runFrom observe limit #[]).events.toList := by
  obtain ⟨more, hmore⟩ : ∃ more, ∀ shown : Array Event,
      (m.runFrom observe limit shown).events.toList = shown.toList ++ more := by
    induction limit generalizing m with
    | zero => exact ⟨[], fun shown => (List.append_nil _).symm⟩
    | succ limit ih =>
      obtain ⟨rest, hrest⟩ := ih m.step.machine
      cases hnext : m.nextOutcome with
      | error error =>
        refine ⟨observe m ++ m.step.events, fun shown => ?_⟩
        rw [runFrom_succ, hnext]
        simp
      | ok progress =>
        cases progress with
        | halted =>
          refine ⟨observe m ++ m.step.events, fun shown => ?_⟩
          rw [runFrom_succ, hnext]
          simp
        | continues =>
          refine ⟨observe m ++ m.step.events ++ rest, fun shown => ?_⟩
          rw [runFrom_succ, hnext]
          simp [hrest]
  rw [hmore, hmore, List.nil_append]

variable {observe shown}

/-- If the emissions that have shown make up the output, then they do so after a run. -/
theorem text_runFrom (hobserve : ∀ m, emissionsOf (observe m) = [])
    (hshown : String.join (emissionsOf shown.toList) = m.output.text) (limit : Nat) :
    String.join (emissionsOf (m.runFrom observe limit shown).events.toList) =
      (m.runFrom observe limit shown).machine.output.text := by
  induction limit generalizing m shown with
  | zero => exact hshown
  | succ limit ih =>
    have hstep : String.join (emissionsOf (shown ++ observe m ++ m.step.events).toList) =
        m.step.machine.output.text := by
      rw [text_step, ← hshown]
      simp [emissionsOf_append, hobserve]
    rw [runFrom_succ]
    cases m.nextOutcome with
    | error error => exact hstep
    | ok progress =>
      cases progress with
      | halted => exact hstep
      | continues => exact ih hstep

end Runs

end Machine

end DecimalMachine
