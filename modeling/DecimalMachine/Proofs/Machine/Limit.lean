import DecimalMachine.Machine.Run
import DecimalMachine.Proofs.Cycle.Failure
import DecimalMachine.Proofs.Machine.Footprint
import DecimalMachine.Proofs.Machine.Record

/-!
# Runs up to a limit

A machine is run cycle by cycle until it halts, until a cycle fails or until it has counted as many
cycles as a limit allows, whichever comes first. `Machine.RunsTo` says this with the cycle count of
the machine; the runs of the machine, which count down what is left of the limit, come to the same.
A limit matters only where it cuts a run off: a run that ends within it ends as it does without.

## Main definitions

- `Machine.RunsTo` — how a machine ends up that is run until its cycle count reaches a limit
-/

namespace DecimalMachine.Machine

/-- A machine that is run until it halts, a cycle fails or its cycle count reaches a limit, the
ending of the run and the machine that it leaves. -/
inductive RunsTo (limit : Int) : Machine → Ending → Machine → Prop
  | cutOff {m : Machine} (hlimit : limit ≤ m.cycles) : RunsTo limit m .cutOff m
  | failed {m : Machine} {error : Error} (hlimit : m.cycles < limit)
    (hnext : m.nextOutcome = .error error) : RunsTo limit m (.failed error) m.step.machine
  | halted {m : Machine} (hlimit : m.cycles < limit) (hnext : m.nextOutcome = .ok .halted) :
    RunsTo limit m .halted m.step.machine
  | goesOn {m later : Machine} {ending : Ending} (hlimit : m.cycles < limit)
    (hnext : m.nextOutcome = .ok .continues) (hrest : RunsTo limit m.step.machine ending later) :
    RunsTo limit m ending later

variable {limit : Int} {m later : Machine} {ending : Ending} {n k : Nat}

/-! ## One cycle -/

theorem runFrom_succ (observe : Machine → List Event) (m : Machine) (n : Nat)
    (shown : Array Event) :
    m.runFrom observe (n + 1) shown =
      let shown := shown ++ observe m ++ m.step.events
      match m.nextOutcome with
      | .error error => ⟨m.step.machine, shown, .failed error⟩
      | .ok .halted => ⟨m.step.machine, shown, .halted⟩
      | .ok .continues => m.step.machine.runFrom observe n shown := by
  simp only [runFrom, nextOutcome]
  cases m.step.outcome with
  | error error => rfl
  | ok entry => cases hprogress : entry.progress <;> simp [Except.map, hprogress]

/-! ## Runs that count down -/

section CountDown

variable (observe : Machine → List Event) (shown : Array Event)

theorem runsTo_runFrom (hn : n = (limit - m.cycles).toNat) :
    m.RunsTo limit (m.runFrom observe n shown).ending (m.runFrom observe n shown).machine := by
  induction n generalizing m shown with
  | zero => exact .cutOff (by omega)
  | succ n ih =>
    have hlimit : m.cycles < limit := by omega
    rw [runFrom_succ]
    cases hnext : m.nextOutcome with
    | error error => exact .failed hlimit hnext
    | ok progress =>
      have hcycles := (counts_of_nextOutcome hnext).1
      cases progress with
      | halted => exact .halted hlimit hnext
      | continues => exact .goesOn hlimit hnext (ih _ (by omega))

theorem RunsTo.runFrom_eq (h : m.RunsTo limit ending later) (hn : n = (limit - m.cycles).toNat) :
    (m.runFrom observe n shown).ending = ending ∧ (m.runFrom observe n shown).machine = later := by
  induction h generalizing n shown with
  | cutOff hlimit =>
    obtain rfl : n = 0 := by omega
    exact ⟨rfl, rfl⟩
  | failed hlimit hnext | halted hlimit hnext =>
    obtain ⟨rest, rfl⟩ : ∃ rest, n = rest + 1 := ⟨n - 1, by omega⟩
    rw [runFrom_succ, hnext]
    exact ⟨rfl, rfl⟩
  | goesOn hlimit hnext _ ih =>
    obtain ⟨rest, rfl⟩ : ∃ rest, n = rest + 1 := ⟨n - 1, by omega⟩
    have hcycles := (counts_of_nextOutcome hnext).1
    rw [runFrom_succ, hnext]
    exact ih _ (by omega)

/-- A run that ends within a number of cycles ends the same if it is allowed more. -/
theorem runFrom_of_le (hk : (m.runFrom observe k shown).ending ≠ .cutOff) (hle : k ≤ n) :
    m.runFrom observe n shown = m.runFrom observe k shown := by
  induction k generalizing m shown n with
  | zero => exact absurd rfl hk
  | succ k ih =>
    obtain ⟨rest, rfl⟩ : ∃ rest, n = rest + 1 := ⟨n - 1, by omega⟩
    rw [runFrom_succ] at hk ⊢
    rw [runFrom_succ]
    cases hnext : m.nextOutcome with
    | error error => rfl
    | ok progress =>
      rw [hnext] at hk
      cases progress with
      | halted => rfl
      | continues => exact ih _ hk (by omega)

/-- A run is cut off if every cycle that it is allowed goes on. -/
theorem ending_eq_cutOff_iff :
    (m.runFrom observe n shown).ending = .cutOff ↔
      ∀ i < n, (m.cycled i).nextOutcome = .ok .continues := by
  induction n generalizing m shown with
  | zero => simp [runFrom]
  | succ n ih =>
    have hsplit : (∀ i < n + 1, (m.cycled i).nextOutcome = .ok .continues) ↔
        m.nextOutcome = .ok .continues ∧
          ∀ i < n, (m.step.machine.cycled i).nextOutcome = .ok .continues := by
      simp only [Nat.forall_lt_succ_left, cycled_succ_eq]
      rfl
    rw [hsplit, runFrom_succ]
    cases hnext : m.nextOutcome with
    | error error => simp
    | ok progress =>
      cases progress with
      | halted => simp
      | continues => simpa using ih _

end CountDown

/-- A machine that has not begun ends up as its run of that many cycles leaves it. -/
theorem runsTo_iff (hcycles : m.cycles = 0) :
    m.RunsTo limit ending later ↔
      ending = (m.runUnobserved limit.toNat).ending ∧
        later = (m.runUnobserved limit.toNat).machine := by
  have hcount : limit.toNat = (limit - m.cycles).toNat := by omega
  constructor
  · intro h
    obtain ⟨hending, hlater⟩ := h.runFrom_eq (fun _ => []) #[] hcount
    exact ⟨hending.symm, hlater.symm⟩
  · rintro ⟨rfl, rfl⟩
    exact runsTo_runFrom _ _ hcount

/-- An ending within a limit is the ending of the run that the limit allows. -/
theorem exists_ending_iff (hne : ending ≠ .cutOff) :
    (∃ k : Nat, (k : Int) ≤ limit ∧ (m.runUnobserved k).ending = ending) ↔
      (m.runUnobserved limit.toNat).ending = ending := by
  constructor
  · rintro ⟨k, hk, rfl⟩
    have hsame := runFrom_of_le (fun _ => []) #[] hne (show k ≤ limit.toNat by omega)
    exact congrArg Run.ending hsame
  · intro hending
    refine ⟨limit.toNat, ?_, hending⟩
    -- Without a cycle the run is cut off, so the limit is above zero.
    have hpos : limit.toNat ≠ 0 := by
      intro hzero
      rw [hzero] at hending
      exact hne hending.symm
    omega

theorem cutOff_iff :
    (m.runUnobserved limit.toNat).ending = .cutOff ↔
      ∀ i : Nat, (i : Int) < limit → (m.cycled i).nextOutcome = .ok .continues := by
  simp only [← Int.lt_toNat]
  exact ending_eq_cutOff_iff (fun _ => []) #[]

/-! ## What a run leaves -/

/-- A run leaves a halted machine if its last cycle stopped the machine. -/
theorem RunsTo.halted_iff (h : m.RunsTo limit ending later) (hrunning : m.halted = false) :
    later.halted = true ↔ ending = .halted := by
  induction h with
  | cutOff => simp [hrunning]
  | failed _ hnext =>
    have hkept := (halted_cycles_of_step_error (Result.map_eq_error_iff.1 hnext)).1
    simp [hkept, hrunning]
  | halted _ hnext => simp [(counts_of_nextOutcome hnext).2]
  | goesOn _ hnext _ ih => exact ih (counts_of_nextOutcome hnext).2

theorem exists_queue_step {queue : List Word} (hinput : m.input = .queue queue) :
    ∃ left, m.step.machine.input = .queue left := by
  rw [input_step, hinput]
  split
  · cases queue <;> exact ⟨_, rfl⟩
  · exact ⟨queue, rfl⟩

/-- A run that fails ends with the failure of its last cycle. -/
theorem RunsTo.exists_failure {queue : List Word} {error : Error} (hinput : m.input = .queue queue)
    (h : m.RunsTo limit (.failed error) later) : ∃ last : Machine, last.Failure error later := by
  generalize hending : Ending.failed error = ending at h
  induction h generalizing queue with
  | cutOff | halted => cases hending
  | @failed m _ _ hnext =>
    cases hending
    exact ⟨m, (failure_of_step hinput (Result.map_eq_error_iff.1 hnext)).1⟩
  | goesOn _ _ _ ih =>
    obtain ⟨left, hleft⟩ := exists_queue_step hinput
    exact ih hleft hending

end DecimalMachine.Machine
