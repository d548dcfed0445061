import DecimalMachine.Proofs.Machine.Invariant
import DecimalMachine.Proofs.Machine.Limit
import DecimalMachine.Proofs.Machine.Trace

/-!
# Runs that only branch forwards

A cycle that does not fail goes on behind the cell it fetched from, or where its branch leads. As
long as no branch leads back, then, the program counter climbs with every cycle, and it never gets
past the end of memory: a run without a branch back is over after as many cycles as there are cells
left, whatever words it stores on its way.

## Main definitions

- `Machine.branchTarget?` — where the next cycle branches to
- `Machine.BranchesBack` — the next cycle branches to its own cell or to one before
-/

namespace DecimalMachine

/-- Where an operation branches to, given the accumulator; nowhere if its branch is not taken. -/
def Operation.target? (accumulator : Word) : Operation → Option Int
  | jump address => some address
  | jumpIfZero address => if accumulator.toInt = 0 then some address else none
  | jumpIfNotNegative address => if 0 ≤ accumulator.toInt then some address else none
  | _ => none

theorem Operation.address?_of_target? {accumulator : Word} {operation : Operation} {address : Int}
    (h : operation.target? accumulator = some address) : operation.address? = some address := by
  cases operation with
  | jump other => exact h
  | jumpIfZero other | jumpIfNotNegative other =>
    simp only [target?] at h
    split at h
    · exact h
    · cases h
  | _ => cases h

/-- Only a branch that is taken changes the program counter. -/
theorem Operation.programCounter_run_eq (m : Machine) (operation : Operation) :
    (operation.run m).machine.registers.programCounter =
      (operation.target? m.registers.accumulator).getD m.registers.programCounter := by
  cases operation with
  | add address | subtract address | load address =>
    simp only [run, Machine.compute]
    cases m.memory.get? address <;> rfl
  | store address =>
    simp only [run]
    cases m.memory.set? address m.registers.accumulator <;> rfl
  | jumpIfZero address | jumpIfNotNegative address =>
    simp only [run, target?]
    split <;> rfl
  | input =>
    simp only [run]
    cases m.input.read.outcome <;> rfl
  | _ => rfl

namespace Machine

/-- Where the next cycle branches to, if it takes a branch. -/
def branchTarget? (m : Machine) : Option Int :=
  m.next?.bind (Operation.target? m.registers.accumulator)

/-- The next cycle takes a branch, and the branch does not lead forwards. -/
def BranchesBack (m : Machine) : Prop :=
  ∃ address ∈ m.branchTarget?, address ≤ m.registers.programCounter

instance (m : Machine) : Decidable m.BranchesBack :=
  inferInstanceAs (Decidable (∃ address ∈ _, _))

variable {m : Machine} {entry : TraceEntry} {n : Nat}

/-! ## One cycle -/

/-- A cycle that does not fail goes on where it branches to, or at the next address. -/
theorem programCounter_step (hok : m.step.outcome = .ok entry) :
    m.step.machine.registers.programCounter =
      m.branchTarget?.getD (m.registers.programCounter + 1) := by
  obtain ⟨operation, -, -, hoperation, hmachine⟩ := exists_of_step_ok hok
  have hnext : m.next? = some operation := (next?_of_step hok).trans hoperation
  have hrun := operation.programCounter_run_eq (m.fetched entry.word)
  rw [hmachine, branchTarget?, hnext]
  exact hrun

/-- The program counter climbs in a cycle that does not branch back, and stays within memory or
comes to stand right behind it. -/
theorem programCounter_step_bounds (hok : m.step.outcome = .ok entry) (hforward : ¬m.BranchesBack) :
    m.registers.programCounter < m.step.machine.registers.programCounter ∧
      m.step.machine.registers.programCounter ≤ memorySize := by
  obtain ⟨operation, -, hword, hoperation, -⟩ := exists_of_step_ok hok
  have hnext : m.next? = some operation := (next?_of_step hok).trans hoperation
  rw [programCounter_step hok]
  -- The next address lies behind a cell, and the address of a branch comes from two digits.
  cases htarget : m.branchTarget? with
  | none =>
    have hcell := Memory.bounds_of_get? hword
    simp only [Option.getD_none]
    omega
  | some address =>
    have hclimbs : ¬address ≤ m.registers.programCounter := fun hle =>
      hforward ⟨address, htarget, hle⟩
    have haddress : operation.address? = some address := by
      rw [branchTarget?, hnext] at htarget
      exact Operation.address?_of_target? htarget
    have hbounds := Operation.address?_bounds hoperation haddress
    simp only [Option.getD_some]
    omega

/-! ## Many cycles -/

section Forward

variable (hrun : m.SucceedsFor n) (hforward : ∀ i < n, ¬(m.cycled i).BranchesBack)

include hrun hforward

/-- The program counter has climbed by one at least in every cycle. -/
theorem programCounter_add_le_cycled :
    m.registers.programCounter + n ≤ (m.cycled n).registers.programCounter := by
  induction n with
  | zero => exact le_of_eq (Int.add_zero _)
  | succ n ih =>
    obtain ⟨entry, hok⟩ := hrun n (Nat.lt_succ_self n)
    have hbefore := ih (hrun.mono (Nat.le_succ n)) fun i hi => hforward i (by omega)
    have hlast := (programCounter_step_bounds hok (hforward n (Nat.lt_succ_self n))).1
    rw [cycled]
    omega

/-- There is a cell for each of the cycles at or behind the program counter. -/
theorem length_le_of_forward (hcounter : m.registers.programCounter ≤ memorySize) :
    (n : Int) ≤ memorySize - m.registers.programCounter := by
  cases n with
  | zero => omega
  | succ n =>
    -- The last cycle ends no further than right behind memory, and has climbed all the way there.
    obtain ⟨entry, hok⟩ := hrun n (Nat.lt_succ_self n)
    have hclimb := programCounter_add_le_cycled hrun hforward
    have hlast := (programCounter_step_bounds hok (hforward n (Nat.lt_succ_self n))).2
    rw [cycled] at hclimb
    omega

end Forward

/-! ## Runs -/

theorem succeedsFor_zero (m : Machine) : m.SucceedsFor 0 :=
  fun i hi => absurd hi (Nat.not_lt_zero i)

theorem succeedsFor_succ (hok : m.step.outcome = .ok entry) (hrest : m.step.machine.SucceedsFor n) :
    m.SucceedsFor (n + 1) := by
  intro i hi
  cases i with
  | zero => exact ⟨entry, hok⟩
  | succ i =>
    rw [cycled_succ_eq]
    exact hrest i (by omega)

/-- A run counts the cycles that do not fail; they come before all others. -/
theorem exists_succeedsFor_runFrom (observe : Machine → List Event) (m : Machine) (limit : Nat)
    (shown : Array Event) :
    ∃ k ≤ limit, m.SucceedsFor k ∧
      (m.runFrom observe limit shown).machine.cycles = m.cycles + k := by
  induction limit generalizing m shown with
  | zero => exact ⟨0, le_rfl, succeedsFor_zero m, rfl⟩
  | succ limit ih =>
    rw [runFrom_succ]
    cases hnext : m.nextOutcome with
    | error error =>
      have hkept := (halted_cycles_of_step_error (Result.map_eq_error_iff.1 hnext)).2
      exact ⟨0, Nat.zero_le _, succeedsFor_zero m, hkept⟩
    | ok progress =>
      obtain ⟨entry, hok, -⟩ := Result.map_eq_ok_iff.1 hnext
      have hcount := (counts_of_nextOutcome hnext).1
      cases progress with
      | halted => exact ⟨1, by omega, succeedsFor_succ hok (succeedsFor_zero _), hcount⟩
      | continues =>
        obtain ⟨k, hk, hrest, hcycles⟩ := ih m.step.machine _
        refine ⟨k + 1, by omega, succeedsFor_succ hok hrest, ?_⟩
        rw [hcycles, hcount]
        omega

/-- A run that is cut off has had all the cycles that it was allowed. -/
theorem succeedsFor_of_cutOff (observe : Machine → List Event) (shown : Array Event)
    (h : (m.runFrom observe n shown).ending = .cutOff) : m.SucceedsFor n := by
  intro i hi
  have hnext := (ending_eq_cutOff_iff observe shown).1 h i hi
  obtain ⟨entry, hok, -⟩ := Result.map_eq_ok_iff.1 hnext
  exact ⟨entry, hok⟩

theorem Invariant.after_actions {recordTrace : Bool} (h : m.Invariant recordTrace)
    (actions : List Action) : (actions.foldl Machine.after m).Invariant recordTrace := by
  induction actions generalizing m with
  | nil => exact h
  | cons action rest ih => exact ih (h.after action)

/-- Without a branch back the machine stops within memory. From any machine that actions bring
about, no more cycles succeed than there are cells at or behind the program counter, unless one of
them branches to its own cell or to one before; a run in which none does halts or fails within that
many successful cycles, and is not cut off by a higher limit. -/
theorem forward_run_bounded (input : Input) (recordTrace : Bool) (actions : List Action) :
    let m := actions.foldl after (fresh input recordTrace)
    let room : Int := 100 - m.registers.programCounter
    (∀ n : Nat, m.SucceedsFor n → (∀ i < n, ¬(m.cycled i).BranchesBack) → n ≤ room) ∧
    (∀ n : Nat, m.SucceedsFor n → room < n → ∃ i < n, (m.cycled i).BranchesBack) ∧
    ∀ (observe : Machine → List Event) (limit : Nat),
      (∀ i < limit, m.SucceedsFor (i + 1) → ¬(m.cycled i).BranchesBack) →
      (m.run observe limit).machine.cycles ≤ m.cycles + room ∧
        (room < limit → (m.run observe limit).ending ≠ .cutOff) := by
  intro m room
  have hfresh : (fresh input recordTrace).Invariant recordTrace :=
    invariant_reset (m := fresh input recordTrace) rfl
  have hcounter : m.registers.programCounter ≤ memorySize :=
    (hfresh.after_actions actions).programCounter.2
  have hbounded (n : Nat) (hrun : m.SucceedsFor n)
      (hforward : ∀ i < n, ¬(m.cycled i).BranchesBack) : n ≤ room :=
    length_le_of_forward hrun hforward hcounter
  refine ⟨hbounded, ?_, fun observe limit hforward => ⟨?_, ?_⟩⟩
  · intro n hrun hlong
    by_contra hnone
    have hle := hbounded n hrun fun i hi hback => hnone ⟨i, hi, hback⟩
    omega
  · obtain ⟨k, hk, hrun, hcycles⟩ := exists_succeedsFor_runFrom observe m limit #[]
    have hle := hbounded k hrun fun i hi => hforward i (by omega) (hrun.mono (by omega))
    rw [run, hcycles]
    omega
  · intro hlong hcut
    have hrun := succeedsFor_of_cutOff observe #[] hcut
    have hle := hbounded limit hrun fun i hi => hforward i hi (hrun.mono (by omega))
    omega

/-- A program that stores the branch it comes to next: the branch leads forwards, so the run is over
in time. -/
theorem forward_run_bounded_of_stored_branch :
    let program : List Operand := [.int 504, .int 302, .int 0, .int 0, .int 698]
    let m := [Action.loadProgram program].foldl after (fresh (.queue []) false)
    m.SucceedsFor 4 ∧ (∀ i < 4, ¬(m.cycled i).BranchesBack) ∧
      (m.cycled 2).branchTarget? = some 98 ∧
      ((4 : Nat) : Int) ≤ 100 - m.registers.programCounter ∧
      (m.runUnobserved 101).ending ≠ .cutOff := by
  intro program m
  have hrun : m.SucceedsFor 4 := by decide +kernel
  have hhalts : ¬m.SucceedsFor 5 := by decide +kernel
  have hforward : ∀ i < 4, ¬(m.cycled i).BranchesBack := by decide +kernel
  obtain ⟨hbounded, -, hends⟩ :=
    forward_run_bounded (.queue []) false [.loadProgram program]
  refine ⟨hrun, hforward, by decide +kernel, hbounded 4 hrun hforward, ?_⟩
  refine (hends _ 101 ?_).2 (by decide +kernel)
  intro i _ hlong
  by_cases hi : i < 4
  · exact hforward i hi
  · exact absurd (hlong.mono (by omega)) hhalts

/-- The bound is reached if no cell holds a branch: then every cell is obeyed once. -/
example :
    let m := { fresh (.queue []) false with memory := ⟨.replicate memorySize (.wrap 100)⟩ }
    (m.runUnobserved 101).machine.cycles = 100 ∧
      (m.runUnobserved 101).ending = .failed (.addressOutOfRange 100 (some 100)) := by
  decide +kernel

end Machine

end DecimalMachine
