import DecimalMachine.Proofs.Machine.Cycles
import Mathlib.Tactic.ByContra

/-!
# Memory over a run

What a cell holds after a number of cycles is decided by the cycles that stored to it, and these are
known by the words they fetched: the last one left its accumulator there. Nothing else writes to
memory, and whatever reads the cell later finds this word, be it as an operand or as the next
instruction. `memory_footprint` is the main statement.

## Main definitions

- `Machine.cycled` — the machine after a number of cycles
- `Machine.Leaves` — the word that a number of cycles leave in a cell
-/

namespace DecimalMachine.Machine

/-- The machine after a number of cycles, failed ones included. -/
def cycled (m : Machine) : Nat → Machine
  | 0 => m
  | n + 1 => (m.cycled n).step.machine

/-- None of the first `n` cycles fails. -/
def SucceedsFor (m : Machine) (n : Nat) : Prop :=
  ∀ i < n, ∃ entry, (m.cycled i).step.outcome = .ok entry

instance (m : Machine) (n : Nat) : Decidable (m.SucceedsFor n) :=
  decidable_of_iff (∀ i < n, (m.cycled i).step.outcome.isOk = true) <|
    forall₂_congr fun i _ => by
      cases (m.cycled i).step.outcome <;> simp [Except.isOk, Except.toBool]

/-- The word at the program counter has a number. -/
def Fetches (m : Machine) (number : Int) : Prop :=
  (m.memory.get? m.registers.programCounter).map Word.toInt = some number

instance (m : Machine) (number : Int) : Decidable (m.Fetches number) :=
  inferInstanceAs (Decidable (_ = _))

/-- The word that the first `n` cycles leave in a cell: the accumulator in the last of them that
stored to the cell, and what the cell held at first if there is none. -/
def Leaves (m : Machine) (n : Nat) (address : Int) (w : Word) : Prop :=
  (∃ i < n, (m.cycled i).Fetches (300 + address) ∧
    (∀ j < n, i < j → ¬(m.cycled j).Fetches (300 + address)) ∧
    w = (m.cycled i).registers.accumulator) ∨
  ((∀ i < n, ¬(m.cycled i).Fetches (300 + address)) ∧ m.memory.get? address = some w)

variable {m : Machine} {entry : TraceEntry} {address : Int}

/-! ## One cycle -/

theorem step_of_fetches {number : Int} {operation : Operation}
    (hok : m.step.outcome = .ok entry) (hfetches : m.Fetches number)
    (hoperation : Operation.ofNumber? number = some operation) :
    m.step.machine = (operation.run (m.fetched entry.word)).machine.complete entry := by
  obtain ⟨run, -, hword, hrun, hmachine⟩ := exists_of_step_ok hok
  have hnumber : entry.word.toInt = number := by
    simpa [Fetches, hword] using hfetches
  rw [hnumber] at hrun
  cases hrun.symm.trans hoperation
  exact hmachine

/-- A cycle that fetches the store to a cell leaves the accumulator there. -/
theorem get?_step_of_fetches (hok : m.step.outcome = .ok entry)
    (hrange : 0 ≤ address ∧ address ≤ 99) (hfetches : m.Fetches (300 + address)) :
    m.step.machine.memory.get? address = some m.registers.accumulator := by
  have hstore : Operation.ofNumber? (300 + address) = some (.store address) :=
    Operation.ofNumber?_eq_some_iff.2 ⟨rfl, hrange⟩
  have hcell : 0 ≤ address ∧ address < memorySize := by
    simp only [memorySize]
    omega
  rw [step_of_fetches hok hfetches hstore]
  exact Operation.get?_run_store (m := m.fetched entry.word) hcell

/-- Any other cycle leaves the cell as it was. -/
theorem get?_step_of_not_fetches (hok : m.step.outcome = .ok entry)
    (hfetches : ¬m.Fetches (300 + address)) :
    m.step.machine.memory.get? address = m.memory.get? address := by
  apply get?_step_of_not_stores hok
  intro hstores
  obtain ⟨_, -, hword, -, -⟩ := exists_of_step_ok hok
  have hnumber : entry.word.toInt = 300 + address :=
    (Operation.ofNumber?_eq_some_iff.1 hstores).1
  apply hfetches
  rw [Fetches, hword, Option.map_some, hnumber]

/-- A cycle that computes with a cell does so with the word that the cell holds. -/
theorem accumulator_step_of_compute {number : Int} {w : Word} (operation : Operation)
    (f : Word → Word → Word) (hok : m.step.outcome = .ok entry) (hfetches : m.Fetches number)
    (hcodes : operation.Codes number)
    (hrun : ∀ fetched : Machine,
      operation.run fetched = fetched.compute address (f fetched.registers.accumulator))
    (hword : m.memory.get? address = some w) :
    m.step.machine.registers.accumulator = f m.registers.accumulator w := by
  rw [step_of_fetches hok hfetches (Operation.ofNumber?_eq_some_iff.2 hcodes), hrun]
  simp only [compute, memory_fetched, hword]
  rfl

/-- What the next cycle makes of a word that a cell holds: it obeys the word if the program counter
is at the cell, and adds, subtracts or loads it if it fetched the instruction to do so. -/
structure Finds (m : Machine) (address : Int) (w : Word) : Prop where
  obey : m.registers.programCounter = address → m.step = m.obey w (Operation.ofNumber? w.toInt)
  add : m.Fetches (100 + address) →
    m.step.machine.registers.accumulator = m.registers.accumulator + w
  subtract : m.Fetches (200 + address) →
    m.step.machine.registers.accumulator = m.registers.accumulator - w
  load : m.Fetches (500 + address) → m.step.machine.registers.accumulator = w

theorem finds_of_get? {w : Word} (hok : m.step.outcome = .ok entry)
    (hword : m.memory.get? address = some w) : m.Finds address w := by
  obtain ⟨_, hrunning, -, -, -⟩ := exists_of_step_ok hok
  have hrange : 0 ≤ address ∧ address ≤ 99 := by
    have hbounds := Memory.bounds_of_get? hword
    simp only [memorySize] at hbounds
    omega
  constructor
  case obey =>
    rintro rfl
    exact step_eq_obey hrunning hword
  case add =>
    intro hfetches
    exact accumulator_step_of_compute (.add address) (· + ·) hok hfetches ⟨rfl, hrange⟩
      (fun _ => rfl) hword
  case subtract =>
    intro hfetches
    exact accumulator_step_of_compute (.subtract address) (· - ·) hok hfetches ⟨rfl, hrange⟩
      (fun _ => rfl) hword
  case load =>
    intro hfetches
    exact accumulator_step_of_compute (.load address) (fun _ w => w) hok hfetches ⟨rfl, hrange⟩
      (fun _ => rfl) hword

/-- A cycle that changes a cell has fetched the store to it, and changes no other. -/
theorem fetches_of_get?_step_ne (hok : m.step.outcome = .ok entry)
    (hne : m.step.machine.memory.get? address ≠ m.memory.get? address) :
    m.Fetches (300 + address) ∧
      ∀ other, other ≠ address → m.step.machine.memory.get? other = m.memory.get? other := by
  have hfetches : m.Fetches (300 + address) := by
    by_contra hnot
    exact hne (get?_step_of_not_fetches hok hnot)
  refine ⟨hfetches, fun other hother => get?_step_of_not_fetches hok fun htoo => hother ?_⟩
  have hsame : 300 + other = 300 + address := Option.some.inj (htoo.symm.trans hfetches)
  omega

/-! ## Runs -/

theorem cycled_succ_eq (m : Machine) (n : Nat) : m.cycled (n + 1) = m.step.machine.cycled n := by
  induction n with
  | zero => rfl
  | succ n ih => rw [cycled, ih, cycled]

theorem SucceedsFor.mono {n k : Nat} (h : m.SucceedsFor n) (hk : k ≤ n) : m.SucceedsFor k :=
  fun i hi => h i (Nat.lt_of_lt_of_le hi hk)

theorem leaves_succ_of_fetches {n : Nat} {w : Word}
    (hfetches : (m.cycled n).Fetches (300 + address)) :
    m.Leaves (n + 1) address w ↔ w = (m.cycled n).registers.accumulator := by
  constructor
  · rintro (⟨i, hi, -, hlast, hw⟩ | ⟨hnone, -⟩)
    · rcases Nat.lt_succ_iff_lt_or_eq.1 hi with hlt | rfl
      · exact absurd hfetches (hlast n (Nat.lt_succ_self n) hlt)
      · exact hw
    · exact absurd hfetches (hnone n (by omega))
  · intro hw
    exact .inl ⟨n, by omega, hfetches, fun j hj hlt => by omega, hw⟩

theorem leaves_succ_of_not_fetches {n : Nat} {w : Word}
    (hfetches : ¬(m.cycled n).Fetches (300 + address)) :
    m.Leaves (n + 1) address w ↔ m.Leaves n address w := by
  constructor
  · rintro (⟨i, hi, hstore, hlast, hw⟩ | ⟨hnone, hw⟩)
    · have hne : i ≠ n := by
        rintro rfl
        exact hfetches hstore
      exact .inl ⟨i, by omega, hstore, fun j hj => hlast j (by omega), hw⟩
    · exact .inr ⟨fun i hi => hnone i (by omega), hw⟩
  · rintro (⟨i, hi, hstore, hlast, hw⟩ | ⟨hnone, hw⟩)
    · refine .inl ⟨i, by omega, hstore, fun j hj hlt => ?_, hw⟩
      rcases Nat.lt_succ_iff_lt_or_eq.1 hj with hj | rfl
      · exact hlast j hj hlt
      · exact hfetches
    · refine .inr ⟨fun i hi => ?_, hw⟩
      rcases Nat.lt_succ_iff_lt_or_eq.1 hi with hi | rfl
      · exact hnone i hi
      · exact hfetches

theorem get?_cycled_eq_some_iff {n : Nat} {w : Word} (hrun : m.SucceedsFor n)
    (hrange : 0 ≤ address ∧ address ≤ 99) :
    (m.cycled n).memory.get? address = some w ↔ m.Leaves n address w := by
  induction n generalizing w with
  | zero => simp [cycled, Leaves]
  | succ n ih =>
    obtain ⟨entry, hok⟩ := hrun n (by omega)
    have hbefore := ih (w := w) (hrun.mono (by omega))
    by_cases hfetches : (m.cycled n).Fetches (300 + address)
    · rw [leaves_succ_of_fetches hfetches, cycled, get?_step_of_fetches hok hrange hfetches,
        Option.some_inj, eq_comm]
    · rw [leaves_succ_of_not_fetches hfetches, cycled, get?_step_of_not_fetches hok hfetches]
      exact hbefore

/-- The memory of a run. After `n` successful cycles a cell holds the accumulator of the last cycle
that fetched the store to it, or else what it held at first; no cycle changes a cell unless it
fetched the store to this one, and then no other; and each cycle finds in a cell what the cycles
before have left there, whether it executes, adds, subtracts or loads it. -/
theorem memory_footprint {n : Nat} (hrun : m.SucceedsFor n) :
    (∀ (address : Int) (w : Word), 0 ≤ address → address ≤ 99 →
      ((m.cycled n).memory.get? address = some w ↔ m.Leaves n address w)) ∧
    ∀ i < n,
      (∀ address : Int,
        (m.cycled (i + 1)).memory.get? address ≠ (m.cycled i).memory.get? address →
        (m.cycled i).Fetches (300 + address) ∧ ∀ other, other ≠ address →
          (m.cycled (i + 1)).memory.get? other = (m.cycled i).memory.get? other) ∧
      ∀ (address : Int) (w : Word), 0 ≤ address → address ≤ 99 →
        m.Leaves i address w → (m.cycled i).Finds address w := by
  refine ⟨fun address w hlow hhigh => get?_cycled_eq_some_iff hrun ⟨hlow, hhigh⟩, ?_⟩
  intro i hi
  obtain ⟨entry, hok⟩ := hrun i hi
  refine ⟨fun address hne => fetches_of_get?_step_ne hok hne, ?_⟩
  intro address w hlow hhigh hleaves
  apply finds_of_get? hok
  exact (get?_cycled_eq_some_iff (hrun.mono (Nat.le_of_lt hi)) ⟨hlow, hhigh⟩).2 hleaves

/-- A program that stores the word for a load over the word it comes to next: the third cycle finds
the word that the second one stored. -/
theorem memory_footprint_of_self_modification :
    let m := ({ Machine.fresh (.queue []) false with
      memory := (Memory.blank memorySize).overwrite 0
        [.wrap 503, .wrap 302, .wrap 0, .wrap 501] } : Machine)
    m.SucceedsFor 3 ∧ m.Leaves 2 2 (.wrap 501) ∧ (m.cycled 2).registers.programCounter = 2 ∧
      (m.cycled 2).step = (m.cycled 2).obey (.wrap 501) (some (.load 1)) ∧
      (m.cycled 3).memory.get? 2 = some (.wrap 501) ∧
      (m.cycled 3).registers.accumulator = .wrap 302 := by
  intro m
  have hok : ∀ i < 3, (m.cycled i).step.outcome.isOk = true := by decide +kernel
  have hrun : m.SucceedsFor 3 := by
    intro i hi
    have hstep := hok i hi
    cases houtcome : (m.cycled i).step.outcome with
    | error error => simp [houtcome, Except.isOk, Except.toBool] at hstep
    | ok entry => exact ⟨entry, rfl⟩
  have hleaves : m.Leaves 2 2 (.wrap 501) := by
    refine .inl ⟨1, by decide, by decide +kernel, ?_, by decide +kernel⟩
    intro j hj hlt
    omega
  have hstays : m.Leaves 3 2 (.wrap 501) := by
    refine .inl ⟨1, by decide, by decide +kernel, ?_, by decide +kernel⟩
    intro j hj hlt
    have htwo : j = 2 := by omega
    subst htwo
    decide +kernel
  have hcounter : (m.cycled 2).registers.programCounter = 2 := by decide +kernel
  obtain ⟨hmemory, hcycles⟩ := memory_footprint hrun
  have hfinds := (hcycles 2 (by decide)).2 2 (.wrap 501) (by decide) (by decide) hleaves
  exact ⟨hrun, hleaves, hcounter, hfinds.obey hcounter,
    (hmemory 2 (.wrap 501) (by decide) (by decide)).2 hstays, by decide +kernel⟩

end DecimalMachine.Machine
