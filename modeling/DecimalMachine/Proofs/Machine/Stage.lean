import DecimalMachine.Proofs.Machine.Limit
import DecimalMachine.Proofs.Machine.Loading
import DecimalMachine.Proofs.Memory.Load
import Mathlib.Logic.Relation

/-!
# Stages of a run

A stage is what a program can tell of the machine between two cycles: the words at the start of
memory, the program counter, the accumulator and the devices. A stage whose next word asks for
something that goes on has a next stage, which is computed from it, with numbers left open where
they are not known; so a piece of a program is run by evaluating its stages, and loops by induction.
Machines follow the stages cycle by cycle, and a run of the machine comes to its end where the
stages come to a halt.

## Main definitions

- `Stage`, `Stage.next?`, `Stage.after?` — stages, the next one, the one after a number of cycles
- `Stage.IsOf` — a machine is at a stage
- `Stage.Leads` — a stage comes after another, however many cycles later
-/

namespace DecimalMachine

/-- What a program can tell of the machine between two cycles. Behind the words memory is zero. -/
structure Stage where
  words : List Word
  counter : Nat
  accumulator : Word
  input : Input
  output : Output

namespace Stage

/-- What the word at the program counter asks for. -/
def operation? (s : Stage) : Option Operation :=
  s.words[s.counter]?.bind fun w => Operation.ofNumber? w.toInt

/-- The stage at the next address with another accumulator. -/
def past (s : Stage) (w : Word) : Stage := { s with counter := s.counter + 1, accumulator := w }

/-- The stage at the next address with an accumulator computed from one of the words. -/
def compute? (s : Stage) (address : Int) (f : Word → Word) : Option Stage :=
  s.words[address.toNat]?.map fun w => s.past (f w)

/-- The stage at an address. -/
def jump (s : Stage) (address : Int) : Stage := { s with counter := address.toNat }

/-- The stage after an operation, if the operation goes on. -/
def obey? (s : Stage) : Operation → Option Stage
  | .add address => s.compute? address fun w => s.accumulator + w
  | .subtract address => s.compute? address fun w => s.accumulator - w
  | .load address => s.compute? address fun w => w
  | .store address =>
    if address.toNat < s.words.length then
      some { s.past s.accumulator with words := s.words.set address.toNat s.accumulator }
    else none
  | .jump address => some (s.jump address)
  | .jumpIfZero address =>
    some (if s.accumulator.toInt = 0 then s.jump address else s.past s.accumulator)
  | .jumpIfNotNegative address =>
    some (if 0 ≤ s.accumulator.toInt then s.jump address else s.past s.accumulator)
  | .input =>
    match s.input.read.outcome with
    | .ok w => some { s.past w with input := s.input.read.input }
    | .error _ => none
  | .writeNumber =>
    some { s.past s.accumulator with output := s.output.putNumber s.accumulator.toInt }
  | .writeCharacter =>
    some { s.past s.accumulator with
      output := s.output.putCharacter (Char.ofNat (s.accumulator.toInt % 256).toNat) }
  | .idle _ => some (s.past s.accumulator)
  | .halt | .reserved => none

/-- The stage after the next cycle. -/
def next? (s : Stage) : Option Stage := s.operation?.bind s.obey?

/-- The stage after a number of cycles. -/
def after? (s : Stage) : Nat → Option Stage
  | 0 => some s
  | n + 1 => s.next?.bind fun later => later.after? n

/-- A machine that has not halted is at a stage. -/
structure IsOf (s : Stage) (m : Machine) : Prop where
  running : m.halted = false
  fits : s.words.length ≤ memorySize
  memory : m.memory = (Memory.blank memorySize).overwrite 0 s.words
  counter : m.registers.programCounter = s.counter
  accumulator : m.registers.accumulator = s.accumulator
  input : m.input = s.input
  output : m.output = s.output

/-- A stage comes after another. -/
def Leads : Stage → Stage → Prop := Relation.ReflTransGen fun s later => s.next? = some later

end Stage

/-- A word that replaces another at the start of an otherwise empty memory. -/
theorem Memory.set?_overwrite_blank {size : Nat} {words : List Word} {address : Int}
    (hlow : 0 ≤ address) (hword : address.toNat < words.length) (hcell : address.toNat < size)
    (w : Word) :
    ((blank size).overwrite 0 words).set? address w =
      some ((blank size).overwrite 0 (words.set address.toNat w)) := by
  have hset : ((blank size).overwrite 0 words).set? address w ≠ none := by
    rw [Ne, set?_eq_none_iff]
    omega
  obtain ⟨stored, hstored⟩ := Option.ne_none_iff_exists'.1 hset
  rw [hstored]
  congr 1
  apply Memory.ext
  intro i hi
  rw [get?_of_set? hstored, get?_overwrite_blank _ hi, get?_overwrite_blank _ hi, List.getElem?_set]
  by_cases hsame : address.toNat = i
  · rw [if_pos (by omega), if_pos hsame, if_pos hword]
    rfl
  · rw [if_neg (by omega), if_neg hsame]

namespace Stage

variable {s later : Stage} {m : Machine} {address : Int} {operation : Operation}

/-! ## One cycle -/

/-- The words of a stage are in the cells of its machine. -/
theorem IsOf.get? {w : Word} (h : s.IsOf m) (hword : s.words[address.toNat]? = some w)
    (hlow : 0 ≤ address) : m.memory.get? address = some w := by
  have hfits := h.fits
  have hlength : address.toNat < s.words.length := (List.getElem?_eq_some_iff.1 hword).1
  have haddress : ((address.toNat : Nat) : Int) = address := Int.toNat_of_nonneg hlow
  rw [h.memory, ← haddress, Memory.get?_overwrite_blank _ (by omega), hword]
  rfl

/-- The operation of a stage is the one that its machine obeys in the next cycle. -/
theorem IsOf.exists_obey (h : s.IsOf m) (hoperation : s.operation? = some operation) :
    ∃ w, Operation.ofNumber? w.toInt = some operation ∧ m.step = m.obey w (some operation) := by
  obtain ⟨w, hword, hnumber⟩ := Option.bind_eq_some_iff.1 hoperation
  have hfetched : m.memory.get? m.registers.programCounter = some w := by
    rw [h.counter]
    exact h.get? (by rwa [Int.toNat_natCast]) (Int.natCast_nonneg _)
  exact ⟨w, hnumber, by rw [Machine.step_eq_obey h.running hfetched, hnumber]⟩

theorem IsOf.fetched (h : s.IsOf m) (w : Word) : (s.past s.accumulator).IsOf (m.fetched w) := by
  refine ⟨h.running, h.fits, h.memory, ?_, h.accumulator, h.input, h.output⟩
  rw [Machine.registers_fetched, h.counter]
  rfl

/-- A computation with a cell finds the word of the stage there. -/
theorem IsOf.compute {f g : Word → Word} (h : s.IsOf m) (w : Word) (hlow : 0 ≤ address)
    (hfun : ∀ v, f v = g v) (hnext : s.compute? address f = some later) :
    ((m.fetched w).compute address g).outcome = .ok .continues ∧
      later.IsOf ((m.fetched w).compute address g).machine := by
  obtain ⟨v, hword, rfl⟩ := Option.map_eq_some_iff.1 hnext
  have hcell : (m.fetched w).memory.get? address = some v := h.get? hword hlow
  have hfetched := h.fetched w
  rw [Machine.compute, hcell]
  exact ⟨rfl, hfetched.running, hfetched.fits, hfetched.memory, hfetched.counter, (hfun v).symm,
    hfetched.input, hfetched.output⟩

/-- An operation leads a machine to the next stage. -/
theorem IsOf.run (h : s.IsOf m) (w : Word) (hnext : s.obey? operation = some later)
    (haddress : ∀ address, operation.address? = some address → 0 ≤ address) :
    (operation.run (m.fetched w)).outcome = .ok .continues ∧
      later.IsOf (operation.run (m.fetched w)).machine := by
  obtain ⟨hrunning, hfits, hmemory, hcounter, haccumulator, hinput, houtput⟩ := h.fetched w
  have hword : (m.fetched w).registers.accumulator = s.accumulator := haccumulator
  cases operation with
  | halt | reserved => cases hnext
  | add address | subtract address =>
    exact h.compute w (haddress address rfl) (fun v => by rw [hword]) hnext
  | load address => exact h.compute w (haddress address rfl) (fun _ => rfl) hnext
  | store address =>
    simp only [obey?] at hnext
    split at hnext
    · next hlength =>
      cases hnext
      have hset := Memory.set?_overwrite_blank (haddress address rfl) hlength
        (Nat.lt_of_lt_of_le hlength hfits) s.accumulator
      simp only [Operation.run, hmemory, hword]
      rw [show (s.past s.accumulator).words = s.words from rfl, hset]
      exact ⟨rfl, hrunning, by rwa [List.length_set], rfl, hcounter, haccumulator, hinput, houtput⟩
    · cases hnext
  | jump address =>
    cases hnext
    exact ⟨rfl, hrunning, hfits, hmemory, (Int.toNat_of_nonneg (haddress address rfl)).symm,
      haccumulator, hinput, houtput⟩
  | jumpIfZero address | jumpIfNotNegative address =>
    cases hnext
    simp only [Operation.run, hword]
    split
    · exact ⟨rfl, hrunning, hfits, hmemory, (Int.toNat_of_nonneg (haddress address rfl)).symm,
        haccumulator, hinput, houtput⟩
    · exact ⟨rfl, hrunning, hfits, hmemory, hcounter, haccumulator, hinput, houtput⟩
  | input =>
    have hread : (m.fetched w).input = s.input := hinput
    simp only [obey?] at hnext
    simp only [Operation.run, hread]
    cases hok : s.input.read.outcome with
    | error error =>
      rw [hok] at hnext
      cases hnext
    | ok v =>
      rw [hok] at hnext
      cases hnext
      exact ⟨rfl, hrunning, hfits, hmemory, hcounter, rfl, rfl, houtput⟩
  | writeNumber | writeCharacter =>
    cases hnext
    refine ⟨rfl, hrunning, hfits, hmemory, hcounter, haccumulator, hinput, ?_⟩
    rw [Operation.run, hword, show (m.fetched w).output = s.output from houtput]
  | idle code =>
    cases hnext
    exact ⟨rfl, hrunning, hfits, hmemory, hcounter, haccumulator, hinput, houtput⟩

/-- A machine goes on to the next stage in its next cycle. -/
theorem IsOf.step (h : s.IsOf m) (hnext : s.next? = some later) :
    m.nextOutcome = .ok .continues ∧ later.IsOf m.step.machine := by
  obtain ⟨operation, hoperation, hobey⟩ := Option.bind_eq_some_iff.1 hnext
  obtain ⟨w, hnumber, hstep⟩ := h.exists_obey hoperation
  obtain ⟨hok, hrunning, hfits, hmemory, hcounter, haccumulator, hinput, houtput⟩ :=
    h.run w hobey fun _ haddress => (Operation.address?_bounds hnumber haddress).1
  obtain ⟨entry, hprogress, -, hmachine, houtcome⟩ := Machine.obey_of_ok hok
  rw [Machine.nextOutcome, hstep, houtcome, hmachine]
  refine ⟨congrArg Except.ok hprogress, ?_, hfits, hmemory, hcounter, haccumulator, hinput,
    houtput⟩
  rw [Machine.complete, hprogress]
  rfl

/-- A machine whose word asks it to halt does so, and leaves its devices as they are. -/
theorem IsOf.step_of_halt (h : s.IsOf m) (hhalt : s.operation? = some .halt) :
    m.nextOutcome = .ok .halted ∧ m.step.machine.halted = true ∧
      m.step.machine.input = s.input ∧ m.step.machine.output = s.output := by
  obtain ⟨w, -, hstep⟩ := h.exists_obey hhalt
  obtain ⟨entry, hprogress, -, hmachine, houtcome⟩ :=
    Machine.obey_of_ok (show (Operation.halt.run (m.fetched w)).outcome = .ok .halted from rfl)
  rw [Machine.nextOutcome, hstep, houtcome, hmachine]
  refine ⟨congrArg Except.ok hprogress, ?_, h.input, h.output⟩
  rw [Machine.complete, hprogress]
  rfl

/-- A stage that reads has a next one if its input device gives a word. -/
theorem next?_of_read {w : Word} (hoperation : s.operation? = some .input)
    (hread : s.input.read.outcome = .ok w) :
    s.next? = some { s.past w with input := s.input.read.input } := by
  rw [next?, hoperation, Option.bind_some, obey?, hread]

/-! ## Many cycles -/

theorem leads_of_next? (h : s.next? = some later) : s.Leads later := Relation.ReflTransGen.single h

theorem Leads.trans {last : Stage} (h : s.Leads later) (hlast : later.Leads last) : s.Leads last :=
  Relation.ReflTransGen.trans h hlast

/-- The stages of a piece of a program come one after the other. -/
theorem leads_of_after? {n : Nat} (h : s.after? n = some later) : s.Leads later := by
  induction n generalizing s with
  | zero =>
    cases h
    exact Relation.ReflTransGen.refl
  | succ n ih =>
    obtain ⟨middle, hnext, hrest⟩ := Option.bind_eq_some_iff.1 h
    exact (leads_of_next? hnext).trans (ih hrest)

/-- A machine follows the stages: its run goes on from a machine at the later stage. -/
theorem IsOf.exists_runFrom (h : s.IsOf m) (hleads : s.Leads later) :
    ∃ (k : Nat) (reached : Machine), later.IsOf reached ∧ ∀ observe n shown, ∃ shown',
      m.runFrom observe (k + n) shown = reached.runFrom observe n shown' := by
  induction hleads using Relation.ReflTransGen.head_induction_on generalizing m with
  | refl => exact ⟨0, m, h, fun observe n shown => ⟨shown, by rw [Nat.zero_add]⟩⟩
  | head hnext _ ih =>
    obtain ⟨hgoesOn, hstage⟩ := h.step hnext
    obtain ⟨k, reached, hreached, hruns⟩ := ih hstage
    refine ⟨k + 1, reached, hreached, fun observe n shown => ?_⟩
    obtain ⟨shown', hrun⟩ := hruns observe n (shown ++ observe m ++ m.step.events)
    refine ⟨shown', ?_⟩
    rw [Nat.add_right_comm, Machine.runFrom_succ, hgoesOn, ← hrun]

/-- A machine from whose stage a halt is reached halts, with the devices as they are there, if it is
run for long enough. -/
theorem IsOf.exists_halted (h : s.IsOf m) (hleads : s.Leads later)
    (hhalt : later.operation? = some .halt) :
    ∃ cycles : Nat, ∀ observe limit, cycles ≤ limit →
      (m.run observe limit).ending = .halted ∧ (m.run observe limit).machine.halted = true ∧
        (m.run observe limit).machine.input = later.input ∧
        (m.run observe limit).machine.output = later.output := by
  obtain ⟨k, reached, hreached, hruns⟩ := h.exists_runFrom hleads
  obtain ⟨hstops, hhalted, hinput, houtput⟩ := hreached.step_of_halt hhalt
  refine ⟨k + 1, fun observe limit hlimit => ?_⟩
  obtain ⟨left, rfl⟩ : ∃ left, limit = k + (left + 1) := ⟨limit - k - 1, by omega⟩
  obtain ⟨shown', hrun⟩ := hruns observe (left + 1) #[]
  rw [Machine.run, hrun, Machine.runFrom_succ, hstops]
  exact ⟨rfl, hhalted, hinput, houtput⟩

/-- A program that was loaded is at its first stage. -/
theorem exists_isOf_of_words (m : Machine) {words : List Word} (h : words.length ≤ memorySize) :
    ∃ loaded, m.loadProgram (words.map .word) = .ok (loaded, words.length) ∧
      IsOf ⟨words, 0, .zero, m.input, m.output⟩ loaded :=
  ⟨_, Machine.loadProgram_eq_ok_iff.2 ⟨_, Memory.loadOperands_words _ h, rfl⟩, rfl, h, rfl,
    rfl, rfl, rfl, rfl⟩

end Stage

end DecimalMachine
