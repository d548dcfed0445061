import DecimalMachine.Proofs.Assembly.Encoding
import DecimalMachine.Proofs.Machine.Cycles
import DecimalMachine.Proofs.Memory.Load

/-!
# Execution of sources

An assembled source runs as it reads. Whenever the machine has come to the address of a statement
that the program has not stored over, its next cycle carries out the statement, with the number its
operand stands for; behind the last statement the machine stops.

## Main definitions

- `Mnemonic.operation?` — the operation of a mnemonic with the number of its operand
-/

namespace DecimalMachine

/-- The operation of a mnemonic with the number of its operand. A data line is run as the word it
holds, all others do what they are named for. -/
def Mnemonic.operation? (value : Int) : Mnemonic → Option Operation
  | hlt => some .halt
  | add => some (.add value)
  | sub => some (.subtract value)
  | sta => some (.store value)
  | lda => some (.load value)
  | bra => some (.jump value)
  | brz => some (.jumpIfZero value)
  | brp => some (.jumpIfNotNegative value)
  | inp => some .input
  | out => some .writeNumber
  | otc => some .writeCharacter
  | dat => Operation.ofNumber? value

theorem Mnemonic.ofNumber?_number {mnemonic : Mnemonic} {value : Int}
    (h : mnemonic.takesAddress = true → 0 ≤ value ∧ value ≤ 99) :
    Operation.ofNumber? (mnemonic.number value) = mnemonic.operation? value := by
  cases mnemonic with
  | hlt | inp | out | otc | dat => rfl
  | _ =>
    obtain ⟨hlow, hhigh⟩ := h rfl
    exact Operation.ofNumber?_eq_some_iff.2 ⟨rfl, hlow, hhigh⟩

theorem Statement.Encodes.ofNumber? {labels : List Label} {s : Statement} {w : Word}
    (h : s.Encodes labels w) :
    ∃ value, Target.Denotes labels s.target value ∧
      Operation.ofNumber? w.toInt = s.mnemonic.operation? value := by
  obtain ⟨value, hvalue, hw, hrange⟩ := h
  refine ⟨value, hvalue, ?_⟩
  rw [hw]
  exact Mnemonic.ofNumber?_number hrange

namespace Machine

/-- Words that fit into memory are loaded alone, from its first cell on. -/
theorem exists_loadProgram_words (m : Machine) {words : List Word}
    (h : words.length ≤ memorySize) :
    ∃ loaded, m.loadProgram (words.map .word) = .ok (loaded, words.length) ∧
      ∀ i : Nat, i < memorySize → loaded.memory.get? i = words[i]?.or (some .zero) := by
  refine ⟨({ m with memory := (Memory.blank memorySize).overwrite 0 words } : Machine).reset,
    ?_, fun i hi => Memory.get?_overwrite_blank words hi⟩
  rw [loadProgram, Memory.loadOperands_words _ h]
  rfl

/-- A machine that comes to the word zero stops. -/
theorem halted_of_zero {m : Machine} (hrunning : m.halted = false)
    (hword : m.memory.get? m.registers.programCounter = some .zero) :
    ∃ entry, m.step.outcome = .ok entry ∧ entry.progress = .halted ∧
      m.step.machine.halted = true := by
  obtain ⟨entry, hprogress, -, hmachine, houtcome⟩ :=
    obey_of_ok (show (Operation.halt.run (m.fetched .zero)).outcome = .ok .halted from rfl)
  rw [step_eq_obey hrunning hword, show Operation.ofNumber? Word.zero.toInt = some .halt from rfl]
  refine ⟨entry, houtcome, hprogress, ?_⟩
  rw [hmachine, complete, hprogress]
  rfl

/-- The machine runs an assembled source as it reads. The words of the source can be loaded, and in
every state that cycles lead to from there, if the machine runs and no cycle has stored over the
cell at the program counter, the next cycle carries out the statement at this address; the machine
stops if there is none. -/
theorem step_of_source {source : String} {words : List Word} {statements : List Statement}
    {labels : List Label} (m : Machine) (hwords : assemble source = .ok words)
    (hstatements : Statement.ofSource source = .ok statements)
    (hlabels : Label.collect statements = .ok labels) :
    ∃ loaded, m.loadProgram (words.map .word) = .ok (loaded, statements.length) ∧
      ∀ (entries : List TraceEntry) (later : Machine) (i : Nat), Cycles loaded entries later →
        later.halted = false → later.registers.programCounter = i →
        (∀ entry ∈ entries, ¬entry.StoresAt i) →
        (∀ s, statements[i]? = some s →
          ∃ value w, Target.Denotes labels s.target value ∧ words[i]? = some w ∧
            later.step = later.obey w (s.mnemonic.operation? value)) ∧
        (statements.length ≤ i → i ≤ 99 →
          ∃ entry, later.step.outcome = .ok entry ∧ entry.progress = .halted ∧
            later.step.machine.halted = true) := by
  obtain ⟨_, hstatements', -, hsize, hencodes⟩ := assemble_eq_ok_iff.1 hwords
  cases hstatements.symm.trans hstatements'
  cases (Label.collect_eq_ok_iff.1 hlabels).1
  have hlength : statements.length = words.length := hencodes.length_eq
  obtain ⟨loaded, hload, hmemory⟩ := m.exists_loadProgram_words (hlength ▸ hsize)
  refine ⟨loaded, hlength ▸ hload, ?_⟩
  intro entries later i hcycles hrunning hcounter hstores
  -- No cycle has stored at the program counter, so its cell holds what was loaded into it.
  have hcell : i < memorySize →
      later.memory.get? later.registers.programCounter = words[i]?.or (some .zero) := by
    intro hi
    rw [hcounter, hcycles.get?_of_not_stores hstores, hmemory i hi]
  constructor
  · intro s hs
    obtain ⟨hi, rfl⟩ := List.getElem?_eq_some_iff.1 hs
    have hiWords : i < words.length := hlength ▸ hi
    have hword : words[i]? = some words[i] := List.getElem?_eq_getElem hiWords
    have hencoded : Statement.Encodes (Label.listFrom 0 statements) statements[i] words[i] :=
      (List.forall₂_iff_get.1 hencodes).2 i hi hiWords
    obtain ⟨value, hvalue, hoperation⟩ := hencoded.ofNumber?
    have hfetched : later.memory.get? later.registers.programCounter = some words[i] := by
      rw [hcell (by omega), hword]
      rfl
    refine ⟨value, words[i], hvalue, hword, ?_⟩
    rw [step_eq_obey hrunning hfetched, hoperation]
  · intro hi hlast
    have hblank : later.memory.get? later.registers.programCounter = some .zero := by
      rw [hcell (Nat.lt_succ_of_le hlast), List.getElem?_eq_none (hlength ▸ hi)]
      rfl
    exact halted_of_zero hrunning hblank

/-- Two cycles, the second of which stores into a data line, lead to a branch, whose operand is a
label; the next cycle runs the branch. -/
theorem step_of_source_after_store :
    let source := "start INP // read\n\n STA cell\n BRZ start\n\tOTC 7\nstop HLT start\ncell DAT -1"
    let words := [901, 305, 700, 922, 0, -1].map Word.wrap
    let labels : List Label := [⟨"start", 0, 1⟩, ⟨"stop", 4, 6⟩, ⟨"cell", 5, 7⟩]
    let loaded := ({ fresh (.queue [.wrap 8]) false with
      memory := (Memory.blank memorySize).overwrite 0 words } : Machine)
    let later := loaded.step.machine.step.machine
    assemble source = .ok words ∧
      (fresh (.queue [.wrap 8]) false).loadProgram (words.map .word) = .ok (loaded, 6) ∧
      (∃ entries, Cycles loaded entries later ∧ entries.length = 2) ∧
      later.memory.get? 5 = some (.wrap 8) ∧
      ∃ value w, Target.Denotes labels (some (.reference "start")) value ∧
        words[2]? = some w ∧ later.step = later.obey w (some (.jumpIfZero value)) := by
  intro source words labels loaded later
  have hwords : assemble source = .ok words := by decide +kernel
  have hstatements : Statement.ofSource source =
      .ok [⟨1, .inp, some "start", none⟩, ⟨3, .sta, none, some (.reference "cell")⟩,
        ⟨4, .brz, none, some (.reference "start")⟩, ⟨5, .otc, none, some (.literal 7)⟩,
        ⟨6, .hlt, some "stop", some (.reference "start")⟩,
        ⟨7, .dat, some "cell", some (.literal (-1))⟩] := by
    decide +kernel
  have hload : (fresh (.queue [.wrap 8]) false).loadProgram (words.map .word) =
      .ok (loaded, 6) := by
    decide +kernel
  have hinput : loaded.step.outcome =
      .ok ⟨0, 0, .wrap 901, "INP", .initial, ⟨1, 9, 1, .wrap 8⟩, .continues⟩ := by
    decide +kernel
  have hstore : loaded.step.machine.step.outcome =
      .ok ⟨1, 1, .wrap 305, "STA 05", ⟨1, 9, 1, .wrap 8⟩, ⟨2, 3, 5, .wrap 8⟩, .continues⟩ := by
    decide +kernel
  have hcycles := Cycles.cons hinput (Cycles.cons hstore (Cycles.nil _))
  obtain ⟨program, hprogram, hstep⟩ :=
    step_of_source (fresh (.queue [.wrap 8]) false) hwords hstatements
      (show Label.collect _ = .ok labels by decide +kernel)
  have hsame : program = loaded := (Prod.mk.inj (Except.ok.inj (hprogram.symm.trans hload))).1
  rw [hsame] at hstep
  refine ⟨hwords, hload, ⟨_, hcycles, rfl⟩, by decide +kernel, ?_⟩
  exact (hstep _ later 2 hcycles (by decide +kernel) (by decide +kernel) (by decide +kernel)).1
    ⟨4, .brz, none, some (.reference "start")⟩ rfl

end Machine

end DecimalMachine
