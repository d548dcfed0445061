import DecimalMachine.Assembly.Assemble
import DecimalMachine.Proofs.Assembly.Table
import DecimalMachine.Proofs.Result

/-!
# What a source assembles to

Assembling told without the order of its stages. A source with statements is assembled exactly if
no label stands twice, the statements fit into memory and each of them encodes a word; the words are
then the words of the statements, one for one. `assemble_eq_ok_iff` is the main statement.

## Main definitions

- `Target.Denotes` — the number that an operand stands for
- `Mnemonic.number` — the number of the word that a mnemonic makes of its operand
- `Statement.Encodes` — the word of a statement
-/

namespace DecimalMachine

/-- The number that an operand stands for: a missing operand zero, a literal itself, a reference the
address of its label. -/
inductive Target.Denotes (labels : List Label) : Option Target → Int → Prop
  | missing : Denotes labels none 0
  | literal (value : Int) : Denotes labels (some (.literal value)) value
  | reference {label : Label} (h : label ∈ labels) :
    Denotes labels (some (.reference label.name)) label.address

/-- The number of the word that a mnemonic makes of its operand. -/
def Mnemonic.number (value : Int) : Mnemonic → Int
  | hlt => 0
  | add => 100 + value
  | sub => 200 + value
  | sta => 300 + value
  | lda => 500 + value
  | bra => 600 + value
  | brz => 700 + value
  | brp => 800 + value
  | inp => 901
  | out => 902
  | otc => 922
  | dat => value

/-- The operand of a mnemonic that takes an address is an address; a data line takes any word. -/
theorem Mnemonic.encode_eq_ok_iff {mnemonic : Mnemonic} {value line : Int} {w : Word} :
    mnemonic.encode value line = .ok w ↔
      w.toInt = mnemonic.number value ∧
        (mnemonic.takesAddress = true → 0 ≤ value ∧ value ≤ 99) := by
  cases mnemonic with
  | hlt =>
    simp only [encode, opcode?, channel?, takesAddress, number, Bool.false_eq_true, if_false,
      false_implies, and_true, Except.ok.injEq]
    exact ⟨fun h => h ▸ rfl, fun h => Word.ext h.symm⟩
  | inp | out | otc =>
    simp [encode, opcode?, channel?, takesAddress, number, Word.ofDigits_eq_ok_iff, Opcode.digit,
      Channel.code]
  | dat =>
    simp only [encode, opcode?, takesAddress, number, Bool.false_eq_true, false_implies, and_true,
      ← Word.ofInt?_eq_some_iff]
    cases Word.ofInt? value <;> simp
  | _ =>
    simp only [encode, opcode?, channel?, takesAddress, number, if_true, true_implies,
      Word.ofDigits_eq_ok_iff, Opcode.digit]
    omega

namespace Statement

/-- The statements of a source. -/
def ofSource (source : String) : Except Error (List Statement) :=
  Line.statements <$> Line.parseSource source

/-- The word of a statement: the one that the mnemonic makes of the number its operand stands for,
which has to be an address if the mnemonic takes one. -/
def Encodes (labels : List Label) (s : Statement) (w : Word) : Prop :=
  ∃ value, Target.Denotes labels s.target value ∧ w.toInt = s.mnemonic.number value ∧
    (s.mnemonic.takesAddress = true → 0 ≤ value ∧ value ≤ 99)

theorem resolve_eq_ok_iff {s : Statement} {labels : List Label} {value : Int}
    (hnodup : (Label.names labels).Nodup) :
    s.resolve (Label.addresses labels) = .ok value ↔ Target.Denotes labels s.target value := by
  unfold resolve
  cases htarget : s.target with
  | none =>
    constructor
    · rintro ⟨⟩
      exact .missing
    · rintro ⟨⟩
      rfl
  | some target =>
    cases target with
    | literal number =>
      constructor
      · rintro ⟨⟩
        exact .literal _
      · rintro ⟨⟩
        rfl
    | reference name =>
      constructor
      · intro h
        cases hlookup : (Label.addresses labels).lookup name with
        | none => simp [hlookup] at h
        | some address =>
          -- Names are not repeated, so what is found is the address of the one label.
          obtain ⟨label, hmem, rfl, rfl⟩ := Label.exists_of_lookup_addresses hlookup
          simp only [hlookup, Except.ok.injEq] at h
          exact h ▸ .reference hmem
      · rintro (_ | _ | hmem)
        simp [Label.lookup_addresses_of_mem hnodup hmem]

theorem encode_eq_ok_iff {s : Statement} {labels : List Label} {w : Word}
    (hnodup : (Label.names labels).Nodup) :
    s.encode (Label.addresses labels) = .ok w ↔ s.Encodes labels w := by
  rw [encode, Result.bind_eq_ok_iff]
  constructor
  · rintro ⟨value, hvalue, hw⟩
    exact ⟨value, (resolve_eq_ok_iff hnodup).1 hvalue, Mnemonic.encode_eq_ok_iff.1 hw⟩
  · rintro ⟨value, hvalue, hw⟩
    exact ⟨value, (resolve_eq_ok_iff hnodup).2 hvalue, Mnemonic.encode_eq_ok_iff.2 hw⟩

end Statement

/-- Statements that fit into memory are encoded one for one. -/
theorem encodeAll_eq_ok_iff {statements : List Statement} {labels : List Label}
    {words : List Word} (hnodup : (Label.names labels).Nodup) :
    encodeAll statements (Label.addresses labels) = .ok words ↔
      statements.length ≤ memorySize ∧
        List.Forall₂ (Statement.Encodes labels) statements words := by
  have hencode : (fun (s : Statement) (w : Word) => s.encode (Label.addresses labels) = .ok w) =
      Statement.Encodes labels := by
    funext s w
    exact propext (Statement.encode_eq_ok_iff hnodup)
  unfold encodeAll
  split
  · simp only [reduceCtorEq, false_iff]
    omega
  · rw [Result.mapM_eq_ok_iff, hencode]
    exact ⟨fun h => ⟨by omega, h⟩, fun h => h.2⟩

/-- A source is assembled exactly if it has statements, no label stands twice, the statements fit
into memory and each encodes a word; these are the words of the source. -/
theorem assemble_eq_ok_iff {source : String} {words : List Word} :
    assemble source = .ok words ↔
      ∃ statements, Statement.ofSource source = .ok statements ∧
        (Label.names (Label.listFrom 0 statements)).Nodup ∧
        statements.length ≤ memorySize ∧
        List.Forall₂ (Statement.Encodes (Label.listFrom 0 statements)) statements words := by
  simp only [assemble, Assembly.ofSource, Assembly.ofStatements, Statement.ofSource,
    Result.map_eq_ok_iff, Result.bind_eq_ok_iff]
  constructor
  · rintro ⟨assembly, ⟨lines, hlines, labels, hlabels, encoded, hencoded, hassembly⟩, rfl⟩
    cases hassembly
    obtain ⟨rfl, hnodup⟩ := Label.collect_eq_ok_iff.1 hlabels
    exact ⟨_, ⟨lines, hlines, rfl⟩, hnodup, (encodeAll_eq_ok_iff hnodup).1 hencoded⟩
  · rintro ⟨statements, ⟨lines, hlines, rfl⟩, hnodup, hwords⟩
    exact ⟨_, ⟨lines, hlines, _, Label.collect_eq_ok_iff.2 ⟨rfl, hnodup⟩, words,
      (encodeAll_eq_ok_iff hnodup).2 hwords, rfl⟩, rfl⟩

theorem length_le_of_assemble {source : String} {words : List Word}
    (h : assemble source = .ok words) : words.length ≤ memorySize := by
  obtain ⟨statements, -, -, hsize, hencodes⟩ := assemble_eq_ok_iff.1 h
  exact hencodes.length_eq ▸ hsize

end DecimalMachine
