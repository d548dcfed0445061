import DecimalMachine.Proofs.Assembly.Reading
import DecimalMachine.Proofs.Assembly.Token

/-!
# Operands that are spelled like labels

Any token but a mnemonic may be a label, a number too. An operand that is spelled like a label
stands for its address, unless the spelling is that of a number: then it is this number, whatever
the address. `assemble_of_spelled_label` is the main statement.

## Main definitions

- `Line.HasOperand` — the token that is the operand of a line
- `Statement.SpellsOperand` — how the operand of a statement is written in a source
-/

namespace DecimalMachine

/-- A token stands behind the mnemonic of a line with an instruction. -/
def Line.HasOperand (text : List Char) (token : String) : Prop :=
  ∃ label mnemonic more, Splits (tokens text) label mnemonic (token :: more)

theorem Line.HasOperand.exists_parse {text : List Char} {token : String}
    (h : HasOperand text token) :
    ∃ label mnemonic, ∀ line, parse text line =
      (fun target => statement ⟨line, mnemonic, label, some target⟩) <$>
        Target.parse token line := by
  obtain ⟨label, mnemonic, more, hsplits⟩ := h
  refine ⟨label, mnemonic, fun line => ?_⟩
  rw [parse, hsplits.ofTokens_eq, Target.parseFirst, Functor.map_map]

/-- The operand of a statement of a source is written as a token there, on the line of the
statement. -/
def Statement.SpellsOperand (source : String) (s : Statement) (token : String) : Prop :=
  ∃ text number, (text, number) ∈ numberedLines source ∧ s.line = number ∧
    Line.HasOperand text token

theorem eq_of_mem_numberedLines {source : String} {text other : List Char} {number : Nat}
    (h : (text, number) ∈ numberedLines source) (hother : (other, number) ∈ numberedLines source) :
    text = other := by
  obtain ⟨-, -, htext⟩ := List.mem_zipIdx h
  obtain ⟨-, -, hotherText⟩ := List.mem_zipIdx hother
  exact htext.trans hotherText.symm

theorem Statement.parse_of_spellsOperand {source token : String} {statements : List Statement}
    {s : Statement} (hsource : Statement.ofSource source = .ok statements) (hs : s ∈ statements)
    (h : s.SpellsOperand source token) :
    ∃ target, Target.parse token s.line = .ok target ∧ s.target = some target := by
  obtain ⟨text, number, hline, hnumber, hoperand⟩ := h
  obtain ⟨other, number', hother, hnumber', hparse⟩ := exists_line_of_ofSource hsource hs
  -- A source has one line with the number, so the statement was read from these words.
  obtain rfl : number = number' := by omega
  obtain rfl := eq_of_mem_numberedLines hline hother
  obtain ⟨label, mnemonic, hread⟩ := hoperand.exists_parse
  obtain ⟨target, htarget, hs⟩ := Result.map_eq_ok_iff.1 ((hread number).symm.trans hparse)
  cases hs
  exact ⟨target, htarget, rfl⟩

/-- The address that a name refers to is the position of the statement that carries it. -/
theorem Target.address_of_denotes {statements : List Statement} {t : Statement} {name : String}
    {j : Nat} {value : Int} (hnodup : (Label.names (Label.listFrom 0 statements)).Nodup)
    (ht : statements[j]? = some t) (hlabel : t.label = some name)
    (h : Target.Denotes (Label.listFrom 0 statements) (some (.reference name)) value) :
    value = j := by
  have hmem : (⟨name, 0 + j, t.line⟩ : Label) ∈ Label.listFrom 0 statements :=
    Label.mem_listFrom.2 ⟨j, t, ht, hlabel, rfl, rfl⟩
  generalize htarget : some (Target.reference name) = target at h
  cases h with
  | missing => cases htarget
  | literal => cases htarget
  | @reference label hreferred =>
    cases htarget
    rw [List.inj_on_of_nodup_map hnodup hreferred hmem rfl, Nat.zero_add]

/-- Where the operand counts, it is added to what the opcode stands for; a data line has none. -/
theorem Mnemonic.number_of_operand {mnemonic : Mnemonic}
    (h : mnemonic.takesAddress = true ∨ mnemonic = .dat) (value : Int) :
    mnemonic.number value = 100 * mnemonic.opcode?.elim 0 Opcode.digit + value := by
  rcases h with h | rfl
  · cases mnemonic <;> first | rfl | cases h
  · simp [number, opcode?]

/-- What becomes of an operand that is spelled like a label of the source, where a mnemonic takes an
address or makes data: behind the opcode, the word of the instruction has the address of the
statement that carries the label, or, if the label is in the form of a literal, the number that this
stands for. -/
theorem assemble_of_spelled_label {source name : String} {words : List Word}
    {statements : List Statement} {s t : Statement} {i j : Nat}
    (h : assemble source = .ok words) (hsource : Statement.ofSource source = .ok statements)
    (hs : statements[i]? = some s) (ht : statements[j]? = some t) (hlabel : t.label = some name)
    (hspells : s.SpellsOperand source name)
    (hoperand : s.mnemonic.takesAddress = true ∨ s.mnemonic = .dat) :
    ∃ w, words[i]? = some w ∧
      (Text.isLiteral name.toList = false →
        w.toInt = 100 * s.mnemonic.opcode?.elim 0 Opcode.digit + j) ∧
      (Text.isLiteral name.toList = true →
        w.toInt = 100 * s.mnemonic.opcode?.elim 0 Opcode.digit +
          Text.literalValue name.toList) := by
  obtain ⟨statements', hsource', hnodup, -, hwords⟩ := assemble_eq_ok_iff.1 h
  cases hsource.symm.trans hsource'
  obtain ⟨hi, rfl⟩ := List.getElem?_eq_some_iff.1 hs
  have hiWords : i < words.length := hwords.length_eq ▸ hi
  obtain ⟨value, hvalue, hnumber, -⟩ : Statement.Encodes _ statements[i] words[i] :=
    (List.forall₂_iff_get.1 hwords).2 i hi hiWords
  rw [Mnemonic.number_of_operand hoperand] at hnumber
  obtain ⟨target, hparse, htarget⟩ :=
    Statement.parse_of_spellsOperand hsource (List.getElem_mem hi) hspells
  rw [htarget] at hvalue
  refine ⟨words[i], List.getElem?_eq_getElem hiWords, fun hplain => ?_, fun hliteral => ?_⟩
  · rw [Target.parse_of_not_isLiteral hplain] at hparse
    cases hparse
    rw [hnumber, Target.address_of_denotes hnodup ht hlabel hvalue]
  · rw [Target.parse_of_isLiteral hliteral] at hparse
    split_ifs at hparse
    cases hparse
    cases hvalue
    exact hnumber

/-- In one source, an operand that is spelled like a label is its address, and another one, which is
spelled like a label that is a number, is this number. -/
theorem assemble_of_spelled_label_in_both_forms :
    let source := "LDA 5\ntop HLT\n5 DAT top // five"
    let statements : List Statement :=
      [⟨1, .lda, none, some (.literal 5)⟩, ⟨2, .hlt, some "top", none⟩,
        ⟨3, .dat, some "5", some (.reference "top")⟩]
    ∃ words, assemble source = .ok words ∧ Statement.ofSource source = .ok statements ∧
      (∃ w, words[2]? = some w ∧ w.toInt = 1) ∧ ∃ w, words[0]? = some w ∧ w.toInt = 505 := by
  intro source statements
  have hwords : assemble source = .ok ([505, 0, 1].map Word.wrap) := by decide +kernel
  have hstatements : Statement.ofSource source = .ok statements := by decide +kernel
  have hdat : Statement.SpellsOperand source ⟨3, .dat, some "5", some (.reference "top")⟩ "top" :=
    ⟨"5 DAT top // five".toList, 3, by decide +kernel, rfl, some "5", .dat, [],
      by decide +kernel, by decide +kernel⟩
  have hlda : Statement.SpellsOperand source ⟨1, .lda, none, some (.literal 5)⟩ "5" :=
    ⟨"LDA 5".toList, 1, by decide +kernel, rfl, none, .lda, [], by decide +kernel,
      by decide +kernel⟩
  obtain ⟨first, hfirst, htop, -⟩ := assemble_of_spelled_label hwords hstatements
    (show statements[2]? = some _ from rfl) (show statements[1]? = some _ from rfl) rfl hdat
    (.inr rfl)
  obtain ⟨second, hsecond, -, hfive⟩ := assemble_of_spelled_label hwords hstatements
    (show statements[0]? = some _ from rfl) (show statements[2]? = some _ from rfl) rfl hlda
    (.inl rfl)
  exact ⟨_, hwords, hstatements, ⟨first, hfirst, htop (by decide +kernel)⟩, second, hsecond,
    hfive (by decide +kernel)⟩

/-- A label can be defined and yet be of no use: one in the form of a number is not what an operand
of this spelling refers to. -/
theorem not_forall_assemble_of_spelled_label :
    ¬∀ (source name : String) (words : List Word) (statements : List Statement) (s t : Statement)
      (i j : Nat), assemble source = .ok words → Statement.ofSource source = .ok statements →
        statements[i]? = some s → statements[j]? = some t → t.label = some name →
        s.SpellsOperand source name → (s.mnemonic.takesAddress = true ∨ s.mnemonic = .dat) →
        ∃ w, words[i]? = some w ∧
          w.toInt = 100 * s.mnemonic.opcode?.elim 0 Opcode.digit + j := by
  intro h
  have hstatements : Statement.ofSource "LDA 5\nHLT\n5 DAT 7" =
      .ok [⟨1, .lda, none, some (.literal 5)⟩, ⟨2, .hlt, none, none⟩,
        ⟨3, .dat, some "5", some (.literal 7)⟩] := by
    decide +kernel
  have hlda : Statement.SpellsOperand "LDA 5\nHLT\n5 DAT 7" ⟨1, .lda, none, some (.literal 5)⟩
      "5" :=
    ⟨"LDA 5".toList, 1, by decide +kernel, rfl, none, .lda, [], by decide +kernel,
      by decide +kernel⟩
  obtain ⟨w, hw, hnumber⟩ := h "LDA 5\nHLT\n5 DAT 7" "5" ([505, 0, 7].map Word.wrap) _ _ _ 0 2
    (by decide +kernel) hstatements rfl rfl rfl hlda (.inl rfl)
  cases hw
  -- The word is 505; the label stands for the address 2.
  exact absurd hnumber (by decide +kernel)

end DecimalMachine
