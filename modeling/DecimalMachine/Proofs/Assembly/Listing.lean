import DecimalMachine.Proofs.Assembly.Refusal
import DecimalMachine.Proofs.Assembly.Token
import DecimalMachine.Proofs.Text.Lines

/-!
# Listings as source

The listing of a word is a line of assembly text: a mnemonic alone, or a mnemonic with a written
number. Whichever it is, the line is read as a statement without label that encodes the word. So a
source whose lines are the listings of words assembles to these words, if they fit into memory.
`assemble_listing` is the main statement.

## Main definitions

- `Word.ListedAs` — a line of assembly text for a word, with the statement it is read as
- `Lists` — a source whose lines are the listings of words
-/

namespace DecimalMachine

/-- An opcode that has an address is that of a mnemonic of the same name. -/
theorem Mnemonic.exists_of_opcode {opcode : Opcode} (h : opcode ∉ [.hlt, .reserved, .io]) :
    ∃ mnemonic : Mnemonic, mnemonic.takesAddress = true ∧ mnemonic.name = opcode.name ∧
      ∀ value, mnemonic.number value = 100 * opcode.digit + value := by
  cases opcode with
  | hlt | reserved | io => exact absurd (by decide) h
  | add => exact ⟨.add, rfl, rfl, fun _ => rfl⟩
  | sub => exact ⟨.sub, rfl, rfl, fun _ => rfl⟩
  | sta => exact ⟨.sta, rfl, rfl, fun _ => rfl⟩
  | lda => exact ⟨.lda, rfl, rfl, fun _ => rfl⟩
  | bra => exact ⟨.bra, rfl, rfl, fun _ => rfl⟩
  | brz => exact ⟨.brz, rfl, rfl, fun _ => rfl⟩
  | brp => exact ⟨.brp, rfl, rfl, fun _ => rfl⟩

theorem Mnemonic.exists_of_channel (channel : Channel) :
    ∃ mnemonic : Mnemonic, mnemonic.takesAddress = false ∧ mnemonic.name = channel.name ∧
      mnemonic.number 0 = 900 + channel.code := by
  cases channel with
  | inp => exact ⟨.inp, rfl, rfl, rfl⟩
  | out => exact ⟨.out, rfl, rfl, rfl⟩
  | otc => exact ⟨.otc, rfl, rfl, rfl⟩

/-- A text that stands for a word: the mnemonic and the operand that a line with this text has. -/
inductive Word.ListedAs (w : Word) : String → Mnemonic → Option Target → Prop
  | plain {mnemonic : Mnemonic} (haddress : mnemonic.takesAddress = false)
    (hnumber : w.toInt = mnemonic.number 0) : ListedAs w mnemonic.name mnemonic none
  | operand {mnemonic : Mnemonic} {zeros : Nat} {value : Int} (hzeros : zeros ≤ 2)
    (hvalue : -999 ≤ value ∧ value ≤ 999)
    (haddress : mnemonic.takesAddress = true → 0 ≤ value ∧ value ≤ 99)
    (hnumber : w.toInt = mnemonic.number value) :
    ListedAs w (mnemonic.name ++ " " ++ String.ofList (Text.written zeros value)) mnemonic
      (some (.literal value))

namespace Word

theorem listedAs_dataLine (w : Word) :
    w.ListedAs w.dataLine .dat (some (.literal w.toInt)) := by
  have hline : w.dataLine =
      Mnemonic.dat.name ++ " " ++ String.ofList (Text.written 0 w.toInt) := by
    rw [dataLine, text, Text.decimal_eq_written]
    rfl
  rw [hline]
  exact .operand (by decide) ⟨w.lower, w.upper⟩ (fun h => nomatch h) rfl

/-- A word under an opcode that has an address is listed with its last two digits. -/
theorem exists_listedAs_address {w : Word} {opcode : Opcode}
    (hdigit : opcode.digit = w.leadingDigit) (h : opcode ∉ [.hlt, .reserved, .io]) :
    ∃ mnemonic target,
      w.ListedAs (opcode.name ++ " " ++ Text.zeroPadded 2 w.lastTwoDigits) mnemonic target := by
  obtain ⟨mnemonic, -, hname, hnumber⟩ := Mnemonic.exists_of_opcode h
  obtain ⟨zeros, hzeros, hpadded⟩ := Text.exists_zeroPadded_eq_written 2 w.lastTwoDigits
  have hpositive : 0 < opcode.digit := by
    cases opcode with
    | hlt => exact absurd (by decide) h
    | _ => decide
  have hdigits := w.hundred_mul_leadingDigit_add
  have hbounds : 0 ≤ w.lastTwoDigits ∧ w.lastTwoDigits ≤ 99 := by
    have hsign := w.lastTwoDigits_bounds
    omega
  have hword : w.toInt = mnemonic.number w.lastTwoDigits := by
    rw [hnumber, hdigit, hdigits]
  rw [hpadded, ← hname]
  exact ⟨mnemonic, _, .operand hzeros (by omega) (fun _ => hbounds) hword⟩

theorem exists_listedAs_channel {w : Word} {channel : Channel}
    (hword : w.toInt = 900 + channel.code) :
    ∃ mnemonic target, w.ListedAs channel.name mnemonic target := by
  obtain ⟨mnemonic, haddress, hname, hnumber⟩ := Mnemonic.exists_of_channel channel
  rw [← hname]
  exact ⟨mnemonic, none, .plain haddress (hword.trans hnumber.symm)⟩

theorem exists_listedAs_listing (w : Word) :
    ∃ mnemonic target, w.ListedAs w.listing mnemonic target := by
  have hdata : ∃ mnemonic target, w.ListedAs w.dataLine mnemonic target :=
    ⟨_, _, w.listedAs_dataLine⟩
  -- The cases are those of the listing: whatever is no instruction is a data line.
  rw [listing, decode]
  cases hopcode : Opcode.ofDigit? w.leadingDigit with
  | none => exact hdata
  | some opcode =>
    have hdigit := Opcode.ofDigit?_eq_some_iff.1 hopcode
    cases opcode with
    | hlt =>
      simp only [Instruction.listing]
      split_ifs with hzero
      · have hnumber : w.toInt = 0 := by simpa [isZero] using hzero
        have hlisted : w.ListedAs Mnemonic.hlt.name .hlt none := .plain rfl hnumber
        exact ⟨_, _, hlisted⟩
      · exact hdata
    | reserved => exact hdata
    | io =>
      simp only [Instruction.listing]
      cases hchannel : Channel.ofCode? w.lastTwoDigits with
      | none => exact hdata
      | some channel =>
        refine exists_listedAs_channel ?_
        rw [Channel.ofCode?_eq_some_iff.1 hchannel, ← w.hundred_mul_leadingDigit_add, ← hdigit]
        rfl
    | _ =>
      have hlisted := exists_listedAs_address hdigit (by decide)
      exact hlisted

section ListedAs

variable {w : Word} {text : String} {mnemonic : Mnemonic} {target : Option Target}

theorem ListedAs.parse (h : w.ListedAs text mnemonic target) (line : Int) :
    Line.parse text.toList line = .ok (.statement ⟨line, mnemonic, none, target⟩) := by
  cases h with
  | plain => exact Line.parse_mnemonic mnemonic line
  | @operand _ zeros value hzeros hvalue =>
    have hline : (mnemonic.name ++ " " ++ String.ofList (Text.written zeros value)).toList =
        mnemonic.name.toList ++ ' ' :: Text.written zeros value := by
      simp
    rw [hline]
    exact Line.parse_mnemonic_operand mnemonic
      (isToken_of_isLiteral (Text.isLiteral_written zeros value))
      (Target.parse_written (by omega) hvalue)

theorem ListedAs.encodes (h : w.ListedAs text mnemonic target) (labels : List Label) (line : Int) :
    (⟨line, mnemonic, none, target⟩ : Statement).Encodes labels w := by
  cases h with
  | plain haddress hnumber =>
    exact ⟨0, .missing, hnumber, fun h => absurd (haddress.symm.trans h) (by decide)⟩
  | @operand _ _ value _ _ haddress hnumber => exact ⟨value, .literal value, hnumber, haddress⟩

theorem ListedAs.isLine (h : w.ListedAs text mnemonic target) :
    text.toList ≠ [] ∧ ∀ c ∈ text.toList, Text.isLineBreak c = false := by
  have hname : IsToken mnemonic.name.toList := mnemonic.isToken_name
  cases h with
  | plain => exact ⟨hname.ne_nil, hname.not_isLineBreak⟩
  | @operand _ zeros value =>
    have hoperand : IsToken (Text.written zeros value) :=
      isToken_of_isLiteral (Text.isLiteral_written zeros value)
    simp only [String.toList_append, String.toList_ofList, List.append_assoc]
    refine ⟨fun hnil => hname.ne_nil (List.append_eq_nil_iff.1 hnil).1, fun c hc => ?_⟩
    rcases List.mem_append.1 hc with hc | hc
    · exact hname.not_isLineBreak c hc
    · rcases List.mem_append.1 hc with hc | hc
      · cases List.mem_singleton.1 hc
        rfl
      · exact hoperand.not_isLineBreak c hc

end ListedAs

theorem exists_statement_of_listing (w : Word) (line : Int) :
    ∃ s : Statement, Line.parse w.listing.toList line = .ok (.statement s) ∧ s.label = none ∧
      ∀ labels, s.Encodes labels w := by
  obtain ⟨mnemonic, target, hlisted⟩ := w.exists_listedAs_listing
  exact ⟨⟨line, mnemonic, none, target⟩, hlisted.parse line, rfl,
    fun labels => hlisted.encodes labels line⟩

theorem isLine_of_mem_listings {words : List Word} {row : List Char}
    (h : row ∈ words.map fun w => w.listing.toList) :
    row ≠ [] ∧ ∀ c ∈ row, Text.isLineBreak c = false := by
  obtain ⟨w, -, rfl⟩ := List.mem_map.1 h
  obtain ⟨mnemonic, target, hlisted⟩ := w.exists_listedAs_listing
  exact hlisted.isLine

end Word

/-- A source whose lines are the listings of words, whatever breaks them. -/
def Lists (source : String) (words : List Word) : Prop :=
  Text.lines source.toList = words.map fun w => w.listing.toList

theorem lists_intercalate (words : List Word) :
    Lists ("\n".intercalate (words.map Word.listing)) words := by
  have hlast : (words.map fun w => w.listing.toList).getLast? ≠ some [] := by
    intro hnil
    exact (Word.isLine_of_mem_listings (List.mem_of_getLast? hnil)).1 rfl
  rw [Lists, String.toList_intercalate, List.map_map]
  exact Text.lines_intercalate_feed hlast fun row hrow => (Word.isLine_of_mem_listings hrow).2

theorem lists_join (words : List Word) :
    Lists (String.join (words.map fun w => w.listing ++ "\n")) words := by
  have hrows : (String.join (words.map fun w => w.listing ++ "\n")).toList =
      (words.map fun w => w.listing.toList).flatMap fun row => row ++ ['\n'] := by
    simp [String.toList_join, List.flatMap_map]
  rw [Lists, hrows]
  exact Text.lines_flatMap_feed fun row hrow => (Word.isLine_of_mem_listings hrow).2

/-- Lines that are listings are read as statements without labels, one for each word. -/
theorem exists_statements_of_listings (words : List Word) (start : Nat) :
    ∃ statements : List Statement,
      List.Forall₂ (fun (p : List Char × Nat) s =>
        Line.parse p.1 (p.2 : Int) = .ok (.statement s))
        ((words.map fun w => w.listing.toList).zipIdx start) statements ∧
      statements.filterMap Statement.label = [] ∧
      ∀ labels, List.Forall₂ (Statement.Encodes labels) statements words := by
  induction words generalizing start with
  | nil => exact ⟨[], .nil, rfl, fun _ => .nil⟩
  | cons w words ih =>
    obtain ⟨s, hparse, hlabel, hencodes⟩ := w.exists_statement_of_listing start
    obtain ⟨statements, hlines, hlabels, hwords⟩ := ih (start + 1)
    refine ⟨s :: statements, .cons hparse hlines, ?_,
      fun labels => .cons (hencodes labels) (hwords labels)⟩
    rw [List.filterMap_cons_none hlabel, hlabels]

namespace Lists

variable {source : String} {words : List Word}

theorem exists_statements (h : Lists source words) :
    ∃ statements, Statement.ofSource source = .ok statements ∧
      statements.filterMap Statement.label = [] ∧
      ∀ labels, List.Forall₂ (Statement.Encodes labels) statements words := by
  obtain ⟨statements, hlines, hlabels, hwords⟩ := exists_statements_of_listings words 1
  refine ⟨statements, Statement.ofSource_eq_ok_iff.2 ⟨statements.map .statement, ?_, ?_⟩,
    hlabels, hwords⟩
  · rw [Result.mapM_eq_ok_iff, numberedLines, h]
    exact List.forall₂_map_right_iff.2 hlines
  · simp [Line.statements, List.filterMap_map, Function.comp_def, Line.statement?]

theorem assemble_eq_ok (h : Lists source words) (hsize : words.length ≤ 100) :
    assemble source = .ok words := by
  obtain ⟨statements, hsource, hlabels, hencodes⟩ := h.exists_statements
  have hnodup : (Label.names (Label.listFrom 0 statements)).Nodup := by
    rw [Label.names_listFrom, hlabels]
    exact List.nodup_nil
  have hlength : statements.length ≤ memorySize := (hencodes []).length_eq.trans_le hsize
  exact assemble_eq_ok_iff.2 ⟨statements, hsource, hnodup, hlength, hencodes _⟩

theorem assemble_eq_error (h : Lists source words) (hsize : 100 < words.length) :
    assemble source = .error (.programTooLarge words.length 100) := by
  obtain ⟨statements, hsource, hlabels, hencodes⟩ := h.exists_statements
  have hnodup : (statements.filterMap Statement.label).Nodup := by
    rw [hlabels]
    exact List.nodup_nil
  have hlength : statements.length = words.length := (hencodes []).length_eq
  rw [assemble_eq_error_iff, ← hlength]
  exact .tooLarge hsource hnodup (hlength ▸ hsize)

end Lists

/-- The listings of words, one per line, with a line feed between them or after each, assemble to
the words again if they fit into memory, and are refused with their number otherwise. In particular
the listing of what a source assembles to assembles to the same. -/
theorem assemble_listing (words : List Word) :
    Lists ("\n".intercalate (words.map Word.listing)) words ∧
    Lists (String.join (words.map fun w => w.listing ++ "\n")) words ∧
    (∀ listing, Lists listing words →
      (words.length ≤ 100 → assemble listing = .ok words) ∧
      (100 < words.length → assemble listing = .error (.programTooLarge words.length 100))) ∧
    ∀ source, assemble source = .ok words →
      ∀ listing, Lists listing words → assemble listing = .ok words := by
  refine ⟨lists_intercalate words, lists_join words,
    fun listing h => ⟨h.assemble_eq_ok, h.assemble_eq_error⟩, ?_⟩
  intro source hassemble listing h
  obtain ⟨statements, -, -, hlength, hencodes⟩ := assemble_eq_ok_iff.1 hassemble
  exact h.assemble_eq_ok (hencodes.length_eq.symm.trans_le hlength)

end DecimalMachine
