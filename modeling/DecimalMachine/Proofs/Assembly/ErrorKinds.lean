import DecimalMachine.Command.Assemble
import DecimalMachine.Proofs.Assembly.Refusal
import DecimalMachine.Proofs.Assembly.Spelling

/-!
# Kinds of errors

A source is refused because a line of it cannot be read or because its statements cannot be encoded,
and the command reports either and ends with status one. There is one way out of this: an operand of
plain digits is measured before it is compared with the range of words, and if it has more digits
than a numeral may have, the error is one of numerals, which the command has no report for.
`assemble_error_kinds` is the main statement.

## Main definitions

- `Error.isUnreadable`, `Error.isUnencodable` — the errors that the assembler is to fail with
- `Line.IsOverlong` — a line whose operand has too many digits
-/

namespace DecimalMachine

/-- A line is no line of assembly text. -/
def Error.isUnreadable : Error → Bool
  | invalidOpcode .. | operandOutOfRange .. => true
  | _ => false

/-- Statements make no program. -/
def Error.isUnencodable : Error → Bool
  | labelNotFound .. | duplicateLabel .. | digitsOutOfRange .. | dataOutOfRange ..
  | programTooLarge .. => true
  | _ => false

namespace Line

/-- The operand of a line is in the form of a literal and has so many digits, which are more than a
numeral may have. -/
def IsOverlong (text : List Char) (digits : Nat) : Prop :=
  Text.maxDigits < digits ∧ ∃ token, HasOperand text token ∧
    Text.isLiteral token.toList = true ∧ Text.literalDigits token.toList = digits

/-- The lines before a line of a source can be read, so that its own error is that of the source. -/
def IsFirstUnread (source : String) (text : List Char) (number : Nat) : Prop :=
  ∃ before rest, numberedLines source = before ++ (text, number) :: rest ∧
    ∀ p ∈ before, ∃ parsed, parse p.1 (p.2 : Int) = .ok parsed

theorem HasOperand.parse_eq_error_iff {text : List Char} {token : String} {line : Int}
    {error : Error} (h : HasOperand text token) :
    parse text line = .error error ↔ Target.parse token line = .error error := by
  obtain ⟨label, mnemonic, hparse⟩ := h.exists_parse
  rw [hparse, Result.map_eq_error_iff]

/-- A line with a literal as its operand is refused for nothing but this operand: for its digits if
there are too many of them, and otherwise if it is out of range. -/
theorem HasOperand.parse_literal_eq_error_iff {text : List Char} {token : String} {line : Int}
    {error : Error} (h : HasOperand text token) (hliteral : Text.isLiteral token.toList = true) :
    parse text line = .error error ↔
      if Text.maxDigits < Text.literalDigits token.toList then
        error = .tooManyDigits (Text.literalDigits token.toList)
      else
        error = .operandOutOfRange (Text.literalValue token.toList) line ∧
          ¬(-999 ≤ Text.literalValue token.toList ∧ Text.literalValue token.toList ≤ 999) := by
  have hrange : ¬(-999 ≤ Text.literalValue token.toList ∧ Text.literalValue token.toList ≤ 999) ↔
      Text.literalValue token.toList < -999 ∨ 999 < Text.literalValue token.toList := by omega
  rw [h.parse_eq_error_iff, Target.parse_of_isLiteral hliteral, hrange]
  split_ifs with hlong hout
  · simp [eq_comm]
  · simp [hout, eq_comm]
  · simp [hout]

/-- A line that cannot be read has no mnemonic where one is due, or a literal for its operand that
is out of range or overlong. -/
theorem error_kind_of_parse {text : List Char} {line : Int} {error : Error}
    (h : parse text line = .error error) :
    error.isUnreadable = true ∨
      ∃ digits, IsOverlong text digits ∧ error = .tooManyDigits digits := by
  rcases exists_splits (tokens text) with
    hnone | ⟨token, hlacks⟩ | ⟨label, mnemonic, rest, hsplits⟩
  · rw [parse, hnone] at h
    cases h
  · cases (hlacks.ofTokens_eq line).symm.trans h
    exact .inl rfl
  cases rest with
  | nil =>
    rw [parse, hsplits.ofTokens_eq] at h
    cases h
  | cons token more =>
    have hoperand : HasOperand text token := ⟨label, mnemonic, more, hsplits⟩
    cases hliteral : Text.isLiteral token.toList with
    | false =>
      rw [hoperand.parse_eq_error_iff, Target.parse_of_not_isLiteral hliteral] at h
      cases h
    | true =>
      rw [hoperand.parse_literal_eq_error_iff hliteral] at h
      split_ifs at h with hlong
      · exact .inr ⟨_, ⟨hlong, token, hoperand, hliteral, rfl⟩, h⟩
      · obtain ⟨rfl, -⟩ := h
        exact .inl rfl

theorem parse_eq_tooManyDigits_iff {text : List Char} {line : Int} {digits : Nat} :
    parse text line = .error (.tooManyDigits digits) ↔ IsOverlong text digits := by
  constructor
  · intro h
    rcases error_kind_of_parse h with hkind | ⟨_, hlong, herror⟩
    · cases hkind
    · cases herror
      exact hlong
  · rintro ⟨hlong, token, hoperand, hliteral, rfl⟩
    rw [hoperand.parse_literal_eq_error_iff hliteral, if_pos hlong]

end Line

/-- The kinds of errors that a source is refused with; numerals of too many digits are only met on
the first line that cannot be read. -/
theorem Assembly.Refusal.kind {source : String} {error : Error}
    (h : Assembly.Refusal source error) :
    error.isUnreadable = true ∨ error.isUnencodable = true ∨
      ∃ digits text number, error = .tooManyDigits digits ∧
        Line.IsFirstUnread source text number ∧ Line.IsOverlong text digits := by
  cases h with
  | line hlines hbefore herror =>
    rcases Line.error_kind_of_parse herror with hkind | ⟨digits, hlong, rfl⟩
    · exact .inl hkind
    · exact .inr (.inr ⟨digits, _, _, rfl, ⟨_, _, hlines, hbefore⟩, hlong⟩)
  | repeated => exact .inr (.inl rfl)
  | tooLarge => exact .inr (.inl rfl)
  | fault hsource hlabels hsize hsplit hbefore hfault =>
    cases hfault with
    | unknownLabel => exact .inr (.inl rfl)
    | noAddress => exact .inr (.inl rfl)

theorem assemble_eq_tooManyDigits_iff {source : String} {digits : Nat} :
    assemble source = .error (.tooManyDigits digits) ↔
      ∃ text number, Line.IsFirstUnread source text number ∧ Line.IsOverlong text digits := by
  rw [assemble_eq_error_iff]
  constructor
  · intro h
    rcases h.kind with hkind | hkind | ⟨_, text, number, herror, hfirst, hlong⟩
    · cases hkind
    · cases hkind
    · cases herror
      exact ⟨text, number, hfirst, hlong⟩
  · rintro ⟨text, number, ⟨before, rest, hlines, hbefore⟩, hlong⟩
    exact .line hlines hbefore (Line.parse_eq_tooManyDigits_iff.2 hlong)

theorem Error.conclude_of_kind {error : Error}
    (h : error.isUnreadable = true ∨ error.isUnencodable = true) :
    error.conclude = ([.err (errorText error.message ++ "\n")], .completed 1) := by
  rcases h with h | h <;> cases error <;> first | rfl | cases h

/-- The command fails with the error of the source and leaves all files as they are, whatever would
come of writing the dump. -/
theorem assembleCommandOn_of_error {read : Text.Pathname → Except PathFault (List UInt8)}
    {source : String} {error : Error} {argv : List String} {arguments : Arguments}
    {content : List UInt8}
    (harguments : Arguments.parse AssembleCommand.grammar argv = .ok arguments)
    (hcontent : onFile .readSource (AssembleCommand.source arguments)
      (read (AssembleCommand.source arguments)) = .ok content)
    (htext : AssembleCommand.sourceText (AssembleCommand.source arguments) content = .ok source)
    (h : assemble source = .error error)
    (write : Text.Pathname → List UInt8 → Except PathFault FileTree) (files : FileTree) :
    assembleCommandOn read write argv files = .failed error files := by
  have hassembly : Assembly.ofSource source = .error error := Result.map_eq_error_iff.1 h
  have hfile : AssembleCommand.assembleFile read write (AssembleCommand.source arguments)
      (AssembleCommand.output arguments) = .error error := by
    simp only [AssembleCommand.assembleFile, AssembleCommand.assembleContent, hcontent, htext,
      hassembly, bind, Except.bind]
  simp only [assembleCommandOn, Grammar.start, harguments, hfile]

/-- The errors that a source is refused with, and what the command makes of them once it has read
the source. They are those of lines that cannot be read and of statements that cannot be encoded,
which the command reports and ends with status one; and that of an operand of too many digits, on
the first line that cannot be read, by which it is ended without a report. A literal operand of as
many digits as a numeral may have or fewer is refused exactly if it is out of range. -/
theorem assemble_error_kinds (source : String) :
    (∀ error, assemble source = .error error →
      error.isUnreadable = true ∨ error.isUnencodable = true ∨
        ∃ digits, error = .tooManyDigits digits) ∧
    (∀ digits, assemble source = .error (.tooManyDigits digits) ↔
      ∃ text number, Line.IsFirstUnread source text number ∧ Line.IsOverlong text digits) ∧
    (∀ text number token error, (text, number) ∈ numberedLines source →
      Line.HasOperand text token → Text.isLiteral token.toList = true →
      (Line.parse text number = .error error ↔
        if Text.maxDigits < Text.literalDigits token.toList then
          error = .tooManyDigits (Text.literalDigits token.toList)
        else
          error = .operandOutOfRange (Text.literalValue token.toList) number ∧
            ¬(-999 ≤ Text.literalValue token.toList ∧ Text.literalValue token.toList ≤ 999))) ∧
    ∀ read write argv files arguments content error,
      Arguments.parse AssembleCommand.grammar argv = .ok arguments →
      onFile .readSource (AssembleCommand.source arguments)
        (read (AssembleCommand.source arguments)) = .ok content →
      AssembleCommand.sourceText (AssembleCommand.source arguments) content = .ok source →
      assemble source = .error error →
      assembleCommandOn read write argv files =
        if error.isUnreadable || error.isUnencodable then
          ⟨.completed 1, [.err (errorText error.message ++ "\n")], files⟩
        else ⟨.crashed error, [], files⟩ := by
  refine ⟨fun error h => ?_, fun digits => assemble_eq_tooManyDigits_iff,
    fun text number token error _ hoperand hliteral =>
      hoperand.parse_literal_eq_error_iff hliteral, ?_⟩
  · rcases (assemble_eq_error_iff.1 h).kind with hkind | hkind | ⟨digits, _, _, herror, -⟩
    · exact .inl hkind
    · exact .inr (.inl hkind)
    · exact .inr (.inr ⟨digits, herror⟩)
  · intro read write argv files arguments content error harguments hcontent htext h
    rw [assembleCommandOn_of_error harguments hcontent htext h, Outcome.failed]
    rcases (assemble_eq_error_iff.1 h).kind with hkind | hkind | ⟨digits, _, _, rfl, -⟩
    · rw [Error.conclude_of_kind (.inl hkind), hkind]
      rfl
    · rw [Error.conclude_of_kind (.inr hkind), hkind, Bool.or_true]
      rfl
    · rfl

/-- The command on a file whose second line has a literal that is out of range. -/
theorem assemble_error_kinds_of_large_literal :
    let source := "INP\nx LDA +01000 // far"
    let files := FileTree.empty.add (.ofPathname (.ofString "p.asm"))
      (.file (Text.encodeUtf8 source))
    (∀ error, Line.parse "x LDA +01000 // far".toList 2 = .error error ↔
        error = .operandOutOfRange 1000 2 ∧ ¬((-999 : Int) ≤ 1000 ∧ (1000 : Int) ≤ 999)) ∧
      assemble source = .error (.operandOutOfRange 1000 2) ∧
      assembleCommand ["p.asm", "--output", "p.bin"] files =
        ⟨.completed 1,
          [.err (errorText "Parse error on line 2: Operand out of range: 1000" ++ "\n")],
          files⟩ := by
  intro source files
  obtain ⟨-, -, hliteral, hcommand⟩ := assemble_error_kinds source
  have hsource : assemble source = .error (.operandOutOfRange 1000 2) := by decide +kernel
  have hoperand : Line.HasOperand "x LDA +01000 // far".toList "+01000" :=
    ⟨some "x", .lda, [], by decide +kernel, by decide +kernel⟩
  refine ⟨fun error => ?_, hsource, ?_⟩
  · exact hliteral "x LDA +01000 // far".toList 2 "+01000" error (by decide +kernel) hoperand
      (by decide +kernel)
  · exact hcommand files.read files.write ["p.asm", "--output", "p.bin"] files
      ⟨some "p.asm", [("--output", .text "p.bin")], [], []⟩ (Text.encodeUtf8 source) _
      (by decide +kernel) (by decide +kernel) (by decide +kernel) hsource

/-- A zero with more zeros before it than a numeral may have digits is in the range of words, and
yet the source is refused, with an error of neither kind. -/
theorem assemble_of_zero_of_many_digits :
    let operand := Text.written 4300 0
    let source := String.ofList (Mnemonic.dat.name.toList ++ ' ' :: operand)
    Line.HasOperand source.toList (String.ofList operand) ∧ Text.isLiteral operand = true ∧
      Text.literalValue operand = 0 ∧ assemble source = .error (.tooManyDigits 4301) ∧
      (Error.tooManyDigits 4301).isUnreadable = false ∧
      (Error.tooManyDigits 4301).isUnencodable = false := by
  intro operand source
  have hliteral : Text.isLiteral operand = true := Text.isLiteral_written 4300 0
  have htoken : IsToken operand := isToken_of_isLiteral hliteral
  have hoperand : Line.HasOperand source.toList (String.ofList operand) := by
    refine ⟨none, .dat, [], ?_, by rintro _ ⟨⟩⟩
    rw [String.toList_ofList]
    exact tokens_mnemonic_operand .dat htoken
  have hlong : Line.IsOverlong source.toList 4301 := by
    refine ⟨by decide, String.ofList operand, hoperand, ?_, ?_⟩
    · rw [String.toList_ofList]
      exact hliteral
    · rw [String.toList_ofList]
      exact Text.literalDigits_written 4300 0
  have hlines : numberedLines source = [(source.toList, 1)] := by
    have hbreaks : ∀ c ∈ source.toList, Text.isLineBreak c = false := by
      rw [String.toList_ofList]
      exact List.forall_mem_append.2 ⟨Mnemonic.dat.isToken_name.not_isLineBreak,
        List.forall_mem_cons.2 ⟨by decide, htoken.not_isLineBreak⟩⟩
    rw [numberedLines, Text.lines_of_not_isLineBreak (by simp [source]) hbreaks]
    rfl
  refine ⟨hoperand, hliteral, Text.literalValue_written 4300 0, ?_, rfl, rfl⟩
  exact assemble_eq_tooManyDigits_iff.2
    ⟨source.toList, 1, ⟨[], [], hlines, List.forall_mem_nil _⟩, hlong⟩

end DecimalMachine
