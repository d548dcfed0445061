import DecimalMachine.Assembly.Line
import DecimalMachine.Proofs.Text.Lines
import DecimalMachine.Proofs.Text.Numeral

/-!
# Tokens of a line

What a line is read from, when it is put together from tokens with blanks between them. A mnemonic
and a literal are tokens; the line of a mnemonic, with or without a literal operand, is the
statement with that operand.

## Main definitions

- `IsToken` — a text that a line can have as a token
-/

namespace DecimalMachine

/-- A text that a line can have as a token: not empty, without blanks, and no start of a comment. -/
structure IsToken (text : List Char) : Prop where
  ne_nil : text ≠ []
  not_isBlank : ∀ c ∈ text, Text.isBlank c = false
  not_startsComment : startsComment text = false

instance (text : List Char) : Decidable (IsToken text) :=
  decidable_of_iff (text ≠ [] ∧ (text.all fun c => !Text.isBlank c) = true ∧
      startsComment text = false)
    ⟨fun h => ⟨h.1, by simpa using h.2.1, h.2.2⟩,
      fun h => ⟨h.ne_nil, by simpa using h.not_isBlank, h.not_startsComment⟩⟩

theorem IsToken.not_isLineBreak {text : List Char} (h : IsToken text) :
    ∀ c ∈ text, Text.isLineBreak c = false := by
  intro c hc
  apply Bool.eq_false_iff.2
  intro hbreak
  cases (h.not_isBlank c hc).symm.trans (Text.isBlank_of_isLineBreak hbreak)

theorem tokens_append_cons_blank {token : List Char} {c : Char} (rest : List Char)
    (h : IsToken token) (hc : Text.isBlank c = true) :
    tokens (token ++ c :: rest) = String.ofList token :: tokens rest := by
  have hwords : Text.words (token ++ c :: rest) = token :: Text.words rest := by
    rw [Text.words_append_cons_blank token rest hc,
      Text.words_of_not_isBlank h.ne_nil h.not_isBlank, List.singleton_append]
  simp [tokens, hwords, h.not_startsComment]

theorem tokens_of_isToken {token : List Char} (h : IsToken token) :
    tokens token = [String.ofList token] := by
  simp [tokens, Text.words_of_not_isBlank h.ne_nil h.not_isBlank, h.not_startsComment]

theorem isToken_of_mem_tokens {text : List Char} {token : String} (h : token ∈ tokens text) :
    IsToken token.toList := by
  obtain ⟨word, hword, rfl⟩ := List.mem_map.1 h
  have hmem : word ∈ Text.words text := (List.takeWhile_prefix _).subset hword
  have hplain : (!startsComment word) = true :=
    List.mem_takeWhile_imp (p := fun word => !startsComment word) hword
  rw [String.toList_ofList]
  exact ⟨Text.ne_nil_of_mem_words hmem, Text.not_isBlank_of_mem_words hmem, by simpa using hplain⟩

theorem Mnemonic.isToken_name (mnemonic : Mnemonic) : IsToken mnemonic.name.toList where
  ne_nil := by
    cases mnemonic <;> decide
  not_isBlank := by
    have hall : mnemonic.name.toList.all (fun c => !Text.isBlank c) = true := by
      cases mnemonic <;> rfl
    simpa using hall
  not_startsComment := by
    cases mnemonic <;> rfl

theorem isToken_of_isLiteral {text : List Char} (h : Text.isLiteral text = true) :
    IsToken text where
  ne_nil := by
    rintro rfl
    cases h
  not_isBlank := Text.not_isBlank_of_isLiteral h
  not_startsComment := by
    fun_cases startsComment text with
    | case1 rest =>
      -- A slash is neither a sign nor a digit.
      have hslash : Text.isPlainDigit '/' = true :=
        (Text.isLiteral_iff.1 h).2 '/' List.mem_cons_self
      cases hslash
    | case2 => rfl

theorem readInt_of_isLiteral {token : String} (h : Text.isLiteral token.toList = true) :
    readInt token =
      if Text.maxDigits < Text.literalDigits token.toList then
        .error (.tooManyDigits (Text.literalDigits token.toList))
      else .ok (Text.literalValue token.toList) := by
  rw [readInt, Text.readNumeral_of_isLiteral h]
  split_ifs <;> rfl

/-- An operand in the form of a literal is the number it stands for, if it has not too many digits
and the number is in the range of words. -/
theorem Target.parse_of_isLiteral {token : String} (h : Text.isLiteral token.toList = true)
    (line : Int) :
    Target.parse token line =
      if Text.maxDigits < Text.literalDigits token.toList then
        .error (.tooManyDigits (Text.literalDigits token.toList))
      else if Text.literalValue token.toList < -999 ∨ 999 < Text.literalValue token.toList then
        .error (.operandOutOfRange (Text.literalValue token.toList) line)
      else .ok (.literal (Text.literalValue token.toList)) := by
  rw [Target.parse, if_pos h, readInt_of_isLiteral h]
  split_ifs with hlong hrange
  · rfl
  · simp only [bind, Except.bind, if_pos hrange]
  · simp only [bind, Except.bind, if_neg hrange]

theorem Target.parse_of_not_isLiteral {token : String} (h : Text.isLiteral token.toList = false)
    (line : Int) : Target.parse token line = .ok (.reference token) := by
  rw [Target.parse, h]
  rfl

theorem Target.parse_written {zeros : Nat} {value line : Int} (hzeros : zeros ≤ 4297)
    (hvalue : -999 ≤ value ∧ value ≤ 999) :
    Target.parse (String.ofList (Text.written zeros value)) line = .ok (.literal value) := by
  have hdigits := Text.length_digits_le hvalue
  have hlength : ¬Text.maxDigits < zeros + (Nat.toDigits 10 value.natAbs).length := by
    rw [show Text.maxDigits = 4300 from rfl]
    omega
  have hrange : ¬(value < -999 ∨ 999 < value) := by omega
  rw [Target.parse_of_isLiteral, String.toList_ofList, Text.literalDigits_written,
    Text.literalValue_written, if_neg hlength, if_neg hrange]
  rw [String.toList_ofList]
  exact Text.isLiteral_written zeros value

theorem tokens_mnemonic_operand (mnemonic : Mnemonic) {operand : List Char}
    (h : IsToken operand) :
    tokens (mnemonic.name.toList ++ ' ' :: operand) = [mnemonic.name, String.ofList operand] := by
  rw [tokens_append_cons_blank operand mnemonic.isToken_name rfl, tokens_of_isToken h,
    String.ofList_toList]

namespace Line

theorem parse_mnemonic (mnemonic : Mnemonic) (line : Int) :
    parse mnemonic.name.toList line = .ok (.statement ⟨line, mnemonic, none, none⟩) := by
  rw [parse, tokens_of_isToken mnemonic.isToken_name, String.ofList_toList, ofTokens,
    Mnemonic.ofName?_name]
  rfl

theorem parse_mnemonic_operand (mnemonic : Mnemonic) {operand : List Char} {line : Int}
    {target : Target} (htoken : IsToken operand)
    (htarget : Target.parse (String.ofList operand) line = .ok target) :
    parse (mnemonic.name.toList ++ ' ' :: operand) line =
      .ok (.statement ⟨line, mnemonic, none, some target⟩) := by
  rw [parse, tokens_mnemonic_operand mnemonic htoken, ofTokens, Mnemonic.ofName?_name]
  simp only [Target.parseFirst, htarget]
  rfl

end Line

end DecimalMachine
