import DecimalMachine.Proofs.Assembly.ErrorKinds
import DecimalMachine.Proofs.Assembly.Layout

/-!
# Lines and their texts

A line that is well formed can be written down in many ways: with gaps of any width between its
words, its literal under any sign and behind any zeros, further words behind the operand, and a
comment. Whichever way is taken, reading gives the line back; and every line that is read is well
formed. `parse_of_rendering` is the main statement.

## Main definitions

- `Line.WellFormed` — a line that a text can be read as
- `SetOut` — words as they may stand on a line of text
- `Target.IsSpelled`, `Line.IsSpelled` — the words that an operand and a line may be written with
- `Line.Renders`, `Line.RendersAll` — the texts that a line and the lines of a source may be written
  as
-/

namespace DecimalMachine

/-- An operand that a token can stand for. -/
def Target.WellFormed : Target → Prop
  | literal value => -999 ≤ value ∧ value ≤ 999
  | reference label => IsToken label.toList ∧ Text.isLiteral label.toList = false

/-- The tokens that an operand may be written as. -/
inductive Target.IsSpelled : Target → List Char → Prop
  | literal {value : Int} {sign : List Char} {zeros : Nat} (hsign : Text.IsSignOf value sign)
    (hlength : zeros + (Nat.toDigits 10 value.natAbs).length ≤ Text.maxDigits) :
    IsSpelled (literal value) (Text.numeral sign zeros value)
  | reference {label : String} : IsSpelled (reference label) label.toList

/-- Words as they may stand on a line of text: apart from each other, with any blanks around them,
and with a comment behind the last gap or none. -/
inductive SetOut : List (List Char) → List Char → Prop
  | idle {line : List Char} (h : IsIdle line) : SetOut [] line
  | word {gap word rest : List Char} {others : List (List Char)} (hgap : IsSpace gap)
    (hword : IsToken word) (hrest : ∀ c ∈ rest.head?, Text.isBlank c = true)
    (h : SetOut others rest) : SetOut (word :: others) (gap ++ (word ++ rest))

namespace Line

def number : Line → Int
  | empty line => line
  | statement s => s.line

/-- A line whose label, if it has one, is a token that is no mnemonic, and whose operand, if it has
one, is one that a token can stand for. -/
def WellFormed : Line → Prop
  | empty _ => True
  | statement s =>
    (∀ name ∈ s.label, IsToken name.toList ∧ Mnemonic.ofName? name = none) ∧
      ∀ target ∈ s.target, target.WellFormed

/-- The words that a line may be written with. Only behind an operand there may be further ones. -/
inductive IsSpelled : Line → List (List Char) → Prop
  | empty {line : Int} : IsSpelled (empty line) []
  | bare {line : Int} {mnemonic : Mnemonic} {label : Option String} :
    IsSpelled (statement ⟨line, mnemonic, label, none⟩)
      (label.toList.map String.toList ++ [mnemonic.name.toList])
  | operand {line : Int} {mnemonic : Mnemonic} {label : Option String} {target : Target}
    {token : List Char} {more : List (List Char)} (h : target.IsSpelled token) :
    IsSpelled (statement ⟨line, mnemonic, label, some target⟩)
      (label.toList.map String.toList ++ mnemonic.name.toList :: token :: more)

/-- A line of text that a line may be written as. -/
def Renders (line : Line) (text : List Char) : Prop :=
  ∃ words, line.IsSpelled words ∧ SetOut words text

/-- A source that lines may be written as, each with a line feed at its end. -/
def RendersAll (lines : List Line) (source : String) : Prop :=
  ∃ rows, List.Forall₂ Renders lines rows ∧
    source.toList = rows.flatMap fun row => row ++ ['\n']

end Line

section SetOut

variable {words : List (List Char)} {text : List Char}

theorem SetOut.tokens_eq (h : SetOut words text) : tokens text = words.map String.ofList := by
  induction h with
  | idle h => exact h.tokens_eq_nil
  | @word gap word rest others hgap hword hrest _ ih =>
    have hwords : Text.words (gap ++ (word ++ rest)) = word :: Text.words rest := by
      rw [Text.words_blanks_append hgap.isBlank,
        Text.words_append_of_head hword.ne_nil hword.not_isBlank hrest]
    rw [List.map_cons, ← ih, tokens, tokens, hwords]
    simp [hword.not_startsComment]

theorem SetOut.not_isLineBreak (h : SetOut words text) :
    ∀ c ∈ text, Text.isLineBreak c = false := by
  induction h with
  | idle h => exact h.not_isLineBreak
  | word hgap hword _ _ ih =>
    exact List.forall_mem_append.2 ⟨fun c hc => (hgap c hc).2,
      List.forall_mem_append.2 ⟨hword.not_isLineBreak, ih⟩⟩

/-- Tokens can be set out with a space in front of each. -/
theorem exists_setOut (h : ∀ word ∈ words, IsToken word) :
    ∃ text, SetOut words text ∧ ∀ c ∈ text.head?, Text.isBlank c = true := by
  induction words with
  | nil =>
    have hnone : IsIdle [] := ⟨List.forall_mem_nil _, [], [], rfl, List.forall_mem_nil _, .inl rfl⟩
    exact ⟨[], .idle hnone, by simp⟩
  | cons word words ih =>
    obtain ⟨hword, hwords⟩ := List.forall_mem_cons.1 h
    obtain ⟨rest, hrest, hhead⟩ := ih hwords
    have hgap : IsSpace [' '] := by decide
    refine ⟨_, .word hgap hword hhead hrest, ?_⟩
    rintro c ⟨⟩
    rfl

end SetOut

namespace Target

theorem IsSpelled.parse_eq {target : Target} {token : List Char} (h : target.IsSpelled token)
    (hwell : target.WellFormed) (line : Int) :
    Target.parse (String.ofList token) line = .ok target := by
  cases h with
  | @literal value sign zeros hsign hlength =>
    have hrange : ¬(value < -999 ∨ 999 < value) := by
      obtain ⟨hlower, hupper⟩ := hwell
      omega
    have hliteral := Text.isLiteral_numeral hsign zeros
    rw [← String.toList_ofList (l := Text.numeral sign zeros value)] at hliteral
    rw [parse_of_isLiteral hliteral, String.toList_ofList, Text.literalDigits_numeral hsign,
      Text.literalValue_numeral hsign, if_neg (Nat.not_lt.2 hlength), if_neg hrange]
  | @reference label =>
    rw [String.ofList_toList]
    exact parse_of_not_isLiteral hwell.2 line

theorem exists_isSpelled {target : Target} (h : target.WellFormed) :
    ∃ token, target.IsSpelled token ∧ IsToken token := by
  cases target with
  | literal value =>
    have hdigits := Text.length_digits_le h
    have hlength : 0 + (Nat.toDigits 10 value.natAbs).length ≤ Text.maxDigits := by
      rw [show Text.maxDigits = 4300 from rfl]
      omega
    have hsign := Text.isSignOf_written value
    exact ⟨_, .literal hsign hlength, isToken_of_isLiteral (Text.isLiteral_numeral hsign 0)⟩
  | reference label => exact ⟨_, .reference, h.1⟩

theorem wellFormed_of_parse {token : String} {line : Int} {target : Target}
    (htoken : IsToken token.toList) (h : Target.parse token line = .ok target) :
    target.WellFormed := by
  cases target with
  | literal value => exact literal_bounds h
  | reference label =>
    unfold Target.parse at h
    split_ifs at h with hliteral
    · obtain ⟨value, -, hrange⟩ := Result.bind_eq_ok_iff.1 h
      split_ifs at hrange
      cases hrange
    · cases h
      exact ⟨htoken, by simpa using hliteral⟩

end Target

namespace Line

/-- A line is read back from its words. -/
theorem IsSpelled.ofTokens_eq {line : Line} {words : List (List Char)} (h : line.IsSpelled words)
    (hwell : line.WellFormed) : ofTokens line.number (words.map String.ofList) = .ok line := by
  cases h with
  | empty => rfl
  | @bare number mnemonic label =>
    have hsplits : Splits (List.map String.ofList
        (label.toList.map String.toList ++ [mnemonic.name.toList])) label mnemonic [] :=
      ⟨by simp, fun name hname => (hwell.1 name hname).2⟩
    rw [hsplits.ofTokens_eq]
    rfl
  | @operand number mnemonic label target token more hspelled =>
    have hsplits : Splits (List.map String.ofList
        (label.toList.map String.toList ++ mnemonic.name.toList :: token :: more)) label mnemonic
        (String.ofList token :: more.map String.ofList) :=
      ⟨by simp, fun name hname => (hwell.1 name hname).2⟩
    rw [hsplits.ofTokens_eq, Target.parseFirst, hspelled.parse_eq (hwell.2 target rfl)]
    rfl

theorem Renders.parse_eq {line : Line} {text : List Char} (h : line.Renders text)
    (hwell : line.WellFormed) : parse text line.number = .ok line := by
  obtain ⟨words, hspelled, hsetOut⟩ := h
  rw [parse, hsetOut.tokens_eq, hspelled.ofTokens_eq hwell]

theorem Renders.not_isLineBreak {line : Line} {text : List Char} (h : line.Renders text) :
    ∀ c ∈ text, Text.isLineBreak c = false := by
  obtain ⟨words, -, hsetOut⟩ := h
  exact hsetOut.not_isLineBreak

theorem exists_renders {line : Line} (h : line.WellFormed) : ∃ text, line.Renders text := by
  obtain ⟨words, hspelled, htokens⟩ :
      ∃ words, line.IsSpelled words ∧ ∀ word ∈ words, IsToken word := by
    cases line with
    | empty number => exact ⟨[], .empty, List.forall_mem_nil _⟩
    | statement s =>
      obtain ⟨number, mnemonic, label, target⟩ := s
      have hlabel : ∀ word ∈ label.toList.map String.toList, IsToken word := by
        intro word hword
        obtain ⟨name, hname, rfl⟩ := List.mem_map.1 hword
        exact (h.1 name (Option.mem_toList.1 hname)).1
      cases target with
      | none =>
        refine ⟨_, .bare, List.forall_mem_append.2 ⟨hlabel, ?_⟩⟩
        exact List.forall_mem_singleton.2 mnemonic.isToken_name
      | some target =>
        obtain ⟨token, htoken, hisToken⟩ := Target.exists_isSpelled (h.2 target rfl)
        refine ⟨label.toList.map String.toList ++ [mnemonic.name.toList, token], .operand htoken,
          List.forall_mem_append.2 ⟨hlabel, ?_⟩⟩
        exact List.forall_mem_cons.2
          ⟨mnemonic.isToken_name, List.forall_mem_singleton.2 hisToken⟩
  obtain ⟨text, hsetOut, -⟩ := exists_setOut htokens
  exact ⟨text, words, hspelled, hsetOut⟩

theorem wellFormed_of_parse {text : List Char} {number : Int} {line : Line}
    (h : parse text number = .ok line) : line.WellFormed ∧ line.number = number := by
  cases line with
  | empty line =>
    refine ⟨trivial, ?_⟩
    rcases exists_splits (tokens text) with
      hnone | ⟨token, hlacks⟩ | ⟨label, mnemonic, rest, hsplits⟩
    · rw [parse, hnone] at h
      cases h
      rfl
    · cases (hlacks.ofTokens_eq number).symm.trans h
    · obtain ⟨target, -, ⟨⟩⟩ := Result.map_eq_ok_iff.1 ((hsplits.ofTokens_eq number).symm.trans h)
  | statement s =>
    obtain ⟨hnumber, rest, hsplits, htarget⟩ := ofTokens_eq_statement_iff.1 h
    have htokens : ∀ token ∈ s.label.toList ++ s.mnemonic.name :: rest, IsToken token.toList :=
      fun token htoken => isToken_of_mem_tokens (hsplits.eq_append ▸ htoken)
    refine ⟨⟨fun name hname => ⟨?_, hsplits.not_mnemonic name hname⟩, ?_⟩, hnumber⟩
    · exact htokens name (List.mem_append_left _ (Option.mem_toList.2 hname))
    · intro target hsome
      rw [Option.mem_def.1 hsome] at htarget
      cases rest with
      | nil => cases htarget
      | cons token more =>
        obtain ⟨_, hparse, ⟨⟩⟩ := Result.map_eq_ok_iff.1 htarget
        exact Target.wellFormed_of_parse (htokens token (by simp)) hparse

theorem parse_of_forall_renders {lines : List Line} {rows : List (List Char)} {start : Nat}
    (h : List.Forall₂ Renders lines rows) (hwell : ∀ line ∈ lines, line.WellFormed)
    (hnumbers : lines.map number = (List.range' start lines.length).map Int.ofNat) :
    List.Forall₂ (fun (p : List Char × Nat) line => parse p.1 (p.2 : Int) = .ok line)
      (rows.zipIdx start) lines := by
  induction h generalizing start with
  | nil => exact .nil
  | @cons line row lines rows hrow _ ih =>
    obtain ⟨hline, hlines⟩ := List.forall_mem_cons.1 hwell
    obtain ⟨hnumber, hnumbers⟩ := List.cons.inj hnumbers
    have hparse := hrow.parse_eq hline
    rw [hnumber] at hparse
    exact .cons hparse (ih hlines hnumbers)

/-- Lines are read back from any source that they are written as, if they are numbered from one
on. -/
theorem RendersAll.parseSource_eq {lines : List Line} {source : String}
    (h : RendersAll lines source) (hwell : ∀ line ∈ lines, line.WellFormed)
    (hnumbers : lines.map number = (List.range' 1 lines.length).map Int.ofNat) :
    parseSource source = .ok lines := by
  obtain ⟨rows, hrenders, hsource⟩ := h
  have hbreaks : ∀ row ∈ rows, ∀ c ∈ row, Text.isLineBreak c = false := by
    clear hsource hwell hnumbers
    induction hrenders with
    | nil => exact List.forall_mem_nil _
    | cons hrow _ ih => exact List.forall_mem_cons.2 ⟨hrow.not_isLineBreak, ih⟩
  rw [parseSource_eq_mapM, numberedLines, hsource, Text.lines_flatMap_feed hbreaks,
    Result.mapM_eq_ok_iff]
  exact parse_of_forall_renders hrenders hwell hnumbers

theorem exists_rendersAll {lines : List Line} (h : ∀ line ∈ lines, line.WellFormed) :
    ∃ source, RendersAll lines source := by
  obtain ⟨rows, hrows⟩ : ∃ rows, List.Forall₂ Renders lines rows := by
    induction lines with
    | nil => exact ⟨[], .nil⟩
    | cons line lines ih =>
      obtain ⟨hline, hlines⟩ := List.forall_mem_cons.1 h
      obtain ⟨row, hrow⟩ := exists_renders hline
      obtain ⟨rows, hrows⟩ := ih hlines
      exact ⟨row :: rows, .cons hrow hrows⟩
  exact ⟨String.ofList (rows.flatMap fun row => row ++ ['\n']), rows, hrows, String.toList_ofList⟩

/-- The error of a line whose operand has not too many digits. -/
theorem parse_eq_error_iff {text : List Char} {line : Int} {error : Error}
    (hdigits : ∀ token ∈ tokens text, Text.isLiteral token.toList = true →
      Text.literalDigits token.toList ≤ Text.maxDigits) :
    parse text line = .error error ↔
      (∃ token, LacksMnemonic (tokens text) token ∧ error = .invalidOpcode token line) ∨
        ∃ token, HasOperand text token ∧ Text.isLiteral token.toList = true ∧
          ¬(-999 ≤ Text.literalValue token.toList ∧ Text.literalValue token.toList ≤ 999) ∧
          error = .operandOutOfRange (Text.literalValue token.toList) line := by
  constructor
  · intro h
    rcases exists_splits (tokens text) with
      hnone | ⟨token, hlacks⟩ | ⟨label, mnemonic, rest, hsplits⟩
    · rw [parse, hnone] at h
      cases h
    · cases (hlacks.ofTokens_eq line).symm.trans h
      exact .inl ⟨token, hlacks, rfl⟩
    cases rest with
    | nil =>
      rw [parse, hsplits.ofTokens_eq] at h
      cases h
    | cons token more =>
      have hoperand : HasOperand text token := ⟨label, mnemonic, more, hsplits⟩
      cases hliteral : Text.isLiteral token.toList with
      | false =>
        rw [hoperand.parse_eq_error_iff, Target.parse_of_not_isLiteral hliteral] at h
        cases h
      | true =>
        have hshort := hdigits token (hsplits.eq_append ▸ by simp) hliteral
        rw [hoperand.parse_literal_eq_error_iff hliteral, if_neg (Nat.not_lt.2 hshort)] at h
        exact .inr ⟨token, hoperand, hliteral, h.2, h.1⟩
  · rintro (⟨token, hlacks, rfl⟩ | ⟨token, hoperand, hliteral, hrange, rfl⟩)
    · exact hlacks.ofTokens_eq line
    · obtain ⟨label, mnemonic, more, hsplits⟩ := hoperand
      have hshort := hdigits token (hsplits.eq_append ▸ by simp) hliteral
      rw [HasOperand.parse_literal_eq_error_iff ⟨label, mnemonic, more, hsplits⟩ hliteral,
        if_neg (Nat.not_lt.2 hshort)]
      exact ⟨rfl, hrange⟩

/-- Reading undoes writing. Well-formed lines that are numbered from one on can be written as a
source, and are read back from whichever source they are written as. Every line that is read from a
text is well formed. A text whose literals have no more digits than a numeral may have is refused
exactly if it has tokens and none of the first two is a mnemonic, or the operand behind its mnemonic
is a literal that is out of range. -/
theorem parse_of_rendering :
    (∀ lines : List Line, (∀ line ∈ lines, line.WellFormed) →
      lines.map number = (List.range' 1 lines.length).map Int.ofNat →
      (∃ source, RendersAll lines source) ∧
        ∀ source, RendersAll lines source → parseSource source = .ok lines) ∧
    (∀ text number line, parse text number = .ok line →
      line.WellFormed ∧ line.number = number) ∧
    ∀ text, (∀ token ∈ tokens text, Text.isLiteral token.toList = true →
        Text.literalDigits token.toList ≤ Text.maxDigits) →
      ∀ number error, parse text number = .error error ↔
        (∃ token, LacksMnemonic (tokens text) token ∧ error = .invalidOpcode token number) ∨
        ∃ token, HasOperand text token ∧ Text.isLiteral token.toList = true ∧
          ¬(-999 ≤ Text.literalValue token.toList ∧ Text.literalValue token.toList ≤ 999) ∧
          error = .operandOutOfRange (Text.literalValue token.toList) number := by
  refine ⟨fun lines hwell hnumbers => ⟨exists_rendersAll hwell, fun source hsource => ?_⟩,
    fun text number line => wellFormed_of_parse, fun text hdigits number error => ?_⟩
  · exact hsource.parseSource_eq hwell hnumbers
  · exact parse_eq_error_iff hdigits

example : parse "\tx LDA  -007 more// // note".toList 3 =
    .ok (.statement ⟨3, .lda, some "x", some (.literal (-7))⟩) := by
  decide +kernel

end Line

end DecimalMachine
