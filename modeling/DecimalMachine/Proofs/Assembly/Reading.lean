import DecimalMachine.Proofs.Assembly.Encoding

/-!
# Statements and their lines

The statements of a source stand on the lines that they name, in the order of the lines, and their
literal operands are in the range of words. A source has no statements exactly if one of its lines
is refused; the first such line decides with which error.

## Main definitions

- `numberedLines` — the lines of a source with their numbers
- `Line.Splits` — the parts that the words of an instruction have
- `Line.LacksMnemonic` — words without a mnemonic where one is due
-/

namespace DecimalMachine

/-- A text that cannot be read as a number is no numeral, or has too many digits. -/
theorem error_of_readInt {text : String} {error : Error} (h : readInt text = .error error) :
    error = .badNumeral text ∨ ∃ digits, error = .tooManyDigits digits := by
  unfold readInt at h
  cases hread : Text.readNumeral text.toList with
  | ok value => simp [hread, Except.mapError] at h
  | error fault =>
    rw [hread] at h
    cases fault with
    | malformed =>
      cases h
      exact .inl rfl
    | tooLong digits =>
      cases h
      exact .inr ⟨digits, rfl⟩

/-- The lines of a source with their numbers, which start at one. -/
def numberedLines (source : String) : List (List Char × Nat) :=
  (Text.lines source.toList).zipIdx 1

theorem Target.literal_bounds {token : String} {line value : Int}
    (h : Target.parse token line = .ok (.literal value)) : -999 ≤ value ∧ value ≤ 999 := by
  unfold Target.parse at h
  split_ifs at h
  · obtain ⟨number, -, hrange⟩ := Result.bind_eq_ok_iff.1 h
    split_ifs at hrange with hout
    · cases hrange
      omega
  · cases h

theorem Target.error_of_parse {token : String} {line : Int} {error : Error}
    (h : Target.parse token line = .error error) :
    (∃ value, error = .operandOutOfRange value line) ∨
      ∃ token, readInt token = .error error := by
  unfold Target.parse at h
  split_ifs at h
  rcases Result.bind_eq_error_iff.1 h with hread | ⟨value, -, hrange⟩
  · exact .inr ⟨token, hread⟩
  · split_ifs at hrange
    cases hrange
    exact .inl ⟨value, rfl⟩

namespace Line

theorem parseFrom_eq_mapM (line : Int) (start : Nat) (texts : List (List Char)) :
    parseFrom (line + start) texts =
      (texts.zipIdx start).mapM fun p => parse p.1 (line + p.2) := by
  induction texts generalizing start with
  | nil => rfl
  | cons text rest ih =>
    have hnext : line + (start : Int) + 1 = line + ((start + 1 : Nat) : Int) := by
      omega
    rw [parseFrom, hnext, ih, List.zipIdx_cons, List.mapM_cons]

theorem parseSource_eq_mapM (source : String) :
    parseSource source =
      (numberedLines source).mapM fun p => parse p.1 (p.2 : Int) := by
  have h := parseFrom_eq_mapM 0 1 (Text.lines source.toList)
  simp only [Int.zero_add] at h
  exact h

theorem parseSource_eq_error_iff {source : String} {error : Error} :
    parseSource source = .error error ↔
      ∃ (before : List (List Char × Nat)) (text : List Char) (number : Nat)
        (rest : List (List Char × Nat)), numberedLines source = before ++ (text, number) :: rest ∧
        (∀ p ∈ before, ∃ parsed, parse p.1 (p.2 : Int) = .ok parsed) ∧
        parse text number = .error error := by
  rw [parseSource_eq_mapM, Result.mapM_eq_error_iff]
  constructor
  · rintro ⟨before, ⟨text, number⟩, rest, h⟩
    exact ⟨before, text, number, rest, h⟩
  · rintro ⟨before, text, number, rest, h⟩
    exact ⟨before, (text, number), rest, h⟩

/-- The words of a line with an instruction: the label it carries, which is no mnemonic, if it has
one, the mnemonic, and what stands behind. -/
structure Splits (words : List String) (label : Option String) (mnemonic : Mnemonic)
    (rest : List String) : Prop where
  eq_append : words = label.toList ++ mnemonic.name :: rest
  not_mnemonic : ∀ name ∈ label, Mnemonic.ofName? name = none

theorem Splits.ofTokens_eq {words rest : List String} {label : Option String} {mnemonic : Mnemonic}
    (h : Splits words label mnemonic rest) (line : Int) :
    ofTokens line words =
      (fun target => statement ⟨line, mnemonic, label, target⟩) <$>
        Target.parseFirst rest line := by
  obtain ⟨rfl, hlabel⟩ := h
  cases label with
  | none => simp [ofTokens]
  | some name => simp [ofTokens, hlabel name rfl]

/-- The words of a line that has no mnemonic where one is due, and the last of those that could be
one. -/
structure LacksMnemonic (words : List String) (token : String) : Prop where
  getLast?_eq : (words.take 2).getLast? = some token
  not_mnemonic : ∀ word ∈ words.take 2, Mnemonic.ofName? word = none

theorem LacksMnemonic.ofTokens_eq {words : List String} {token : String}
    (h : LacksMnemonic words token) (line : Int) :
    ofTokens line words = .error (.invalidOpcode token line) := by
  obtain ⟨hlast, hnone⟩ := h
  match words with
  | [] => cases hlast
  | [first] =>
    cases hlast
    simp [ofTokens, hnone first (by simp)]
  | first :: second :: more =>
    cases hlast
    simp [ofTokens, hnone first (by simp), hnone second (by simp)]

/-- A line has no words, or no mnemonic where one is due, or it has an instruction. -/
theorem exists_splits (words : List String) :
    words = [] ∨ (∃ token, LacksMnemonic words token) ∨
      ∃ label mnemonic rest, Splits words label mnemonic rest := by
  cases words with
  | nil => exact .inl rfl
  | cons first rest =>
    refine .inr ?_
    cases hfirst : Mnemonic.ofName? first with
    | some mnemonic =>
      have hname := Mnemonic.name_of_ofName? hfirst
      exact .inr ⟨none, mnemonic, rest, by rw [hname]; rfl, by rintro _ ⟨⟩⟩
    | none =>
      cases rest with
      | nil => exact .inl ⟨first, rfl, by simp [hfirst]⟩
      | cons second more =>
        cases hsecond : Mnemonic.ofName? second with
        | none => exact .inl ⟨second, rfl, by simp [hfirst, hsecond]⟩
        | some mnemonic =>
          have hname := Mnemonic.name_of_ofName? hsecond
          exact .inr ⟨some first, mnemonic, more, by rw [hname]; rfl, by rintro _ ⟨⟩; exact hfirst⟩

theorem ofTokens_eq_statement_iff {words : List String} {line : Int} {s : Statement} :
    ofTokens line words = .ok (.statement s) ↔
      s.line = line ∧ ∃ rest, Splits words s.label s.mnemonic rest ∧
        Target.parseFirst rest line = .ok s.target := by
  constructor
  · intro h
    rcases exists_splits words with rfl | ⟨token, hlacks⟩ | ⟨label, mnemonic, rest, hsplits⟩
    · cases h
    · cases (hlacks.ofTokens_eq line).symm.trans h
    · rw [hsplits.ofTokens_eq, Result.map_eq_ok_iff] at h
      obtain ⟨target, htarget, hs⟩ := h
      cases hs
      exact ⟨rfl, rest, hsplits, htarget⟩
  · rintro ⟨rfl, rest, hsplits, htarget⟩
    rw [hsplits.ofTokens_eq, htarget]
    rfl

theorem line_of_parse {text : List Char} {line : Int} {s : Statement}
    (h : parse text line = .ok (.statement s)) : s.line = line :=
  (ofTokens_eq_statement_iff.1 h).1

theorem literal_bounds {text : List Char} {line value : Int} {s : Statement}
    (h : parse text line = .ok (.statement s)) (hvalue : s.target = some (.literal value)) :
    -999 ≤ value ∧ value ≤ 999 := by
  obtain ⟨-, rest, -, htarget⟩ := ofTokens_eq_statement_iff.1 h
  rw [hvalue] at htarget
  cases rest with
  | nil => cases htarget
  | cons token more =>
    obtain ⟨target, hparse, hsome⟩ := Result.map_eq_ok_iff.1 htarget
    cases hsome
    exact Target.literal_bounds hparse

/-- A line is refused for a token where a mnemonic is due, for an operand that is out of range, or
for one that cannot be read as a number. -/
theorem error_of_parse {text : List Char} {line : Int} {error : Error}
    (h : parse text line = .error error) :
    (∃ token, error = .invalidOpcode token line) ∨
      (∃ value, error = .operandOutOfRange value line) ∨
      ∃ token, readInt token = .error error := by
  have htarget {rest : List String} (h : Target.parseFirst rest line = .error error) :
      (∃ value, error = .operandOutOfRange value line) ∨
        ∃ token, readInt token = .error error := by
    cases rest with
    | nil => cases h
    | cons token more => exact Target.error_of_parse (Result.map_eq_error_iff.1 h)
  rcases exists_splits (tokens text) with
    hnone | ⟨token, hlacks⟩ | ⟨label, mnemonic, rest, hsplits⟩
  · rw [parse, hnone] at h
    cases h
  · cases (hlacks.ofTokens_eq line).symm.trans h
    exact .inl ⟨token, rfl⟩
  · rw [parse, hsplits.ofTokens_eq, Result.map_eq_error_iff] at h
    exact .inr (htarget h)

theorem mem_statements {lines : List Line} {s : Statement} :
    s ∈ statements lines ↔ .statement s ∈ lines := by
  rw [statements, List.mem_filterMap]
  constructor
  · rintro ⟨line, hline, hs⟩
    cases line with
    | empty number => cases hs
    | statement t =>
      cases hs
      exact hline
  · intro h
    exact ⟨.statement s, h, rfl⟩

/-- Statements name the lines that they were read from, and keep their order. -/
theorem sublist_lines_statements {numbered : List (List Char × Nat)} {lines : List Line}
    (h : List.Forall₂ (fun (p : List Char × Nat) line => parse p.1 (p.2 : Int) = .ok line)
      numbered lines) :
    List.Sublist ((statements lines).map Statement.line)
      (numbered.map fun p => (p.2 : Int)) := by
  induction h with
  | nil => exact .slnil
  | @cons p line numbered lines hparse _ ih =>
    cases line with
    | empty number => exact .cons _ ih
    | statement s =>
      have hline : s.line = p.2 := line_of_parse hparse
      simp only [statements, List.filterMap_cons, statement?, List.map_cons, hline]
      exact .cons_cons _ ih

end Line

namespace Statement

theorem ofSource_eq_ok_iff {source : String} {statements : List Statement} :
    ofSource source = .ok statements ↔
      ∃ lines, (numberedLines source).mapM (fun p => Line.parse p.1 (p.2 : Int)) = .ok lines ∧
        Line.statements lines = statements := by
  rw [ofSource, Result.map_eq_ok_iff, Line.parseSource_eq_mapM]

theorem ofSource_eq_error_iff {source : String} {error : Error} :
    ofSource source = .error error ↔ Line.parseSource source = .error error :=
  Result.map_eq_error_iff

theorem exists_line_of_ofSource {source : String} {statements : List Statement} {s : Statement}
    (h : ofSource source = .ok statements) (hs : s ∈ statements) :
    ∃ text number, (text, number) ∈ numberedLines source ∧ s.line = number ∧
      Line.parse text number = .ok (.statement s) := by
  obtain ⟨lines, hlines, rfl⟩ := ofSource_eq_ok_iff.1 h
  obtain ⟨⟨text, number⟩, hmem, hparse⟩ :=
    Result.exists_of_mem_mapM hlines (Line.mem_statements.1 hs)
  exact ⟨text, number, hmem, Line.line_of_parse hparse, hparse⟩

/-- The statements of a source stand on lines of increasing number. -/
theorem pairwise_line_of_ofSource {source : String} {statements : List Statement}
    (h : ofSource source = .ok statements) :
    statements.Pairwise fun s t => s.line < t.line := by
  obtain ⟨lines, hlines, rfl⟩ := ofSource_eq_ok_iff.1 h
  have hnumbers : ((numberedLines source).map fun p => (p.2 : Int)).Pairwise (· < ·) := by
    have hmap : ((numberedLines source).map fun p => (p.2 : Int)) =
        (List.range' 1 (Text.lines source.toList).length).map (fun n : Nat => (n : Int)) := by
      rw [numberedLines, ← List.zipIdx_map_snd, List.map_map]
      rfl
    rw [hmap, List.pairwise_map]
    apply List.Pairwise.imp _ (List.pairwise_lt_range' 1)
    intro a b hlt
    omega
  have hsublist := Line.sublist_lines_statements (Result.mapM_eq_ok_iff.1 hlines)
  exact List.pairwise_map.1 (hnumbers.sublist hsublist)

end Statement

end DecimalMachine
