import DecimalMachine.Proofs.Assembly.Recast
import DecimalMachine.Proofs.Assembly.Token
import DecimalMachine.Proofs.Text.Replace
import Mathlib.Logic.Equiv.Basic

/-!
# Renamed labels

The labels of a source may be given other names, wherever they are defined and wherever they are
referred to, if the new names are fit for labels and stay apart. The words of the source stay the
same, and so does its error, which has the new names. `assemble_renamed` is the main statement.

## Main definitions

- `IsIdentifier` — a name that is fit for a label
- `Mentioned` — the names of labels in a source
- `renamed` — a source with other names of labels
-/

namespace DecimalMachine

/-- A name that is fit for a label: a token that is neither a mnemonic nor a number. -/
structure IsIdentifier (name : String) : Prop where
  isToken : IsToken name.toList
  not_mnemonic : Mnemonic.ofName? name = none
  not_isLiteral : Text.isLiteral name.toList = false

instance (name : String) : Decidable (IsIdentifier name) :=
  decidable_of_iff (IsToken name.toList ∧ Mnemonic.ofName? name = none ∧
      Text.isLiteral name.toList = false)
    ⟨fun h => ⟨h.1, h.2.1, h.2.2⟩, fun h => ⟨h.isToken, h.not_mnemonic, h.not_isLiteral⟩⟩

/-- The label that an operand refers to. -/
def Target.reference? : Target → Option String
  | .literal _ => none
  | .reference label => some label

/-- The words of a statement up to its mnemonic, or up to its operand if this refers to a label. -/
def Statement.spelling (s : Statement) : List String :=
  s.label.toList ++ s.mnemonic.name :: (s.target.bind Target.reference?).toList

/-- The line with other names of labels. A line that cannot be read stays as it is; what number the
line is read under makes no difference. -/
def Line.renamed (name : String → String) (text : List Char) : List Char :=
  match parse text 1 with
  | .ok (.statement s) => Text.substitute ((s.recast id name).spelling.map String.toList) text
  | _ => text

/-- The source with other names of labels. -/
def renamed (name : String → String) (source : String) : String :=
  String.ofList (Text.mapLines (Line.renamed name) source.toList)

/-- A label of this name is defined or referred to on a line of a source. -/
def Mentioned (source name : String) : Prop :=
  ∃ text number s, (text, number) ∈ numberedLines source ∧
    Line.parse text number = .ok (.statement s) ∧ s.Mentions name

section Tokens

variable {text : List Char}

/-- The first tokens of a line are its first words; the other tokens are what comes before the
comment among the words behind them. -/
theorem exists_words_of_tokens {front rest : List String} (h : tokens text = front ++ rest) :
    ∃ more, Text.words text = front.map String.toList ++ more ∧
      (more.takeWhile fun word => !startsComment word).map String.ofList = rest := by
  obtain ⟨first, back, hsplit, rfl, rfl⟩ := List.map_eq_append_iff.1 h
  obtain ⟨more, hwords⟩ : first <+: Text.words text :=
    (List.prefix_append first back).trans (hsplit ▸ List.takeWhile_prefix _)
  have hplain : ∀ word ∈ first, (!startsComment word) = true := by
    intro word hword
    have hmem := List.mem_append_left back hword
    rw [← hsplit] at hmem
    have htaken := List.mem_takeWhile_imp hmem
    simpa using htaken
  rw [← hwords, List.takeWhile_append_of_pos hplain] at hsplit
  refine ⟨more, ?_, by rw [List.append_cancel_left hsplit]⟩
  simp [← hwords]

theorem tokens_of_words {front : List String} {more : List (List Char)}
    (hwords : Text.words text = front.map String.toList ++ more)
    (hfront : ∀ token ∈ front, startsComment token.toList = false) :
    tokens text =
      front ++ (more.takeWhile fun word => !startsComment word).map String.ofList := by
  have hplain : ∀ word ∈ front.map String.toList, (!startsComment word) = true := by
    simpa using hfront
  rw [tokens, hwords, List.takeWhile_append_of_pos hplain]
  simp

/-- Tokens may be replaced where they stand. -/
theorem tokens_substitute {old new rest : List String} (htokens : tokens text = old ++ rest)
    (hlength : new.length = old.length) (hnew : ∀ token ∈ new, IsToken token.toList) :
    tokens (Text.substitute (new.map String.toList) text) = new ++ rest := by
  obtain ⟨more, hwords, rfl⟩ := exists_words_of_tokens htokens
  have hcount : (new.map String.toList).length = (old.map String.toList).length := by
    rw [List.length_map, List.length_map, hlength]
  have hnews : ∀ word ∈ new.map String.toList, word ≠ [] ∧ ∀ c ∈ word, Text.isBlank c = false := by
    intro word hword
    obtain ⟨token, htoken, rfl⟩ := List.mem_map.1 hword
    exact ⟨(hnew token htoken).ne_nil, (hnew token htoken).not_isBlank⟩
  have hfits : (new.map String.toList).length ≤ (Text.words text).length := by
    rw [hwords, hcount, List.length_append]
    exact Nat.le_add_right _ _
  have hsubstituted : Text.words (Text.substitute (new.map String.toList) text) =
      new.map String.toList ++ more := by
    rw [Text.words_substitute hnews hfits, hwords, hcount, List.drop_left]
  exact tokens_of_words hsubstituted fun token htoken => (hnew token htoken).not_startsComment

end Tokens

section Spelling

variable {name : String → String} {line : Int} {s : Statement}

theorem Target.reference?_rename (target : Target) :
    (target.rename name).reference? = target.reference?.map name := by
  cases target <;> rfl

theorem Target.bind_reference?_rename (target : Option Target) :
    (target.map (Target.rename name)).bind Target.reference? =
      (target.bind Target.reference?).map name := by
  cases target with
  | none => rfl
  | some target => exact target.reference?_rename

theorem Target.reference?_eq_some_iff {target : Option Target} {label : String} :
    target.bind Target.reference? = some label ↔ target = some (.reference label) := by
  rcases target with _ | _ | _ <;> simp [reference?]

/-- Behind the mnemonic there is the label that the operand refers to, if it does; another name in
its place is read as a reference under this name. -/
theorem Target.exists_of_parseFirst {rest : List String} {target : Option Target}
    (h : Target.parseFirst rest line = .ok target)
    (hname : ∀ label, target = some (.reference label) →
      Text.isLiteral (name label).toList = false) :
    ∃ more, rest = (target.bind Target.reference?).toList ++ more ∧
      Target.parseFirst (((target.bind Target.reference?).map name).toList ++ more) line =
        .ok (target.map (Target.rename name)) := by
  cases rest with
  | nil =>
    cases h
    exact ⟨[], rfl, rfl⟩
  | cons token more =>
    obtain ⟨operand, hoperand, rfl⟩ := Result.map_eq_ok_iff.1 h
    cases operand with
    | literal value => exact ⟨token :: more, rfl, h⟩
    | reference label =>
      have hplain : Text.isLiteral token.toList = false := by
        by_contra hliteral
        rw [Bool.not_eq_false] at hliteral
        rw [Target.parse_of_isLiteral hliteral] at hoperand
        split_ifs at hoperand
        cases hoperand
      rw [Target.parse_of_not_isLiteral hplain] at hoperand
      cases hoperand
      refine ⟨more, rfl, ?_⟩
      exact congrArg (some <$> ·) (Target.parse_of_not_isLiteral (hname token rfl) line)

namespace Statement

theorem spelling_recast (number : Int → Int) :
    (s.recast number name).spelling = (s.label.map name).toList ++ s.mnemonic.name ::
      ((s.target.bind Target.reference?).map name).toList := by
  rw [spelling, recast, Target.bind_reference?_rename]

theorem length_spelling_recast (number : Int → Int) :
    (s.recast number name).spelling.length = s.spelling.length := by
  rw [spelling_recast, spelling]
  cases s.label <;> cases s.target.bind Target.reference? <;> rfl

theorem isToken_of_mem_spelling (number : Int → Int)
    (h : ∀ label, s.Mentions label → IsIdentifier (name label)) :
    ∀ token ∈ (s.recast number name).spelling, IsToken token.toList := by
  intro token htoken
  rw [spelling_recast] at htoken
  rcases List.mem_append.1 htoken with hcarried | hrest
  · obtain ⟨label, hlabel, rfl⟩ := Option.map_eq_some_iff.1 (Option.mem_toList.1 hcarried)
    exact (h label (.inl hlabel)).isToken
  rcases List.mem_cons.1 hrest with rfl | hreferred
  · exact s.mnemonic.isToken_name
  · obtain ⟨label, hlabel, rfl⟩ := Option.map_eq_some_iff.1 (Option.mem_toList.1 hreferred)
    exact (h label (.inr (Target.reference?_eq_some_iff.1 hlabel))).isToken

/-- The words of a statement are its spelling and words that do not concern labels. Those of the
statement under other names are its other spelling and the same words. -/
theorem exists_of_ofTokens {words : List String} (h : Line.ofTokens line words = .ok (.statement s))
    (hnames : ∀ label, s.Mentions label → IsIdentifier (name label)) :
    ∃ rest, words = s.spelling ++ rest ∧
      Line.ofTokens line ((s.recast id name).spelling ++ rest) =
        .ok (.statement (s.recast id name)) := by
  obtain ⟨hline, behind, ⟨hwords, -⟩, htarget⟩ := Line.ofTokens_eq_statement_iff.1 h
  obtain ⟨rest, rfl, hrenamed⟩ := Target.exists_of_parseFirst htarget fun label hlabel =>
    (hnames label (.inr hlabel)).not_isLiteral
  refine ⟨rest, by rw [hwords, spelling]; simp, ?_⟩
  refine Line.ofTokens_eq_statement_iff.2 ⟨hline, _, ⟨?_, ?_⟩, hrenamed⟩
  · rw [spelling_recast]
    simp [recast]
  · intro label hlabel
    obtain ⟨old, hold, rfl⟩ := Option.map_eq_some_iff.1 hlabel
    exact (hnames old (.inl hold)).not_mnemonic

end Statement

end Spelling

namespace Line

variable {name : String → String} {text : List Char} {line : Int}

theorem renamed_eq (name : String → String) (text : List Char) (line : Int) :
    renamed name text =
      match parse text line with
      | .ok (.statement s) => Text.substitute ((s.recast id name).spelling.map String.toList) text
      | _ => text := by
  have hnumber : parse text 1 = Result.bimap (Error.recast (fun _ => 1) id)
      (Line.recast (fun _ => 1) id) (parse text line) :=
    ofTokens_number (fun _ => 1) id line (tokens text)
  rw [renamed, hnumber]
  cases parse text line with
  | error error => rfl
  | ok parsed =>
    cases parsed with
    | empty => rfl
    | statement s =>
      simp [Result.bimap, Line.recast, Statement.recast, Statement.spelling]

theorem parse_renamed (h : ∀ s, parse text line = .ok (.statement s) →
      ∀ label, s.Mentions label → IsIdentifier (name label)) :
    parse (renamed name text) line =
      Result.bimap (Error.recast id name) (Line.recast id name) (parse text line) := by
  have hsame := ofTokens_number id name line (tokens text)
  rw [renamed_eq name text line]
  cases hparse : parse text line with
  | error error =>
    rw [id, ← parse, hparse] at hsame
    exact hparse.trans hsame
  | ok parsed =>
    cases parsed with
    | empty number => exact hparse
    | statement s =>
      obtain ⟨rest, htokens, hrenamed⟩ := Statement.exists_of_ofTokens hparse (h s hparse)
      simp only
      rw [parse, tokens_substitute htokens (Statement.length_spelling_recast id)
        (Statement.isToken_of_mem_spelling id (h s hparse)), hrenamed]
      rfl

/-- A line stays a line, without breaks and not empty if it was not. -/
theorem keepsLine_renamed (hbreaks : ∀ c ∈ text, Text.isLineBreak c = false)
    (h : ∀ s, parse text line = .ok (.statement s) →
      ∀ label, s.Mentions label → IsIdentifier (name label)) :
    Text.KeepsLine (renamed name) text := by
  have heq := renamed_eq name text line
  rcases hparse : parse text line with error | number | s
  · rw [hparse] at heq
    exact ⟨by rw [heq], by rwa [heq]⟩
  · rw [hparse] at heq
    exact ⟨by rw [heq], by rwa [heq]⟩
  · rw [hparse] at heq
    have htokens : ∀ word ∈ (s.recast id name).spelling.map String.toList, IsToken word := by
      simpa using Statement.isToken_of_mem_spelling id (h s hparse)
    have hne : text ≠ [] := by
      rintro rfl
      cases hparse
    constructor
    · rw [heq, Text.substitute_eq_nil_iff fun word hword => (htokens word hword).ne_nil]
      simp [hne]
    · rw [heq]
      exact Text.not_isLineBreak_substitute
        (fun word hword => (htokens word hword).not_isLineBreak) hbreaks

end Line

section Sources

variable {name : String → String} {source : String}

/-- The lines of the source with other names are its lines with other names. -/
theorem lines_renamed (h : ∀ label, Mentioned source label → IsIdentifier (name label)) :
    Text.lines (renamed name source).toList =
      (Text.lines source.toList).map (Line.renamed name) := by
  rw [renamed, String.toList_ofList]
  have hnil : Text.KeepsLine (Line.renamed name) [] := by
    exact ⟨⟨fun _ => rfl, fun _ => rfl⟩, List.forall_mem_nil _⟩
  refine Text.lines_mapLines hnil fun text htext => ?_
  obtain ⟨i, hi⟩ := List.mem_iff_getElem?.1 htext
  have hnumbered : (text, 1 + i) ∈ numberedLines source :=
    List.mem_zipIdx_iff_le_and_getElem?_sub.2 ⟨Nat.le_add_right 1 i, by simpa using hi⟩
  exact Line.keepsLine_renamed (Text.not_isLineBreak_of_mem_lines htext)
    fun s hs label hlabel => h label ⟨text, 1 + i, s, hnumbered, hs, hlabel⟩

theorem Statement.ofSource_renamed
    (h : ∀ label, Mentioned source label → IsIdentifier (name label)) :
    Statement.ofSource (renamed name source) =
      Result.bimap (Error.recast id name) (List.map (Statement.recast id name))
        (Statement.ofSource source) := by
  have hlines : numberedLines (renamed name source) =
      (numberedLines source).map fun p => (Line.renamed name p.1, p.2) := by
    rw [numberedLines, lines_renamed h, List.zipIdx_map]
    rfl
  have hparse : ∀ p ∈ numberedLines source, Line.parse (Line.renamed name p.1) (p.2 : Int) =
      Result.bimap (Error.recast id name) (Line.recast id name) (Line.parse p.1 (p.2 : Int)) := by
    rintro ⟨text, number⟩ hp
    exact Line.parse_renamed fun s hs label hlabel => h label ⟨text, number, s, hp, hs, hlabel⟩
  rw [Statement.ofSource, Statement.ofSource, Line.parseSource_eq_mapM, Line.parseSource_eq_mapM,
    hlines, Result.bimap_mapM hparse]
  exact Result.bimap_map (Line.statements_map_recast id)

/-- The labels of a source may have other names, by which none of them is taken for anything else
or for another label: the words of the source stay the same, and so does its error, with the other
name for the label it names. Lines that cannot be read stay as they are, and only names of labels
change. -/
theorem assemble_renamed (h : ∀ label, Mentioned source label → IsIdentifier (name label))
    (hinj : Set.InjOn name {label | Mentioned source label}) :
    assemble (renamed name source) = (assemble source).mapError (Error.recast id name) ∧
      Text.lines (renamed name source).toList =
        (Text.lines source.toList).map (Line.renamed name) := by
  refine ⟨assemble_recast id (Statement.ofSource_renamed h) ?_, lines_renamed h⟩
  intro statements hstatements
  refine hinj.mono ?_
  rintro label ⟨s, hs, hlabel⟩
  obtain ⟨text, number, hline, -, hparse⟩ := Statement.exists_line_of_ofSource hstatements hs
  exact ⟨text, number, s, hline, hparse, hlabel⟩

end Sources

/-- A source the two labels of which exchange their names, but not where a comment spells one: it is
assembled to the same words. -/
theorem assemble_renamed_of_exchanged_labels :
    let source := "loop LDA n // loop\r\nn DAT -1 n\n  BRZ loop"
    let name := Equiv.swap "loop" "n"
    (∀ label, Mentioned source label → IsIdentifier (name label)) ∧
      renamed name source = "n LDA loop // loop\r\nloop DAT -1 n\n  BRZ n" ∧
      assemble source = .ok ([501, -1, 700].map Word.wrap) ∧
      assemble (renamed name source) = .ok ([501, -1, 700].map Word.wrap) := by
  intro source name
  have hlines : numberedLines source = [("loop LDA n // loop".toList, 1), ("n DAT -1 n".toList, 2),
      ("  BRZ loop".toList, 3)] := by
    decide +kernel
  have hfirst : Line.parse "loop LDA n // loop".toList (1 : Nat) =
      .ok (.statement ⟨1, .lda, some "loop", some (.reference "n")⟩) := by
    decide +kernel
  have hsecond : Line.parse "n DAT -1 n".toList (2 : Nat) =
      .ok (.statement ⟨2, .dat, some "n", some (.literal (-1))⟩) := by
    decide +kernel
  have hthird : Line.parse "  BRZ loop".toList (3 : Nat) =
      .ok (.statement ⟨3, .brz, none, some (.reference "loop")⟩) := by
    decide +kernel
  have hloop : IsIdentifier "loop" := by decide +kernel
  have hn : IsIdentifier "n" := by decide +kernel
  have hidentifier : ∀ label, Mentioned source label → IsIdentifier (name label) := by
    have hnames : ∀ label, label = "loop" ∨ label = "n" → IsIdentifier (name label) := by
      rintro label (rfl | rfl)
      · exact (Equiv.swap_apply_left "loop" "n").symm ▸ hn
      · exact (Equiv.swap_apply_right "loop" "n").symm ▸ hloop
    rintro label ⟨text, number, s, hline, hparse, hlabel⟩
    refine hnames label ?_
    rw [hlines] at hline
    simp only [List.mem_cons, Prod.mk.injEq, List.not_mem_nil, or_false] at hline
    rcases hline with ⟨rfl, rfl⟩ | ⟨rfl, rfl⟩ | ⟨rfl, rfl⟩
    · cases hfirst.symm.trans hparse
      rcases hlabel with ⟨⟨⟩⟩ | ⟨⟨⟩⟩ <;> simp
    · cases hsecond.symm.trans hparse
      rcases hlabel with ⟨⟨⟩⟩ | ⟨⟨⟩⟩
      simp
    · cases hthird.symm.trans hparse
      rcases hlabel with ⟨⟨⟩⟩ | ⟨⟨⟩⟩
      simp
  have hwords : assemble source = .ok ([501, -1, 700].map Word.wrap) := by decide +kernel
  refine ⟨hidentifier, by decide +kernel, hwords, ?_⟩
  rw [(assemble_renamed hidentifier name.injective.injOn).1, hwords]
  rfl

end DecimalMachine
