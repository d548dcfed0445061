import DecimalMachine.Proofs.Assembly.Recast
import DecimalMachine.Proofs.Assembly.Token

/-!
# Layout

A source may be laid out anew: the margins of its lines and the gaps between their words may become
wider or narrower, comments may follow the lines, and blank lines and lines of comment may come in
between. The words it is assembled to stay the same, and so does the error it is refused with,
which names the lines at their new places. `assemble_of_layout` is the main statement.

## Main definitions

- `Relaid` — a line that is laid out as another one is not
- `IsIdle` — a line that may come in between
- `LineEdit` — what becomes of the lines of a source, each line of the result in turn
-/

namespace DecimalMachine

/-- A stretch of blanks that breaks no line. -/
def IsSpace (gap : List Char) : Prop :=
  ∀ c ∈ gap, Text.isBlank c = true ∧ Text.isLineBreak c = false

instance (gap : List Char) : Decidable (IsSpace gap) :=
  List.decidableBAll (fun c => Text.isBlank c = true ∧ Text.isLineBreak c = false) gap

/-- A line that one comes to from another by changes of its layout. -/
inductive Relaid (old : List Char) : List Char → Prop
  | same : Relaid old old
  | leading {gap other rest : List Char} (hgap : IsSpace gap) (hother : IsSpace other)
    (h : Relaid old (gap ++ rest)) : Relaid old (other ++ rest)
  | trailing {gap other rest : List Char} (hgap : IsSpace gap) (hother : IsSpace other)
    (h : Relaid old (rest ++ gap)) : Relaid old (rest ++ other)
  /-- A gap between tokens may become any other gap, but may not close or open. -/
  | between {before gap other rest : List Char} (hgap : IsSpace gap) (hother : IsSpace other)
    (hne : gap ≠ []) (hotherNe : other ≠ []) (h : Relaid old (before ++ gap ++ rest)) :
    Relaid old (before ++ other ++ rest)
  | comment {line text : List Char} (htext : ∀ c ∈ text, Text.isLineBreak c = false)
    (h : Relaid old line) : Relaid old (line ++ ' ' :: '/' :: '/' :: text)

/-- A line of blanks, or of a comment behind blanks. -/
structure IsIdle (line : List Char) : Prop where
  not_isLineBreak : ∀ c ∈ line, Text.isLineBreak c = false
  split : ∃ gap rest, line = gap ++ rest ∧ IsSpace gap ∧ (rest = [] ∨ startsComment rest = true)

/-- What a line of the result is: a new one, or an old one that may have changed. -/
inductive LineEdit where
  | insert (line : List Char)
  | rewrite (old new : List Char)
  deriving DecidableEq

namespace LineEdit

def old? : LineEdit → Option (List Char)
  | insert _ => none
  | rewrite old _ => some old

def new : LineEdit → List Char
  | insert line => line
  | rewrite _ new => new

/-- The lines that are edited. -/
def before (edits : List LineEdit) : List (List Char) := edits.filterMap old?

/-- The lines of the result. -/
def after (edits : List LineEdit) : List (List Char) := edits.map new

/-- Where the edit of an old line stands; lines and edits are counted from zero. -/
def position : List LineEdit → Nat → Nat
  | [], k => k
  | insert _ :: rest, k => position rest k + 1
  | rewrite _ _ :: _, 0 => 0
  | rewrite _ _ :: rest, k + 1 => position rest k + 1

/-- The number that the line with a number comes to have; lines are numbered from one. -/
def moved (edits : List LineEdit) (line : Int) : Int := position edits (line - 1).toNat + 1

/-- Whether the edit concerns nothing but the layout. -/
def IsLayout : LineEdit → Prop
  | insert line => IsIdle line
  | rewrite old new => Relaid old new

theorem exists_at_position {edits : List LineEdit} {k : Nat} {line : List Char}
    (h : (before edits)[k]? = some line) :
    ∃ new, edits[position edits k]? = some (.rewrite line new) := by
  induction edits generalizing k with
  | nil => cases h
  | cons e edits ih =>
    cases e with
    | insert inserted => exact ih h
    | rewrite old new =>
      cases k with
      | zero =>
        cases h
        exact ⟨new, rfl⟩
      | succ k => exact ih h

end LineEdit

section Tokens

theorem IsSpace.isBlank {gap : List Char} (h : IsSpace gap) : ∀ c ∈ gap, Text.isBlank c = true :=
  fun c hc => (h c hc).1

theorem startsComment_iff {text : List Char} :
    startsComment text = true ↔ ∃ rest, text = '/' :: '/' :: rest := by
  constructor
  · intro h
    unfold startsComment at h
    split at h
    · exact ⟨_, rfl⟩
    · cases h
  · rintro ⟨rest, rfl⟩
    rfl

/-- A comment starts a word of its own, which no later part of the line takes back. -/
theorem exists_words_of_startsComment {text : List Char} (h : startsComment text = true) :
    ∃ word more, Text.words text = word :: more ∧ startsComment word = true := by
  obtain ⟨rest, rfl⟩ := startsComment_iff.1 h
  let inner := rest.takeWhile fun c => !Text.isBlank c
  have hinner : ∀ c ∈ '/' :: '/' :: inner, Text.isBlank c = false := by
    refine List.forall_mem_cons.2 ⟨by decide, List.forall_mem_cons.2 ⟨by decide, ?_⟩⟩
    intro c hc
    simpa using List.mem_takeWhile_imp hc
  have hbehind : ∀ c ∈ (rest.dropWhile fun c => !Text.isBlank c).head?,
      Text.isBlank c = true := by
    intro c hc
    have hnot := List.head?_dropWhile_not (fun c => !Text.isBlank c) rest
    rw [Option.mem_def.1 hc] at hnot
    simpa using hnot
  have hwords := Text.words_append_of_head (List.cons_ne_nil _ _) hinner hbehind
  rw [List.cons_append, List.cons_append, List.takeWhile_append_dropWhile] at hwords
  exact ⟨_, _, hwords, rfl⟩

theorem tokens_of_startsComment {text : List Char} (before : List Char)
    (h : startsComment text = true) : tokens (before ++ ' ' :: text) = tokens before := by
  obtain ⟨word, more, hwords, hcomment⟩ := exists_words_of_startsComment h
  have hstop : (word :: more).takeWhile (fun word => !startsComment word) = [] := by
    rw [List.takeWhile_cons, hcomment]
    rfl
  rw [tokens, tokens, Text.words_append_cons_blank before text (by decide), hwords,
    List.takeWhile_append]
  split_ifs with hall
  · rw [hstop, List.append_nil]
    exact congrArg _ ((List.takeWhile_prefix _).eq_of_length hall).symm
  · rfl

theorem IsIdle.tokens_eq_nil {line : List Char} (h : IsIdle line) : tokens line = [] := by
  obtain ⟨gap, rest, rfl, hgap, rfl | hrest⟩ := h.split
  · rw [tokens, Text.words_blanks_append hgap.isBlank]
    rfl
  · obtain ⟨word, more, hwords, hcomment⟩ := exists_words_of_startsComment hrest
    rw [tokens, Text.words_blanks_append hgap.isBlank, hwords, List.takeWhile_cons, hcomment]
    rfl

namespace Relaid

variable {old new : List Char}

theorem tokens_eq (h : Relaid old new) : tokens new = tokens old := by
  induction h with
  | same => rfl
  | leading hgap hother _ ih =>
    rw [← ih, tokens, tokens, Text.words_blanks_append hgap.isBlank,
      Text.words_blanks_append hother.isBlank]
  | trailing hgap hother _ ih =>
    rw [← ih, tokens, tokens, Text.words_append_blanks _ hgap.isBlank,
      Text.words_append_blanks _ hother.isBlank]
  | between hgap hother hne hotherNe _ ih =>
    rw [← ih, tokens, tokens, Text.words_append_gap_append _ _ hne hgap.isBlank,
      Text.words_append_gap_append _ _ hotherNe hother.isBlank]
  | comment htext _ ih => rw [tokens_of_startsComment _ rfl, ih]

theorem not_isLineBreak (h : Relaid old new) (hold : ∀ c ∈ old, Text.isLineBreak c = false) :
    ∀ c ∈ new, Text.isLineBreak c = false := by
  induction h with
  | same => exact hold
  | leading _ hother _ ih =>
    exact List.forall_mem_append.2
      ⟨fun c hc => (hother c hc).2, (List.forall_mem_append.1 ih).2⟩
  | trailing _ hother _ ih =>
    exact List.forall_mem_append.2
      ⟨(List.forall_mem_append.1 ih).1, fun c hc => (hother c hc).2⟩
  | between _ hother _ _ _ ih =>
    obtain ⟨hfront, hrest⟩ := List.forall_mem_append.1 ih
    exact List.forall_mem_append.2 ⟨List.forall_mem_append.2
      ⟨(List.forall_mem_append.1 hfront).1, fun c hc => (hother c hc).2⟩, hrest⟩
  | comment htext _ ih =>
    refine List.forall_mem_append.2 ⟨ih, ?_⟩
    simpa using ⟨by decide, by decide, htext⟩

end Relaid

end Tokens

namespace Statement

/-- The statements of lines that are numbered from a number on. -/
def ofLines (line : Int) (texts : List (List Char)) : Except Error (List Statement) :=
  Line.statements <$> Line.parseFrom line texts

theorem ofLines_cons (line : Int) (text : List Char) (rest : List (List Char)) :
    ofLines line (text :: rest) = (do
      let parsed ← Line.parse text line
      (parsed.statement?.toList ++ ·) <$> ofLines (line + 1) rest) := by
  simp only [ofLines, Line.parseFrom]
  cases Line.parse text line with
  | error error => rfl
  | ok parsed =>
    cases Line.parseFrom (line + 1) rest with
    | error error => rfl
    | ok more => cases parsed <;> rfl

theorem ofLines_of_isIdle {text : List Char} (line : Int) (rest : List (List Char))
    (h : IsIdle text) : ofLines line (text :: rest) = ofLines (line + 1) rest := by
  have hempty : Line.parse text line = .ok (.empty line) := by
    rw [Line.parse, h.tokens_eq_nil]
    rfl
  rw [ofLines_cons, hempty]
  cases ofLines (line + 1) rest <;> rfl

/-- An empty last line adds no statement. -/
theorem ofLines_concat_nil (line : Int) (texts : List (List Char)) :
    ofLines line (texts ++ [[]]) = ofLines line texts := by
  induction texts generalizing line with
  | nil => rfl
  | cons text rest ih => rw [List.cons_append, ofLines_cons, ofLines_cons, ih]

/-- The statements of the lines of the result are those of the lines that were edited, under the
numbers that these come to have. -/
theorem ofLines_after {edits : List LineEdit} (hlayout : ∀ e ∈ edits, e.IsLayout)
    (number : Int → Int) {line other : Int}
    (hnumber : ∀ k : Nat, number (line + k) = other + LineEdit.position edits k) :
    ofLines other (LineEdit.after edits) =
      Result.bimap (Error.recast number id) (List.map (recast number id))
        (ofLines line (LineEdit.before edits)) := by
  induction edits generalizing line other with
  | nil => rfl
  | cons e edits ih =>
    obtain ⟨he, hedits⟩ := List.forall_mem_cons.1 hlayout
    cases e with
    | insert inserted =>
      have hrest : ∀ k : Nat, number (line + k) = other + 1 + LineEdit.position edits k := by
        intro k
        rw [hnumber k, LineEdit.position]
        omega
      have hinserted : ofLines other (LineEdit.after (.insert inserted :: edits)) =
          ofLines (other + 1) (LineEdit.after edits) := ofLines_of_isIdle other _ he
      rw [hinserted]
      exact ih hedits hrest
    | rewrite old new =>
      have hhere : number line = other := by simpa [LineEdit.position] using hnumber 0
      have hrest : ∀ k : Nat,
          number (line + 1 + k) = other + 1 + LineEdit.position edits k := by
        intro k
        have hk := hnumber (k + 1)
        rw [LineEdit.position] at hk
        rw [show line + 1 + (k : Int) = line + ((k + 1 : Nat) : Int) by omega, hk]
        omega
      have hparse : Line.parse new other =
          Result.bimap (Error.recast number id) (Line.recast number id) (Line.parse old line) := by
        rw [Line.parse, Line.parse, he.tokens_eq, ← hhere]
        exact Line.ofTokens_number number id line (tokens old)
      change ofLines other (new :: LineEdit.after edits) =
        Result.bimap _ _ (ofLines line (old :: LineEdit.before edits))
      rw [ofLines_cons, ofLines_cons, hparse, ih hedits hrest]
      refine Result.bimap_bind fun parsed _ => Result.bimap_map fun statements => ?_
      cases parsed with
      | empty => rfl
      | statement s => rfl

end Statement

/-- The lines of a source may be laid out anew and idle lines put between them: the words of the
source stay the same, and so does its error, which names the lines at their new places. The edit of
an old line stands at its new place. -/
theorem assemble_of_layout {source : String} {edits : List LineEdit}
    (hbefore : LineEdit.before edits = Text.lines source.toList)
    (hlayout : ∀ e ∈ edits, e.IsLayout) :
    assemble ("\n".intercalate ((LineEdit.after edits).map String.ofList)) =
        (assemble source).mapError (Error.recast (LineEdit.moved edits) id) ∧
      ∀ k line, (Text.lines source.toList)[k]? = some line →
        ∃ new, edits[LineEdit.position edits k]? = some (.rewrite line new) := by
  refine ⟨?_, fun k line hline => LineEdit.exists_at_position (hbefore ▸ hline)⟩
  have hbreaks : ∀ row ∈ LineEdit.after edits, ∀ c ∈ row, Text.isLineBreak c = false := by
    intro row hrow
    obtain ⟨e, he, rfl⟩ := List.mem_map.1 hrow
    cases e with
    | insert line => exact (hlayout _ he).not_isLineBreak
    | rewrite old new =>
      have hold : old ∈ Text.lines source.toList :=
        hbefore ▸ List.mem_filterMap.2 ⟨.rewrite old new, he, rfl⟩
      exact (hlayout _ he).not_isLineBreak (Text.not_isLineBreak_of_mem_lines hold)
  -- The result may end with an empty line, which is none of its lines.
  have hafter : Statement.ofSource ("\n".intercalate ((LineEdit.after edits).map String.ofList)) =
      Statement.ofLines 1 (LineEdit.after edits) := by
    have htext : ("\n".intercalate ((LineEdit.after edits).map String.ofList)).toList =
        ['\n'].intercalate (LineEdit.after edits) := by
      rw [String.toList_intercalate, List.map_map]
      congr 1
      exact (List.map_congr_left fun row _ => String.toList_ofList).trans (List.map_id _)
    change Statement.ofLines 1 (Text.lines _) = _
    rw [htext]
    rcases Text.lines_intercalate_feed_cases hbreaks with hlines | ⟨others, hothers, hlines⟩
    · rw [hlines]
    · rw [hlines, hothers, Statement.ofLines_concat_nil]
  refine assemble_recast (LineEdit.moved edits) ?_ fun statements _ => Set.injOn_id _
  rw [hafter, Statement.ofLines_after hlayout (LineEdit.moved edits), hbefore]
  · rfl
  · intro k
    rw [LineEdit.moved, show (1 + (k : Int) - 1).toNat = k by omega]
    omega

/-- A source with wider gaps and margins, a comment and two idle lines. It is assembled to the same
words if its second line jumps to the first; if this line has the label of the first, then the error
names the new places of both. -/
theorem assemble_of_layout_of_two_lines :
    let edits (second : String) : List LineEdit :=
      [.insert " // read".toList, .rewrite "loop INP".toList "\tloop\u3000 INP //in".toList,
        .insert "".toList, .rewrite second.toList (second ++ " ").toList]
    let laidOut second := "\n".intercalate ((LineEdit.after (edits second)).map String.ofList)
    (∀ second ∈ ["BRA loop", "loop OUT"],
      LineEdit.before (edits second) = Text.lines ("loop INP\r\n" ++ second).toList ∧
        ∀ e ∈ edits second, e.IsLayout) ∧
      laidOut "BRA loop" = " // read\n\tloop\u3000 INP //in\n\nBRA loop " ∧
      assemble (laidOut "BRA loop") = .ok ([901, 600].map Word.wrap) ∧
      assemble (laidOut "loop OUT") = .error (.duplicateLabel "loop" 4 2) := by
  intro edits laidOut
  have hnil : IsSpace "".toList := by decide +kernel
  have hspace : IsSpace " ".toList := by decide +kernel
  have htab : IsSpace "\t".toList := by decide +kernel
  have hwide : IsSpace "\u3000 ".toList := by decide +kernel
  have hcomment : IsIdle " // read".toList :=
    ⟨Text.not_isLineBreak_of_all (by decide +kernel), " ".toList, "// read".toList,
      by decide +kernel, hspace, .inr (by decide +kernel)⟩
  have hempty : IsIdle "".toList :=
    ⟨Text.not_isLineBreak_of_all (by decide +kernel), "".toList, [], by decide +kernel, hnil,
      .inl rfl⟩
  have hinput : Relaid "loop INP".toList "\tloop\u3000 INP //in".toList := by
    have hgap : Relaid "loop INP".toList ("loop".toList ++ "\u3000 ".toList ++ "INP".toList) :=
      .between hspace hwide (by decide +kernel) (by decide +kernel) .same
    have hmargin : Relaid "loop INP".toList ("\t".toList ++ "loop\u3000 INP".toList) :=
      .leading hnil htab hgap
    have hcomment : Relaid "loop INP".toList
        ("\tloop\u3000 INP".toList ++ ' ' :: '/' :: '/' :: "in".toList) :=
      .comment (Text.not_isLineBreak_of_all (by decide +kernel)) hmargin
    exact hcomment
  have hlayout (second : String) : ∀ e ∈ edits second, e.IsLayout := by
    have hsame : Relaid second.toList (second.toList ++ "".toList) := by
      rw [String.toList_empty, List.append_nil]
      exact .same
    have hmargin : Relaid second.toList (second ++ " ").toList := by
      rw [String.toList_append]
      exact .trailing hnil hspace hsame
    simp only [edits, List.forall_mem_cons]
    exact ⟨hcomment, hinput, hempty, hmargin, List.forall_mem_nil _⟩
  have hjump : LineEdit.before (edits "BRA loop") = Text.lines "loop INP\r\nBRA loop".toList := by
    decide +kernel
  have hrepeated : LineEdit.before (edits "loop OUT") =
      Text.lines "loop INP\r\nloop OUT".toList := by
    decide +kernel
  have hwords : assemble "loop INP\r\nBRA loop" = .ok ([901, 600].map Word.wrap) := by
    decide +kernel
  have herror : assemble "loop INP\r\nloop OUT" = .error (.duplicateLabel "loop" 2 1) := by
    decide +kernel
  refine ⟨?_, by decide +kernel, ?_, ?_⟩
  · simp only [List.forall_mem_cons]
    exact ⟨⟨hjump, hlayout _⟩, ⟨hrepeated, hlayout _⟩, List.forall_mem_nil _⟩
  · rw [(assemble_of_layout hjump (hlayout _)).1, hwords]
    rfl
  · rw [(assemble_of_layout hrepeated (hlayout _)).1, herror]
    rfl

end DecimalMachine
