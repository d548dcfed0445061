import DecimalMachine.Proofs.Assembly.Recast
import DecimalMachine.Proofs.Text.Lines

/-!
# Joined sources

Two sources with a line feed between them are read as the statements of the first and then those of
the second, however the first one ends: the line feed ends its last line, or completes its last
break, or makes an empty line. Only the line numbers of the second source change.

## Main definitions

- `Statement.movedDown`, `Line.movedDown` — the same line further down in a source
-/

namespace DecimalMachine

/-- The statement as many lines further down. -/
def Statement.movedDown (distance : Int) (s : Statement) : Statement :=
  { s with line := s.line + distance }

/-- The line as many lines further down. -/
def Line.movedDown (distance : Int) : Line → Line
  | .empty line => .empty (line + distance)
  | .statement s => .statement (s.movedDown distance)

theorem Statement.movedDown_eq_recast (distance : Int) :
    Statement.movedDown distance = Statement.recast (· + distance) id := by
  funext s
  simp [movedDown, recast]

namespace Line

theorem movedDown_eq_recast (distance : Int) :
    Line.movedDown distance = Line.recast (· + distance) id := by
  funext line
  cases line with
  | empty number => rfl
  | statement s => rw [movedDown, recast, Statement.movedDown_eq_recast]

theorem ofTokens_movedDown {words : List String} {line distance : Int} {parsed : Line}
    (h : ofTokens line words = .ok parsed) :
    ofTokens (line + distance) words = .ok (parsed.movedDown distance) := by
  have hnumber := ofTokens_number (· + distance) id line words
  rw [h] at hnumber
  rw [movedDown_eq_recast]
  exact hnumber

theorem parseFrom_movedDown {texts : List (List Char)} {line distance : Int} {parsed : List Line}
    (h : parseFrom line texts = .ok parsed) :
    parseFrom (line + distance) texts = .ok (parsed.map (movedDown distance)) := by
  induction texts generalizing line parsed with
  | nil =>
    cases h
    rfl
  | cons text rest ih =>
    obtain ⟨first, hfirst, hrest⟩ := Result.bind_eq_ok_iff.1 h
    obtain ⟨more, hmore, hparsed⟩ := Result.bind_eq_ok_iff.1 hrest
    cases hparsed
    refine Result.bind_eq_ok_iff.2 ⟨_, ofTokens_movedDown hfirst, ?_⟩
    have hnext : line + distance + 1 = line + 1 + distance := by omega
    rw [hnext]
    exact Result.bind_eq_ok_iff.2 ⟨_, ih hmore, rfl⟩

theorem parseFrom_append {first second : List (List Char)} {line : Int}
    {parsed more : List Line} (hfirst : parseFrom line first = .ok parsed)
    (hsecond : parseFrom (line + first.length) second = .ok more) :
    parseFrom line (first ++ second) = .ok (parsed ++ more) := by
  induction first generalizing line parsed with
  | nil =>
    cases hfirst
    simpa using hsecond
  | cons text rest ih =>
    obtain ⟨head, hhead, hrest⟩ := Result.bind_eq_ok_iff.1 hfirst
    obtain ⟨tail, htail, hparsed⟩ := Result.bind_eq_ok_iff.1 hrest
    cases hparsed
    have hnext : line + ((text :: rest).length : Int) = line + 1 + rest.length := by
      simp only [List.length_cons]
      omega
    rw [hnext] at hsecond
    exact Result.bind_eq_ok_iff.2 ⟨head, hhead,
      Result.bind_eq_ok_iff.2 ⟨_, ih htail hsecond, rfl⟩⟩

theorem parseFrom_replicate_nil (count : Nat) (line : Int) :
    ∃ parsed, parseFrom line (List.replicate count []) = .ok parsed ∧ statements parsed = [] := by
  induction count generalizing line with
  | zero => exact ⟨[], rfl, rfl⟩
  | succ count ih =>
    obtain ⟨parsed, hparsed, hnone⟩ := ih (line + 1)
    refine ⟨.empty line :: parsed, ?_, hnone⟩
    exact Result.bind_eq_ok_iff.2 ⟨.empty line, rfl, Result.bind_eq_ok_iff.2 ⟨parsed, hparsed, rfl⟩⟩

theorem statements_append (first second : List Line) :
    statements (first ++ second) = statements first ++ statements second :=
  List.filterMap_append

theorem statements_movedDown (distance : Int) (lines : List Line) :
    statements (lines.map (movedDown distance)) =
      (statements lines).map (Statement.movedDown distance) := by
  rw [movedDown_eq_recast, Statement.movedDown_eq_recast]
  exact statements_map_recast _ lines

end Line

/-- The statements of two sources with a line feed between them are those of the first and, further
down, those of the second. -/
theorem Statement.ofSource_append_feed {a b : String} {first second : List Statement}
    (hfirst : ofSource a = .ok first) (hsecond : ofSource b = .ok second) :
    ∃ distance, ofSource (a ++ "\n" ++ b) =
      .ok (first ++ second.map (movedDown distance)) := by
  obtain ⟨firstLines, hfirstLines, rfl⟩ := Result.map_eq_ok_iff.1 hfirst
  obtain ⟨secondLines, hsecondLines, rfl⟩ := Result.map_eq_ok_iff.1 hsecond
  obtain ⟨count, hlines⟩ := Text.lines_append_feed a.toList b.toList
  have htext : (a ++ "\n" ++ b).toList = a.toList ++ '\n' :: b.toList := by simp
  obtain ⟨gap, hgap, hnone⟩ :=
    Line.parseFrom_replicate_nil count (1 + ((Text.lines a.toList).length : Int))
  let distance : Int := (Text.lines a.toList ++ List.replicate count []).length
  refine ⟨distance, Result.map_eq_ok_iff.2
    ⟨firstLines ++ gap ++ secondLines.map (Line.movedDown distance), ?_, ?_⟩⟩
  · rw [Line.parseSource, htext, hlines]
    exact Line.parseFrom_append (Line.parseFrom_append hfirstLines hgap)
      (Line.parseFrom_movedDown hsecondLines)
  · rw [Line.statements_append, Line.statements_append, hnone, List.append_nil,
      Line.statements_movedDown]

end DecimalMachine
