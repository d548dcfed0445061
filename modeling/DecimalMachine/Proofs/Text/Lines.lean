import DecimalMachine.Text.Blank
import DecimalMachine.Text.LineBreak

/-!
# Lines of composed texts

A line feed between two texts adds at most empty lines between their lines, however the first text
ends. Texts without line breaks that are put together with line feeds, between them or after each,
are the lines of the whole.
-/

namespace DecimalMachine.Text

theorem isBlank_of_isLineBreak {c : Char} (h : isLineBreak c = true) : isBlank c = true := by
  simp only [isLineBreak, isBlank, Bool.or_eq_true, Bool.and_eq_true, decide_eq_true_eq,
    beq_iff_eq] at h ⊢
  omega

theorem not_isLineBreak_of_all {text : List Char}
    (h : (text.all fun c => !isLineBreak c) = true) : ∀ c ∈ text, isLineBreak c = false := by
  simpa using h

theorem not_isLineBreak_of_mem_lines {text line : List Char} (h : line ∈ lines text) :
    ∀ c ∈ line, isLineBreak c = false := by
  fun_induction lines text generalizing line with
  | case1 => cases h
  | case2 rest ih =>
    rcases List.mem_cons.1 h with rfl | h
    · exact fun c hc => nomatch hc
    · exact ih h
  | case3 c rest hplain hbreak ih =>
    rcases List.mem_cons.1 h with rfl | h
    · exact fun c hc => nomatch hc
    · exact ih h
  | case4 c rest hplain hbreak ih =>
    have hc : isLineBreak c = false := by simpa using hbreak
    cases hlines : lines rest with
    | nil =>
      rw [hlines, consHead, List.mem_singleton] at h
      simpa [h] using hc
    | cons first others =>
      rw [hlines] at h ih
      rcases List.mem_cons.1 h with rfl | h
      · exact List.forall_mem_cons.2 ⟨hc, ih List.mem_cons_self⟩
      · exact ih (List.mem_cons_of_mem first h)

/-- A character starts a line of its own if it is a line break, unless it is a carriage return whose
line feed follows. -/
theorem lines_cons {c : Char} {rest : List Char} (h : c = '\r' → rest.head? ≠ some '\n') :
    lines (c :: rest) = if isLineBreak c then [] :: lines rest else consHead c (lines rest) := by
  rw [lines]
  rintro rest' rfl rfl
  exact h rfl rfl

theorem lines_cons_of_not_isLineBreak {c : Char} (rest : List Char) (h : isLineBreak c = false) :
    lines (c :: rest) = consHead c (lines rest) := by
  have hreturn : c ≠ '\r' := by
    rintro rfl
    cases h
  rw [lines_cons fun heq => absurd heq hreturn, h]
  rfl

theorem lines_eq_nil_iff {text : List Char} : lines text = [] ↔ text = [] := by
  fun_cases lines text with
  | case4 c rest =>
    cases lines rest <;> simp [consHead]
  | _ => simp

theorem consHead_append {c : Char} {pieces more : List (List Char)} (h : pieces ≠ []) :
    consHead c (pieces ++ more) = consHead c pieces ++ more := by
  cases pieces with
  | nil => exact absurd rfl h
  | cons piece rest => rfl

/-- A line feed between two texts adds at most empty lines between their lines. -/
theorem lines_append_feed (first second : List Char) :
    ∃ count, lines (first ++ '\n' :: second) =
      lines first ++ List.replicate count [] ++ lines second := by
  fun_induction lines first with
  | case1 => exact ⟨1, rfl⟩
  | case2 rest ih =>
    obtain ⟨count, ih⟩ := ih
    refine ⟨count, ?_⟩
    rw [List.cons_append, List.cons_append, lines, ih]
    rfl
  | case3 c rest hplain hbreak ih =>
    obtain ⟨count, ih⟩ := ih
    by_cases hreturn : c = '\r' ∧ rest = []
    · -- The line feed completes the break at the end of the first text.
      obtain ⟨rfl, rfl⟩ := hreturn
      exact ⟨0, rfl⟩
    · refine ⟨count, ?_⟩
      rw [List.cons_append, lines_cons, if_pos hbreak, ih]
      · rfl
      · rintro rfl hhead
        cases rest with
        | nil => exact hreturn ⟨rfl, rfl⟩
        | cons d rest => exact hplain rest rfl (by simpa using hhead)
  | case4 c rest hplain hbreak ih =>
    obtain ⟨count, ih⟩ := ih
    have hreturn : c ≠ '\r' := by
      rintro rfl
      exact hbreak rfl
    have hcons : lines (c :: rest ++ '\n' :: second) =
        consHead c (lines (rest ++ '\n' :: second)) := by
      rw [List.cons_append, lines_cons fun h => absurd h hreturn, if_neg hbreak]
    cases rest with
    | nil =>
      -- The line feed ends the last line of the first text.
      exact ⟨0, hcons⟩
    | cons d rest =>
      refine ⟨count, ?_⟩
      have hlines : lines (d :: rest) ≠ [] := by simp [lines_eq_nil_iff]
      rw [hcons, ih, List.append_assoc, consHead_append hlines, List.append_assoc]

/-- What stands before the first break is the first line. -/
theorem lines_append_break {line : List Char} {c : Char} {rest : List Char}
    (hline : ∀ c ∈ line, isLineBreak c = false) (hc : isLineBreak c = true)
    (hreturn : c = '\r' → rest.head? ≠ some '\n') :
    lines (line ++ c :: rest) = line :: lines rest := by
  induction line with
  | nil => rw [List.nil_append, lines_cons hreturn, if_pos hc]
  | cons d line ih =>
    obtain ⟨hd, hline⟩ := List.forall_mem_cons.1 hline
    rw [List.cons_append, lines_cons_of_not_isLineBreak _ hd, ih hline]
    rfl

theorem lines_append_return_feed {line : List Char} (rest : List Char)
    (hline : ∀ c ∈ line, isLineBreak c = false) :
    lines (line ++ '\r' :: '\n' :: rest) = line :: lines rest := by
  induction line with
  | nil => rfl
  | cons d line ih =>
    obtain ⟨hd, hline⟩ := List.forall_mem_cons.1 hline
    rw [List.cons_append, lines_cons_of_not_isLineBreak _ hd, ih hline]
    rfl

/-- What stands before the first line feed is the first line, if no other break precedes it. -/
theorem lines_append_cons_feed {line : List Char} (rest : List Char)
    (h : ∀ c ∈ line, isLineBreak c = false) :
    lines (line ++ '\n' :: rest) = line :: lines rest :=
  lines_append_break h (by decide) fun heq => absurd heq (by decide)

theorem lines_of_not_isLineBreak {line : List Char} (hne : line ≠ [])
    (h : ∀ c ∈ line, isLineBreak c = false) : lines line = [line] := by
  induction line with
  | nil => exact absurd rfl hne
  | cons c line ih =>
    obtain ⟨hc, hline⟩ := List.forall_mem_cons.1 h
    rw [lines_cons_of_not_isLineBreak _ hc]
    cases line with
    | nil => rfl
    | cons d rest =>
      rw [ih (List.cons_ne_nil d rest) hline]
      rfl

theorem lines_flatMap_feed {rows : List (List Char)}
    (h : ∀ row ∈ rows, ∀ c ∈ row, isLineBreak c = false) :
    lines (rows.flatMap fun row => row ++ ['\n']) = rows := by
  induction rows with
  | nil => rfl
  | cons row rows ih =>
    obtain ⟨hrow, hrows⟩ := List.forall_mem_cons.1 h
    rw [List.flatMap_cons, List.append_assoc, List.singleton_append,
      lines_append_cons_feed _ hrow, ih hrows]

/-- Line feeds between rows make lines of them, if the last row is not empty. -/
theorem lines_intercalate_feed {rows : List (List Char)} (hlast : rows.getLast? ≠ some [])
    (h : ∀ row ∈ rows, ∀ c ∈ row, isLineBreak c = false) :
    lines (['\n'].intercalate rows) = rows := by
  induction rows with
  | nil => rfl
  | cons row rows ih =>
    obtain ⟨hrow, hrows⟩ := List.forall_mem_cons.1 h
    cases rows with
    | nil =>
      have hne : row ≠ [] := by
        rintro rfl
        exact hlast rfl
      rw [List.intercalate_singleton, lines_of_not_isLineBreak hne hrow]
    | cons next rows =>
      rw [List.intercalate_cons_cons, List.append_assoc, List.singleton_append,
        lines_append_cons_feed _ hrow, ih (by simpa using hlast) hrows]

/-- Line feeds between rows make lines of them, but for a last row that is empty. -/
theorem lines_intercalate_feed_cases {rows : List (List Char)}
    (h : ∀ row ∈ rows, ∀ c ∈ row, isLineBreak c = false) :
    lines (['\n'].intercalate rows) = rows ∨
      ∃ others, rows = others ++ [[]] ∧ lines (['\n'].intercalate rows) = others := by
  by_cases hlast : rows.getLast? = some []
  · obtain ⟨others, rfl⟩ := List.getLast?_eq_some_iff.1 hlast
    have hfeeds : ['\n'].intercalate (others ++ [[]]) =
        others.flatMap fun row => row ++ ['\n'] := by
      clear h hlast
      induction others with
      | nil => rfl
      | cons row others ih =>
        rw [List.cons_append, List.intercalate_cons_of_ne_nil (by simp), ih, List.flatMap_cons]
    refine .inr ⟨others, rfl, ?_⟩
    rw [hfeeds]
    exact lines_flatMap_feed fun row hrow => h row (List.mem_append_left _ hrow)
  · exact .inl (lines_intercalate_feed hlast h)

/-- Rows that are put together and then put behind others are put together with these. -/
theorem intercalate_concat_intercalate {separator : List Char} {rows : List (List Char)}
    (hne : rows ≠ []) (before : List (List Char)) :
    separator.intercalate (before ++ [separator.intercalate rows]) =
      separator.intercalate (before ++ rows) := by
  induction before with
  | nil => exact List.intercalate_singleton
  | cons row before ih =>
    rw [List.cons_append, List.cons_append, List.intercalate_cons_of_ne_nil (by simp),
      List.intercalate_cons_of_ne_nil (by simp [hne]), ih]

end DecimalMachine.Text
