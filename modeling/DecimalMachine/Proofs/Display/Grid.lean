import DecimalMachine.Display.State
import DecimalMachine.Proofs.Display.Plain
import DecimalMachine.Proofs.Text.Numeral
import DecimalMachine.Proofs.Text.Slice
import Mathlib.Data.List.Forall2

/-!
# Memory grids

Memory is shown as a grid, and no cell is lost: the words of the text, split at blanks, are the
cells in the order of their addresses, and each is read as the number that its cell holds. This goes
for the plain grid, and for the styled one of any number of columns once the escape sequences are
taken out of it; then both have the same text if they have the same columns. `text_reads_back` is
the main statement.
-/

namespace DecimalMachine

namespace Text

variable {α β : Type} {size : Nat}

/-! ## Chunks -/

theorem slices_map (f : α → β) (list : List α) :
    slices size (list.map f) = (slices size list).map (List.map f) := by
  simp [slices, Function.comp_def, List.map_take, List.map_drop]

/-- Filling pieces gives the slices of the list, counted from the first element of the piece that is
being filled. -/
theorem chunksFrom_eq {piece : List α} {room : Nat} (hsize : 1 ≤ size)
    (hroom : piece.length + room = size) (list : List α) :
    chunksFrom size piece room list = slices size (piece.reverse ++ list) := by
  fun_induction chunksFrom size piece room list with
  | case1 piece room hempty =>
    rw [List.isEmpty_iff.1 hempty, List.reverse_nil, List.append_nil, slices_nil]
  | case2 piece room hfilled =>
    have hne : piece.reverse ≠ [] := by simpa using hfilled
    rw [List.append_nil, slices_of_length_le hne (by rw [List.length_reverse]; omega)]
  | case3 piece x rest ih =>
    have hfull : piece.reverse.length = size := by
      rw [List.length_reverse]
      omega
    have hne : piece.reverse ++ x :: rest ≠ [] := by simp
    rw [ih (by rw [List.length_singleton]; omega), slices_eq_cons hsize hne,
      List.take_left' hfull, List.drop_left' hfull]
    rfl
  | case4 piece x rest left ih =>
    rw [ih (by rw [List.length_cons]; omega), List.reverse_cons, List.append_assoc]
    rfl

theorem chunks_eq_slices (hsize : 1 ≤ size) (list : List α) : chunks size list = slices size list :=
  chunksFrom_eq hsize (Nat.zero_add size) list

/-! ## Words of joined texts -/

/-- Texts with a blank between them have their words one after the other. -/
theorem words_intercalate {c : Char} (hc : isBlank c = true) (texts : List (List Char)) :
    words ([c].intercalate texts) = texts.flatMap words := by
  induction texts with
  | nil => rfl
  | cons text texts ih =>
    cases texts with
    | nil => simp
    | cons next others =>
      rw [List.intercalate_cons_cons, List.append_assoc, List.singleton_append,
        words_append_cons_blank _ _ hc, ih]
      rfl

/-- Tokens with a blank between them are the words of the text. -/
theorem words_intercalate_tokens {c : Char} (hc : isBlank c = true) {tokens : List (List Char)}
    (h : ∀ token ∈ tokens, words token = [token]) : words ([c].intercalate tokens) = tokens := by
  rw [words_intercalate hc, List.flatMap_congr h, List.flatMap_singleton']

/-- A character of joined texts is one of a text or of the separator. -/
theorem notMem_intercalate {c : Char} {separator : List Char} {texts : List (List Char)}
    (hseparator : c ∉ separator) (h : ∀ text ∈ texts, c ∉ text) :
    c ∉ separator.intercalate texts := by
  induction texts with
  | nil => exact List.not_mem_nil
  | cons text texts ih =>
    obtain ⟨htext, htexts⟩ := List.forall_mem_cons.1 h
    cases texts with
    | nil => rwa [List.intercalate_singleton]
    | cons next others =>
      rw [List.intercalate_cons_cons, List.mem_append, List.mem_append, not_or, not_or]
      exact ⟨⟨htext, hseparator⟩, ih htexts⟩

end Text

namespace Word

variable (w : Word)

/-- A padded word is the numeral of its number. -/
theorem exists_padded_eq :
    ∃ zeros, w.padded.toList = Text.written zeros w.toInt ∧
      zeros + (Nat.toDigits 10 w.toInt.natAbs).length ≤ Text.maxDigits := by
  obtain ⟨zeros, hzeros, hpadded⟩ := Text.exists_zeroPadded_eq_written 3 w.toInt
  have hdigits := Text.length_digits_le ⟨w.lower, w.upper⟩
  refine ⟨zeros, by rw [padded, hpadded, String.toList_ofList], ?_⟩
  rw [Text.maxDigits]
  omega

theorem readNumeral_padded : Text.readNumeral w.padded.toList = .ok w.toInt := by
  obtain ⟨zeros, hwritten, hlength⟩ := w.exists_padded_eq
  rw [hwritten, Text.readNumeral_written hlength]

theorem isLiteral_padded : Text.isLiteral w.padded.toList = true := by
  obtain ⟨zeros, hwritten, -⟩ := w.exists_padded_eq
  rw [hwritten, Text.isLiteral_written]

theorem words_padded : Text.words w.padded.toList = [w.padded.toList] := by
  refine Text.words_of_not_isBlank ?_ (Text.not_isBlank_of_isLiteral w.isLiteral_padded)
  intro hnil
  have hliteral := w.isLiteral_padded
  rw [hnil] at hliteral
  cases hliteral

/-- A padded word is made of digits and a minus sign at most. -/
theorem notMem_padded {c : Char} (hminus : c ≠ '-') (hdigit : Text.isPlainDigit c = false) :
    c ∉ w.padded.toList := by
  obtain ⟨zeros, hwritten, -⟩ := w.exists_padded_eq
  rw [hwritten, Text.written, List.mem_append, not_or]
  constructor
  · split
    · simpa using hminus
    · exact List.not_mem_nil
  · intro hmem
    rw [Text.isPlainDigit_of_mem_digits hmem] at hdigit
    cases hdigit

end Word

namespace Memory

variable {size columns : Nat} {cells : List Word}

/-! ## Grids of words -/

/-- The text of a row of words. -/
def rowText (look : Word → String) (row : List Word) : List Char :=
  [' '].intercalate (row.map fun w => (look w).toList)

/-- A grid is its rows with line feeds between them. -/
theorem toList_gridText (hcolumns : 1 ≤ columns) (look : Word → String) (cells : List Word) :
    (gridText columns (cells.map look)).toList =
      ['\n'].intercalate ((Text.slices columns cells).map (rowText look)) := by
  rw [gridText, String.toList_intercalate, Text.chunks_eq_slices hcolumns, Text.slices_map,
    List.map_map, List.map_map]
  congr 1
  apply List.map_congr_left
  intro row _
  rw [Function.comp_apply, Function.comp_apply, String.toList_intercalate, List.map_map]
  rfl

theorem words_rowText (row : List Word) :
    Text.words (rowText Word.padded row) = row.map fun w => w.padded.toList := by
  refine Text.words_intercalate_tokens (by decide) ?_
  intro token htoken
  obtain ⟨w, -, rfl⟩ := List.mem_map.1 htoken
  exact w.words_padded

/-- The words of a plain grid are its cells. -/
theorem words_gridText (hcolumns : 1 ≤ columns) (cells : List Word) :
    Text.words (gridText columns (cells.map Word.padded)).toList =
      cells.map fun w => w.padded.toList := by
  rw [toList_gridText hcolumns, Text.words_intercalate (by decide), List.flatMap_map]
  simp only [words_rowText]
  rw [← List.map_flatMap, List.flatMap_id', Text.flatten_slices hcolumns]

/-- Between the line feeds of a plain grid stand its rows. -/
theorem splitOn_gridText (hcolumns : 1 ≤ columns) (hne : cells ≠ []) :
    (gridText columns (cells.map Word.padded)).toList.splitOn '\n' =
      (Text.slices columns cells).map (rowText Word.padded) := by
  rw [toList_gridText hcolumns]
  apply List.splitOn_intercalate
  · intro text htext
    obtain ⟨row, -, rfl⟩ := List.mem_map.1 htext
    apply Text.notMem_intercalate (by decide)
    intro token htoken
    obtain ⟨w, -, rfl⟩ := List.mem_map.1 htoken
    exact w.notMem_padded (by decide) (by decide)
  · rw [Text.slices_eq_cons hcolumns hne]
    exact List.cons_ne_nil _ _

/-- Every row of a plain grid but the last has a word for each column, and the last has at least
one. -/
theorem length_words_of_rows (hcolumns : 1 ≤ columns) (hne : cells ≠ []) :
    let rows := (gridText columns (cells.map Word.padded)).toList.splitOn '\n'
    (∀ row ∈ rows.dropLast, (Text.words row).length = columns) ∧
      ∃ last ∈ rows.getLast?, 1 ≤ (Text.words last).length ∧
        (Text.words last).length ≤ columns := by
  intro rows
  have hrows : rows = (Text.slices columns cells).map (rowText Word.padded) :=
    splitOn_gridText hcolumns hne
  have hlength (row : List Word) :
      (Text.words (rowText Word.padded row)).length = row.length := by
    rw [words_rowText, List.length_map]
  have hslices : Text.slices columns cells ≠ [] := by
    rw [Text.slices_eq_cons hcolumns hne]
    exact List.cons_ne_nil _ _
  rw [hrows]
  constructor
  · intro text htext
    rw [← List.map_dropLast] at htext
    obtain ⟨row, hrow, rfl⟩ := List.mem_map.1 htext
    rw [hlength, Text.length_of_mem_dropLast_slices hcolumns hrow]
  · have hlast := List.getLast_mem hslices
    refine ⟨rowText Word.padded ((Text.slices columns cells).getLast hslices), ?_, ?_, ?_⟩
    · rw [List.getLast?_map, List.getLast?_eq_getLast_of_ne_nil hslices]
      rfl
    · rw [hlength]
      apply List.length_pos_iff.2
      intro hnil
      rw [hnil] at hlast
      exact Text.nil_notMem_slices hcolumns cells hlast
    · rw [hlength]
      exact Text.length_le_of_mem_slices hlast

/-! ## Styled grids -/

/-- What is styled about a cell is taken out, and its number is left. -/
theorem strips_styledCell (w : Word) :
    Style.gray.Strips (styledCell w).toList w.padded.toList := by
  have hplain : Style.escape ∉ w.padded.toList := w.notMem_padded (by decide) (by decide)
  unfold styledCell
  split
  next hzero =>
    have hw : w = .zero := Word.ext (by simpa [Word.isZero] using hzero)
    rw [hw] at hplain ⊢
    exact Style.strips_apply hplain
  next => exact Style.strips_of_notMem hplain

/-- Without its escape sequences, a styled grid is the plain one. -/
theorem strip_styledText {m : Memory size} (hcolumns : 1 ≤ columns) :
    Style.gray.strip (m.styledText columns) = gridText columns (m.toList.map Word.padded) := by
  have hrow (row : List Word) :
      Style.gray.Strips (rowText styledCell row) (rowText Word.padded row) := by
    apply Style.strips_intercalate (by decide)
    rw [List.forall₂_map_left_iff, List.forall₂_map_right_iff]
    exact List.forall₂_same.2 fun w _ => strips_styledCell w
  have hgrid : Style.gray.Strips (m.styledText columns).toList
      (gridText columns (m.toList.map Word.padded)).toList := by
    rw [styledText, toList_gridText hcolumns, toList_gridText hcolumns]
    apply Style.strips_intercalate (by decide)
    rw [List.forall₂_map_left_iff, List.forall₂_map_right_iff]
    exact List.forall₂_same.2 fun row _ => hrow row
  rw [Style.strip_eq_of_strips hgrid, String.ofList_toList]

theorem map_readNumeral_padded (cells : List Word) :
    (cells.map fun w => w.padded.toList).map Text.readNumeral = cells.map fun w => .ok w.toInt := by
  rw [List.map_map]
  apply List.map_congr_left
  intro w _
  rw [Function.comp_apply, w.readNumeral_padded]

/-- What is shown of memory reads back. Whatever the size of a memory and the words in it, the text
of the memory, split at blanks, is read as the numbers in its cells, one token for each cell; and so
is its styled grid of any number of columns, once the escape sequences are taken out. Unless the
memory has no cells, each row of this grid but the last has a cell for each column, and the last has
at least one and no more than that. With ten columns it is then the same text as the plain one. -/
theorem text_reads_back (m : Memory size) :
    (Text.words m.text.toList).map Text.readNumeral = m.toList.map (fun w => .ok w.toInt) ∧
    ∀ columns : Int, 1 ≤ columns → ∃ styled, m.styledTextOf columns = .ok styled ∧
      let plain := Style.gray.strip styled
      let rows := plain.toList.splitOn '\n'
      (Text.words plain.toList).map Text.readNumeral = m.toList.map (fun w => .ok w.toInt) ∧
      (size ≠ 0 →
        (∀ row ∈ rows.dropLast, ((Text.words row).length : Int) = columns) ∧
          ∃ last ∈ rows.getLast?, 1 ≤ (Text.words last).length ∧
            ((Text.words last).length : Int) ≤ columns) ∧
      (columns = 10 → plain = m.text) := by
  constructor
  · rw [text, words_gridText (by decide), map_readNumeral_padded]
  · intro columns hcolumns
    obtain ⟨count, rfl⟩ : ∃ count : Nat, columns = count := ⟨columns.toNat, by omega⟩
    have hcount : 1 ≤ count := by omega
    have hstyled : m.styledTextOf count = .ok (m.styledText count) := by
      rw [styledTextOf, if_neg (by omega), if_neg (by omega), Int.toNat_natCast]
    refine ⟨m.styledText count, hstyled, ?_⟩
    intro plain rows
    have hplain : plain = gridText count (m.toList.map Word.padded) := strip_styledText hcount
    refine ⟨?_, ?_, ?_⟩
    · rw [hplain, words_gridText hcount, map_readNumeral_padded]
    · intro hsize
      have hne : m.toList ≠ [] := by
        rw [Ne, ← List.length_eq_zero_iff, length_toList]
        exact hsize
      obtain ⟨hfull, last, hlast, hpos, hle⟩ := length_words_of_rows hcount hne
      simp only [rows, hplain]
      exact ⟨fun row hrow => by rw [hfull row hrow], last, hlast, hpos, by exact_mod_cast hle⟩
    · intro hten
      obtain rfl : count = 10 := by omega
      exact hplain

example :
    let m : Memory 3 := ⟨#v[.wrap (-5), .zero, .wrap 999]⟩
    Style.gray.strip (m.styledText 2) = "-05 000\n999" := by decide +kernel

end Memory

end DecimalMachine
