import DecimalMachine.Device.Output
import DecimalMachine.Proofs.Text.Slice

/-!
# Rows of the output

The output is shown in rows. Its text is split at the line feeds, and each segment is cut into
slices of the width; a segment without characters has one empty row. The rows are filled in one pass
that breaks a full row only before a character that does not fit, so that a line feed right after a
full row does not leave an empty one. What is put out later changes no row but the last, and that
one only grows.

## Main definitions

- `Output.segmentRows` — the rows of a segment
- `Output.textRows` — the rows of a text
-/

namespace DecimalMachine.Output

variable {width : Nat} {row segment text : List Char}

/-- The rows of a text without line feeds. -/
def segmentRows (width : Nat) (segment : List Char) : List (List Char) :=
  if segment = [] then [[]] else Text.slices width segment

/-- The rows of a text: those of its segments, one after the other. -/
def textRows (width : Nat) (text : List Char) : List (List Char) :=
  (text.splitOn '\n').flatMap (segmentRows width)

/-! ## Segments -/

theorem segmentRows_of_length_le (h : segment.length ≤ width) :
    segmentRows width segment = [segment] := by
  unfold segmentRows
  split
  next hnil => rw [hnil]
  next hne => exact Text.slices_of_length_le hne h

/-- A full row in front of more of the segment is a row by itself. -/
theorem segmentRows_append (hwidth : 1 ≤ width) (hfull : row.length = width) (hne : segment ≠ []) :
    segmentRows width (row ++ segment) = row :: segmentRows width segment := by
  have hboth : row ++ segment ≠ [] := List.append_ne_nil_of_right_ne_nil row hne
  rw [segmentRows, if_neg hboth, segmentRows, if_neg hne, Text.slices_eq_cons hwidth hboth,
    List.take_left' hfull, List.drop_left' hfull]

theorem length_le_of_mem_segmentRows (h : row ∈ segmentRows width segment) :
    row.length ≤ width := by
  unfold segmentRows at h
  split at h
  · rw [List.mem_singleton.1 h]
    exact Nat.zero_le width
  · exact Text.length_le_of_mem_slices h

theorem mem_of_mem_segmentRows {c : Char} (h : row ∈ segmentRows width segment) (hc : c ∈ row) :
    c ∈ segment := by
  unfold segmentRows at h
  split at h
  · rw [List.mem_singleton.1 h] at hc
    cases hc
  · exact Text.mem_of_mem_slices h hc

theorem flatten_segmentRows (hwidth : 1 ≤ width) (segment : List Char) :
    (segmentRows width segment).flatten = segment := by
  unfold segmentRows
  split
  next hnil => rw [hnil]; rfl
  next => exact Text.flatten_slices hwidth segment

theorem length_of_mem_dropLast_segmentRows (hwidth : 1 ≤ width)
    (h : row ∈ (segmentRows width segment).dropLast) : row.length = width := by
  unfold segmentRows at h
  split at h
  · cases h
  · exact Text.length_of_mem_dropLast_slices hwidth h

/-! ## Texts -/

theorem textRows_of_notMem (h : '\n' ∉ text) : textRows width text = segmentRows width text := by
  rw [textRows, List.splitOn_eq_singleton h, List.flatMap_singleton]

theorem textRows_append_feed (h : '\n' ∉ segment) (rest : List Char) :
    textRows width (segment ++ '\n' :: rest) =
      segmentRows width segment ++ textRows width rest := by
  rw [textRows, List.splitOn_append_cons_self_of_not_mem h, List.flatMap_cons, textRows]

/-- A full row in front of a character that is no line feed is a row by itself. -/
theorem textRows_append_cons (hwidth : 1 ≤ width) (hfull : row.length = width)
    (hrow : '\n' ∉ row) {c : Char} (hc : c ≠ '\n') (rest : List Char) :
    textRows width (row ++ c :: rest) = row :: textRows width (c :: rest) := by
  by_cases hfeed : '\n' ∈ c :: rest
  · obtain ⟨segment, later, hsplit, hsegment⟩ := List.eq_append_cons_of_mem hfeed
    have hne : segment ≠ [] := by
      rintro rfl
      exact hc (List.cons.inj hsplit).1
    have hboth : '\n' ∉ row ++ segment := by
      rw [List.mem_append, not_or]
      exact ⟨hrow, hsegment⟩
    rw [hsplit, ← List.append_assoc, textRows_append_feed hboth, textRows_append_feed hsegment,
      segmentRows_append hwidth hfull hne, List.cons_append]
  · have hboth : '\n' ∉ row ++ c :: rest := by
      rw [List.mem_append, not_or]
      exact ⟨hrow, hfeed⟩
    rw [textRows_of_notMem hboth, textRows_of_notMem hfeed,
      segmentRows_append hwidth hfull (List.cons_ne_nil c rest)]

/-- Filling rows gives the rows of the text, counted from the first character of the row that is
being filled. -/
theorem fillRows_eq {room : Nat} (hwidth : 1 ≤ width) (hroom : row.length + room = width)
    (hrow : '\n' ∉ row) (text : List Char) :
    fillRows width row room text = textRows width (row.reverse ++ text) := by
  have hshort : row.reverse.length ≤ width := by
    rw [List.length_reverse]
    omega
  have hfeed : '\n' ∉ row.reverse := by rwa [List.mem_reverse]
  fun_induction fillRows width row room text with
  | case1 row room =>
    rw [List.append_nil, textRows_of_notMem hfeed, segmentRows_of_length_le hshort]
  | case2 row room rest ih =>
    have hnext := ih (Nat.zero_add width) List.not_mem_nil (Nat.zero_le width) List.not_mem_nil
    rw [hnext, textRows_append_feed hfeed, segmentRows_of_length_le hshort]
    rfl
  | case3 row c rest hc ih =>
    -- The row is full, and is broken before a character that does not fit.
    have hfull : row.reverse.length = width := by
      rw [List.length_reverse]
      omega
    have hsingle : '\n' ∉ [c] := by simpa using Ne.symm hc
    have hnext := ih (by rw [List.length_singleton]; omega) hsingle hwidth hsingle
    rw [hnext, textRows_append_cons hwidth hfull hfeed hc]
    rfl
  | case4 row c rest hc left ih =>
    have hlonger : '\n' ∉ c :: row := List.not_mem_cons_of_ne_of_not_mem (Ne.symm hc) hrow
    have hroom : (c :: row).reverse.length ≤ width := by
      rw [List.length_reverse, List.length_cons]
      omega
    rw [ih (by rw [List.length_cons]; omega) hlonger hroom (by rwa [List.mem_reverse]),
      List.reverse_cons, List.append_assoc]
    rfl

theorem wrapped_eq (output : Output) (hwidth : 1 ≤ width) :
    output.wrapped width = (textRows width output.text.toList).map String.ofList := by
  rw [wrapped, fillRows_eq hwidth (Nat.zero_add width) List.not_mem_nil]
  rfl

theorem rows_eq_wrapped (output : Output) (hwidth : 1 ≤ width) :
    output.rows width = .ok (output.wrapped width) := by
  have hroom : ¬((width : Int) < 1) := by omega
  rw [rows, if_neg hroom, Int.toNat_natCast]

theorem rows_eq (output : Output) (hwidth : 1 ≤ width) :
    output.rows width = .ok ((textRows width output.text.toList).map String.ofList) := by
  rw [rows_eq_wrapped output hwidth, wrapped_eq output hwidth]

theorem notMem_of_mem_splitOn (h : segment ∈ text.splitOn '\n') : '\n' ∉ segment := by
  induction text generalizing segment with
  | nil =>
    rw [List.splitOn_nil, List.mem_singleton] at h
    rw [h]
    exact List.not_mem_nil
  | cons c rest ih =>
    rw [List.splitOn_cons_eq_if_modifyHead] at h
    split at h
    · rcases List.mem_cons.1 h with rfl | h
      · exact List.not_mem_nil
      · exact ih h
    next hc =>
      obtain ⟨first, others, hsplit⟩ := List.exists_cons_of_ne_nil (List.splitOn_ne_nil '\n' rest)
      rw [hsplit] at h ih
      rcases List.mem_cons.1 h with rfl | h
      · have hne : '\n' ≠ c := by
          rintro rfl
          exact hc rfl
        exact List.not_mem_cons_of_ne_of_not_mem hne (ih List.mem_cons_self)
      · exact ih (List.mem_cons_of_mem first h)

/-- The segments of a text are all of it but the line feeds. -/
theorem flatten_splitOn (text : List Char) :
    (text.splitOn '\n').flatten = text.filter (· ≠ '\n') := by
  induction text with
  | nil => rfl
  | cons c rest ih =>
    rw [List.splitOn_cons_eq_if_modifyHead]
    by_cases hc : c = '\n'
    · rw [hc, List.filter_cons_of_neg (by simp), ← ih]
      rfl
    · obtain ⟨first, others, hsplit⟩ := List.exists_cons_of_ne_nil (List.splitOn_ne_nil '\n' rest)
      rw [if_neg (by simpa using hc), List.filter_cons_of_pos (by simpa using hc), ← ih, hsplit]
      rfl

/-- The rows of a text hold its characters but the line feeds, in their order. -/
theorem flatten_textRows (hwidth : 1 ≤ width) (text : List Char) :
    (textRows width text).flatten = text.filter (· ≠ '\n') := by
  rw [← flatten_splitOn, textRows]
  induction text.splitOn '\n' with
  | nil => rfl
  | cons segment rest ih =>
    rw [List.flatMap_cons, List.flatten_append, flatten_segmentRows hwidth, ih, List.flatten_cons]

/-! ## Later text -/

/-- The row that is being filled is the beginning of the first row. -/
theorem exists_fillRows_eq_cons (width : Nat) (row : List Char) (room : Nat) (text : List Char) :
    ∃ more later, fillRows width row room text = (row.reverse ++ more) :: later := by
  fun_induction fillRows width row room text with
  | case1 row | case2 row | case3 row => exact ⟨[], _, by rw [List.append_nil]⟩
  | case4 row c rest _ left ih =>
    obtain ⟨more, later, hrows⟩ := ih
    refine ⟨c :: more, later, ?_⟩
    rw [hrows, List.reverse_cons, List.append_assoc, List.singleton_append]

/-- More text leaves all rows as they are but the last, which it may make longer. -/
theorem fillRows_append (width : Nat) (row : List Char) (room : Nat) (text more : List Char) :
    ∃ before last tail later, fillRows width row room text = before ++ [last] ∧
      fillRows width row room (text ++ more) = before ++ (last ++ tail) :: later := by
  fun_induction fillRows width row room text with
  | case1 row room =>
    obtain ⟨tail, later, hrows⟩ := exists_fillRows_eq_cons width row room more
    exact ⟨[], row.reverse, tail, later, rfl, hrows⟩
  | case2 row room rest ih | case3 row c rest hc ih =>
    obtain ⟨before, last, tail, later, hrows, hmore⟩ := ih
    refine ⟨row.reverse :: before, last, tail, later, by rw [hrows]; rfl, ?_⟩
    simp [fillRows, *]
  | case4 row c rest hc left ih => simpa [fillRows, hc] using ih

/-- The view of the output in rows of a width. It is made of the segments of the text between its
line feeds, one after the other; a segment is cut into pieces as long as the width, of which only
the last may be shorter, and an empty one gives an empty row. So no row is too long or holds a line
feed, the rows hold every other character of the text once and in its order, and a segment that
fills its rows leaves no empty one behind. Text that is put out later leaves all rows as they are
but the last, which then begins the row at its place. -/
theorem rows_of_segments (output : Output) (hwidth : 1 ≤ width) :
    let segments := output.text.toList.splitOn '\n'
    let view := segments.flatMap (segmentRows width)
    output.rows width = .ok (view.map String.ofList) ∧
    (segmentRows width [] = [[]] ∧
      ∀ segment, segment ≠ [] →
        (segmentRows width segment).flatten = segment ∧
        (∀ row ∈ (segmentRows width segment).dropLast, row.length = width) ∧
        [] ∉ segmentRows width segment ∧
        ∀ count, segment.length = count * width →
          (segmentRows width segment).length = count) ∧
    (∀ row ∈ view, row.length ≤ width ∧ '\n' ∉ row) ∧
    view.flatten = output.text.toList.filter (· ≠ '\n') ∧
    ∀ (more : String) (isNumber : Bool), ∃ before last tail later,
      output.rows width = .ok (before ++ [last]) ∧
      (output.append more isNumber).rows width = .ok (before ++ (last ++ tail) :: later) := by
  intro segments view
  refine ⟨rows_eq output hwidth, ⟨rfl, ?segments⟩, ?rows, flatten_textRows hwidth _, ?later⟩
  case segments =>
    intro segment hne
    refine ⟨flatten_segmentRows hwidth segment, ?_, ?_⟩
    · exact fun row => length_of_mem_dropLast_segmentRows hwidth
    rw [segmentRows, if_neg hne]
    exact ⟨Text.nil_notMem_slices hwidth segment, fun count => Text.length_slices_of_dvd hwidth⟩
  case rows =>
    intro row hrow
    obtain ⟨segment, hsegment, hmem⟩ := List.mem_flatMap.1 hrow
    refine ⟨length_le_of_mem_segmentRows hmem, fun hfeed => ?_⟩
    exact notMem_of_mem_splitOn hsegment (mem_of_mem_segmentRows hmem hfeed)
  case later =>
    intro more isNumber
    obtain ⟨before, last, tail, later, hrows, hmore⟩ :=
      fillRows_append width [] width output.text.toList more.toList
    have hlonger : (output.append more isNumber).text.toList = output.text.toList ++ more.toList :=
      String.toList_append
    refine ⟨before.map String.ofList, String.ofList last, String.ofList tail,
      later.map String.ofList, ?_, ?_⟩
    · rw [rows_eq_wrapped output hwidth, wrapped, hrows, List.map_append, List.map_singleton]
    · rw [rows_eq_wrapped _ hwidth, wrapped, hlonger, hmore, List.map_append, List.map_cons,
        String.ofList_append]

/-- A segment that fills two rows, an empty one and a short one; two characters later the short row
is full and another one is begun. -/
theorem rows_of_segments_of_full_row :
    let output : Output := ⟨"abcdef\n\nxy", false⟩
    let later := output.append "z!" false
    1 ≤ 3 ∧ output.rows 3 = .ok ["abc", "def", "", "xy"] ∧
      later.rows 3 = .ok ["abc", "def", "", "xyz", "!"] := by
  intro output later
  have hwidth : 1 ≤ 3 := by decide
  obtain ⟨hrows, -⟩ := rows_of_segments output hwidth
  obtain ⟨hlater, -⟩ := rows_of_segments later hwidth
  refine ⟨hwidth, hrows.trans ?_, hlater.trans ?_⟩
  · decide +kernel
  · decide +kernel

end DecimalMachine.Output
