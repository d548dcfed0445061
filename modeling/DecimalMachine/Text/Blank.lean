/-! # Blanks

The characters that stand between the words of a line, and the functions that cut a text at them.
`words` yields the maximal blank-free pieces of a text, from left to right; `trim` takes the blanks
off both ends.
-/

namespace DecimalMachine.Text

/-- A blank is a space, a tab, a line break of any kind, a separator control or a Unicode space. -/
def isBlank (c : Char) : Bool :=
  let n := c.toNat
  (0x09 ≤ n && n ≤ 0x0d) || (0x1c ≤ n && n ≤ 0x20) || n == 0x85 || n == 0xa0 || n == 0x1680 ||
    (0x2000 ≤ n && n ≤ 0x200a) || n == 0x2028 || n == 0x2029 || n == 0x202f || n == 0x205f ||
    n == 0x3000

/-- The text without the blanks at its start. -/
def trimLeft (text : List Char) : List Char :=
  text.dropWhile isBlank

/-- The text without the blanks at its end. -/
def trimRight (text : List Char) : List Char :=
  (text.reverse.dropWhile isBlank).reverse

def trim (text : List Char) : List Char :=
  trimRight (trimLeft text)

/-- The maximal blank-free pieces of a text, in order. -/
def words (text : List Char) : List (List Char) :=
  (text.splitOnP isBlank).filter (fun piece => !piece.isEmpty)

@[simp]
theorem words_nil : words [] = [] := rfl

/-- The words on the two sides of a blank are apart. -/
theorem words_append_cons_blank {c : Char} (before rest : List Char) (h : isBlank c = true) :
    words (before ++ c :: rest) = words before ++ words rest := by
  rw [words, List.splitOnP_append_cons before rest h, List.filter_append]
  rfl

/-- A blank in front of a text adds no word. -/
theorem words_cons_blank {c : Char} (text : List Char) (h : isBlank c = true) :
    words (c :: text) = words text :=
  words_append_cons_blank [] text h

/-- Blanks in front of a text add no word. -/
theorem words_blanks_append {gap : List Char} (h : ∀ c ∈ gap, isBlank c = true)
    (text : List Char) : words (gap ++ text) = words text := by
  induction gap with
  | nil => rfl
  | cons c gap ih =>
    obtain ⟨hc, hgap⟩ := List.forall_mem_cons.1 h
    rw [List.cons_append, words_cons_blank _ hc, ih hgap]

/-- Blanks behind a text add no word. -/
theorem words_append_blanks {gap : List Char} (text : List Char)
    (h : ∀ c ∈ gap, isBlank c = true) : words (text ++ gap) = words text := by
  cases gap with
  | nil => rw [List.append_nil]
  | cons c gap =>
    obtain ⟨hc, hgap⟩ := List.forall_mem_cons.1 h
    have hnone : words gap = [] := by
      rw [← List.append_nil gap, words_blanks_append hgap, words_nil]
    rw [words_append_cons_blank text gap hc, hnone, List.append_nil]

/-- The words on the two sides of a gap are apart, however wide it is. -/
theorem words_append_gap_append {gap : List Char} (before rest : List Char) (hne : gap ≠ [])
    (h : ∀ c ∈ gap, isBlank c = true) :
    words (before ++ gap ++ rest) = words before ++ words rest := by
  cases gap with
  | nil => exact absurd rfl hne
  | cons c gap =>
    obtain ⟨hc, hgap⟩ := List.forall_mem_cons.1 h
    rw [List.append_assoc, List.cons_append, words_append_cons_blank before _ hc,
      words_blanks_append hgap]

/-- A text without blanks is one word. -/
theorem words_of_not_isBlank {text : List Char} (hne : text ≠ [])
    (h : ∀ c ∈ text, isBlank c = false) : words text = [text] := by
  simp [words, List.splitOnP_eq_singleton h, hne]

/-- What stands before the first blank is the first word. -/
theorem words_append_of_head {word rest : List Char} (hne : word ≠ [])
    (hword : ∀ c ∈ word, isBlank c = false) (hrest : ∀ c ∈ rest.head?, isBlank c = true) :
    words (word ++ rest) = word :: words rest := by
  cases rest with
  | nil => rw [List.append_nil, words_of_not_isBlank hne hword, words_nil]
  | cons c rest =>
    have hc : isBlank c = true := hrest c rfl
    rw [words_append_cons_blank word rest hc, words_of_not_isBlank hne hword,
      words_cons_blank rest hc, List.singleton_append]

theorem ne_nil_of_mem_words {text word : List Char} (h : word ∈ words text) : word ≠ [] := by
  simp only [words, List.mem_filter, Bool.not_eq_true', List.isEmpty_eq_false_iff] at h
  exact h.2

theorem not_isBlank_of_mem_words {text word : List Char} (h : word ∈ words text) :
    ∀ c ∈ word, isBlank c = false := by
  have hpieces : ∀ piece ∈ text.splitOnP isBlank, ∀ c ∈ piece, isBlank c = false := by
    clear h
    induction text with
    | nil => simp
    | cons d rest ih =>
      rw [List.splitOnP_cons_eq_if_modifyHead]
      split
      · exact List.forall_mem_cons.2 ⟨List.forall_mem_nil _, ih⟩
      · next hd =>
        cases hsplit : rest.splitOnP isBlank with
        | nil => exact List.forall_mem_nil _
        | cons piece more =>
          rw [hsplit] at ih
          obtain ⟨hpiece, hmore⟩ := List.forall_mem_cons.1 ih
          exact List.forall_mem_cons.2
            ⟨List.forall_mem_cons.2 ⟨by simpa using hd, hpiece⟩, hmore⟩
  exact hpieces word (List.mem_filter.1 h).1

end DecimalMachine.Text
