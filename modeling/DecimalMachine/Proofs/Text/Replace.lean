import DecimalMachine.Proofs.Text.Lines
import Mathlib.Data.List.TakeWhile

/-!
# Other words and other lines in a text

The first words of a text may be replaced where they stand, and so may all of its lines. The gaps
between the words and the breaks between the lines stay as they are, so that the words and the lines
of the result are the new ones.

## Main definitions

- `substitute` — a text with other words at its start
- `mapLines` — a text with other lines
-/

namespace DecimalMachine.Text

/-- What stands behind the first word of a text. -/
def pastWord (text : List Char) : List Char :=
  (text.dropWhile isBlank).dropWhile fun c => !isBlank c

/-- The text with words in the place of as many of its first ones. -/
def substitute : List (List Char) → List Char → List Char
  | [], text => text
  | word :: more, text => text.takeWhile isBlank ++ (word ++ substitute more (pastWord text))

/-- The text with every line replaced by the one that a function makes of it. The line that the
text starts with has a part before the text. -/
def mapLinesFrom (f : List Char → List Char) : List Char → List Char → List Char
  | line, [] => f line
  | line, '\r' :: '\n' :: rest => f line ++ '\r' :: '\n' :: mapLinesFrom f [] rest
  | line, c :: rest =>
    if isLineBreak c then f line ++ c :: mapLinesFrom f [] rest
    else mapLinesFrom f (line ++ [c]) rest

def mapLines (f : List Char → List Char) (text : List Char) : List Char := mapLinesFrom f [] text

section Words

variable {news : List (List Char)} {text : List Char}

theorem head?_pastWord (text : List Char) : ∀ c ∈ (pastWord text).head?, isBlank c = true := by
  intro c hc
  have hnot := List.head?_dropWhile_not (fun c => !isBlank c) (text.dropWhile isBlank)
  rw [pastWord] at hc
  rw [Option.mem_def.1 hc] at hnot
  simpa using hnot

/-- The first word of a text that has one, and the words behind it. -/
theorem exists_words_eq_cons (h : words text ≠ []) :
    ∃ word, words text = word :: words (pastWord text) := by
  have htail : words text = words (text.dropWhile isBlank) := by
    have hgap : ∀ c ∈ text.takeWhile isBlank, isBlank c = true := fun c =>
      List.mem_takeWhile_imp
    rw [← words_blanks_append hgap (text.dropWhile isBlank), List.takeWhile_append_dropWhile]
  have hne : (text.dropWhile isBlank).takeWhile (fun c => !isBlank c) ≠ [] := by
    have hhead := List.head?_dropWhile_not isBlank text
    cases hdrop : text.dropWhile isBlank with
    | nil =>
      rw [htail, hdrop] at h
      exact absurd rfl h
    | cons c rest =>
      rw [hdrop] at hhead
      simpa using hhead
  have hplain : ∀ c ∈ (text.dropWhile isBlank).takeWhile (fun c => !isBlank c),
      isBlank c = false := by
    intro c hc
    have hin := List.mem_takeWhile_imp hc
    simpa using hin
  have hsplit := words_append_of_head hne hplain (head?_pastWord text)
  rw [pastWord, List.takeWhile_append_dropWhile, ← htail] at hsplit
  exact ⟨_, hsplit⟩

theorem head?_substitute (hhead : ∀ c ∈ text.head?, isBlank c = true)
    (hlength : news.length ≤ (words text).length) :
    ∀ c ∈ (substitute news text).head?, isBlank c = true := by
  cases news with
  | nil => exact hhead
  | cons word more =>
    cases text with
    | nil => simp at hlength
    | cons c rest =>
      have hc : isBlank c = true := hhead c rfl
      simp [substitute, hc]

/-- The words of a text in which the first ones have been replaced. -/
theorem words_substitute (hnews : ∀ word ∈ news, word ≠ [] ∧ ∀ c ∈ word, isBlank c = false)
    (hlength : news.length ≤ (words text).length) :
    words (substitute news text) = news ++ (words text).drop news.length := by
  induction news generalizing text with
  | nil => rfl
  | cons word more ih =>
    obtain ⟨⟨hne, hplain⟩, hmore⟩ := List.forall_mem_cons.1 hnews
    have hwords : words text ≠ [] := by
      intro hnone
      simp [hnone] at hlength
    obtain ⟨first, hfirst⟩ := exists_words_eq_cons hwords
    rw [hfirst, List.length_cons, List.length_cons, Nat.add_le_add_iff_right] at hlength
    have hhead := head?_substitute (head?_pastWord text) hlength
    rw [substitute, words_blanks_append fun c hc => List.mem_takeWhile_imp hc,
      words_append_of_head hne hplain hhead, ih hmore hlength, hfirst]
    rfl

example : String.ofList (substitute ["x".toList, "LDA".toList] " loop\tLDA  n".toList) =
    " x\tLDA  n" := by
  decide +kernel

theorem not_isLineBreak_substitute
    (hnews : ∀ word ∈ news, ∀ c ∈ word, isLineBreak c = false)
    (htext : ∀ c ∈ text, isLineBreak c = false) :
    ∀ c ∈ substitute news text, isLineBreak c = false := by
  induction news generalizing text with
  | nil => exact htext
  | cons word more ih =>
    obtain ⟨hword, hmore⟩ := List.forall_mem_cons.1 hnews
    have hpast : ∀ c ∈ pastWord text, isLineBreak c = false := fun c hc =>
      htext c ((List.dropWhile_suffix _).subset ((List.dropWhile_suffix _).subset hc))
    exact List.forall_mem_append.2 ⟨fun c hc => htext c ((List.takeWhile_prefix _).subset hc),
      List.forall_mem_append.2 ⟨hword, ih hmore hpast⟩⟩

theorem substitute_eq_nil_iff (hnews : ∀ word ∈ news, word ≠ []) :
    substitute news text = [] ↔ news = [] ∧ text = [] := by
  cases news with
  | nil => simp [substitute]
  | cons word more => simp [substitute, hnews word List.mem_cons_self]

end Words

section Lines

variable {f : List Char → List Char} {line text : List Char}

/-- A function leaves a line a line: one that is empty if the old one is, and without breaks. -/
structure KeepsLine (f : List Char → List Char) (line : List Char) : Prop where
  eq_nil_iff : f line = [] ↔ line = []
  not_isLineBreak : ∀ c ∈ f line, isLineBreak c = false

/-- A line feed does not come to the start of what a line becomes. -/
theorem KeepsLine.head?_append_ne_feed (h : KeepsLine f line)
    (hmore : line = [] → text.head? ≠ some '\n') : (f line ++ text).head? ≠ some '\n' := by
  cases hmapped : f line with
  | nil => exact hmore (h.eq_nil_iff.1 hmapped)
  | cons c rest =>
    have hc : isLineBreak c = false := h.not_isLineBreak c (hmapped ▸ List.mem_cons_self)
    rintro heq
    cases heq
    cases hc

/-- The lines are what the lines of the text have become. A line feed comes to the start only if one
was there, so that it does not complete a break before it. -/
theorem lines_mapLinesFrom (hnil : KeepsLine f [])
    (hline : ∀ c ∈ line, isLineBreak c = false)
    (hkeeps : ∀ l ∈ lines (line ++ text), KeepsLine f l) :
    lines (mapLinesFrom f line text) = (lines (line ++ text)).map f ∧
      ((line ++ text).head? ≠ some '\n' → (mapLinesFrom f line text).head? ≠ some '\n') := by
  fun_induction mapLinesFrom f line text with
  | case1 line =>
    rw [List.append_nil] at hkeeps ⊢
    by_cases hne : line = []
    · rw [hne, hnil.eq_nil_iff.2 rfl]
      exact ⟨rfl, id⟩
    · rw [lines_of_not_isLineBreak hne hline] at hkeeps ⊢
      have hkept := hkeeps line List.mem_cons_self
      have hfirst : (f line ++ []).head? ≠ some '\n' :=
        hkept.head?_append_ne_feed fun heq => absurd heq hne
      rw [List.append_nil] at hfirst
      refine ⟨?_, fun _ => hfirst⟩
      exact lines_of_not_isLineBreak (fun heq => hne (hkept.eq_nil_iff.1 heq)) hkept.not_isLineBreak
  | case2 line rest ih =>
    rw [lines_append_return_feed rest hline] at hkeeps ⊢
    obtain ⟨hkept, hrest⟩ := List.forall_mem_cons.1 hkeeps
    rw [lines_append_return_feed _ hkept.not_isLineBreak, (ih (List.forall_mem_nil _) hrest).1]
    exact ⟨rfl, fun _ => hkept.head?_append_ne_feed fun _ => by simp⟩
  | case3 line c rest hplain hbreak ih =>
    have hreturn : c = '\r' → rest.head? ≠ some '\n' := by
      rintro hc hhead
      obtain ⟨more, hrest⟩ := List.head?_eq_some_iff.1 hhead
      exact hplain more hc hrest
    rw [lines_append_break hline hbreak hreturn] at hkeeps ⊢
    obtain ⟨hkept, hrest⟩ := List.forall_mem_cons.1 hkeeps
    obtain ⟨hlines, hhead⟩ := ih (List.forall_mem_nil _) hrest
    rw [lines_append_break hkept.not_isLineBreak hbreak fun heq => hhead (hreturn heq), hlines]
    refine ⟨rfl, fun hfirst => hkept.head?_append_ne_feed ?_⟩
    rintro rfl
    exact hfirst
  | case4 line c rest hplain hbreak ih =>
    have hlonger : ∀ d ∈ line ++ [c], isLineBreak d = false :=
      List.forall_mem_append.2 ⟨hline, by simpa using hbreak⟩
    have happend : line ++ [c] ++ rest = line ++ c :: rest := by simp
    rw [happend] at ih
    exact ih hlonger hkeeps

/-- The lines of the result are what the lines of the text have become. -/
theorem lines_mapLines (hnil : KeepsLine f []) (hkeeps : ∀ line ∈ lines text, KeepsLine f line) :
    lines (mapLines f text) = (lines text).map f :=
  (lines_mapLinesFrom hnil (List.forall_mem_nil _) hkeeps).1

example : String.ofList (mapLines List.reverse "one\r\n\ntwo".toList) = "eno\r\n\nowt" := by
  decide +kernel

end Lines

end DecimalMachine.Text
