import DecimalMachine.Display.Style
import Mathlib.Data.List.Basic

/-!
# Styled text made plain

The escape sequences of a style are taken out of a text from left to right. What is left of a text
in the style is the text itself, wherever it stands, as long as it has no escape character of its
own; and this goes for texts that are put together from such texts.

## Main definitions

- `Text.erase` — a text without the occurrences of a code
- `Style.strip` — a text without the escape sequences of a style
- `Style.Strips` — a text loses its escape sequences wherever it stands
-/

namespace DecimalMachine

namespace Text

/-- What is left of a text without the occurrences of a code, given how much of the occurrence that
was found last is still to be passed over. -/
def eraseFrom (code : List Char) : Nat → List Char → List Char
  | _, [] => []
  | passing + 1, _ :: rest => eraseFrom code passing rest
  | 0, c :: rest =>
    if code.isPrefixOf (c :: rest) then eraseFrom code (code.length - 1) rest
    else c :: eraseFrom code 0 rest

/-- A text without the occurrences of a code, found one after the other from its start on. -/
def erase (code text : List Char) : List Char := eraseFrom code 0 text

theorem eraseFrom_append (code passed rest : List Char) :
    eraseFrom code passed.length (passed ++ rest) = erase code rest := by
  induction passed with
  | nil => rfl
  | cons c passed ih => exact ih

/-- An occurrence of the code goes. -/
theorem erase_code_append (first : Char) (others rest : List Char) :
    erase (first :: others) ((first :: others) ++ rest) = erase (first :: others) rest := by
  have hoccurs : (first :: others).isPrefixOf ((first :: others) ++ rest) = true :=
    List.isPrefixOf_iff_prefix.2 (List.prefix_append _ _)
  rw [List.cons_append] at hoccurs ⊢
  rw [erase, eraseFrom, if_pos hoccurs]
  exact eraseFrom_append _ others rest

/-- Where the code does not begin, the text stays. -/
theorem erase_cons {code : List Char} {c : Char} {rest : List Char}
    (h : code.isPrefixOf (c :: rest) = false) : erase code (c :: rest) = c :: erase code rest := by
  rw [erase, eraseFrom, h, if_neg Bool.false_ne_true]
  rfl

/-- A text without the first character of the code stays, whatever comes after it. -/
theorem erase_append_of_notMem {first : Char} {others text : List Char} (h : first ∉ text)
    (rest : List Char) :
    erase (first :: others) (text ++ rest) = text ++ erase (first :: others) rest := by
  induction text with
  | nil => rfl
  | cons c text ih =>
    rw [List.mem_cons, not_or] at h
    obtain ⟨hc, htext⟩ := h
    have hother : (first :: others).isPrefixOf (c :: (text ++ rest)) = false := by
      simp [List.isPrefixOf, hc]
    rw [List.cons_append, erase_cons hother, ih htext, List.cons_append]

end Text

namespace Style

/-- The character that escape sequences begin with. -/
def escape : Char := '\x1b'

/-- A text without the sequences that begin a style or end one. -/
def strip (style : Style) (text : String) : String :=
  String.ofList (Text.erase stop.toList (Text.erase style.start.toList text.toList))

/-- A text that is styled in places loses its escape sequences, and nothing else, whatever comes
after it. -/
def Strips (style : Style) (styled plain : List Char) : Prop :=
  ∀ rest,
    Text.erase stop.toList (Text.erase style.start.toList (styled ++ rest)) =
      plain ++ Text.erase stop.toList (Text.erase style.start.toList rest)

variable {style : Style} {styled plain separator : List Char}

theorem start_eq (style : Style) : ∃ code, style.start.toList = escape :: code ∧ escape ∉ code := by
  cases style <;> exact ⟨_, rfl, by decide⟩

theorem stop_eq : ∃ code, stop.toList = escape :: code ∧ escape ∉ code :=
  ⟨_, rfl, by decide⟩

/-- The sequence that begins a style is none that ends one. -/
theorem isPrefixOf_start_stop (style : Style) (rest : List Char) :
    style.start.toList.isPrefixOf (stop.toList ++ rest) = false := by
  cases style <;> rfl

theorem strip_eq_of_strips {text : String} (h : style.Strips text.toList plain) :
    style.strip text = String.ofList plain := by
  have hall := h []
  rw [List.append_nil, show Text.erase style.start.toList [] = [] from rfl,
    show Text.erase stop.toList [] = [] from rfl, List.append_nil] at hall
  rw [strip, hall]

theorem strips_nil (style : Style) : style.Strips [] [] := fun _ => rfl

theorem Strips.append {styled' plain' : List Char} (h : style.Strips styled plain)
    (h' : style.Strips styled' plain') : style.Strips (styled ++ styled') (plain ++ plain') := by
  intro rest
  rw [List.append_assoc, h, h', List.append_assoc]

/-- A text without escape characters has nothing to lose. -/
theorem strips_of_notMem (h : escape ∉ plain) : style.Strips plain plain := by
  intro rest
  obtain ⟨code, hstart, -⟩ := style.start_eq
  obtain ⟨code', hstop, -⟩ := stop_eq
  rw [hstart, hstop, Text.erase_append_of_notMem h, Text.erase_append_of_notMem h]

/-- A text in a style loses the sequence in front of it and the one behind it. -/
theorem strips_apply {text : String} (h : escape ∉ text.toList) :
    style.Strips (style.apply text).toList text.toList := by
  intro rest
  obtain ⟨code, hstart, -⟩ := style.start_eq
  obtain ⟨code', hstop, hcode'⟩ := stop_eq
  -- Where the first sequence is taken out, the second one stays in place.
  have hkept : Text.erase style.start.toList (stop.toList ++ rest) =
      stop.toList ++ Text.erase style.start.toList rest := by
    have hother := style.isPrefixOf_start_stop rest
    rw [hstop, List.cons_append] at hother ⊢
    rw [Text.erase_cons hother, hstart, Text.erase_append_of_notMem hcode', List.cons_append]
  rw [apply, String.toList_append, String.toList_append, List.append_assoc, List.append_assoc]
  calc Text.erase stop.toList (Text.erase style.start.toList
          (style.start.toList ++ (text.toList ++ (stop.toList ++ rest))))
      = Text.erase stop.toList
          (Text.erase style.start.toList (text.toList ++ (stop.toList ++ rest))) := by
        rw [hstart, Text.erase_code_append]
    _ = Text.erase stop.toList
          (text.toList ++ (stop.toList ++ Text.erase style.start.toList rest)) := by
        rw [← hkept, hstart, Text.erase_append_of_notMem h]
    _ = text.toList ++ Text.erase stop.toList (Text.erase style.start.toList rest) := by
        rw [hstop, Text.erase_append_of_notMem h, Text.erase_code_append]

/-- Texts with a plain separator between them lose their escape sequences one by one. -/
theorem strips_intercalate {texts texts' : List (List Char)} (hseparator : escape ∉ separator)
    (h : List.Forall₂ style.Strips texts texts') :
    style.Strips (separator.intercalate texts) (separator.intercalate texts') := by
  induction h with
  | nil => exact style.strips_nil
  | cons hfirst hrest ih =>
    cases hrest with
    | nil => simpa using hfirst
    | cons hnext hothers =>
      rw [List.intercalate_cons_cons, List.intercalate_cons_cons]
      exact (hfirst.append (strips_of_notMem hseparator)).append ih

end Style

end DecimalMachine
