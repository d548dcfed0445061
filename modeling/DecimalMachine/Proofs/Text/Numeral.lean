import DecimalMachine.Text.Numeral
import Mathlib.Data.List.Basic
import Mathlib.Data.List.TakeWhile
import Mathlib.Tactic.SplitIfs

/-!
# Literals as numerals

A literal is read as the number that its digits stand for, with its sign, unless it has too many of
them. A number that is written in decimal, with or without zeros after its sign, is a literal and is
read as itself.

## Main definitions

- `literalDigits`, `literalValue` — how many digits a literal has, and the number it stands for
- `written` — a number in decimal with a given count of zeros after its sign
- `numeral` — the same under any sign that a number may be written with, `IsSignOf`
-/

namespace DecimalMachine.Text

theorem isPlainDigit_iff {c : Char} : isPlainDigit c = true ↔ 48 ≤ c.toNat ∧ c.toNat ≤ 57 := by
  rw [isPlainDigit, Bool.and_eq_true, decide_eq_true_eq, decide_eq_true_eq]
  rfl

theorem isPlainDigit_of_isDigit {c : Char} (h : c.isDigit = true) : isPlainDigit c = true := by
  simp only [Char.isDigit, Bool.and_eq_true, decide_eq_true_eq] at h
  exact isPlainDigit_iff.2 h

theorem digitValue?_of_isPlainDigit {c : Char} (h : isPlainDigit c = true) :
    digitValue? c = some (c.toNat - 48) := by
  obtain ⟨hlower, hupper⟩ := isPlainDigit_iff.1 h
  have hspan : c.toNat < 0x30 + 10 := by omega
  simp [digitValue?, zeroDigits, hlower, hspan]

theorem isNumeralChar_of_isPlainDigit {c : Char} (h : isPlainDigit c = true) :
    isNumeralChar c = true := by
  simp [isNumeralChar, isDigit, digitValue?_of_isPlainDigit h]

theorem not_isBlank_of_isPlainDigit {c : Char} (h : isPlainDigit c = true) : isBlank c = false := by
  obtain ⟨hlower, hupper⟩ := isPlainDigit_iff.1 h
  simp only [isBlank, Bool.or_eq_false_iff, Bool.and_eq_false_iff, decide_eq_false_iff_not,
    beq_eq_false_iff_ne]
  omega

theorem filterMap_digitValue? {digits : List Char} (h : ∀ c ∈ digits, isPlainDigit c = true) :
    digits.filterMap digitValue? = digits.map fun c => c.toNat - 48 := by
  rw [← List.filterMap_eq_map]
  exact List.filterMap_congr fun c hc => digitValue?_of_isPlainDigit (h c hc)

theorem length_filterMap_digitValue? {digits : List Char}
    (h : ∀ c ∈ digits, isPlainDigit c = true) :
    (digits.filterMap digitValue?).length = digits.length := by
  rw [filterMap_digitValue? h, List.length_map]

theorem valueOfDigits_filterMap {digits : List Char}
    (h : ∀ c ∈ digits, isPlainDigit c = true) :
    valueOfDigits (digits.filterMap digitValue?) = Nat.ofDigitChars 10 digits 0 := by
  rw [filterMap_digitValue? h, valueOfDigits, List.foldl_map, Nat.ofDigitChars_eq_foldl]
  rfl

theorem isGrouped_of_isPlainDigit {digits : List Char} (hne : digits ≠ [])
    (h : ∀ c ∈ digits, isPlainDigit c = true) : isGrouped digits = true := by
  have hplain : ∀ c ∈ digits, (c == '_') = false := by
    intro c hc
    have hdigit := isPlainDigit_iff.1 (h c hc)
    rw [beq_eq_false_iff_ne]
    rintro rfl
    exact absurd hdigit (by decide)
  simp [isGrouped, List.splitOn_eq_splitOnP, List.splitOnP_eq_singleton hplain, hne]

theorem isLiteral_iff {text : List Char} :
    isLiteral text = true ↔
      (splitSign text).2 ≠ [] ∧ ∀ c ∈ (splitSign text).2, isPlainDigit c = true := by
  simp [isLiteral]

theorem not_isBlank_of_isLiteral {text : List Char} (h : isLiteral text = true) :
    ∀ c ∈ text, isBlank c = false := by
  obtain ⟨-, hdigits⟩ := isLiteral_iff.1 h
  intro c hc
  revert hdigits hc
  fun_cases splitSign text with
  | case1 rest | case2 rest =>
    intro hdigits hc
    rcases List.mem_cons.1 hc with rfl | hc
    · decide
    · exact not_isBlank_of_isPlainDigit (hdigits c hc)
  | case3 =>
    intro hdigits hc
    exact not_isBlank_of_isPlainDigit (hdigits c hc)

/-- How many digits a literal has, leading zeros included. -/
def literalDigits (text : List Char) : Nat := (splitSign text).2.length

/-- The number that a literal stands for: that of its digits, under its sign. -/
def literalValue (text : List Char) : Int :=
  if (splitSign text).1 then -(Nat.ofDigitChars 10 (splitSign text).2 0 : Int)
  else Nat.ofDigitChars 10 (splitSign text).2 0

/-- A literal is read as the number it stands for, unless it has too many digits. -/
theorem readNumeral_of_isLiteral {text : List Char} (h : isLiteral text = true) :
    readNumeral text =
      if maxDigits < literalDigits text then .error (.tooLong (literalDigits text))
      else .ok (literalValue text) := by
  obtain ⟨hne, hdigits⟩ := isLiteral_iff.1 h
  have hblank : text.dropWhile isNumeralBlank = text := by
    cases text with
    | nil => rfl
    | cons c rest =>
      have hc : isBlank c = false := not_isBlank_of_isLiteral h c List.mem_cons_self
      exact List.dropWhile_cons_of_neg (by simp [isNumeralBlank, hc])
  have hbody : ∀ c ∈ (splitSign text).2, isNumeralChar c = true := fun c hc =>
    isNumeralChar_of_isPlainDigit (hdigits c hc)
  have htake : (splitSign text).2.takeWhile isNumeralChar = (splitSign text).2 :=
    List.takeWhile_eq_self_iff.2 hbody
  have hdrop : (splitSign text).2.dropWhile isNumeralChar = [] :=
    List.dropWhile_eq_nil_iff.2 hbody
  simp only [readNumeral, hblank, htake, hdrop, isGrouped_of_isPlainDigit hne hdigits,
    length_filterMap_digitValue? hdigits, valueOfDigits_filterMap hdigits, List.all_nil,
    Bool.not_true, Bool.false_eq_true, if_true, if_false]
  rfl

/-- A number in decimal with as many zeros after its sign. -/
def written (zeros : Nat) (n : Int) : List Char :=
  (if n < 0 then ['-'] else []) ++ (List.replicate zeros '0' ++ Nat.toDigits 10 n.natAbs)

theorem decimal_eq_written (n : Int) : decimal n = written 0 n := by
  unfold decimal written
  split <;> rfl

theorem toString_eq_decimal (n : Int) : toString n = String.ofList (decimal n) := by
  cases n with
  | ofNat n => rfl
  | negSucc n =>
    rw [decimal, if_pos (Int.negSucc_lt_zero n), String.ofList_cons]
    rfl

theorem exists_zeroPadded_eq_written (width : Nat) (n : Int) :
    ∃ zeros ≤ width, zeroPadded width n = String.ofList (written zeros n) := by
  refine ⟨_, ?_, by rw [zeroPadded, written, List.append_assoc]⟩
  omega

/-- A number in the range of words has three digits at most. -/
theorem length_digits_le {n : Int} (h : -999 ≤ n ∧ n ≤ 999) :
    (Nat.toDigits 10 n.natAbs).length ≤ 3 :=
  (Nat.length_toDigits_le_iff (by decide) (by decide)).2 (by omega)

theorem isPlainDigit_of_mem_digits {zeros n : Nat} {c : Char}
    (h : c ∈ List.replicate zeros '0' ++ Nat.toDigits 10 n) : isPlainDigit c = true := by
  rcases List.mem_append.1 h with h | h
  · cases List.eq_of_mem_replicate h
    rfl
  · exact isPlainDigit_of_isDigit (Nat.isDigit_of_mem_toDigits (by decide) (by decide) h)

theorem splitSign_of_isPlainDigit {c : Char} (rest : List Char) (h : isPlainDigit c = true) :
    splitSign (c :: rest) = (false, c :: rest) := by
  have hminus : c ≠ '-' := by
    rintro rfl
    exact absurd h (by decide)
  have hplus : c ≠ '+' := by
    rintro rfl
    exact absurd h (by decide)
  simp [splitSign, hminus, hplus]

/-- The signs that a number may be written with: zero may have any of them. -/
inductive IsSignOf (n : Int) : List Char → Prop
  | none (h : 0 ≤ n) : IsSignOf n []
  | plus (h : 0 ≤ n) : IsSignOf n ['+']
  | minus (h : n ≤ 0) : IsSignOf n ['-']

/-- A number in decimal under a sign, with as many zeros after it. -/
def numeral (sign : List Char) (zeros : Nat) (n : Int) : List Char :=
  sign ++ (List.replicate zeros '0' ++ Nat.toDigits 10 n.natAbs)

section Numeral

variable {n : Int} {sign : List Char}

theorem splitSign_numeral (h : IsSignOf n sign) (zeros : Nat) :
    splitSign (numeral sign zeros n) =
      (decide (sign = ['-']), List.replicate zeros '0' ++ Nat.toDigits 10 n.natAbs) := by
  cases h with
  | none =>
    rw [numeral, List.nil_append]
    cases hdigits : List.replicate zeros '0' ++ Nat.toDigits 10 n.natAbs with
    | nil => simp [Nat.toDigits_ne_nil] at hdigits
    | cons c rest =>
      have hc : c ∈ List.replicate zeros '0' ++ Nat.toDigits 10 n.natAbs := by simp [hdigits]
      rw [splitSign_of_isPlainDigit rest (isPlainDigit_of_mem_digits hc)]
      rfl
  | plus => rfl
  | minus => rfl

theorem isLiteral_numeral (h : IsSignOf n sign) (zeros : Nat) :
    isLiteral (numeral sign zeros n) = true := by
  rw [isLiteral_iff, splitSign_numeral h]
  refine ⟨?_, fun c => isPlainDigit_of_mem_digits⟩
  simp [Nat.toDigits_ne_nil]

theorem literalDigits_numeral (h : IsSignOf n sign) (zeros : Nat) :
    literalDigits (numeral sign zeros n) = zeros + (Nat.toDigits 10 n.natAbs).length := by
  simp [literalDigits, splitSign_numeral h]

theorem literalValue_numeral (h : IsSignOf n sign) (zeros : Nat) :
    literalValue (numeral sign zeros n) = n := by
  have hvalue : Nat.ofDigitChars 10 (List.replicate zeros '0' ++ Nat.toDigits 10 n.natAbs) 0 =
      n.natAbs := by
    rw [Nat.ofDigitChars_append, Nat.ofDigitChars_replicate_zero, Nat.mul_zero,
      Nat.ofDigitChars_ten_toDigits]
  rw [literalValue, splitSign_numeral h, hvalue]
  cases h with
  | none h | plus h => exact Int.natAbs_of_nonneg h
  | minus h =>
    show -(n.natAbs : Int) = n
    omega

end Numeral

theorem isSignOf_written (n : Int) : IsSignOf n (if n < 0 then ['-'] else []) := by
  split_ifs with hneg
  · exact .minus (Int.le_of_lt hneg)
  · exact .none (Int.not_lt.1 hneg)

theorem isLiteral_written (zeros : Nat) (n : Int) : isLiteral (written zeros n) = true :=
  isLiteral_numeral (isSignOf_written n) zeros

theorem literalDigits_written (zeros : Nat) (n : Int) :
    literalDigits (written zeros n) = zeros + (Nat.toDigits 10 n.natAbs).length :=
  literalDigits_numeral (isSignOf_written n) zeros

theorem literalValue_written (zeros : Nat) (n : Int) : literalValue (written zeros n) = n :=
  literalValue_numeral (isSignOf_written n) zeros

theorem readNumeral_written {zeros : Nat} {n : Int}
    (h : zeros + (Nat.toDigits 10 n.natAbs).length ≤ maxDigits) :
    readNumeral (written zeros n) = .ok n := by
  rw [readNumeral_of_isLiteral (isLiteral_written zeros n), literalDigits_written,
    if_neg (Nat.not_lt.2 h), literalValue_written]

end DecimalMachine.Text
