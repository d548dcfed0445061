import DecimalMachine.Text.Numeral

/-! # Words

A word is a whole number from −999 to 999. Every cell of memory and the accumulator hold one. Sums
and differences that leave the range come back at its other end: arithmetic is modulo 1999, the
number of words. Read as an instruction, a word is its leading digit and its last two digits, both
with the sign of the word.
-/

namespace DecimalMachine

/-- A whole number from −999 to 999. -/
structure Word where
  toInt : Int
  lower : -999 ≤ toInt
  upper : toInt ≤ 999
  deriving DecidableEq

namespace Word

/-- The number of words. -/
def modulus : Nat := 1999

/-- The word of a number, if there is one. -/
def ofInt? (n : Int) : Option Word :=
  if h : -999 ≤ n ∧ n ≤ 999 then some ⟨n, h.1, h.2⟩ else none

/-- The word congruent to a number modulo the number of words. -/
def wrap (n : Int) : Word :=
  ⟨(n + 999) % 1999 - 999, by omega, by omega⟩

def zero : Word := ⟨0, by decide, by decide⟩

instance : Inhabited Word := ⟨zero⟩

def add (a b : Word) : Word := wrap (a.toInt + b.toInt)

def sub (a b : Word) : Word := wrap (a.toInt - b.toInt)

instance : Add Word := ⟨add⟩

instance : Sub Word := ⟨sub⟩

/-- The digit before the last two, with the sign of the word. -/
def leadingDigit (w : Word) : Int := w.toInt.tdiv 100

/-- The number that the last two digits form, with the sign of the word. -/
def lastTwoDigits (w : Word) : Int := w.toInt.tmod 100

/-- The word of a leading digit from 0 to 9 and a two-digit number from 0 to 99. -/
def ofDigits? (digit lastTwo : Int) : Option Word :=
  if h : (0 ≤ digit ∧ digit ≤ 9) ∧ (0 ≤ lastTwo ∧ lastTwo ≤ 99) then
    some ⟨100 * digit + lastTwo, by omega, by omega⟩
  else none

def isZero (w : Word) : Bool := w.toInt == 0

def isNegative (w : Word) : Bool := w.toInt < 0

def text (w : Word) : String := String.ofList (Text.decimal w.toInt)

/-- The word in decimal with at least three characters, the sign counted. -/
def padded (w : Word) : String := Text.zeroPadded 3 w.toInt

/-- The word as it is shown when a value is inspected. -/
def inspected (w : Word) : String := "Value(" ++ w.text ++ ")"

@[ext]
theorem ext {a b : Word} (h : a.toInt = b.toInt) : a = b := by
  cases a; cases b; simp_all

@[simp]
theorem toInt_zero : zero.toInt = 0 := rfl

theorem toInt_wrap (n : Int) : (wrap n).toInt = (n + 999) % 1999 - 999 := rfl

@[simp]
theorem wrap_toInt (w : Word) : wrap w.toInt = w := by
  have hl := w.lower
  have hu := w.upper
  ext
  rw [toInt_wrap]
  omega

@[simp]
theorem ofInt?_toInt (w : Word) : ofInt? w.toInt = some w := by
  simp [ofInt?, w.lower, w.upper]

theorem ofInt?_eq_some_iff {n : Int} {w : Word} : ofInt? n = some w ↔ w.toInt = n := by
  constructor
  · intro h
    simp only [ofInt?] at h
    split at h
    · cases h; rfl
    · cases h
  · rintro rfl
    exact ofInt?_toInt w

theorem ofInt?_eq_none_iff {n : Int} : ofInt? n = none ↔ n < -999 ∨ 999 < n := by
  simp only [ofInt?]
  split <;> simp <;> omega

theorem ofDigits?_eq_some_iff {digit lastTwo : Int} {w : Word} :
    ofDigits? digit lastTwo = some w ↔
      ((0 ≤ digit ∧ digit ≤ 9) ∧ (0 ≤ lastTwo ∧ lastTwo ≤ 99)) ∧
        w.toInt = 100 * digit + lastTwo := by
  simp only [ofDigits?]
  split
  next h =>
    constructor
    · rintro ⟨⟩
      exact ⟨h, rfl⟩
    · rintro ⟨_, hw⟩
      exact congrArg some (ext hw.symm)
  next h =>
    constructor
    · rintro ⟨⟩
    · rintro ⟨hrange, _⟩
      exact absurd hrange h

theorem ofDigits?_eq_none_iff {digit lastTwo : Int} :
    ofDigits? digit lastTwo = none ↔
      ¬((0 ≤ digit ∧ digit ≤ 9) ∧ (0 ≤ lastTwo ∧ lastTwo ≤ 99)) := by
  simp only [ofDigits?]
  split
  next h => simp [h]
  next h => simp [h]

/-- The last two digits have the sign of the word. -/
theorem lastTwoDigits_bounds (w : Word) :
    (0 ≤ w.toInt → 0 ≤ w.lastTwoDigits ∧ w.lastTwoDigits ≤ 99) ∧
      (w.toInt < 0 → -99 ≤ w.lastTwoDigits ∧ w.lastTwoDigits ≤ 0) := by
  have hsum := Int.mul_tdiv_add_tmod w.toInt 100
  unfold lastTwoDigits
  constructor
  · intro h
    rw [Int.tmod_eq_emod_of_nonneg h]
    omega
  · intro h
    have hopposite : (-w.toInt).tmod 100 = -w.toInt % 100 :=
      Int.tmod_eq_emod_of_nonneg (by omega)
    rw [Int.neg_tmod] at hopposite
    omega

/-- The digits of a word make up the word. -/
theorem hundred_mul_leadingDigit_add (w : Word) :
    100 * w.leadingDigit + w.lastTwoDigits = w.toInt :=
  Int.mul_tdiv_add_tmod w.toInt 100

end Word

end DecimalMachine
