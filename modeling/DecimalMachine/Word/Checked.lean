import DecimalMachine.Error
import DecimalMachine.Word.Dump

/-! # Checked words

Words made of what need not be one: a number, two groups of digits, or bytes. Each function gives
the word, or the error that says why there is none.
-/

namespace DecimalMachine.Word

def ofInt (n : Int) : Except Error Word :=
  match ofInt? n with
  | some w => .ok w
  | none => .error (.valueOutOfRange n)

def ofDigits (digit lastTwo : Int) : Except Error Word :=
  match ofDigits? digit lastTwo with
  | some w => .ok w
  | none => .error (.digitsOutOfRange digit lastTwo)

/-- The word in two bytes. -/
def ofBytes : List UInt8 → Except Error Word
  | [high, low] => ofInt (signedOfBytes high low)
  | _ => .error .notTwoBytes

@[simp]
theorem ofInt_toInt (w : Word) : ofInt w.toInt = .ok w := by
  simp [ofInt]

theorem ofInt_eq_ok_iff {n : Int} {w : Word} : ofInt n = .ok w ↔ w.toInt = n := by
  rw [← ofInt?_eq_some_iff, ofInt]
  cases ofInt? n <;> simp

theorem ofInt_eq_error_iff {n : Int} {error : Error} :
    ofInt n = .error error ↔ ¬(-999 ≤ n ∧ n ≤ 999) ∧ error = .valueOutOfRange n := by
  have hrange : ¬(-999 ≤ n ∧ n ≤ 999) ↔ n < -999 ∨ 999 < n := by omega
  rw [hrange, ← ofInt?_eq_none_iff, ofInt]
  cases ofInt? n with
  | none => simp [eq_comm]
  | some w => simp

theorem ofDigits_eq_ok_iff {digit lastTwo : Int} {w : Word} :
    ofDigits digit lastTwo = .ok w ↔
      ((0 ≤ digit ∧ digit ≤ 9) ∧ (0 ≤ lastTwo ∧ lastTwo ≤ 99)) ∧
        w.toInt = 100 * digit + lastTwo := by
  rw [← ofDigits?_eq_some_iff]
  unfold ofDigits
  split <;> simp_all

theorem ofDigits_eq_error_iff {digit lastTwo : Int} {error : Error} :
    ofDigits digit lastTwo = .error error ↔
      ¬((0 ≤ digit ∧ digit ≤ 9) ∧ (0 ≤ lastTwo ∧ lastTwo ≤ 99)) ∧
        error = .digitsOutOfRange digit lastTwo := by
  rw [← ofDigits?_eq_none_iff, ofDigits]
  cases ofDigits? digit lastTwo with
  | none => simp [eq_comm]
  | some w => simp

/-- Reading the bytes of a word gives the word. -/
@[simp]
theorem ofBytes_toBytes (w : Word) : ofBytes w.toBytes = .ok w := by
  obtain ⟨high, low, hbytes, hvalue⟩ := signedOfBytes_toBytes w
  rw [hbytes, ofBytes, hvalue, ofInt_toInt]

end DecimalMachine.Word
