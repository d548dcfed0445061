import DecimalMachine.Escape
import DecimalMachine.Word.Basic
import Mathlib.Algebra.Group.Nat.Defs
import Mathlib.Algebra.Ring.Int.Defs

/-!
# Numbers that can be written

A number can be written if it is below a power of ten, and all numbers that have to do with words
are far below it. What leaves an operation is its error exactly if all numbers in the message of the
error can be written.
-/

namespace DecimalMachine

namespace Text

variable {n k : Int}

theorem isWritable_iff : IsWritable n ↔ n.natAbs < 10 ^ maxDigits :=
  Nat.length_toDigits_le_iff (by decide) (by decide)

theorem IsWritable.of_natAbs_le (hk : IsWritable k) (h : n.natAbs ≤ k.natAbs) : IsWritable n :=
  isWritable_iff.2 (Nat.lt_of_le_of_lt h (isWritable_iff.1 hk))

theorem isWritable_of_small (h : -999 ≤ n ∧ n ≤ 999) : IsWritable n :=
  IsWritable.of_natAbs_le (show IsWritable 999 by decide) (by omega)

/-- The least number above zero that cannot be written. -/
theorem not_isWritable_pow : ¬IsWritable (10 ^ maxDigits) := by
  have hten : (10 : Int).natAbs = 10 := rfl
  rw [isWritable_iff, Int.natAbs_pow, hten]
  generalize (10 : Nat) ^ maxDigits = power
  exact Nat.lt_irrefl power

end Text

theorem write_of_isWritable (form : Int → String) {n : Int} (h : Text.IsWritable n) :
    write form n = .ok (form n) := if_pos h

theorem write_of_word (form : Int → String) (w : Word) : write form w.toInt = .ok (form w.toInt) :=
  write_of_isWritable form (Text.isWritable_of_small ⟨w.lower, w.upper⟩)

namespace Escape

variable {error : Error} {n : Int}

theorem ofError_of_isWritable (h : error.IsWritable) : ofError error = .raised error := by
  have hnone : (error.numbers.find? fun n => ¬Text.IsWritable n) = none := by
    simpa [List.find?_eq_none, Error.IsWritable] using h
  rw [ofError, hnone]

/-- What an error comes to whose message has one number. -/
theorem ofError_of_numbers_eq (h : error.numbers = [n]) :
    ofError error = if Text.IsWritable n then .raised error else .overlong n := by
  rw [ofError, h]
  by_cases hn : Text.IsWritable n <;> simp [hn]

theorem isAwaited_ofError (h : (error.isReported || error.isWrongValue) = true) :
    (ofError error).isAwaited = true := by
  unfold ofError
  split
  · rfl
  · exact h

end Escape

end DecimalMachine
