import DecimalMachine.Operand.Basic
import Mathlib.Algebra.BigOperators.Group.List.Basic
import Mathlib.Data.Int.ModEq

/-!
# Arithmetic on words

Sums and differences of words, whole numbers and truth values are words again, and wrap at every
step. It makes no difference when they wrap: the result is the word that the exact sum wraps to, so
that the laws of arithmetic modulo the number of words hold. `arithmetic_modulo` is the main
statement.

## Main definitions

- `Amount` — what takes part in sums and differences
- `Summand` — an amount with the way in which it is added to a result or subtracted from it
- `Operand.plus`, `Operand.minus` — sums and differences whose results can be operands again
-/

namespace DecimalMachine

namespace Word

/-- Numbers wrap to the same word exactly if they are congruent modulo the number of words. -/
theorem wrap_eq_wrap_iff {m n : Int} : wrap m = wrap n ↔ m ≡ n [ZMOD modulus] := by
  have hmodulus : (modulus : Int) = 1999 := rfl
  rw [Word.ext_iff, toInt_wrap, toInt_wrap, Int.ModEq, hmodulus]
  omega

/-- A number wraps to the one word that it is congruent to modulo the number of words. -/
theorem eq_wrap_iff {w : Word} {n : Int} : w = wrap n ↔ w.toInt ≡ n [ZMOD modulus] := by
  rw [← wrap_eq_wrap_iff, wrap_toInt]

theorem toInt_wrap_modEq (n : Int) : (wrap n).toInt ≡ n [ZMOD modulus] :=
  eq_wrap_iff.1 rfl

/-- A sum may wrap at any time before it does so for the last time. -/
theorem wrap_toInt_wrap_add (m n : Int) : wrap ((wrap m).toInt + n) = wrap (m + n) :=
  wrap_eq_wrap_iff.2 ((toInt_wrap_modEq m).add_right n)

theorem wrap_toInt_wrap_sub (m n : Int) : wrap ((wrap m).toInt - n) = wrap (m - n) :=
  wrap_eq_wrap_iff.2 ((toInt_wrap_modEq m).sub_right n)

theorem wrap_add_toInt_wrap (m n : Int) : wrap (m + (wrap n).toInt) = wrap (m + n) :=
  wrap_eq_wrap_iff.2 ((toInt_wrap_modEq n).add_left m)

/-- A factor of a product may wrap before the product does. -/
theorem wrap_mul_toInt_wrap (m n : Int) : wrap (m * (wrap n).toInt) = wrap (m * n) :=
  wrap_eq_wrap_iff.2 ((toInt_wrap_modEq n).mul_left m)

end Word

/-- What takes part in sums and differences: a word, a whole number of any size, or a truth
value. -/
inductive Amount where
  | word (w : Word)
  | int (n : Int)
  | bool (b : Bool)
  deriving DecidableEq

namespace Amount

def operand : Amount → Operand
  | word w => .word w
  | int n => .int n
  | bool b => .bool b

def value : Amount → Int
  | word w => w.toInt
  | int n => n
  | bool b => boolToInt b

@[simp]
theorem amount?_operand (x : Amount) : x.operand.amount? = some x.value := by
  cases x <;> rfl

end Amount

namespace Operand

/-- An answer as an operand of a further operation. -/
def Answer.operand : Answer → Operand
  | .word w => .word w
  | .truth b => .bool b

def plus (a b : Operand) : Except Error Operand := Answer.operand <$> apply .plus a b

def minus (a b : Operand) : Except Error Operand := Answer.operand <$> apply .minus a b

theorem plus_eq_ok {a b : Operand} {m n : Int} (ha : a.amount? = some m) (hb : b.amount? = some n) :
    a.plus b = .ok (.word (.wrap (m + n))) := by
  simp only [plus, apply, combine, ha, hb]
  rfl

theorem minus_eq_ok {a b : Operand} {m n : Int} (ha : a.amount? = some m)
    (hb : b.amount? = some n) : a.minus b = .ok (.word (.wrap (m - n))) := by
  simp only [minus, apply, combine, ha, hb]
  rfl

end Operand

/-- An amount with the way in which it enters a sum: added behind the result so far, added in front
of it, or subtracted from it. -/
inductive Summand where
  | plus (x : Amount)
  | plusInFront (x : Amount)
  | minus (x : Amount)
  deriving DecidableEq

namespace Summand

/-- What a summand contributes to the exact sum. -/
def value : Summand → Int
  | plus x | plusInFront x => x.value
  | minus x => -x.value

/-- The result with a summand. -/
def join (result : Operand) : Summand → Except Error Operand
  | plus x => result.plus x.operand
  | plusInFront x => x.operand.plus result
  | minus x => result.minus x.operand

/-- The exact sum of summands. -/
def total (summands : List Summand) : Int := (summands.map value).sum

theorem join_word (w : Word) (s : Summand) :
    s.join (.word w) = .ok (.word (.wrap (w.toInt + s.value))) := by
  cases s with
  | plus x => exact Operand.plus_eq_ok rfl x.amount?_operand
  | plusInFront x =>
    rw [join, Operand.plus_eq_ok x.amount?_operand rfl, Int.add_comm, value]
  | minus x =>
    rw [join, Operand.minus_eq_ok rfl x.amount?_operand, Int.sub_eq_add_neg, value]

/-- Summands that are joined one after another make the word of the exact sum. -/
theorem foldlM_join (start : Word) (summands : List Summand) :
    summands.foldlM join (.word start) = .ok (.word (.wrap (start.toInt + total summands))) := by
  induction summands generalizing start with
  | nil => simp [total, pure, Except.pure]
  | cons s rest ih =>
    have htotal : total (s :: rest) = s.value + total rest := List.sum_cons
    rw [List.foldlM_cons, join_word]
    calc rest.foldlM join (.word (.wrap (start.toInt + s.value)))
        = .ok (.word (.wrap ((Word.wrap (start.toInt + s.value)).toInt + total rest))) := ih _
      _ = .ok (.word (.wrap (start.toInt + total (s :: rest)))) := by
          rw [Word.wrap_toInt_wrap_add, htotal, Int.add_assoc]

theorem total_perm {summands others : List Summand} (h : summands.Perm others) :
    total summands = total others :=
  (h.map value).sum_eq

end Summand

namespace Operand

/-- Arithmetic on words is arithmetic modulo their number. A number wraps to the one word that it is
congruent to. Amounts that are added to a word or subtracted from it one after another give, after
each of them, the word that the exact sum so far wraps to, and never fail; so their order makes no
difference. What is added can be subtracted again, and a difference is the sum with the opposite,
whichever of the operands are words and whichever whole numbers or truth values. -/
theorem arithmetic_modulo :
    (∀ (n : Int) (w : Word), w = .wrap n ↔ w.toInt ≡ n [ZMOD 1999]) ∧
    (∀ (start : Word) (summands : List Summand) (k : Nat),
      (summands.take k).foldlM Summand.join (.word start) =
        .ok (.word (.wrap (start.toInt + Summand.total (summands.take k))))) ∧
    (∀ (start : Word) (summands others : List Summand), summands.Perm others →
      summands.foldlM Summand.join (.word start) = others.foldlM Summand.join (.word start)) ∧
    (∀ (a : Word) (x : Amount),
      ((word a).plus x.operand >>= fun sum => sum.minus x.operand) = .ok (.word a) ∧
      (x.operand.plus (word a) >>= fun sum => sum.minus x.operand) = .ok (.word a) ∧
      (x.operand.plus (word a) >>= fun sum => sum.minus (word a)) = .ok (.word (.wrap x.value))) ∧
    ∀ (a : Word) (x : Amount),
      (word a).minus x.operand = ((word .zero).minus x.operand >>= fun y => (word a).plus y) ∧
      (word a).minus x.operand = (word a).plus (int (-x.value)) ∧
      x.operand.minus (word a) = ((int 0).minus (word a) >>= fun y => x.operand.plus y) := by
  refine ⟨fun n w => Word.eq_wrap_iff, fun start summands k => Summand.foldlM_join _ _, ?_, ?_, ?_⟩
  · intro start summands others h
    rw [Summand.foldlM_join, Summand.foldlM_join, Summand.total_perm h]
  · intro a x
    have hback (w : Word) (n : Int) : Word.wrap ((Word.wrap (w.toInt + n)).toInt - n) = w := by
      rw [Word.wrap_toInt_wrap_sub, Int.add_sub_cancel, Word.wrap_toInt]
    rw [plus_eq_ok (a := word a) rfl x.amount?_operand,
      plus_eq_ok (b := word a) x.amount?_operand rfl]
    refine ⟨?_, ?_, ?_⟩
    · exact (minus_eq_ok rfl x.amount?_operand).trans (by rw [hback])
    · exact (minus_eq_ok rfl x.amount?_operand).trans (by rw [Int.add_comm, hback])
    · refine (minus_eq_ok (a := word _) (b := word a) rfl rfl).trans ?_
      rw [Word.wrap_toInt_wrap_sub, Int.add_sub_cancel]
  · intro a x
    rw [minus_eq_ok (a := word a) rfl x.amount?_operand,
      minus_eq_ok (a := word .zero) rfl x.amount?_operand,
      minus_eq_ok (b := word a) x.amount?_operand rfl,
      minus_eq_ok (a := int 0) (b := word a) rfl rfl,
      plus_eq_ok (a := word a) (b := int (-x.value)) rfl rfl]
    refine ⟨?_, ?_, ?_⟩
    · refine Eq.trans ?_ (plus_eq_ok (a := word a) (b := word _) rfl rfl).symm
      rw [Word.wrap_add_toInt_wrap, Word.toInt_zero, Int.zero_sub, Int.sub_eq_add_neg]
    · rw [Int.sub_eq_add_neg]
    · refine Eq.trans ?_ (plus_eq_ok (b := word _) x.amount?_operand rfl).symm
      rw [Word.wrap_add_toInt_wrap, Int.zero_sub, Int.sub_eq_add_neg]

end Operand

end DecimalMachine
