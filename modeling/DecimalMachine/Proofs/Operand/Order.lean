import DecimalMachine.Proofs.Operand.Arithmetic

/-!
# Comparisons

A word is compared with words, whole numbers of any size and truth values, on either side of the
sign. Among words and whole numbers the six comparisons are those of one linear order, and equal
operands have the same key. Truth values are ordered as the numbers that they count as, but none of
them is equal to a word. `comparisons_consistent` is the main statement.

## Main definitions

- `Operand.Comparable` — all six comparisons of two operands are made
- `Operand.Holds` — a comparison of two operands is made, and holds
- `Operand.Ordered` — two operands are compared as the elements of a linear order are
-/

namespace DecimalMachine

namespace Sign

/-- The signs that compare by the order. -/
def orders : List Sign := [less, atMost, greater, atLeast]

/-- The signs that compare. -/
def comparisons : List Sign := equal :: unequal :: orders

/-- Whether numbers are as a sign of the order says. -/
def relates (m n : Int) : Sign → Bool
  | less => m < n
  | atMost => m ≤ n
  | greater => m > n
  | atLeast => m ≥ n
  | _ => false

end Sign

/-- Exactly one of three statements is true. -/
def ExactlyOne (p q r : Prop) : Prop := (p ∧ ¬q ∧ ¬r) ∨ (¬p ∧ q ∧ ¬r) ∨ (¬p ∧ ¬q ∧ r)

namespace Operand

/-- All six comparisons of two operands are made: none is refused. -/
def Comparable (a b : Operand) : Prop :=
  ∀ sign ∈ Sign.comparisons, ∃ holds, apply sign a b = .ok (.truth holds)

/-- A comparison of two operands is made, and holds. -/
def Holds (sign : Sign) (a b : Operand) : Prop := apply sign a b = .ok (.truth true)

/-- Two operands are compared as the elements of a linear order are. -/
structure Ordered (a b : Operand) : Prop where
  exactlyOne : ExactlyOne (Holds .less a b) (Holds .equal a b) (Holds .greater a b)
  atMost_iff : Holds .atMost a b ↔ Holds .less a b ∨ Holds .equal a b
  atLeast_iff : Holds .atLeast a b ↔ Holds .greater a b ∨ Holds .equal a b

variable {a b c : Operand} {m n : Int} {sign : Sign}

/-! ## Comparisons of numbers -/

/-- Operands are ordered as their amounts are. -/
theorem apply_of_mem_orders (hsign : sign ∈ Sign.orders) (ha : a.amount? = some m)
    (hb : b.amount? = some n) : apply sign a b = .ok (.truth (sign.relates m n)) := by
  cases sign with
  | plus | minus | equal | unequal => simp [Sign.orders] at hsign
  | less | atMost | greater | atLeast => simp only [apply, compare, ha, hb, Sign.relates]

/-- Without an amount on both sides, the order refuses. -/
theorem exists_amount?_of_apply_less {holds : Bool} (h : apply .less a b = .ok (.truth holds)) :
    (∃ m, a.amount? = some m) ∧ ∃ n, b.amount? = some n := by
  simp only [apply, compare] at h
  split at h
  · next m n ha hb => exact ⟨⟨m, ha⟩, n, hb⟩
  · cases h

theorem holds_iff (hsign : sign ∈ Sign.orders) (ha : a.amount? = some m) (hb : b.amount? = some n) :
    Holds sign a b ↔ sign.relates m n = true := by
  rw [Holds, apply_of_mem_orders hsign ha hb, Except.ok.injEq, Answer.truth.injEq]

section Order

variable (ha : a.amount? = some m) (hb : b.amount? = some n)

include ha hb

theorem holds_less_iff : Holds .less a b ↔ m < n :=
  (holds_iff (by decide) ha hb).trans decide_eq_true_iff

theorem holds_atMost_iff : Holds .atMost a b ↔ m ≤ n :=
  (holds_iff (by decide) ha hb).trans decide_eq_true_iff

theorem holds_greater_iff : Holds .greater a b ↔ n < m :=
  (holds_iff (by decide) ha hb).trans decide_eq_true_iff

theorem holds_atLeast_iff : Holds .atLeast a b ↔ n ≤ m :=
  (holds_iff (by decide) ha hb).trans decide_eq_true_iff

end Order

theorem holds_equal_iff :
    Holds .equal a b ↔ ∃ n, a.identity? = some n ∧ b.identity? = some n := by
  cases ha : a.identity? with
  | none => simp [Holds, apply, same, ha]
  | some m =>
    cases hb : b.identity? with
    | none => simp [Holds, apply, same, ha, hb]
    | some n =>
      simp only [Holds, apply, same, ha, hb, Except.ok.injEq, Answer.truth.injEq, beq_iff_eq,
        Option.some_inj]
      constructor
      · intro h
        exact ⟨n, h, rfl⟩
      · rintro ⟨_, hm, hn⟩
        exact hm.trans hn.symm

theorem holds_unequal_iff : Holds .unequal a b ↔ ¬Holds .equal a b := by
  simp [Holds, apply]

/-- What an operand is compared by for equality is its amount. -/
theorem amount?_of_identity? (h : a.identity? = some m) : a.amount? = some m := by
  cases a with
  | word w => exact h
  | int n => exact h
  | _ => cases h

/-- Two operands that may be equal to something are ordered as numbers are. -/
theorem ordered_of_identity? (ha : a.identity? = some m) (hb : b.identity? = some n) :
    Ordered a b := by
  have ha' := amount?_of_identity? ha
  have hb' := amount?_of_identity? hb
  have hequal : Holds .equal a b ↔ m = n := by
    rw [holds_equal_iff, ha, hb]
    simp [eq_comm]
  constructor
  · rw [ExactlyOne, holds_less_iff ha' hb', hequal, holds_greater_iff ha' hb']
    omega
  · rw [holds_atMost_iff ha' hb', holds_less_iff ha' hb', hequal]
    omega
  · rw [holds_atLeast_iff ha' hb', holds_greater_iff ha' hb', hequal]
    omega

/-- Equal operands have the same key. -/
theorem hashKey?_eq_of_holds_equal (h : Holds .equal a b) : a.hashKey? = b.hashKey? := by
  obtain ⟨n, ha, hb⟩ := holds_equal_iff.1 h
  rw [hashKey?, hashKey?, amount?_of_identity? ha, amount?_of_identity? hb]

/-! ## Amounts -/

theorem exists_eq_operand (h : a.amount? = some m) : ∃ x : Amount, a = x.operand := by
  cases a with
  | word w => exact ⟨.word w, rfl⟩
  | int n => exact ⟨.int n, rfl⟩
  | bool t => exact ⟨.bool t, rfl⟩
  | _ => cases h

theorem comparable_operands (x y : Amount) : Comparable x.operand y.operand := by
  intro sign hsign
  cases sign with
  | plus | minus => simp [Sign.comparisons, Sign.orders] at hsign
  | equal | unequal => exact ⟨_, rfl⟩
  | less | atMost | greater | atLeast =>
    exact ⟨_, apply_of_mem_orders (by decide) x.amount?_operand y.amount?_operand⟩

/-- Exactly amounts are compared with a word, on either side. -/
theorem comparable_word_iff (w : Word) (b : Operand) :
    (Comparable (word w) b ↔ ∃ x : Amount, b = x.operand) ∧
      (Comparable b (word w) ↔ ∃ x : Amount, b = x.operand) := by
  have hless : Sign.less ∈ Sign.comparisons := by decide
  refine ⟨⟨fun h => ?_, ?_⟩, fun h => ?_, ?_⟩
  · obtain ⟨holds, hmade⟩ := h .less hless
    obtain ⟨n, hn⟩ := (exists_amount?_of_apply_less hmade).2
    exact exists_eq_operand hn
  · rintro ⟨x, rfl⟩
    exact comparable_operands (.word w) x
  · obtain ⟨holds, hmade⟩ := h .less hless
    obtain ⟨n, hn⟩ := (exists_amount?_of_apply_less hmade).1
    exact exists_eq_operand hn
  · rintro ⟨x, rfl⟩
    exact comparable_operands x (.word w)

/-- A chain of amounts may be cut short: if one of its links is strict, so is what it comes to. -/
theorem holds_trans (x y z : Amount) :
    (Holds .less x.operand y.operand → Holds .less y.operand z.operand →
        Holds .less x.operand z.operand) ∧
      (Holds .less x.operand y.operand → Holds .atMost y.operand z.operand →
        Holds .less x.operand z.operand) ∧
      (Holds .atMost x.operand y.operand → Holds .less y.operand z.operand →
        Holds .less x.operand z.operand) ∧
      (Holds .atMost x.operand y.operand → Holds .atMost y.operand z.operand →
        Holds .atMost x.operand z.operand) := by
  simp only [holds_less_iff (Amount.amount?_operand _) (Amount.amount?_operand _),
    holds_atMost_iff (Amount.amount?_operand _) (Amount.amount?_operand _)]
  omega

/-- The comparisons of words are consistent. Exactly words, whole numbers and truth values are
compared with a word, on either side of the sign. With a word or a whole number, of any size, the
six signs are those of a linear order: exactly one of less, equal and greater holds, and the other
three say what they should. A truth value is on either side ordered as the number that it counts as,
and never equal to a word. Whatever is compared, the order is turned around with the sides, unequal
is the opposite of equal, and what is equal to a word has its key; and chains of words, whole
numbers and truth values may be cut short. -/
theorem comparisons_consistent :
    (∀ (w : Word) (b : Operand),
      (Comparable (word w) b ↔ ∃ x : Amount, b = x.operand) ∧
        (Comparable b (word w) ↔ ∃ x : Amount, b = x.operand)) ∧
    ((∀ w v : Word, Ordered (word w) (word v)) ∧
      ∀ (w : Word) (n : Int), Ordered (word w) (int n) ∧ Ordered (int n) (word w)) ∧
    (∀ (w : Word) (t : Bool),
      (∀ sign ∈ Sign.orders,
        apply sign (word w) (bool t) = apply sign (word w) (int (boolToInt t)) ∧
          apply sign (bool t) (word w) = apply sign (int (boolToInt t)) (word w)) ∧
        ¬Holds .equal (word w) (bool t) ∧ ¬Holds .equal (bool t) (word w)) ∧
    (∀ (w : Word) (x : Amount),
      (Holds .less (word w) x.operand ↔ Holds .greater x.operand (word w)) ∧
      (Holds .greater (word w) x.operand ↔ Holds .less x.operand (word w)) ∧
      (Holds .equal (word w) x.operand ↔ Holds .equal x.operand (word w)) ∧
      (Holds .unequal (word w) x.operand ↔ ¬Holds .equal (word w) x.operand) ∧
      (Holds .unequal x.operand (word w) ↔ ¬Holds .equal x.operand (word w)) ∧
      (Holds .equal (word w) x.operand → (word w).hashKey? = x.operand.hashKey?)) ∧
    ∀ x y z : Amount,
      (Holds .less x.operand y.operand → Holds .less y.operand z.operand →
        Holds .less x.operand z.operand) ∧
      (Holds .less x.operand y.operand → Holds .atMost y.operand z.operand →
        Holds .less x.operand z.operand) ∧
      (Holds .atMost x.operand y.operand → Holds .less y.operand z.operand →
        Holds .less x.operand z.operand) ∧
      (Holds .atMost x.operand y.operand → Holds .atMost y.operand z.operand →
        Holds .atMost x.operand z.operand) := by
  refine ⟨comparable_word_iff, ⟨fun w v => ordered_of_identity? rfl rfl, fun w n => ?_⟩, ?_, ?_,
    holds_trans⟩
  · exact ⟨ordered_of_identity? rfl rfl, ordered_of_identity? rfl rfl⟩
  · intro w t
    refine ⟨fun sign hsign => ⟨?_, ?_⟩, ?_, ?_⟩
    · rw [apply_of_mem_orders (m := w.toInt) (n := boolToInt t) hsign rfl rfl,
        apply_of_mem_orders (m := w.toInt) (n := boolToInt t) hsign rfl rfl]
    · rw [apply_of_mem_orders (m := boolToInt t) (n := w.toInt) hsign rfl rfl,
        apply_of_mem_orders (m := boolToInt t) (n := w.toInt) hsign rfl rfl]
    · simp [holds_equal_iff, identity?]
    · simp [holds_equal_iff, identity?]
  · intro w x
    have hw : (word w).amount? = some w.toInt := rfl
    refine ⟨?_, ?_, ?_, holds_unequal_iff, holds_unequal_iff, hashKey?_eq_of_holds_equal⟩
    · rw [holds_less_iff hw x.amount?_operand, holds_greater_iff x.amount?_operand hw]
    · rw [holds_greater_iff hw x.amount?_operand, holds_less_iff x.amount?_operand hw]
    · simp only [holds_equal_iff, and_comm]

/-- Not everything that is compared with a word is ordered with it: the word one and the truth value
that counts as one are neither less, nor equal, nor greater. -/
theorem not_forall_ordered_of_comparable :
    ¬∀ (w : Word) (b : Operand), Comparable (word w) b → Ordered (word w) b := by
  intro hall
  have hordered := hall (.wrap 1) (bool true) (comparable_operands (.word _) (.bool true))
  have hless : ¬Holds .less (word (.wrap 1)) (bool true) := by
    rw [holds_less_iff (m := 1) (n := 1) rfl rfl]
    exact Int.lt_irrefl 1
  have hgreater : ¬Holds .greater (word (.wrap 1)) (bool true) := by
    rw [holds_greater_iff (m := 1) (n := 1) rfl rfl]
    exact Int.lt_irrefl 1
  have hequal : ¬Holds .equal (word (.wrap 1)) (bool true) := by
    simp [holds_equal_iff, identity?]
  rcases hordered.exactlyOne with ⟨h, -, -⟩ | ⟨-, h, -⟩ | ⟨-, -, h⟩
  · exact hless h
  · exact hequal h
  · exact hgreater h

end Operand

end DecimalMachine
