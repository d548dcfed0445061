import DecimalMachine.Assembly.Assemble
import DecimalMachine.Example
import DecimalMachine.Proofs.Machine.Stage
import DecimalMachine.Proofs.Operand.Arithmetic
import DecimalMachine.Proofs.Text.Lines
import Mathlib.Data.Nat.Factorial.Basic

/-!
# The factorial example

The factorial program multiplies by adding, and all its sums wrap, so that its answers are the
factorials modulo the number of words. Its inner loop adds the result to `acc` as many times as
`count` says; its outer loop multiplies the result by `n` and takes one from `n` until `n` is one.

Both loops count words down to the word that ends them. For the numbers up to zero the branch on
`n - 1` ends the outer loop at once, with one exception: one less than −999 wraps to 999, and the
program goes on as it does for 1000, the number that has the same word as −999.

## Main definitions

- `Example.factorialCode` — the instructions that the factorial program is assembled to
- `Example.Variables` — the cells behind them
-/

open scoped Nat

namespace DecimalMachine.Example

/-- The word of one, as the program holds it. -/
def one : Word := ⟨1, by decide, by decide⟩

/-- The instructions of the factorial program: the start from address 0, the outer loop from 4, the
inner loop from 13, and the end from 27. -/
def factorialCode : List Word :=
  [901, 330, 534, 331,
    530, 234, 727, 809, 627,
    535, 332, 530, 333,
    532, 131, 332, 533, 234, 333, 721, 613,
    532, 331, 530, 234, 330, 604,
    531, 902, 0].map .wrap

/-- The cells of the factorial program that change. -/
structure Variables where
  n : Word
  result : Word
  acc : Word
  count : Word

namespace Variables

/-- The words of the factorial program. -/
def words (v : Variables) : List Word :=
  factorialCode ++ [v.n, v.result, v.acc, v.count, one, .zero]

/-- The factorial program at an address. -/
def stage (v : Variables) (counter : Nat) (accumulator : Word) (input : Input) (output : Output) :
    Stage :=
  ⟨v.words, counter, accumulator, input, output⟩

end Variables

/-! ## The words of the program -/

theorem toList_textOfLines (rows : List String) :
    (textOfLines rows).toList = (rows.map String.toList).flatMap (· ++ ['\n']) := by
  simp [textOfLines, String.toList_join, List.flatMap_map]

/-- A text of lines is cut into its lines. -/
theorem lines_textOfLines {rows : List String}
    (h : (rows.all fun row => row.toList.all fun c => !Text.isLineBreak c) = true) :
    Text.lines (textOfLines rows).toList = rows.map String.toList := by
  rw [toList_textOfLines]
  exact Text.lines_flatMap_feed (by simpa using h)

/-- A text of lines is assembled from its lines. -/
theorem assemble_textOfLines {rows : List String}
    (h : (rows.all fun row => row.toList.all fun c => !Text.isLineBreak c) = true) :
    assemble (textOfLines rows) =
      Assembly.words <$> (Line.parseFrom 1 (rows.map String.toList) >>= fun parsed =>
        Assembly.ofStatements (Line.statements parsed)) := by
  rw [assemble, Assembly.ofSource, Line.parseSource, lines_textOfLines h]

theorem assemble_factorial :
    assemble factorial.source = .ok (Variables.words ⟨.zero, .zero, .zero, .zero⟩) := by
  refine (assemble_textOfLines ?_).trans ?_ <;> decide +kernel

/-! ## The pieces of the program -/

section Pieces

variable (v : Variables) (a : Word) (input : Input) (output : Output)

/-- The start of the outer loop takes one from `n`, to branch on it. -/
theorem leads_compared :
    (v.stage 4 a input output).Leads (v.stage 6 (v.n - one) input output) :=
  Stage.leads_of_after? (n := 2) rfl

/-- The outer loop begins its multiplication with `n` to be counted. -/
theorem leads_cleared :
    (v.stage 9 a input output).Leads
      (({ v with acc := .zero, count := v.n } : Variables).stage 13 v.n input output) :=
  Stage.leads_of_after? (n := 4) rfl

/-- The inner loop adds the result once and takes one from the count, to branch on it. -/
theorem leads_counted :
    (v.stage 13 a input output).Leads
      (({ v with acc := v.acc + v.result, count := v.count - one } : Variables).stage 19
        (v.count - one) input output) :=
  Stage.leads_of_after? (n := 6) rfl

/-- The outer loop ends its multiplication, takes one from `n`, and begins again. -/
theorem leads_multiplied :
    (v.stage 21 a input output).Leads
      (({ v with result := v.acc, n := v.n - one } : Variables).stage 4 (v.n - one) input
        output) :=
  Stage.leads_of_after? (n := 6) rfl

/-- The end puts the result out and comes to the halt. -/
theorem leads_halt :
    (v.stage 27 a input output).Leads
      (v.stage 29 v.result input (output.putNumber v.result.toInt)) :=
  Stage.leads_of_after? (n := 2) rfl

variable {a}

theorem leads_end_of_zero (h : a.toInt = 0) :
    (v.stage 6 a input output).Leads (v.stage 27 a input output) :=
  Stage.leads_of_next? (congrArg some (if_pos h))

theorem leads_signed_of_ne_zero (h : a.toInt ≠ 0) :
    (v.stage 6 a input output).Leads (v.stage 7 a input output) :=
  Stage.leads_of_next? (congrArg some (if_neg h))

theorem leads_end_of_negative (h : a.toInt < 0) :
    (v.stage 6 a input output).Leads (v.stage 27 a input output) := by
  have hnegative : ¬0 ≤ a.toInt := by omega
  have hpast : (v.stage 7 a input output).next? = some (v.stage 8 a input output) :=
    congrArg some (if_neg hnegative)
  exact (leads_signed_of_ne_zero v input output (by omega)).trans
    ((Stage.leads_of_next? hpast).trans (Stage.leads_of_after? (n := 1) rfl))

theorem leads_multiplication_of_positive (h : 0 < a.toInt) :
    (v.stage 6 a input output).Leads (v.stage 9 a input output) := by
  have hjump : (v.stage 7 a input output).next? = some (v.stage 9 a input output) :=
    congrArg some (if_pos h.le)
  exact (leads_signed_of_ne_zero v input output (by omega)).trans (Stage.leads_of_next? hjump)

theorem leads_multiplied_of_zero (h : a.toInt = 0) :
    (v.stage 19 a input output).Leads (v.stage 21 a input output) :=
  Stage.leads_of_next? (congrArg some (if_pos h))

theorem leads_again_of_ne_zero (h : a.toInt ≠ 0) :
    (v.stage 19 a input output).Leads (v.stage 13 a input output) := by
  have hpast : (v.stage 19 a input output).next? = some (v.stage 20 a input output) :=
    congrArg some (if_neg h)
  exact (Stage.leads_of_next? hpast).trans (Stage.leads_of_after? (n := 1) rfl)

end Pieces

/-! ## The loops -/

section Loops

variable {v : Variables} {a : Word} {k : Nat} (input : Input) (output : Output)

theorem wrap_succ_sub_one (k : Nat) : Word.wrap (k + 1 : Nat) - one = .wrap k := by
  show Word.wrap ((Word.wrap (k + 1 : Nat)).toInt - 1) = .wrap k
  rw [Word.wrap_toInt_wrap_sub, Int.natCast_succ, Int.add_sub_cancel]

/-- Adding once and then a number of times is adding once more. -/
theorem wrap_add_mul (w r : Word) (k : Nat) :
    Word.wrap ((w + r).toInt + k * r.toInt) = .wrap (w.toInt + (k + 1 : Nat) * r.toInt) := by
  show Word.wrap ((Word.wrap (w.toInt + r.toInt)).toInt + k * r.toInt) = _
  rw [Word.wrap_toInt_wrap_add, Int.natCast_succ, Int.add_mul, Int.one_mul, Int.add_assoc,
    Int.add_comm r.toInt]

theorem leads_compared_of_succ (hn : v.n = .wrap (k + 1 : Nat)) :
    (v.stage 4 a input output).Leads (v.stage 6 (.wrap k) input output) := by
  have hcompared := leads_compared v a input output
  rwa [hn, wrap_succ_sub_one] at hcompared

theorem leads_counted_of_succ (hcount : v.count = .wrap (k + 1 : Nat)) :
    (v.stage 13 a input output).Leads
      (({ v with acc := v.acc + v.result, count := .wrap k } : Variables).stage 19 (.wrap k) input
        output) := by
  have hcounted := leads_counted v a input output
  rwa [hcount, wrap_succ_sub_one] at hcounted

/-- The inner loop adds the result as many times as the count says. -/
theorem leads_added (hk : k + 1 < Word.modulus) (hcount : v.count = .wrap (k + 1 : Nat)) :
    (v.stage 13 a input output).Leads
      (({ v with acc := .wrap (v.acc.toInt + (k + 1 : Nat) * v.result.toInt), count := .zero } :
        Variables).stage 21 .zero input output) := by
  induction k generalizing v a with
  | zero =>
    rw [← wrap_add_mul, Int.natCast_zero, Int.zero_mul, Int.add_zero, Word.wrap_toInt]
    exact (leads_counted_of_succ input output hcount).trans
      (leads_multiplied_of_zero _ input output rfl)
  | succ k ih =>
    -- Only the multiples of 1999 have the word zero, so the count is not taken for zero early.
    have hnonzero : (Word.wrap (k + 1 : Nat)).toInt ≠ 0 := by
      rw [Word.toInt_wrap]
      unfold Word.modulus at hk
      omega
    rw [← wrap_add_mul]
    exact (leads_counted_of_succ input output hcount).trans
      ((leads_again_of_ne_zero _ input output hnonzero).trans (ih (by omega) rfl))

/-- The multiplication makes the result `n` times as large and takes one from `n`. -/
theorem leads_next (hk : k + 1 < Word.modulus) (hn : v.n = .wrap (k + 1 : Nat)) :
    ∃ (next : Variables) (b : Word),
      (v.stage 9 a input output).Leads (next.stage 4 b input output) ∧ next.n = .wrap k ∧
        next.result = .wrap ((k + 1 : Nat) * v.result.toInt) := by
  have hadded := leads_added (v := { v with acc := .zero, count := v.n }) (a := v.n) input output
    hk hn
  rw [Word.toInt_zero, Int.zero_add] at hadded
  refine ⟨_, _, (leads_cleared v a input output).trans (hadded.trans
    (leads_multiplied _ _ input output)), ?_, rfl⟩
  show v.n - one = .wrap k
  rw [hn, wrap_succ_sub_one]

/-- From a number `n` from 1 to 1000, the outer loop multiplies the result by the factorial of
`n`. -/
theorem leads_factorial (hk : k < 1000) (hn : v.n = .wrap (k + 1 : Nat)) :
    ∃ (last : Variables) (b : Word),
      (v.stage 4 a input output).Leads (last.stage 27 b input output) ∧
        last.result = .wrap ((k + 1)! * v.result.toInt) := by
  induction k generalizing v a with
  | zero =>
    refine ⟨v, .wrap 0, (leads_compared_of_succ input output hn).trans
      (leads_end_of_zero v input output rfl), ?_⟩
    rw [Nat.factorial_one, Int.natCast_one, Int.one_mul, Word.wrap_toInt]
  | succ k ih =>
    have hfits : k + 1 + 1 < Word.modulus := by
      unfold Word.modulus
      omega
    -- One less than `n` is at most 999 and its own word, also where `n` is 1000 with the word −999.
    have hpositive : 0 < (Word.wrap (k + 1 : Nat)).toInt := by
      rw [Word.toInt_wrap]
      omega
    obtain ⟨next, b, hnext, hnextN, hnextResult⟩ := leads_next input output hfits hn
    obtain ⟨last, c, hlast, hlastResult⟩ := ih (by omega) hnextN
    refine ⟨last, c, (leads_compared_of_succ input output hn).trans
      ((leads_multiplication_of_positive v input output hpositive).trans (hnext.trans hlast)), ?_⟩
    calc last.result = .wrap ((k + 1)! * next.result.toInt) := hlastResult
      _ = .wrap ((k + 1)! * ((k + 1 + 1 : Nat) * v.result.toInt)) := by
        rw [hnextResult, Word.wrap_mul_toInt_wrap]
      _ = .wrap ((k + 1 + 1)! * v.result.toInt) := by
        rw [← Int.mul_assoc, ← Int.natCast_mul, Nat.mul_comm, ← Nat.factorial_succ]

/-- To a number up to zero, −999 apart, the program answers with the result it starts with. -/
theorem leads_end_of_not_positive (hlow : -999 < v.n.toInt) (hhigh : v.n.toInt ≤ 0) :
    (v.stage 4 a input output).Leads (v.stage 27 (v.n - one) input output) := by
  have hnegative : (v.n - one).toInt < 0 := by
    show (Word.wrap (v.n.toInt - 1)).toInt < 0
    rw [Word.toInt_wrap]
    omega
  exact (leads_compared v a input output).trans (leads_end_of_negative v input output hnegative)

end Loops

/-! ## The whole program -/

/-- The program starts by reading `n`. -/
theorem leads_started {input : Input} {w : Word} (output : Output)
    (hread : input.read.outcome = .ok w) :
    (Variables.stage ⟨.zero, .zero, .zero, .zero⟩ 0 .zero input output).Leads
      (Variables.stage ⟨w, one, .zero, .zero⟩ 4 one input.read.input output) := by
  have hfirst : (Variables.stage ⟨.zero, .zero, .zero, .zero⟩ 0 .zero input output).next? =
      some (Variables.stage ⟨.zero, .zero, .zero, .zero⟩ 1 w input.read.input output) :=
    Stage.next?_of_read rfl hread
  exact (Stage.leads_of_next? hfirst).trans (Stage.leads_of_after? (n := 3) rfl)

/-- The number 1000, which −999 stands for, has −999 for its factorial. -/
theorem wrap_factorial_thousand : Word.wrap 1000 ! = ⟨-999, by decide, by decide⟩ := by
  decide +kernel

/-- The outer loop ends with the answer to `n`: its factorial, or one for a number up to zero. For
−999 it is the factorial of 1000. -/
theorem exists_answer (w : Word) (input : Input) (output : Output) :
    ∃ (last : Variables) (b : Word),
      (Variables.stage ⟨w, one, .zero, .zero⟩ 4 one input output).Leads
        (last.stage 27 b input output) ∧
      (0 < w.toInt → last.result = .wrap w.toInt.toNat !) ∧
      (-999 < w.toInt → w.toInt ≤ 0 → last.result = one) ∧
      (w.toInt = -999 → last.result = .wrap 1000 !) := by
  have hupper := w.upper
  have hlower := w.lower
  obtain hpositive | hmiddle | hlowest :
    0 < w.toInt ∨ (-999 < w.toInt ∧ w.toInt ≤ 0) ∨ w.toInt = -999 := by omega
  · have hk : w.toInt.toNat - 1 + 1 = w.toInt.toNat := by omega
    have hn : w = .wrap (w.toInt.toNat - 1 + 1 : Nat) := by
      rw [hk, Int.toNat_of_nonneg hpositive.le, Word.wrap_toInt]
    obtain ⟨last, b, hleads, hresult⟩ :=
      leads_factorial (v := ⟨w, one, .zero, .zero⟩) (a := one) input output (by omega) hn
    rw [hk, show one.toInt = 1 from rfl, Int.mul_one] at hresult
    exact ⟨last, b, hleads, fun _ => hresult, by omega, by omega⟩
  · exact ⟨_, _, leads_end_of_not_positive input output hmiddle.1 hmiddle.2, by omega,
      fun _ _ => rfl, by omega⟩
  · have hn : w = .wrap (999 + 1 : Nat) := Word.ext hlowest
    obtain ⟨last, b, hleads, hresult⟩ :=
      leads_factorial (v := ⟨w, one, .zero, .zero⟩) (a := one) input output (by decide) hn
    rw [show one.toInt = 1 from rfl, Int.mul_one] at hresult
    exact ⟨last, b, hleads, by omega, by omega, fun _ => hresult⟩

/-- The program can be loaded, and then it halts with the answer if it is run for long enough. -/
theorem exists_halted_with_answer {input : Input} {w : Word} (hread : input.read.outcome = .ok w)
    (recordTrace : Bool) :
    ∃ (words : List Word) (loaded : Machine) (answer : Word),
      assemble factorial.source = .ok words ∧
      (Machine.fresh input recordTrace).loadProgram (words.map .word) =
        .ok (loaded, words.length) ∧
      (0 < w.toInt → answer = .wrap w.toInt.toNat !) ∧
      (-999 < w.toInt → w.toInt ≤ 0 → answer = one) ∧
      (w.toInt = -999 → answer = .wrap 1000 !) ∧
      ∃ cycles : Nat, ∀ observe limit, cycles ≤ limit →
        (loaded.run observe limit).ending = .halted ∧
        (loaded.run observe limit).machine.halted = true ∧
        (loaded.run observe limit).machine.input = input.read.input ∧
        (loaded.run observe limit).machine.output = Output.empty.putNumber answer.toInt := by
  obtain ⟨loaded, hload, hstage⟩ :=
    Stage.exists_isOf_of_words (Machine.fresh input recordTrace)
      (show (Variables.words ⟨.zero, .zero, .zero, .zero⟩).length ≤ memorySize by decide)
  obtain ⟨last, b, hleads, hanswer⟩ := exists_answer w input.read.input .empty
  have hend := (leads_started .empty hread).trans (hleads.trans (leads_halt last b _ _))
  obtain ⟨hpositive, hmiddle, hlowest⟩ := hanswer
  exact ⟨_, loaded, last.result, assemble_factorial, hload, hpositive, hmiddle, hlowest,
    hstage.exists_halted hend rfl⟩

/-- The factorial program computes factorials. Whatever its input device gives for `n` and holds
behind it, the program halts if it is run for long enough, has read once, and has put out the
factorial of `n` modulo the number of words, or one if `n` is not positive. Only for −999, which
the program takes for 1000, it puts out what the factorial of 1000 is modulo the number of words:
again −999. -/
theorem factorial_halts_with_answer {input : Input} {w : Word}
    (hread : input.read.outcome = .ok w) (recordTrace : Bool) :
    ∃ (words : List Word) (loaded : Machine),
      assemble factorial.source = .ok words ∧
      (Machine.fresh input recordTrace).loadProgram (words.map .word) =
        .ok (loaded, words.length) ∧
      ∃ cycles : Nat, ∀ observe limit, cycles ≤ limit →
        (loaded.run observe limit).ending = .halted ∧
        (loaded.run observe limit).machine.halted = true ∧
        (loaded.run observe limit).machine.input = input.read.input ∧
        (0 < w.toInt → (loaded.run observe limit).machine.output.text =
          (Word.wrap w.toInt.toNat !).text) ∧
        (-999 < w.toInt → w.toInt ≤ 0 →
          (loaded.run observe limit).machine.output.text = "1") ∧
        (w.toInt = -999 →
          (loaded.run observe limit).machine.output.text = "-999") := by
  obtain ⟨words, loaded, answer, hwords, hload, hpositive, hmiddle, hlowest, cycles, hruns⟩ :=
    exists_halted_with_answer hread recordTrace
  refine ⟨words, loaded, hwords, hload, cycles, fun observe limit hlimit => ?_⟩
  obtain ⟨hending, hhalted, hinput, houtput⟩ := hruns observe limit hlimit
  have htext : (loaded.run observe limit).machine.output.text = answer.text := by
    rw [houtput]
    exact String.empty_append
  rw [htext]
  refine ⟨hending, hhalted, hinput, fun h => ?_, fun hlow hhigh => ?_, fun h => ?_⟩
  · rw [hpositive h]
  · rw [hmiddle hlow hhigh]
    decide
  · rw [hlowest h, wrap_factorial_thousand]
    decide

theorem factorial_halts_with_answer_of_six :
    ∃ (words : List Word) (loaded : Machine) (limit : Nat),
      assemble factorial.source = .ok words ∧
      (Machine.fresh (.queue [.wrap 6, .wrap 5]) false).loadProgram (words.map .word) =
        .ok (loaded, words.length) ∧
      (loaded.runUnobserved limit).ending = .halted ∧
      (loaded.runUnobserved limit).machine.input = .queue [.wrap 5] ∧
      (loaded.runUnobserved limit).machine.output.text = "720" := by
  have hread : (Input.queue [.wrap 6, .wrap 5]).read.outcome = .ok (.wrap 6) := rfl
  obtain ⟨words, loaded, hwords, hload, cycles, hruns⟩ := factorial_halts_with_answer hread false
  obtain ⟨hending, -, hinput, hpositive, -⟩ := hruns (fun _ => []) cycles le_rfl
  exact ⟨words, loaded, cycles, hwords, hload, hending, hinput,
    (hpositive (by decide)).trans (by decide)⟩

/-- It is not so that the program answers every number that is not positive with one: −999 is
answered with −999. -/
theorem not_forall_factorial_halts_with_answer :
    ¬∀ (w : Word) (rest : List Word), ∃ (words : List Word) (loaded : Machine) (limit : Nat),
      assemble factorial.source = .ok words ∧
      (Machine.fresh (.queue (w :: rest)) false).loadProgram (words.map .word) =
        .ok (loaded, words.length) ∧
      (loaded.runUnobserved limit).ending = .halted ∧
      (loaded.runUnobserved limit).machine.input = .queue rest ∧
      (0 < w.toInt → (loaded.runUnobserved limit).machine.output.text =
        (Word.wrap w.toInt.toNat !).text) ∧
      (w.toInt ≤ 0 → (loaded.runUnobserved limit).machine.output.text = "1") := by
  intro h
  obtain ⟨words, loaded, limit, hwords, hload, hending, -, -, hone⟩ := h (.wrap (-999)) []
  have hread : (Input.queue [.wrap (-999)]).read.outcome = .ok (.wrap (-999)) := rfl
  obtain ⟨_, _, answer, hwords', hload', -, -, hlowest, cycles, hruns⟩ :=
    exists_halted_with_answer hread false
  cases hwords.symm.trans hwords'
  cases hload.symm.trans hload'
  -- Both runs have come to their end, so a run that is allowed the cycles of both is either.
  obtain ⟨-, -, -, houtput⟩ := hruns (fun _ => []) (max limit cycles) (le_max_right _ _)
  have hsame : loaded.runUnobserved (max limit cycles) = loaded.runUnobserved limit :=
    Machine.runFrom_of_le _ _ (fun hcut => by cases hending.symm.trans hcut) (le_max_left _ _)
  have htext := hone (by decide)
  rw [← hsame, Machine.runUnobserved, houtput, hlowest (by decide), wrap_factorial_thousand]
    at htext
  exact absurd htext (by decide)

end DecimalMachine.Example
