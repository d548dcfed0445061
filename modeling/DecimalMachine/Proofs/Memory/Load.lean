import DecimalMachine.Memory.Basic
import DecimalMachine.Proofs.Result

/-!
# Loaded words

A memory takes operands exactly if each of them makes a word and there is a cell for each, from the
address on at which they are loaded; it then holds the words in these cells.
-/

namespace DecimalMachine

/-- Words are operands that make themselves. -/
theorem Operand.mapM_toWord_words (words : List Word) :
    (words.map Operand.word).mapM Operand.toWord = .ok words := by
  rw [Result.mapM_eq_ok_iff, List.forall₂_map_left_iff]
  exact List.forall₂_same.2 fun _ _ => rfl

namespace Memory

variable {size : Nat} {m loaded : Memory size} {operands : List Operand} {start : Int} {count : Nat}

theorem loadOperands_eq_ok_iff :
    m.loadOperands operands start = .ok (loaded, count) ↔
      ∃ words, operands.mapM Operand.toWord = .ok words ∧ words.length = count ∧
        (0 ≤ start ∧ start + count ≤ size) ∧ m.overwrite start.toNat words = loaded := by
  unfold loadOperands load
  rw [Result.bind_eq_ok_iff]
  constructor
  · rintro ⟨words, hwords, hrest⟩
    obtain ⟨stored, hstored, ⟨⟩⟩ := Result.bind_eq_ok_iff.1 hrest
    split at hstored
    · cases hstored
    · cases hstored
      exact ⟨words, hwords, rfl, by omega, rfl⟩
  · rintro ⟨words, hwords, rfl, hfits, rfl⟩
    refine ⟨words, hwords, ?_⟩
    rw [if_neg (by omega)]
    rfl

/-- Words that fit into memory are loaded into its first cells. -/
theorem loadOperands_words (m : Memory size) {words : List Word} (h : words.length ≤ size) :
    m.loadOperands (words.map .word) 0 = .ok (m.overwrite 0 words, words.length) :=
  loadOperands_eq_ok_iff.2 ⟨words, Operand.mapM_toWord_words words, rfl, by omega, rfl⟩

/-- Words alone in memory are followed by zeros. -/
theorem get?_overwrite_blank (words : List Word) {i : Nat} (h : i < size) :
    ((blank size).overwrite 0 words).get? i = words[i]?.or (some .zero) := by
  have hcell : (0 : Int) ≤ i ∧ (i : Int).toNat < size := by omega
  rw [get?_overwrite _ _ _ h, if_pos (Nat.zero_le i), get?_blank hcell, Nat.sub_zero]

end Memory

end DecimalMachine
