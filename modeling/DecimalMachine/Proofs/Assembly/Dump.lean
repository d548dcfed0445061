import DecimalMachine.Proofs.Assembly.Encoding
import DecimalMachine.Proofs.Machine.Loading
import DecimalMachine.Proofs.Memory.Dump
import DecimalMachine.Proofs.Memory.Load

/-!
# Sources through their dumps

A source may be loaded as the words it is assembled to, or as the dump of these words. The two ways
have nothing in common: words are loaded into a memory of their own and reset the machine, a dump is
written over the memory that is there. On a fresh machine they come to the same. No source has more
words than the dump loader keeps, and every word is read back from its bytes.
-/

namespace DecimalMachine

theorem assembleDump_eq_map (source : String) :
    assembleDump source = Word.dump <$> assemble source := by
  unfold assembleDump assemble
  cases Assembly.ofSource source <;> rfl

theorem Memory.toList_blank (size : Nat) : (blank size).toList = List.replicate size .zero := by
  simp [blank, toList]

/-- No more words than there are cells make of a blank memory the same through their dump as they do
themselves. -/
theorem Memory.loadDump_blank {size : Nat} {words : List Word} (h : words.length ≤ size) :
    ∃ m : Memory size, (blank size).loadDump (Word.dump words) = .ok (m, words.length) ∧
      (blank size).loadOperands (words.map .word) 0 = .ok (m, words.length) ∧
      m.toList = words ++ List.replicate (size - words.length) .zero := by
  obtain ⟨m, hdump, hcells⟩ := (blank size).exists_loadDump_dump h
  have hsame : (blank size).overwrite 0 words = m := by
    apply eq_of_toList_eq
    rw [toList_overwrite _ h, hcells]
  refine ⟨m, hdump, ?_, ?_⟩
  · rw [← hsame]
    exact loadOperands_words _ h
  · rw [hcells, toList_blank, List.drop_replicate]

namespace Machine

/-- A source has a dump exactly if it has words, and else is refused with the same error. Loaded
into a fresh machine, the dump and the words leave one and the same machine, so that every later
cycle is the same as well, and they have filled the same number of cells: the words are in the
leading cells, the other cells hold zero, and everything but memory is as in the fresh machine. -/
theorem loadDump_assembleDump (source : String) (input : Input) (recordTrace : Bool) :
    (∀ error, assembleDump source = .error error ↔ assemble source = .error error) ∧
    ∀ words, assemble source = .ok words →
      ∃ bytes m, assembleDump source = .ok bytes ∧
        (fresh input recordTrace).loadDump bytes = .ok (m, words.length) ∧
        (fresh input recordTrace).loadProgram (words.map .word) = .ok (m, words.length) ∧
        m.memory.toList = words ++ List.replicate (100 - words.length) .zero ∧
        m = { fresh input recordTrace with memory := m.memory } := by
  rw [assembleDump_eq_map]
  refine ⟨fun error => Result.map_eq_error_iff, fun words hwords => ?_⟩
  obtain ⟨memory, hdump, hload, hcells⟩ := Memory.loadDump_blank (length_le_of_assemble hwords)
  refine ⟨Word.dump words, { fresh input recordTrace with memory := memory }, ?_, ?_, ?_, hcells,
    rfl⟩
  · rw [hwords]
    rfl
  · have hmemory : (fresh input recordTrace).memory.loadDump (Word.dump words) =
        .ok (memory, words.length) := hdump
    rw [loadDump, hmemory]
    rfl
  · exact loadProgram_eq_ok_iff.2 ⟨memory, hload, rfl⟩

example : assembleDump "load LDA cell\ncell DAT -2" = .ok [0x01, 0xf5, 0xff, 0xfe] := by
  decide +kernel

end Machine

end DecimalMachine
