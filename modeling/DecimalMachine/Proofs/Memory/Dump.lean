import DecimalMachine.Memory.Dump
import DecimalMachine.Proofs.Result

/-!
# Dumps, read and written

A dump is read as it stands: the bytes that memory has room for, an odd one completed by a zero
byte, are taken two by two as signed numbers of 16 bits with the high byte first. It is refused for
the first of them that is no word and fills the leading cells with all of them otherwise. Reading
and writing are inverse to each other (`loadDump_exact`): writing as many cells as were read gives
back the bytes that were read, and reading what was written gives back the words.

## Main definitions

- `Memory.completed`, `Memory.fitted` — the bytes of a dump that are read
- `Memory.numberAt` — the number in two bytes of a dump
- `Memory.afterDump` — the memory after a dump was loaded or refused
-/

namespace DecimalMachine

namespace Word

/-- Two bytes make up a number below 2¹⁶; from 2¹⁵ on it stands for a negative one. -/
theorem signedOfBytes_cases (high low : UInt8) :
    (0x100 * high.toNat + low.toNat < 0x8000 ∧
      signedOfBytes high low = 0x100 * high.toNat + low.toNat) ∨
    (0x8000 ≤ 0x100 * high.toNat + low.toNat ∧ 0x100 * high.toNat + low.toNat < 0x10000 ∧
      signedOfBytes high low = 0x100 * high.toNat + low.toNat - 0x10000) := by
  have hhigh := high.toNat_lt
  have hlow := low.toNat_lt
  unfold signedOfBytes
  by_cases h : (high.toNat * 0x100 + low.toNat : Int) < 0x8000
  · refine .inl ⟨by omega, ?_⟩
    rw [if_pos h, Int.mul_comm]
  · refine .inr ⟨by omega, by omega, ?_⟩
    rw [if_neg h, Int.mul_comm]

/-- The number in two bytes is that of the sixteen bits they make up, as a signed number. -/
theorem signedOfBytes_eq_toInt (high low : UInt8) :
    signedOfBytes high low = (high.toBitVec ++ low.toBitVec).toInt := by
  have hpattern : (high.toBitVec ++ low.toBitVec).toNat = 0x100 * high.toNat + low.toNat := by
    rw [BitVec.toNat_append, ← Nat.shiftLeft_add_eq_or_of_lt low.toBitVec.isLt, Nat.shiftLeft_eq,
      Nat.mul_comm]
    rfl
  rw [BitVec.toInt_eq_toNat_cond, hpattern]
  rcases signedOfBytes_cases high low with ⟨hsmall, hvalue⟩ | ⟨hlarge, -, hvalue⟩
  · rw [if_pos (by omega), hvalue]
    omega
  · rw [if_neg (by omega), hvalue]
    omega

/-- The bytes of a word are the only ones that the word is read from. -/
theorem toBytes_eq_of_signedOfBytes {w : Word} {high low : UInt8}
    (h : w.toInt = signedOfBytes high low) : w.toBytes = [high, low] := by
  have hpattern : (w.toInt % 0x10000).toNat = 0x100 * high.toNat + low.toNat := by
    rw [h]
    rcases signedOfBytes_cases high low with ⟨_, hvalue⟩ | ⟨_, _, hvalue⟩ <;> omega
  have hlow := low.toNat_lt
  have hquotient : (0x100 * high.toNat + low.toNat) / 0x100 = high.toNat := by omega
  have hrest : (0x100 * high.toNat + low.toNat) % 2 ^ 8 = low.toNat := by omega
  have hlowByte : UInt8.ofNat (0x100 * high.toNat + low.toNat) = low := by
    apply UInt8.toNat_inj.1
    rw [UInt8.toNat_ofNat', hrest]
  simp only [toBytes, hpattern, hquotient, hlowByte, UInt8.ofNat_toNat]

end Word

namespace Memory

/-- Bytes with a zero byte after them if their number is odd. -/
def completed (bytes : List UInt8) : List UInt8 :=
  if bytes.length % 2 = 1 then bytes ++ [0] else bytes

/-- The bytes of a dump that a number of cells has room for, completed to whole words. -/
def fitted (size : Nat) (bytes : List UInt8) : List UInt8 :=
  completed (bytes.take (2 * size))

/-- The number in the two bytes that belong to an address: a signed number of 16 bits, the high byte
first. -/
def numberAt (bytes : List UInt8) (address : Nat) : Option Int := do
  let high ← bytes[2 * address]?
  let low ← bytes[2 * address + 1]?
  return (high.toBitVec ++ low.toBitVec).toInt

variable {size : Nat}

/-- The memory after it was given a dump. -/
def afterDump (m : Memory size) (bytes : List UInt8) : Memory size :=
  match m.loadDump bytes with
  | .ok (loaded, _) => loaded
  | .error _ => m

/-! ## Numbers in bytes -/

theorem completed_cons_cons (high low : UInt8) (rest : List UInt8) :
    completed (high :: low :: rest) = high :: low :: completed rest := by
  have hparity : (high :: low :: rest).length % 2 = rest.length % 2 := by
    simp only [List.length_cons]
    omega
  unfold completed
  rw [hparity]
  split <;> rfl

theorem length_dumpNumbers (bytes : List UInt8) :
    2 * (dumpNumbers bytes).length = (completed bytes).length := by
  induction bytes using dumpNumbers.induct with
  | case1 => rfl
  | case2 => rfl
  | case3 high low rest ih =>
    rw [completed_cons_cons, dumpNumbers]
    simp only [List.length_cons]
    omega

/-- The numbers of a dump stand at their addresses in the completed bytes. -/
theorem getElem?_dumpNumbers (bytes : List UInt8) (i : Nat) :
    (dumpNumbers bytes)[i]? = numberAt (completed bytes) i := by
  induction bytes using dumpNumbers.induct generalizing i with
  | case1 => rfl
  | case2 high =>
    rw [dumpNumbers, Word.signedOfBytes_eq_toInt]
    cases i with
    | zero => rfl
    | succ i => simp [numberAt, completed]
  | case3 high low rest ih =>
    rw [completed_cons_cons, dumpNumbers, Word.signedOfBytes_eq_toInt]
    cases i with
    | zero => rfl
    | succ i =>
      rw [List.getElem?_cons_succ, ih]
      simp [numberAt, Nat.mul_add]

/-- Words with the numbers of a dump have the completed bytes as their dump. -/
theorem dump_eq_completed {bytes : List UInt8} {words : List Word}
    (h : words.map Word.toInt = dumpNumbers bytes) : Word.dump words = completed bytes := by
  induction bytes using dumpNumbers.induct generalizing words with
  | case1 =>
    cases List.map_eq_nil_iff.1 h
    rfl
  | case2 high =>
    obtain ⟨w, words, rfl, hw, hwords⟩ := List.map_eq_cons_iff.1 h
    cases List.map_eq_nil_iff.1 hwords
    rw [Word.dump_cons, Word.toBytes_eq_of_signedOfBytes hw]
    rfl
  | case3 high low rest ih =>
    obtain ⟨w, words, rfl, hw, hwords⟩ := List.map_eq_cons_iff.1 h
    rw [Word.dump_cons, Word.toBytes_eq_of_signedOfBytes hw, ih hwords, completed_cons_cons]
    rfl

theorem dumpNumbers_dump (words : List Word) :
    dumpNumbers (Word.dump words) = words.map Word.toInt := by
  induction words with
  | nil => rfl
  | cons w words ih =>
    obtain ⟨high, low, hbytes, hnumber⟩ := w.signedOfBytes_toBytes
    rw [Word.dump_cons, hbytes, List.map_cons, ← ih, ← hnumber]
    rfl

theorem length_dump (words : List Word) : (Word.dump words).length = 2 * words.length := by
  induction words with
  | nil => rfl
  | cons w words ih =>
    obtain ⟨high, low, hbytes, -⟩ := w.signedOfBytes_toBytes
    rw [Word.dump_cons, hbytes, List.length_append, ih, List.length_cons]
    simp only [List.length_cons, List.length_nil]
    omega

/-! ## Words of numbers -/

theorem wordsFrom_eq_ok_iff {address : Nat} {numbers : List Int} {words : List Word} :
    wordsFrom address numbers = .ok words ↔ words.map Word.toInt = numbers := by
  induction numbers generalizing address words with
  | nil =>
    rw [wordsFrom, List.map_eq_nil_iff]
    constructor
    · rintro ⟨⟩
      rfl
    · rintro rfl
      rfl
  | cons n numbers ih =>
    rw [wordsFrom, List.map_eq_cons_iff]
    cases hword : Word.ofInt? n with
    | none =>
      constructor
      · rintro ⟨⟩
      · rintro ⟨w, words, -, hw, -⟩
        rw [Word.ofInt?_eq_some_iff.2 hw] at hword
        cases hword
    | some w =>
      rw [Result.map_eq_ok_iff]
      constructor
      · rintro ⟨rest, hrest, rfl⟩
        exact ⟨w, rest, rfl, Word.ofInt?_eq_some_iff.1 hword, ih.1 hrest⟩
      · rintro ⟨w', rest, rfl, hw, hrest⟩
        rw [Word.ofInt?_eq_some_iff.2 hw] at hword
        cases hword
        exact ⟨rest, ih.2 hrest, rfl⟩

/-- Numbers are refused for the first one that is no word. -/
theorem exists_of_wordsFrom_error {address : Nat} {numbers : List Int} {error : Error}
    (h : wordsFrom address numbers = .error error) :
    ∃ i n, numbers[i]? = some n ∧ (n < -999 ∨ 999 < n) ∧
      (∀ j < i, ∀ k, numbers[j]? = some k → -999 ≤ k ∧ k ≤ 999) ∧
      error = .badDumpWord (address + i) n := by
  induction numbers generalizing address with
  | nil => cases h
  | cons n numbers ih =>
    rw [wordsFrom] at h
    cases hword : Word.ofInt? n with
    | none =>
      rw [hword] at h
      cases h
      exact ⟨0, n, rfl, Word.ofInt?_eq_none_iff.1 hword, fun j hj => absurd hj (Nat.not_lt_zero j),
        rfl⟩
    | some w =>
      rw [hword] at h
      obtain ⟨i, k, hk, hrange, hbefore, rfl⟩ := ih (Result.map_eq_error_iff.1 h)
      refine ⟨i + 1, k, hk, hrange, ?_, by rw [Nat.add_assoc, Nat.add_comm 1]⟩
      rintro (_ | j) hj number hnumber
      · cases hnumber
        cases Word.ofInt?_eq_some_iff.1 hword
        exact ⟨w.lower, w.upper⟩
      · exact hbefore j (by omega) number hnumber

/-! ## Memory -/

theorem getElem?_toList (m : Memory size) (i : Nat) : m.toList[i]? = m.get? i := by
  by_cases hi : i < size
  · have hcell : (0 : Int) ≤ i ∧ (i : Int).toNat < size := by omega
    simp [toList, get?, hi]
  · rw [get?_eq_none_iff.2 (by omega), List.getElem?_eq_none (by simp; omega)]

/-- Words that fit take the place of as many cells, and all others stay as they were. -/
theorem toList_overwrite_from (m : Memory size) {start : Nat} {words : List Word}
    (h : start + words.length ≤ size) :
    (m.overwrite start words).toList =
      m.toList.take start ++ words ++ m.toList.drop (start + words.length) := by
  have hcells := length_toList m
  apply List.ext_getElem?
  intro i
  rw [getElem?_toList, List.append_assoc]
  by_cases hi : i < size
  · rw [get?_overwrite m start words hi]
    by_cases hbefore : i < start
    · rw [if_neg (by omega), List.getElem?_append_left (by simp; omega),
        List.getElem?_take_of_lt hbefore, getElem?_toList]
      rfl
    · rw [if_pos (by omega), List.getElem?_append_right (by simp; omega), List.length_take,
        Nat.min_eq_left (by omega)]
      by_cases hword : i - start < words.length
      · rw [List.getElem?_append_left hword, List.getElem?_eq_getElem hword]
        rfl
      · have hrest : start + words.length + (i - start - words.length) = i := by omega
        rw [List.getElem?_append_right (by omega), List.getElem?_drop, hrest, getElem?_toList,
          List.getElem?_eq_none (by omega)]
        rfl
  · rw [get?_eq_none_iff.2 (by omega), List.getElem?_eq_none (by simp; omega)]

/-- Words that fit fill the leading cells, and all others stay as they were. -/
theorem toList_overwrite (m : Memory size) {words : List Word} (h : words.length ≤ size) :
    (m.overwrite 0 words).toList = words ++ m.toList.drop words.length := by
  have hfits : 0 + words.length ≤ size := by omega
  rw [toList_overwrite_from m hfits, List.take_zero, List.nil_append, Nat.zero_add]

theorem eq_of_toList_eq {m m' : Memory size} (h : m.toList = m'.toList) : m = m' := by
  apply Memory.ext
  intro i _
  rw [← getElem?_toList, ← getElem?_toList, h]

theorem length_dumpNumbers_take_le (size : Nat) (bytes : List UInt8) :
    (dumpNumbers (bytes.take (2 * size))).length ≤ size := by
  have hlength := length_dumpNumbers (bytes.take (2 * size))
  have htake := List.length_take_le (2 * size) bytes
  unfold completed at hlength
  split at hlength
  · rw [List.length_append, List.length_singleton] at hlength
    omega
  · omega

variable {m loaded : Memory size} {bytes : List UInt8} {count : Nat} {error : Error}

/-- A dump that is not refused fills the leading cells with its words. -/
theorem loadDump_eq_ok_iff :
    m.loadDump bytes = .ok (loaded, count) ↔
      ∃ words, words.map Word.toInt = dumpNumbers (bytes.take (2 * size)) ∧
        words.length = count ∧ loaded.toList = words ++ m.toList.drop count := by
  have hfits : ∀ words : List Word,
      words.map Word.toInt = dumpNumbers (bytes.take (2 * size)) → words.length ≤ size := by
    intro words hwords
    have hlength := length_dumpNumbers_take_le size bytes
    rwa [← hwords, List.length_map] at hlength
  unfold loadDump
  rw [Result.bind_eq_ok_iff, Word.byteCount, Nat.mul_comm]
  constructor
  · rintro ⟨words, hwords, ⟨⟩⟩
    have hnumbers := wordsFrom_eq_ok_iff.1 hwords
    exact ⟨words, hnumbers, rfl, toList_overwrite m (hfits words hnumbers)⟩
  · rintro ⟨words, hnumbers, rfl, hloaded⟩
    rw [← toList_overwrite m (hfits words hnumbers)] at hloaded
    cases eq_of_toList_eq hloaded
    exact ⟨words, wordsFrom_eq_ok_iff.2 hnumbers, rfl⟩

/-- A dump is refused for the first number in it that is no word. -/
theorem exists_of_loadDump_error (h : m.loadDump bytes = .error error) :
    ∃ address n, error = .badDumpWord address n ∧
      numberAt (fitted size bytes) address = some n ∧ (n < -999 ∨ 999 < n) ∧
      ∀ i < address, ∀ k, numberAt (fitted size bytes) i = some k → -999 ≤ k ∧ k ≤ 999 := by
  unfold loadDump at h
  rw [Word.byteCount, Nat.mul_comm] at h
  rcases Result.bind_eq_error_iff.1 h with hwords | ⟨_, -, ⟨⟩⟩
  obtain ⟨address, n, hn, hrange, hbefore, rfl⟩ := exists_of_wordsFrom_error hwords
  simp only [getElem?_dumpNumbers] at hn hbefore
  exact ⟨address, n, by rw [Nat.zero_add], hn, hrange, hbefore⟩

theorem exists_loadDump_error_iff :
    (∃ error, m.loadDump bytes = .error error) ↔
      ∃ address n, numberAt (fitted size bytes) address = some n ∧ (n < -999 ∨ 999 < n) := by
  constructor
  · rintro ⟨error, herror⟩
    obtain ⟨address, n, -, hn, hrange, -⟩ := exists_of_loadDump_error herror
    exact ⟨address, n, hn, hrange⟩
  · rintro ⟨address, n, hn, hrange⟩
    cases hload : m.loadDump bytes with
    | error error => exact ⟨error, rfl⟩
    | ok result =>
      -- All numbers of a dump that was read are those of words.
      obtain ⟨words, hnumbers, -, -⟩ := loadDump_eq_ok_iff.1 hload
      rw [fitted, ← getElem?_dumpNumbers, ← hnumbers, List.getElem?_map] at hn
      obtain ⟨w, -, rfl⟩ := Option.map_eq_some_iff.1 hn
      have hlower := w.lower
      have hupper := w.upper
      omega

theorem length_fitted_of_loadDump (h : m.loadDump bytes = .ok (loaded, count)) :
    2 * count = (fitted size bytes).length := by
  obtain ⟨words, hnumbers, rfl, -⟩ := loadDump_eq_ok_iff.1 h
  rw [fitted, ← length_dumpNumbers, ← hnumbers, List.length_map]

/-- The cells that a dump fills hold its numbers. -/
theorem get?_of_loadDump (h : m.loadDump bytes = .ok (loaded, count)) {i : Nat} (hi : i < count) :
    (loaded.get? i).map Word.toInt = numberAt (fitted size bytes) i := by
  obtain ⟨words, hnumbers, rfl, hloaded⟩ := loadDump_eq_ok_iff.1 h
  rw [← getElem?_toList, hloaded, List.getElem?_append_left hi, fitted, ← getElem?_dumpNumbers,
    ← hnumbers, List.getElem?_map]

/-- All other cells are as they were. -/
theorem get?_of_loadDump_of_not_lt (h : m.loadDump bytes = .ok (loaded, count)) {address : Int}
    (haddress : ¬(0 ≤ address ∧ address < count)) : loaded.get? address = m.get? address := by
  obtain ⟨words, -, rfl, hloaded⟩ := loadDump_eq_ok_iff.1 h
  by_cases hcell : 0 ≤ address ∧ address < size
  · obtain ⟨i, rfl⟩ := Int.eq_ofNat_of_zero_le hcell.1
    rw [← getElem?_toList, ← getElem?_toList, hloaded, List.getElem?_append_right (by omega),
      List.getElem?_drop, Nat.add_sub_cancel' (by omega)]
  · rw [get?_eq_none_iff.2 (by omega), get?_eq_none_iff.2 (by omega)]

/-- The words that a dump was read into have the bytes that were read as their dump. -/
theorem toDump_of_loadDump (h : m.loadDump bytes = .ok (loaded, count)) :
    loaded.toDump (some count) = fitted size bytes := by
  obtain ⟨words, hnumbers, rfl, hloaded⟩ := loadDump_eq_ok_iff.1 h
  have hcells : leadingCells size (some words.length) = words.length := by
    rw [leadingCells, if_neg (by omega), Int.toNat_natCast]
  rw [toDump, hcells, hloaded, List.take_left]
  exact dump_eq_completed hnumbers

/-- A written dump of no more words than there are cells is read back into the words. -/
theorem exists_loadDump_dump (m : Memory size) {words : List Word} (h : words.length ≤ size) :
    ∃ loaded, m.loadDump (Word.dump words) = .ok (loaded, words.length) ∧
      loaded.toList = words ++ m.toList.drop words.length := by
  have hall : (Word.dump words).take (2 * size) = Word.dump words := by
    apply List.take_of_length_le
    rw [length_dump]
    omega
  refine ⟨m.overwrite 0 words, loadDump_eq_ok_iff.2 ⟨words, ?_, rfl, ?_⟩, ?_⟩
  · rw [hall, dumpNumbers_dump]
  · exact toList_overwrite m h
  · exact toList_overwrite m h

/-- The dump of a whole memory makes any other of its size the same. -/
theorem loadDump_toDump (m other : Memory size) :
    m.loadDump (other.toDump none) = .ok (other, size) := by
  have hlength : other.toList.length = size := length_toList other
  have hdump : other.toDump none = Word.dump other.toList := by
    rw [toDump, leadingCells, List.take_of_length_le (by omega)]
  obtain ⟨loaded, hload, hloaded⟩ := m.exists_loadDump_dump (Nat.le_of_eq hlength)
  rw [hlength, List.drop_of_length_le (Nat.le_of_eq (length_toList m)), List.append_nil] at hloaded
  rw [hdump, hload, hlength, eq_of_toList_eq hloaded]

/-- Dumps, in both directions and for every size. A dump is refused exactly if one of its numbers is
no word, and then for the first such number, with memory as it was. Otherwise its numbers are in the
leading cells, all other cells are as they were, and the dump of the leading cells is the bytes that
were read. Words that fit into memory are read back from their dump, and the dump of a whole memory
makes any other of its size the same. -/
theorem loadDump_exact (m : Memory size) (bytes : List UInt8) :
    ((∃ error, m.loadDump bytes = .error error) ↔
      ∃ address n, numberAt (fitted size bytes) address = some n ∧ (n < -999 ∨ 999 < n)) ∧
    (∀ error, m.loadDump bytes = .error error →
      m.afterDump bytes = m ∧ ∃ address n, error = .badDumpWord address n ∧
        numberAt (fitted size bytes) address = some n ∧ (n < -999 ∨ 999 < n) ∧
        ∀ i < address, ∀ k, numberAt (fitted size bytes) i = some k → -999 ≤ k ∧ k ≤ 999) ∧
    (∀ loaded count, m.loadDump bytes = .ok (loaded, count) →
      m.afterDump bytes = loaded ∧ 2 * count = (fitted size bytes).length ∧
        (∀ i < count, (loaded.get? i).map Word.toInt = numberAt (fitted size bytes) i) ∧
        (∀ address : Int, ¬(0 ≤ address ∧ address < count) →
          loaded.get? address = m.get? address) ∧
        loaded.toDump (some count) = fitted size bytes) ∧
    (∀ words : List Word, words.length ≤ size →
      ∃ loaded, m.loadDump (Word.dump words) = .ok (loaded, words.length) ∧
        ∀ i < words.length, loaded.get? i = words[i]?) ∧
    ∀ other : Memory size, m.loadDump (other.toDump none) = .ok (other, size) := by
  refine ⟨exists_loadDump_error_iff, ?_, ?_, ?_, m.loadDump_toDump⟩
  · intro error herror
    exact ⟨by simp [afterDump, herror], exists_of_loadDump_error herror⟩
  · intro loaded count hload
    refine ⟨by simp [afterDump, hload], length_fitted_of_loadDump hload, ?_, ?_,
      toDump_of_loadDump hload⟩
    · intro i hi
      exact get?_of_loadDump hload hi
    · intro address haddress
      exact get?_of_loadDump_of_not_lt hload haddress
  · intro words hwords
    obtain ⟨loaded, hload, hloaded⟩ := m.exists_loadDump_dump hwords
    refine ⟨loaded, hload, fun i hi => ?_⟩
    rw [← getElem?_toList, hloaded, List.getElem?_append_left hi]

end Memory

end DecimalMachine
