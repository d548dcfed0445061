import DecimalMachine.Escape
import DecimalMachine.Proofs.Memory.Dump
import DecimalMachine.Proofs.Memory.Load

/-!
# Memory as a row of cells

Without its type, memory is a row of cells, in which a stretch of cells is replaced by words. If
there are more words than cells to replace, the row becomes longer, and an index below zero counts
from its end. What memory asks before it takes words keeps all this from happening: a row that is
served the way memory is, with the stretch replaced, stays equal to the cells of memory, whatever is
asked of it and in whatever order. So it keeps its length, and a request that is refused leaves it
as it was. `row_of_requests` is the main statement.

## Main definitions

- `splice` — a list with a stretch of it replaced
- `Memory.Request`, `Memory.serve` — what is asked of a memory, and what comes of it
- `Memory.attempt` — what comes of it for the caller, who sees what leaves a refused request
- `Memory.Refusal` — why a memory refuses a request
- `Row.serve` — what a request makes of a row of cells
-/

namespace DecimalMachine

/-! ## Stretches -/

/-- The position in a list of a length that an index stands for: an index below zero counts from the
end, and none leads out of the list. -/
def position (length : Nat) (index : Int) : Nat :=
  if index < 0 then (length + index).toNat else min index.toNat length

/-- A list with other elements in place of those from one index up to another. It becomes longer or
shorter if there are more or fewer of them. -/
def splice {α : Type} (row : List α) (start stop : Int) (cells : List α) : List α :=
  let first := position row.length start
  let last := max first (position row.length stop)
  row.take first ++ cells ++ row.drop last

/-- Elements that fit into a list take the place of as many. -/
theorem splice_of_fits {α : Type} {row cells : List α} {start : Int}
    (h : 0 ≤ start ∧ start + cells.length ≤ row.length) :
    splice row start (start + cells.length) cells =
      row.take start.toNat ++ cells ++ row.drop (start.toNat + cells.length) := by
  have hfirst : position row.length start = start.toNat := by
    rw [position, if_neg (by omega)]
    omega
  have hlast : position row.length (start + cells.length) = start.toNat + cells.length := by
    rw [position, if_neg (by omega)]
    omega
  simp only [splice, hfirst, hlast]
  rw [Nat.max_eq_right (by omega)]

-- One cell too far, and from an index below zero.
example : splice [0, 0] 1 3 [7, 8] = [0, 7, 8] := by decide
example : splice [0, 0] (-1) 0 [7] = [0, 7, 0] := by decide

/-! ## Operands -/

/-- An operand that makes a word: a word, or a whole number in the range of words. -/
def Operand.MakesWord (operand : Operand) : Prop :=
  (∃ w, operand = .word w) ∨ ∃ n, operand = .int n ∧ -999 ≤ n ∧ n ≤ 999

namespace Operand

variable {operand : Operand} {w : Word} {error : Error}

theorem toWord_eq_ok_iff :
    operand.toWord = .ok w ↔ operand = .word w ∨ operand = .int w.toInt := by
  cases operand with
  | word value => simp [toWord]
  | int n =>
    simp only [toWord, newWord, Word.ofInt_eq_ok_iff, reduceCtorEq, false_or, int.injEq,
      eq_comm (a := n)]
  | _ => simp [toWord, newWord]

theorem exists_toWord_iff : (∃ w, operand.toWord = .ok w) ↔ operand.MakesWord := by
  simp only [toWord_eq_ok_iff]
  constructor
  · rintro ⟨w, rfl | rfl⟩
    · exact .inl ⟨w, rfl⟩
    · exact .inr ⟨_, rfl, w.lower, w.upper⟩
  · rintro (⟨w, rfl⟩ | ⟨n, rfl, hrange⟩)
    · exact ⟨w, .inl rfl⟩
    · exact ⟨⟨n, hrange.1, hrange.2⟩, .inr rfl⟩

/-- Operands that make words make one each. -/
theorem exists_mapM_toWord_iff {operands : List Operand} :
    (∃ words, operands.mapM toWord = .ok words) ↔ ∀ operand ∈ operands, operand.MakesWord := by
  simp only [Result.exists_mapM_eq_ok_iff, exists_toWord_iff]

end Operand

namespace Memory

/-! ## Requests -/

/-- Something that is asked of a memory. -/
inductive Request where
  | read (address : Int)
  | write (address : Int) (operand : Operand)
  | load (operands : List Operand) (start : Int)
  | loadDump (bytes : List UInt8)
  | clear

/-- What a memory answers unless it refuses. -/
inductive Answer where
  | word (w : Word)
  | count (cells : Nat)
  | done

/-- Why a memory of a size refuses a request. -/
inductive Refusal (size : Nat) : Request → Error → Prop
  | noCellToRead {address : Int} (hcell : ¬(0 ≤ address ∧ address < size)) :
    Refusal size (.read address) (.addressOutOfRange address none)
  /-- The address counts before the operand. -/
  | noCellToWrite {address : Int} {operand : Operand} (hcell : ¬(0 ≤ address ∧ address < size)) :
    Refusal size (.write address operand) (.addressOutOfRange address none)
  | notAWord {address : Int} {operand : Operand} (hcell : 0 ≤ address ∧ address < size)
    (hword : ∀ w, operand ≠ .word w) :
    Refusal size (.write address operand) (.notAWord operand.kind)
  /-- The first operand that makes no word. -/
  | outOfRange {before rest : List Operand} {start n : Int}
    (hbefore : ∀ operand ∈ before, operand.MakesWord) (hrange : ¬(-999 ≤ n ∧ n ≤ 999)) :
    Refusal size (.load (before ++ .int n :: rest) start) (.valueOutOfRange n)
  | notAnInteger {before rest : List Operand} {operand : Operand} {start : Int}
    (hbefore : ∀ operand ∈ before, operand.MakesWord) (hword : ∀ w, operand ≠ .word w)
    (hint : ∀ n, operand ≠ .int n) :
    Refusal size (.load (before ++ operand :: rest) start) (.notAnInteger operand.kind)
  | tooLarge {operands : List Operand} {start : Int}
    (hwords : ∀ operand ∈ operands, operand.MakesWord)
    (hcells : ¬(0 ≤ start ∧ start + operands.length ≤ size)) :
    Refusal size (.load operands start) (.programTooLarge (start + operands.length) size)
  /-- The first number of a dump that is no word. -/
  | badDumpWord {bytes : List UInt8} {address : Nat} {n : Int}
    (hnumber : numberAt (fitted size bytes) address = some n) (hrange : ¬(-999 ≤ n ∧ n ≤ 999))
    (hbefore : ∀ i < address, ∀ k, numberAt (fitted size bytes) i = some k → -999 ≤ k ∧ k ≤ 999) :
    Refusal size (.loadDump bytes) (.badDumpWord address n)

variable {size : Nat}

/-- The memory after a request that it does not refuse, and its answer. -/
def serve (m : Memory size) : Request → Except Error (Memory size × Answer)
  | .read address => do return (m, .word (← m.read address))
  | .write address operand => do return (← m.write address operand, .done)
  | .load operands start => do
    let (loaded, count) ← m.loadOperands operands start
    return (loaded, .count count)
  | .loadDump bytes => do
    let (loaded, count) ← m.loadDump bytes
    return (loaded, .count count)
  | .clear => return (m.clear, .done)

/-- The memory after a request, or what leaves the request if it is refused. -/
def attempt (m : Memory size) (request : Request) : Except Escape (Memory size × Answer) :=
  (m.serve request).mapError Escape.ofError

/-- The memory after a request, refused or not. -/
def after (m : Memory size) (request : Request) : Memory size :=
  match m.serve request with
  | .ok (next, _) => next
  | .error _ => m

end Memory

namespace Row

open Memory (Request Answer)

/-- What a request makes of a row of cells, and the answer to it or the error that it is refused
with. -/
def serve (row : List Word) : Request → List Word × Except Error Answer
  | .read address =>
    if h : 0 ≤ address ∧ address.toNat < row.length then
      (row, .ok (.word (row.get ⟨address.toNat, h.2⟩)))
    else (row, .error (.addressOutOfRange address none))
  | .write address operand =>
    if 0 ≤ address ∧ address.toNat < row.length then
      match operand with
      | .word w => (row.set address.toNat w, .ok .done)
      | other => (row, .error (.notAWord other.kind))
    else (row, .error (.addressOutOfRange address none))
  | .load operands start =>
    match operands.mapM Operand.toWord with
    | .error error => (row, .error error)
    | .ok words =>
      if start < 0 ∨ (row.length : Int) < start + words.length then
        (row, .error (.programTooLarge (start + words.length) row.length))
      else (splice row start (start + words.length) words, .ok (.count words.length))
  | .loadDump bytes =>
    match Memory.wordsFrom 0 (Memory.dumpNumbers (bytes.take (row.length * Word.byteCount))) with
    | .error error => (row, .error error)
    | .ok words => (splice row 0 words.length words, .ok (.count words.length))
  | .clear => (List.replicate row.length .zero, .ok .done)

/-- A row of cells after requests, refused ones included. -/
def served (row : List Word) (requests : List Request) : List Word :=
  requests.foldl (fun now request => (serve now request).1) row

end Row

namespace Memory

variable {size : Nat} {m next : Memory size} {request : Request} {error : Error} {answer : Answer}

/-! ## Words that are loaded -/

theorem exists_loadOperands_iff {operands : List Operand} {start : Int} :
    (∃ loaded count, m.loadOperands operands start = .ok (loaded, count)) ↔
      (∀ operand ∈ operands, operand.MakesWord) ∧ 0 ≤ start ∧ start + operands.length ≤ size := by
  rw [← Operand.exists_mapM_toWord_iff]
  constructor
  · rintro ⟨loaded, count, hload⟩
    obtain ⟨words, hwords, rfl, hfits, -⟩ := loadOperands_eq_ok_iff.1 hload
    have hlength := (Result.mapM_eq_ok_iff.1 hwords).length_eq
    exact ⟨⟨words, hwords⟩, by omega⟩
  · rintro ⟨⟨words, hwords⟩, hfits⟩
    have hlength := (Result.mapM_eq_ok_iff.1 hwords).length_eq
    exact ⟨_, _, loadOperands_eq_ok_iff.2 ⟨words, hwords, rfl, by omega, rfl⟩⟩

/-- The cells that operands are loaded into hold the words that they are or make. -/
theorem get?_of_loadOperands {operands : List Operand} {start : Int} {count i : Nat}
    (h : m.loadOperands operands start = .ok (next, count)) (hi : i < count) :
    ∃ w, next.get? (start + i) = some w ∧
      (operands[i]? = some (.word w) ∨ operands[i]? = some (.int w.toInt)) := by
  obtain ⟨words, hwords, rfl, hfits, rfl⟩ := loadOperands_eq_ok_iff.1 h
  have hvalues := Result.mapM_eq_ok_iff.1 hwords
  obtain ⟨first, rfl⟩ := Int.eq_ofNat_of_zero_le hfits.1
  have hoperand : i < operands.length := hvalues.length_eq ▸ hi
  refine ⟨words[i], ?_, ?_⟩
  · have hword : words[first + i - first]? = some words[i] := by
      rw [Nat.add_sub_cancel_left, List.getElem?_eq_getElem hi]
    rw [← Int.natCast_add, Int.toNat_natCast, get?_overwrite m first words (by omega),
      if_pos (Nat.le_add_right first i), hword]
    rfl
  · have hmade := Operand.toWord_eq_ok_iff.1 (hvalues.get hoperand hi)
    simpa [List.getElem?_eq_getElem hoperand] using hmade

/-- All other cells are as they were. -/
theorem get?_of_loadOperands_of_not_lt {operands : List Operand} {start address : Int} {count : Nat}
    (h : m.loadOperands operands start = .ok (next, count))
    (haddress : ¬(start ≤ address ∧ address < start + count)) :
    next.get? address = m.get? address := by
  obtain ⟨words, -, rfl, hfits, rfl⟩ := loadOperands_eq_ok_iff.1 h
  by_cases hcell : 0 ≤ address ∧ address < size
  · obtain ⟨i, rfl⟩ := Int.eq_ofNat_of_zero_le hcell.1
    rw [get?_overwrite m start.toNat words (by omega)]
    split
    · rw [List.getElem?_eq_none (by omega)]
      rfl
    · rfl
  · rw [get?_eq_none_iff.2 (by omega), get?_eq_none_iff.2 (by omega)]

/-! ## Refused requests -/

theorem serve_read_of_not_cell {address : Int} (h : ¬(0 ≤ address ∧ address < size)) :
    m.serve (.read address) = .error (.addressOutOfRange address none) := by
  have hnone : m.get? address = none := get?_eq_none_iff.2 (by omega)
  simp only [serve, read, hnone]
  rfl

theorem serve_write_of_not_cell {address : Int} {operand : Operand}
    (h : ¬(0 ≤ address ∧ address < size)) :
    m.serve (.write address operand) = .error (.addressOutOfRange address none) := by
  have hout : address < 0 ∨ (size : Int) ≤ address := by omega
  cases operand with
  | word w =>
    simp only [serve, write, store, set?_eq_none_iff.2 hout]
    rfl
  | _ =>
    simp only [serve, write, read, get?_eq_none_iff.2 hout]
    rfl

theorem get?_eq_of_cell {address : Int} (h : 0 ≤ address ∧ address.toNat < m.toList.length) :
    m.get? address = some m.toList[address.toNat] := by
  have hcell : 0 ≤ address ∧ address.toNat < size := by simpa using h
  rw [get?, dif_pos hcell]
  rfl

theorem serve_write_of_not_word {address : Int} {operand : Operand}
    (hcell : 0 ≤ address ∧ address < size) (hword : ∀ w, operand ≠ .word w) :
    m.serve (.write address operand) = .error (.notAWord operand.kind) := by
  have hindex : 0 ≤ address ∧ address.toNat < m.toList.length := by
    rw [length_toList]
    omega
  cases operand with
  | word w => exact absurd rfl (hword w)
  | _ =>
    simp only [serve, write, read, get?_eq_of_cell hindex]
    rfl

theorem serve_load_of_toWord {before rest : List Operand} {operand : Operand} {start : Int}
    (hbefore : ∀ operand ∈ before, operand.MakesWord) (h : operand.toWord = .error error) :
    m.serve (.load (before ++ operand :: rest) start) = .error error := by
  have hwords : (before ++ operand :: rest).mapM Operand.toWord = .error error :=
    Result.mapM_eq_error_iff.2 ⟨before, operand, rest, rfl,
      fun earlier hmem => Operand.exists_toWord_iff.2 (hbefore earlier hmem), h⟩
  simp only [serve, loadOperands, hwords]
  rfl

theorem serve_load_of_not_fits {operands : List Operand} {words : List Word} {start : Int}
    (hwords : operands.mapM Operand.toWord = .ok words)
    (hfits : ¬(0 ≤ start ∧ start + words.length ≤ size)) :
    m.serve (.load operands start) = .error (.programTooLarge (start + words.length) size) := by
  have hguard : start < 0 ∨ (size : Int) < start + words.length := by omega
  simp only [serve, loadOperands, load, hwords, bind, Except.bind, if_pos hguard]

/-- The first number of a dump that is no word is the one that the dump is refused for. -/
theorem loadDump_of_first {bytes : List UInt8} {address : Nat} {n : Int}
    (hnumber : numberAt (fitted size bytes) address = some n) (hrange : ¬(-999 ≤ n ∧ n ≤ 999))
    (hbefore : ∀ i < address, ∀ k, numberAt (fitted size bytes) i = some k → -999 ≤ k ∧ k ≤ 999) :
    m.loadDump bytes = .error (.badDumpWord address n) := by
  obtain ⟨error, hload⟩ :=
    (exists_loadDump_error_iff (m := m)).2 ⟨address, n, hnumber, by omega⟩
  obtain ⟨first, k, rfl, hk, hout, hearlier⟩ := exists_of_loadDump_error hload
  obtain hlt | rfl | hlt := Nat.lt_trichotomy first address
  · have hword := hbefore first hlt k hk
    omega
  · cases hk.symm.trans hnumber
    exact hload
  · exact absurd (hearlier address hlt n hnumber) hrange

theorem serve_of_refusal (h : Refusal size request error) : m.serve request = .error error := by
  cases h with
  | noCellToRead hcell => exact serve_read_of_not_cell hcell
  | noCellToWrite hcell => exact serve_write_of_not_cell hcell
  | notAWord hcell hword => exact serve_write_of_not_word hcell hword
  | outOfRange hbefore hrange =>
    exact serve_load_of_toWord hbefore (Word.ofInt_eq_error_iff.2 ⟨hrange, rfl⟩)
  | @notAnInteger _ _ operand _ hbefore hword hint =>
    refine serve_load_of_toWord hbefore ?_
    cases operand with
    | word w => exact absurd rfl (hword w)
    | int n => exact absurd rfl (hint n)
    | _ => rfl
  | tooLarge hmake hcells =>
    obtain ⟨words, hwords⟩ := Operand.exists_mapM_toWord_iff.2 hmake
    rw [(Result.mapM_eq_ok_iff.1 hwords).length_eq] at hcells ⊢
    exact serve_load_of_not_fits hwords hcells
  | badDumpWord hnumber hrange hbefore =>
    simp only [serve, loadDump_of_first hnumber hrange hbefore]
    rfl

/-! ## Requests to a row -/

/-- A request is refused by a memory and by the row of its cells with the same error, for a reason,
and the row stays as it was; or both answer it the same, and the row holds the cells of the memory
that is left. -/
def AgreesOn (m : Memory size) (request : Request) : Prop :=
  (∃ error, m.serve request = .error error ∧ Refusal size request error ∧
    Row.serve m.toList request = (m.toList, .error error)) ∨
  ∃ next answer, m.serve request = .ok (next, answer) ∧
    Row.serve m.toList request = (next.toList, .ok answer)

theorem agreesOn_read (m : Memory size) (address : Int) : m.AgreesOn (.read address) := by
  have hlength : m.toList.length = size := length_toList m
  by_cases hcell : 0 ≤ address ∧ address.toNat < m.toList.length
  · refine .inr ⟨m, .word m.toList[address.toNat], ?_, dif_pos hcell⟩
    simp only [serve, read, get?_eq_of_cell hcell]
    rfl
  · have hout : ¬(0 ≤ address ∧ address < size) := by omega
    exact .inl ⟨_, serve_read_of_not_cell hout, .noCellToRead hout, dif_neg hcell⟩

theorem agreesOn_write (m : Memory size) (address : Int) (operand : Operand) :
    m.AgreesOn (.write address operand) := by
  have hlength : m.toList.length = size := length_toList m
  by_cases hcell : 0 ≤ address ∧ address.toNat < m.toList.length
  · have hindex : 0 ≤ address ∧ address.toNat < size := by omega
    cases operand with
    | word w =>
      refine .inr ⟨⟨m.cells.set address.toNat w hindex.2⟩, .done, ?_, ?_⟩
      · simp only [serve, write, store, set?, dif_pos hindex]
        rfl
      · simp only [Row.serve, if_pos hcell]
        simp [toList, Vector.toList]
    | _ =>
      have haddress : 0 ≤ address ∧ address < size := by omega
      exact .inl ⟨_, serve_write_of_not_word haddress (by simp), .notAWord haddress (by simp),
        if_pos hcell⟩
  · have hout : ¬(0 ≤ address ∧ address < size) := by omega
    exact .inl ⟨_, serve_write_of_not_cell hout, .noCellToWrite hout, if_neg hcell⟩

theorem refusal_of_toWord {before rest : List Operand} {operand : Operand} {start : Int}
    (hbefore : ∀ operand ∈ before, ∃ w, operand.toWord = .ok w)
    (h : operand.toWord = .error error) :
    Refusal size (.load (before ++ operand :: rest) start) error := by
  simp only [Operand.exists_toWord_iff] at hbefore
  cases operand with
  | word w => cases h
  | int n =>
    obtain ⟨hrange, rfl⟩ := Word.ofInt_eq_error_iff.1 h
    exact .outOfRange hbefore hrange
  | _ =>
    cases h
    exact .notAnInteger hbefore (by simp) (by simp)

theorem agreesOn_load (m : Memory size) (operands : List Operand) (start : Int) :
    m.AgreesOn (.load operands start) := by
  have hlength : m.toList.length = size := length_toList m
  cases hwords : operands.mapM Operand.toWord with
  | error error =>
    refine .inl ⟨error, ?_, ?_, ?_⟩
    · simp only [serve, loadOperands, hwords]
      rfl
    · obtain ⟨before, operand, rest, rfl, hbefore, hoperand⟩ := Result.mapM_eq_error_iff.1 hwords
      exact refusal_of_toWord hbefore hoperand
    · simp only [Row.serve, hwords]
  | ok words =>
    have hcount := (Result.mapM_eq_ok_iff.1 hwords).length_eq
    by_cases hfits : 0 ≤ start ∧ start + words.length ≤ m.toList.length
    · have hguard : ¬(start < 0 ∨ (size : Int) < start + words.length) := by omega
      refine .inr ⟨m.overwrite start.toNat words, .count words.length, ?_, ?_⟩
      · simp only [serve, loadOperands, load, hwords, bind, Except.bind, if_neg hguard]
        rfl
      · simp only [Row.serve, hwords, hlength, if_neg hguard]
        rw [splice_of_fits hfits, toList_overwrite_from m (by omega)]
    · have hguard : start < 0 ∨ (size : Int) < start + words.length := by omega
      refine .inl ⟨.programTooLarge (start + words.length) size, ?_, ?_, ?_⟩
      · exact serve_load_of_not_fits hwords (by omega)
      · rw [← hcount]
        exact .tooLarge (Operand.exists_mapM_toWord_iff.1 ⟨words, hwords⟩) (by omega)
      · simp only [Row.serve, hwords, hlength, if_pos hguard]

theorem agreesOn_loadDump (m : Memory size) (bytes : List UInt8) :
    m.AgreesOn (.loadDump bytes) := by
  have hlength : m.toList.length = size := length_toList m
  cases hwords : wordsFrom 0 (dumpNumbers (bytes.take (size * Word.byteCount))) with
  | error error =>
    have hload : m.loadDump bytes = .error error := by
      simp only [loadDump, hwords]
      rfl
    refine .inl ⟨error, ?_, ?_, ?_⟩
    · simp only [serve, hload]
      rfl
    · obtain ⟨address, n, rfl, hnumber, hrange, hbefore⟩ := exists_of_loadDump_error hload
      exact .badDumpWord hnumber (by omega) hbefore
    · simp only [Row.serve, hlength, hwords]
  | ok words =>
    have hload : m.loadDump bytes = .ok (m.overwrite 0 words, words.length) := by
      simp only [loadDump, hwords]
      rfl
    have hfits : words.length ≤ size := by
      obtain ⟨words', hnumbers, hcount, -⟩ := loadDump_eq_ok_iff.1 hload
      have hnumbers' := length_dumpNumbers_take_le size bytes
      rw [← hnumbers, List.length_map, hcount] at hnumbers'
      exact hnumbers'
    refine .inr ⟨m.overwrite 0 words, .count words.length, ?_, ?_⟩
    · simp only [serve, hload]
      rfl
    · simp only [Row.serve, hlength, hwords]
      have hsplice : splice m.toList 0 (0 + words.length) words =
          m.toList.take 0 ++ words ++ m.toList.drop (0 + words.length) :=
        splice_of_fits (by omega)
      rw [← Int.zero_add (words.length : Int), hsplice, ← toList_overwrite_from m (by omega)]

theorem agreesOn (m : Memory size) (request : Request) : m.AgreesOn request := by
  cases request with
  | read address => exact m.agreesOn_read address
  | write address operand => exact m.agreesOn_write address operand
  | load operands start => exact m.agreesOn_load operands start
  | loadDump bytes => exact m.agreesOn_loadDump bytes
  | clear =>
    refine .inr ⟨blank size, .done, rfl, ?_⟩
    simp [Row.serve, blank, toList]

theorem serve_toList (m : Memory size) (request : Request) :
    Row.serve m.toList request = ((m.after request).toList, Prod.snd <$> m.serve request) := by
  rcases m.agreesOn request with ⟨error, hserve, -, hrow⟩ | ⟨next, answer, hserve, hrow⟩
  · rw [hrow, after, hserve]
    rfl
  · rw [hrow, after, hserve]
    rfl

theorem serve_eq_error_iff : m.serve request = .error error ↔ Refusal size request error := by
  constructor
  · intro h
    rcases m.agreesOn request with ⟨cause, hserve, hrefusal, -⟩ | ⟨next, answer, hserve, -⟩
    · cases h.symm.trans hserve
      exact hrefusal
    · cases h.symm.trans hserve
  · exact serve_of_refusal

/-! ## Sequences of requests -/

/-- The cells of a memory after requests are those of the row that served them. -/
theorem toList_foldl_after (m : Memory size) (requests : List Request) :
    (requests.foldl after m).toList = Row.served m.toList requests := by
  induction requests generalizing m with
  | nil => rfl
  | cons request rest ih =>
    rw [List.foldl_cons, ih, Row.served, Row.served, List.foldl_cons, serve_toList]

/-- Memory keeps its shape. Whatever is asked of a fresh memory, in whatever order and whether it is
refused or not, a row of cells that is served the same holds the cells of memory, as many as at the
start, each with a word, and gives the same answers. A request is refused exactly for the reasons in
`Refusal`, with the error that leaves it if the numbers in the message can be written, and then the
row stays as it was. Operands are loaded exactly if each of them is a word
or a number in range and there are cells for all of them from the start on, which is no address
below zero; these cells then hold the words, and all others what they held. -/
theorem row_of_requests (size : Int) (requests : List Request) :
    let row := Row.served (List.replicate size.toNat .zero) requests
    let m := requests.foldl after (blank size.toNat)
    (row = m.toList ∧ (row.length : Int) = max size 0 ∧
      ∀ w ∈ row, -999 ≤ w.toInt ∧ w.toInt ≤ 999) ∧
    (∀ request, Row.serve row request = ((m.after request).toList, Prod.snd <$> m.serve request)) ∧
    (∀ request error, m.serve request = .error error ↔ Refusal size.toNat request error) ∧
    (∀ request escape, m.attempt request = .error escape ↔
      ∃ error, Refusal size.toNat request error ∧ Escape.ofError error = escape) ∧
    (∀ request error, m.serve request = .error error →
      Row.serve row request = (row, .error error)) ∧
    ∀ operands start,
      ((∃ loaded count, m.loadOperands operands start = .ok (loaded, count)) ↔
        (∀ operand ∈ operands, operand.MakesWord) ∧
          0 ≤ start ∧ start + operands.length ≤ row.length) ∧
      ∀ loaded count, m.loadOperands operands start = .ok (loaded, count) →
        count = operands.length ∧
        (∀ i < count, ∃ w, loaded.get? (start + i) = some w ∧
          (operands[i]? = some (.word w) ∨ operands[i]? = some (.int w.toInt))) ∧
        ∀ address, ¬(start ≤ address ∧ address < start + count) →
          loaded.get? address = m.get? address := by
  intro row m
  have hrow : row = m.toList := by
    rw [toList_foldl_after]
    simp [row, blank, toList]
  have hlength : row.length = size.toNat := by rw [hrow, length_toList]
  refine ⟨⟨hrow, by omega, fun w _ => ⟨w.lower, w.upper⟩⟩, fun request => ?_,
    fun _ _ => serve_eq_error_iff, fun request escape => ?_, fun request error herror => ?_,
    fun operands start => ⟨?_, ?_⟩⟩
  · rw [hrow, serve_toList]
  · simp only [attempt, Result.mapError_eq_error_iff, serve_eq_error_iff]
  · rw [hrow, serve_toList, after, herror]
    rfl
  · rw [hlength]
    exact exists_loadOperands_iff
  · intro loaded count hload
    obtain ⟨words, hwords, hcount, -⟩ := loadOperands_eq_ok_iff.1 hload
    refine ⟨hcount ▸ (Result.mapM_eq_ok_iff.1 hwords).length_eq.symm,
      fun i hi => get?_of_loadOperands hload hi,
      fun address haddress => get?_of_loadOperands_of_not_lt hload haddress⟩

end Memory

end DecimalMachine
