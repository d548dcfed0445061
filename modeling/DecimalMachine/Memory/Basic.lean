import DecimalMachine.Operand.Basic
import DecimalMachine.Word.Dump

/-! # Memory

A fixed number of cells that hold a word each. Addresses are any whole numbers; only those from 0 to
below the number of cells have a cell. Words are loaded at once: either all of them fit and are
stored, or memory stays as it was.
-/

namespace DecimalMachine

def memorySize : Nat := 100

/-- A number of cells, each with a word. -/
structure Memory (size : Nat) where
  cells : Vector Word size
  deriving DecidableEq

namespace Memory

variable {size : Nat}

/-- The memory in which every cell holds zero. -/
def blank (size : Nat) : Memory size := ⟨Vector.replicate size .zero⟩

/-- The words of all cells, in the order of their addresses. -/
def toList (m : Memory size) : List Word := m.cells.toList

/-- The word at an address. -/
def get? (m : Memory size) (address : Int) : Option Word :=
  if _h : 0 ≤ address ∧ address.toNat < size then some m.cells[address.toNat] else none

/-- The memory with another word at an address. -/
def set? (m : Memory size) (address : Int) (w : Word) : Option (Memory size) :=
  if h : 0 ≤ address ∧ address.toNat < size then some ⟨m.cells.set address.toNat w h.2⟩ else none

/-- The memory with words from a cell on; words beyond the last cell are left out. -/
def overwrite (m : Memory size) (start : Nat) (words : List Word) : Memory size :=
  let stored := words.toArray
  ⟨m.cells.mapFinIdx fun i old _ =>
    if start ≤ i then (stored[i - start]?).getD old else old⟩

/-- The word at an address, or the error that there is none. -/
def read (m : Memory size) (address : Int) : Except Error Word :=
  match m.get? address with
  | some w => .ok w
  | none => .error (.addressOutOfRange address none)

/-- The memory with a word at an address, or the error that there is no such address. -/
def store (m : Memory size) (address : Int) (w : Word) : Except Error (Memory size) :=
  match m.set? address w with
  | some stored => .ok stored
  | none => .error (.addressOutOfRange address none)

/-- The memory with an operand at an address. The address has to be one of a cell; then the operand
has to be a word already. -/
def write (m : Memory size) (address : Int) : Operand → Except Error (Memory size)
  | .word w => m.store address w
  | other => do
    let _ ← m.read address
    .error (.notAWord other.kind)

/-- The memory with words from an address on. -/
def load (m : Memory size) (words : List Word) (start : Int) : Except Error (Memory size) :=
  if start < 0 ∨ (size : Int) < start + words.length then
    .error (.programTooLarge (start + words.length) size)
  else .ok (m.overwrite start.toNat words)

/-- The memory with the words of operands from an address on, and their number. Every operand has
to be a word or to make one. -/
def loadOperands (m : Memory size) (operands : List Operand) (start : Int) :
    Except Error (Memory size × Nat) := do
  let words ← operands.mapM Operand.toWord
  let loaded ← m.load words start
  return (loaded, words.length)

def clear (_ : Memory size) : Memory size := blank size

@[simp]
theorem length_toList (m : Memory size) : m.toList.length = size := by
  simp [toList]

/-- Exactly the addresses from 0 to below the size have a cell. -/
theorem get?_eq_none_iff {m : Memory size} {address : Int} :
    m.get? address = none ↔ address < 0 ∨ (size : Int) ≤ address := by
  unfold get?
  split <;> simp <;> omega

theorem bounds_of_get? {m : Memory size} {address : Int} {w : Word}
    (h : m.get? address = some w) : 0 ≤ address ∧ address < size := by
  have hsome : ¬(m.get? address = none) := by simp [h]
  rw [get?_eq_none_iff] at hsome
  omega

/-- Memories with the same word in every cell are the same. -/
theorem ext {m m' : Memory size} (h : ∀ i : Nat, i < size → m.get? i = m'.get? i) : m = m' := by
  obtain ⟨cells⟩ := m
  obtain ⟨cells'⟩ := m'
  congr 1
  apply Vector.ext
  intro i hi
  have hcell : (0 : Int) ≤ i ∧ (i : Int).toNat < size := by omega
  have hword := h i hi
  unfold get? at hword
  rw [dif_pos hcell, dif_pos hcell] at hword
  exact Option.some.inj hword

/-- A word can be stored exactly where one can be read. -/
theorem set?_eq_none_iff {m : Memory size} {address : Int} {w : Word} :
    m.set? address w = none ↔ address < 0 ∨ (size : Int) ≤ address := by
  unfold set?
  split <;> simp <;> omega

/-- After a store, its address holds the word and all other addresses what they held. -/
theorem get?_of_set? {m stored : Memory size} {address : Int} {w : Word}
    (h : m.set? address w = some stored) (other : Int) :
    stored.get? other = if other = address then some w else m.get? other := by
  unfold set? at h
  split at h
  · rename_i hbound
    cases h
    unfold get?
    by_cases hother : 0 ≤ other ∧ other.toNat < size
    · rw [dif_pos hother, dif_pos hother]
      by_cases heq : other = address
      · subst heq
        simp
      · have hne : address.toNat ≠ other.toNat := by omega
        rw [if_neg heq]
        simp [hne]
    · rw [dif_neg hother, dif_neg hother, if_neg]
      rintro rfl
      exact hother hbound
  · cases h

/-- Where a word was written from the start on, a cell holds it; other cells keep theirs. -/
theorem get?_overwrite (m : Memory size) (start : Nat) (words : List Word) {i : Nat}
    (h : i < size) :
    (m.overwrite start words).get? i =
      (if start ≤ i then words[i - start]? else none).or (m.get? i) := by
  have hbound : (0 : Int) ≤ i ∧ (i : Int).toNat < size := by omega
  unfold get? overwrite
  rw [dif_pos hbound, dif_pos hbound]
  simp only [Vector.getElem_mapFinIdx, Int.toNat_natCast, List.getElem?_toArray]
  split
  · cases words[i - start]? <;> rfl
  · rfl

theorem get?_blank {address : Int} (h : 0 ≤ address ∧ address.toNat < size) :
    (blank size).get? address = some .zero := by
  unfold get? blank
  rw [dif_pos h]
  simp

end Memory

end DecimalMachine
