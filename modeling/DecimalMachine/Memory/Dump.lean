import DecimalMachine.Memory.Basic

/-! # Memory dumps

A dump fills the leading cells of memory, two bytes a cell. Bytes beyond the last cell are ignored,
and a last odd byte counts as the high byte of a word whose low byte is zero. The first number that
is no word makes the whole dump unfit, and memory stays as it was.
-/

namespace DecimalMachine.Memory

variable {size : Nat}

/-- The numbers in a dump. -/
def dumpNumbers : List UInt8 → List Int
  | [] => []
  | [high] => [Word.signedOfBytes high 0]
  | high :: low :: rest => Word.signedOfBytes high low :: dumpNumbers rest

/-- The words of numbers that fill the cells from an address on. -/
def wordsFrom (address : Nat) : List Int → Except Error (List Word)
  | [] => .ok []
  | n :: rest =>
    match Word.ofInt? n with
    | none => .error (.badDumpWord address n)
    | some w => (w :: ·) <$> wordsFrom (address + 1) rest

/-- The memory with a dump in its leading cells, and the number of cells that the dump fills. -/
def loadDump (m : Memory size) (bytes : List UInt8) : Except Error (Memory size × Nat) := do
  let words ← wordsFrom 0 (dumpNumbers (bytes.take (size * Word.byteCount)))
  return (m.overwrite 0 words, words.length)

/-- How many leading cells a length stands for; a negative length counts from the end. -/
def leadingCells (size : Nat) : Option Int → Nat
  | none => size
  | some length => if length < 0 then (size + length).toNat else length.toNat

/-- The dump of all cells, or of as many leading cells as the length says. -/
def toDump (m : Memory size) (length : Option Int) : List UInt8 :=
  Word.dump (m.toList.take (leadingCells size length))

end DecimalMachine.Memory
