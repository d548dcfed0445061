import DecimalMachine.Error
import DecimalMachine.Word.Basic

/-! # Instructions

A word is decoded into an opcode, an address and, under the opcode for input and output, a channel
if the address is the number of one. A word with a negative leading digit is no instruction. The
listing of a word is the assembly text that stands for it: the instruction if the text of one
assembles to the word, and a data line otherwise.
-/

namespace DecimalMachine

/-- A decoded word. -/
structure Instruction where
  opcode : Opcode
  address : Int
  channel : Option Channel
  deriving DecidableEq

/-- The instruction in a word. -/
def Word.decode (w : Word) : Except Error Instruction :=
  match Opcode.ofDigit? w.leadingDigit with
  | none => .error (.unhandledOpcode w.leadingDigit none)
  | some .io => .ok ⟨.io, w.lastTwoDigits, Channel.ofCode? w.lastTwoDigits⟩
  | some opcode => .ok ⟨opcode, w.lastTwoDigits, none⟩

/-- The data line for a word. -/
def Word.dataLine (w : Word) : String := "DAT " ++ w.text

/-- The text of an instruction that is the decoding of a word. -/
def Instruction.listing (instruction : Instruction) (w : Word) : String :=
  match instruction.opcode with
  | .hlt => if w.isZero then Opcode.hlt.name else w.dataLine
  | .reserved => w.dataLine
  | .io =>
    match instruction.channel with
    | some channel => channel.name
    | none => w.dataLine
  | opcode => opcode.name ++ " " ++ Text.zeroPadded 2 instruction.address

/-- The assembly text that stands for a word. -/
def Word.listing (w : Word) : String :=
  match w.decode with
  | .ok instruction => instruction.listing w
  | .error _ => w.dataLine

/-- The parts of an instruction are the digits of the word that it was decoded from. -/
theorem Word.digits_of_decode {w : Word} {instruction : Instruction}
    (h : w.decode = .ok instruction) :
    instruction.opcode.digit = w.leadingDigit ∧ instruction.address = w.lastTwoDigits := by
  unfold Word.decode at h
  split at h
  · cases h
  · next hop =>
    cases h
    exact ⟨Opcode.ofDigit?_eq_some_iff.1 hop, rfl⟩
  · next hop =>
    cases h
    exact ⟨Opcode.ofDigit?_eq_some_iff.1 hop, rfl⟩

end DecimalMachine
