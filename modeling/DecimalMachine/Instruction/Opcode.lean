/-! # Opcodes and channels

The leading digit of a word selects an opcode. Under the opcode for input and output the last two
digits select a channel, of which three are in use.
-/

namespace DecimalMachine

/-- What the leading digit of an instruction asks for. -/
inductive Opcode where
  | hlt
  /-- Add a cell to the accumulator. -/
  | add
  /-- Subtract a cell from the accumulator. -/
  | sub
  /-- Store the accumulator in a cell. -/
  | sta
  /-- No operation has this digit. -/
  | reserved
  /-- Load a cell into the accumulator. -/
  | lda
  | bra
  /-- Branch if the accumulator is zero. -/
  | brz
  /-- Branch if the accumulator is not negative. -/
  | brp
  /-- Read or write through a channel. -/
  | io
  deriving DecidableEq, Repr

namespace Opcode

/-- The opcodes in the order of their digits. -/
def all : List Opcode := [hlt, add, sub, sta, reserved, lda, bra, brz, brp, io]

def digit : Opcode → Int
  | hlt => 0
  | add => 1
  | sub => 2
  | sta => 3
  | reserved => 4
  | lda => 5
  | bra => 6
  | brz => 7
  | brp => 8
  | io => 9

/-- The opcode that has a digit. -/
def ofDigit? : Int → Option Opcode
  | 0 => some hlt
  | 1 => some add
  | 2 => some sub
  | 3 => some sta
  | 4 => some reserved
  | 5 => some lda
  | 6 => some bra
  | 7 => some brz
  | 8 => some brp
  | 9 => some io
  | _ => none

def name : Opcode → String
  | hlt => "HLT"
  | add => "ADD"
  | sub => "SUB"
  | sta => "STA"
  | reserved => "RESERVED"
  | lda => "LDA"
  | bra => "BRA"
  | brz => "BRZ"
  | brp => "BRP"
  | io => "IO"

@[simp]
theorem ofDigit?_digit (op : Opcode) : ofDigit? op.digit = some op := by
  cases op <;> rfl

theorem ofDigit?_eq_some_iff {digit : Int} {op : Opcode} :
    ofDigit? digit = some op ↔ op.digit = digit := by
  constructor
  · intro h
    unfold ofDigit? at h
    split at h <;> cases h <;> rfl
  · rintro rfl
    exact ofDigit?_digit op

theorem ofDigit?_eq_none_iff {digit : Int} : ofDigit? digit = none ↔ digit < 0 ∨ 9 < digit := by
  unfold ofDigit?
  split <;> grind

end Opcode

/-- A device that the accumulator is connected to. -/
inductive Channel where
  /-- Read a number. -/
  | inp
  /-- Write a number. -/
  | out
  /-- Write a character. -/
  | otc
  deriving DecidableEq, Repr

namespace Channel

/-- The number that selects a channel. -/
def code : Channel → Int
  | inp => 1
  | out => 2
  | otc => 22

/-- The channel that a number selects. -/
def ofCode? : Int → Option Channel
  | 1 => some inp
  | 2 => some out
  | 22 => some otc
  | _ => none

def name : Channel → String
  | inp => "INP"
  | out => "OUT"
  | otc => "OTC"

@[simp]
theorem ofCode?_code (channel : Channel) : ofCode? channel.code = some channel := by
  cases channel <;> rfl

theorem ofCode?_eq_some_iff {code : Int} {channel : Channel} :
    ofCode? code = some channel ↔ channel.code = code := by
  constructor
  · intro h
    unfold ofCode? at h
    split at h <;> cases h <;> rfl
  · rintro rfl
    exact ofCode?_code channel

theorem ofCode?_eq_none_iff {code : Int} :
    ofCode? code = none ↔ code ≠ 1 ∧ code ≠ 2 ∧ code ≠ 22 := by
  unfold ofCode?
  split <;> grind

end Channel

end DecimalMachine
