import DecimalMachine.Word.Basic

/-! # Registers

The program counter holds the address of the next word to fetch, the instruction and address
registers the two parts of the last word that was decoded, and the accumulator the word that the
machine computes with.
-/

namespace DecimalMachine

structure Registers where
  programCounter : Int
  instructionRegister : Int
  addressRegister : Int
  accumulator : Word
  deriving DecidableEq

namespace Registers

def initial : Registers := ⟨0, 0, 0, .zero⟩

/-- All registers as they were after a reset, whatever they hold. -/
def reset (_ : Registers) : Registers := initial

/-- The registers on one line, each number under a given look. -/
def textWith (look : String → String) (registers : Registers) : String :=
  let counter := look (Text.zeroPadded 2 registers.programCounter)
  let instruction := look (Text.zeroPadded 1 registers.instructionRegister)
  let address := look (Text.zeroPadded 2 registers.addressRegister)
  let accumulator := look registers.accumulator.padded
  s!"PC: {counter}, Instruction: {instruction}, Addr: {address}, Acc: {accumulator}"

/-- The registers on one line. -/
def text (registers : Registers) : String := registers.textWith id

end Registers

end DecimalMachine
