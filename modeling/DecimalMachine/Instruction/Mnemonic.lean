import DecimalMachine.Instruction.Opcode

/-! # Mnemonics

The names of instructions in assembly text. Each but the data line has an opcode, those for input
and output have a channel as well, and seven take an address as their operand.
-/

namespace DecimalMachine

/-- The name of an instruction in assembly text. -/
inductive Mnemonic where
  | hlt
  | add
  | sub
  | sta
  | lda
  | bra
  | brz
  | brp
  | inp
  | out
  | otc
  | dat
  deriving DecidableEq, Repr

namespace Mnemonic

def name : Mnemonic → String
  | hlt => "HLT"
  | add => "ADD"
  | sub => "SUB"
  | sta => "STA"
  | lda => "LDA"
  | bra => "BRA"
  | brz => "BRZ"
  | brp => "BRP"
  | inp => "INP"
  | out => "OUT"
  | otc => "OTC"
  | dat => "DAT"

/-- The mnemonic that is written as a token; case counts. -/
def ofName? : String → Option Mnemonic
  | "HLT" => some hlt
  | "ADD" => some add
  | "SUB" => some sub
  | "STA" => some sta
  | "LDA" => some lda
  | "BRA" => some bra
  | "BRZ" => some brz
  | "BRP" => some brp
  | "INP" => some inp
  | "OUT" => some out
  | "OTC" => some otc
  | "DAT" => some dat
  | _ => none

def opcode? : Mnemonic → Option Opcode
  | hlt => some .hlt
  | add => some .add
  | sub => some .sub
  | sta => some .sta
  | lda => some .lda
  | bra => some .bra
  | brz => some .brz
  | brp => some .brp
  | inp | out | otc => some .io
  | dat => none

def channel? : Mnemonic → Option Channel
  | inp => some .inp
  | out => some .out
  | otc => some .otc
  | _ => none

/-- Whether the operand of a mnemonic is an address. -/
def takesAddress : Mnemonic → Bool
  | add | sub | sta | lda | bra | brz | brp => true
  | hlt | inp | out | otc | dat => false

@[simp]
theorem ofName?_name (mnemonic : Mnemonic) : ofName? mnemonic.name = some mnemonic := by
  cases mnemonic <;> rfl

theorem name_of_ofName? {token : String} {mnemonic : Mnemonic}
    (h : ofName? token = some mnemonic) : mnemonic.name = token := by
  unfold ofName? at h
  split at h <;> cases h <;> rfl

end Mnemonic

end DecimalMachine
