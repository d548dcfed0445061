import DecimalMachine.Assembly.Label
import DecimalMachine.Memory.Basic
import DecimalMachine.Word.Checked

/-! # Encoding

A statement becomes a word. Its operand is resolved first, whatever the mnemonic: a number is
itself, a reference is the address of its label, and a missing operand is zero. A program has to fit
into memory before any of it is encoded.
-/

namespace DecimalMachine

/-- The word that a mnemonic makes of its resolved operand: a data line is its operand, a channel
has a fixed number, an address follows its opcode, and all else is zero. -/
def Mnemonic.encode (mnemonic : Mnemonic) (value line : Int) : Except Error Word :=
  match mnemonic.opcode?, mnemonic.channel? with
  | none, _ =>
    match Word.ofInt? value with
    | some w => .ok w
    | none => .error (.dataOutOfRange value line)
  | some opcode, some channel => Word.ofDigits opcode.digit channel.code
  | some opcode, none =>
    if mnemonic.takesAddress then Word.ofDigits opcode.digit value else .ok .zero

namespace Statement

/-- The number that the operand of a statement stands for. -/
def resolve (s : Statement) (addresses : Addresses) : Except Error Int :=
  match s.target with
  | none => .ok 0
  | some (.literal value) => .ok value
  | some (.reference label) =>
    match addresses.lookup label with
    | some address => .ok address
    | none => .error (.labelNotFound label s.line)

def encode (s : Statement) (addresses : Addresses) : Except Error Word := do
  s.mnemonic.encode (← s.resolve addresses) s.line

end Statement

/-- The words of statements, in their order. -/
def encodeAll (statements : List Statement) (addresses : Addresses) : Except Error (List Word) :=
  if memorySize < statements.length then .error (.programTooLarge statements.length memorySize)
  else statements.mapM fun s => s.encode addresses

end DecimalMachine
