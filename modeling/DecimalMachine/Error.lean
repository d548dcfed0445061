import DecimalMachine.Instruction.Opcode
import DecimalMachine.Operand.Kind
import DecimalMachine.Text.Numeral
import DecimalMachine.Text.Quoted
import DecimalMachine.Text.Utf8

/-! # Errors

Everything that can go wrong, as a cause with the data that describe it, and the message for each
cause. Most causes are faults of the program that is assembled, loaded or run; `Error.isFileFailure`
marks those that lie with a file instead.
-/

namespace DecimalMachine

/-- Why the file system refuses a path. -/
inductive PathFault where
  | notFound
  | notADirectory
  | isADirectory
  | nameTooLong
  /-- Any other fault, by its number and its description. -/
  | other (number : Nat) (text : String)
  deriving DecidableEq, Repr

namespace PathFault

def number : PathFault → Nat
  | notFound => 2
  | notADirectory => 20
  | isADirectory => 21
  | nameTooLong => 36
  | other number _ => number

def text : PathFault → String
  | notFound => "No such file or directory"
  | notADirectory => "Not a directory"
  | isADirectory => "Is a directory"
  | nameTooLong => "File name too long"
  | other _ text => text

/-- The fault with a number; the description is used only if the number is not a known one. -/
def ofNumber (number : Nat) (text : String) : PathFault :=
  match number with
  | 2 => notFound
  | 20 => notADirectory
  | 21 => isADirectory
  | 36 => nameTooLong
  | _ => other number text

end PathFault

/-- What was to be done with a file. -/
inductive FileAction where
  | readDump
  | readSource
  | writeOutput
  deriving DecidableEq, Repr

def FileAction.text : FileAction → String
  | .readDump => "read memory dump"
  | .readSource => "read input file"
  | .writeOutput => "write to output file"

/-- Why an action on a file failed. -/
inductive FileCause where
  | path (fault : PathFault)
  /-- The bytes of the file are not UTF-8. -/
  | encoding (fault : Text.Utf8Fault)
  deriving DecidableEq, Repr

/-- A cause of failure. A program counter is absent where the cause arose outside a running
machine. -/
inductive Error where
  /-- A number is no word. -/
  | valueOutOfRange (value : Int)
  /-- A word was wanted and something that is no whole number was offered. -/
  | notAnInteger (kind : Kind)
  | immutableWord
  /-- A digit and an address do not make an instruction. -/
  | digitsOutOfRange (digit address : Int)
  /-- A word is read from two bytes, no more and no fewer. -/
  | notTwoBytes
  /-- An arithmetic operation does not apply to its operands. -/
  | unsupportedOperands (sign : Sign) (left right : Kind)
  /-- A sequence can be extended by its own kind only. -/
  | cannotExtend (kind : Kind)
  /-- Two operands have no order. -/
  | unorderedOperands (sign : Sign) (left right : Kind)
  /-- An operand cannot be read as a number. -/
  | notANumber (kind : Kind)
  /-- An infinite number has no whole part. -/
  | infiniteNumber
  /-- A floating-point value that is no number has no whole part. -/
  | undefinedNumber
  | badNumeral (text : String)
  | tooManyDigits (digits : Nat)
  /-- No cell has the address. -/
  | addressOutOfRange (address : Int) (programCounter : Option Int)
  /-- A cell takes words only. -/
  | notAWord (kind : Kind)
  /-- The words reach beyond the end of memory. -/
  | programTooLarge (size : Int) (capacity : Nat)
  /-- A number in a dump is no word. -/
  | badDumpWord (address : Nat) (word : Int)
  /-- A memory grid needs a column. -/
  | noColumns
  /-- A token stands where a mnemonic must. -/
  | invalidOpcode (token : String) (line : Int)
  /-- A literal operand is no word. -/
  | operandOutOfRange (value line : Int)
  /-- No line carries the label. -/
  | labelNotFound (label : String) (line : Int)
  /-- Two lines carry the label. -/
  | duplicateLabel (label : String) (line firstLine : Int)
  /-- The operand of a data line is no word. -/
  | dataOutOfRange (value line : Int)
  | machineHalted
  /-- No operation has the leading digit. -/
  | unhandledOpcode (digit : Int) (programCounter : Option Int)
  /-- The reserved digit was executed. -/
  | reservedOpcode (programCounter : Int)
  | queueExhausted
  /-- No further line was typed. -/
  | linesExhausted
  /-- Typed input takes no values from elsewhere. -/
  | cannotPush
  /-- A closed handler table takes no handler. -/
  | tableFrozen
  /-- An opcode takes one handler. -/
  | handlerExists (opcode : Opcode)
  /-- No opcode has the digit. -/
  | noSuchOpcode (digit : Int)
  /-- A character was wanted and a text of another length was given. -/
  | notOneCharacter (text : String)
  /-- A row holds at least one character. -/
  | noWidth
  /-- An action on a file failed. -/
  | fileFailure (action : FileAction) (path : String) (cause : FileCause)
  /-- No path holds the character NUL. -/
  | nullInPath
  /-- A path is wanted from an option that was given without one. -/
  | noPath
  deriving DecidableEq, Repr

/-- The fault of a byte sequence in words. -/
def Text.Utf8Reason.text : Text.Utf8Reason → String
  | .badStart => "invalid start byte"
  | .badContinuation => "invalid continuation byte"
  | .cutShort => "unexpected end of data"

/-- Where a byte sequence is broken, and why. -/
def Text.Utf8Fault.message (fault : Text.Utf8Fault) : String :=
  let where_ :=
    if fault.stop = fault.start + 1 then
      let lead := String.ofList (Text.hexadecimal 2 fault.lead.toNat)
      s!"byte 0x{lead} in position {fault.start}"
    else s!"bytes in position {fault.start}-{fault.stop - 1}"
  s!"'utf-8' codec can't decode {where_}: {fault.reason.text}"

/-- Why an action on the file at a path failed, in words. -/
def FileCause.message (path : String) : FileCause → String
  | .path fault => s!"[Errno {fault.number}] {fault.text}: {Text.quoted path}"
  | .encoding fault => fault.message

namespace Error

/-- The message for a cause. -/
def message : Error → String
  | valueOutOfRange value => s!"Value out of range: {value} (must be between -999 and 999)"
  | notAnInteger kind => s!"Value requires an int, got {kind.name}"
  | immutableWord => "Value is immutable"
  | digitsOutOfRange digit address =>
    s!"Cannot encode opcode {digit} with address {address}: opcode must be 0-9 and address 0-99"
  | notTwoBytes => "unpack requires a buffer of 2 bytes"
  | unsupportedOperands sign left right =>
    s!"unsupported operand type(s) for {sign.symbol}: '{left.name}' and '{right.name}'"
  | cannotExtend kind =>
    s!"can only concatenate {kind.name} (not \"{Kind.word.name}\") to {kind.name}"
  | unorderedOperands sign left right =>
    s!"'{sign.symbol}' not supported between instances of '{left.name}' and '{right.name}'"
  | notANumber kind =>
    "int() argument must be a string, a bytes-like object or a real number, not " ++
      s!"'{kind.name}'"
  | infiniteNumber => "cannot convert float infinity to integer"
  | undefinedNumber => "cannot convert float NaN to integer"
  | badNumeral text => s!"invalid literal for int() with base 10: {Text.quotedUpTo 200 text}"
  | tooManyDigits digits =>
    s!"Exceeds the limit ({Text.maxDigits} digits) for integer string conversion: value has " ++
      s!"{digits} digits; use sys.set_int_max_str_digits() to increase the limit"
  | addressOutOfRange address _ => s!"Address out of range: {address}"
  | notAWord kind => s!"Memory cells hold Value, got {kind.name}"
  | programTooLarge size capacity => s!"Program has {size} words but memory holds {capacity}"
  | badDumpWord address word => s!"Memory dump word {word} at address {address} is out of range"
  | noColumns => "range() arg 3 must not be zero"
  | invalidOpcode token line => s!"Parse error on line {line}: Invalid opcode: {token}"
  | operandOutOfRange value line => s!"Parse error on line {line}: Operand out of range: {value}"
  | labelNotFound label line => s!"Label not found: {label} (line {line})"
  | duplicateLabel label line firstLine =>
    s!"Label {label} on line {line} is already defined on line {firstLine}"
  | dataOutOfRange value _ => s!"DAT: Value out of range: {value}"
  | machineHalted => "Computer is halted"
  | unhandledOpcode digit _ => s!"Unhandled opcode: {digit}"
  | reservedOpcode _ => "Opcode 4 is not allowed!"
  | queueExhausted => "Scripted input is exhausted"
  | linesExhausted => "End of input reached while waiting for INP"
  | cannotPush => "'InteractiveInput' object has no attribute 'push'"
  | tableFrozen => "Cannot register handlers: registry is frozen"
  | handlerExists opcode => s!"Handler already registered: {opcode.name}"
  | noSuchOpcode digit => s!"{digit} is not a valid Opcode"
  | notOneCharacter text => s!"Expected a single character, got {Text.quoted text}"
  | noWidth => "max_width must be at least 1"
  | fileFailure action path cause => s!"Failed to {action.text} {path}: {cause.message path}"
  | nullInPath => "embedded null byte"
  | noPath => "expected str, bytes or os.PathLike object, not list"

/-- Whether the cause lies with a file and not with the program. -/
def isFileFailure : Error → Bool
  | fileFailure .. => true
  | _ => false

/-- Whether the cause is a mistake of the program or of its environment, as opposed to a misuse of
an operation. -/
def isReported : Error → Bool
  | valueOutOfRange _ | digitsOutOfRange .. | addressOutOfRange .. | programTooLarge ..
  | badDumpWord .. | invalidOpcode .. | operandOutOfRange .. | labelNotFound ..
  | duplicateLabel .. | dataOutOfRange .. | machineHalted | unhandledOpcode .. | reservedOpcode _
  | queueExhausted | linesExhausted | fileFailure .. => true
  | _ => false

end Error

/-- The error of a text that is no numeral. -/
def Text.NumeralFault.toError (text : String) : Text.NumeralFault → Error
  | .malformed => .badNumeral text
  | .tooLong digits => .tooManyDigits digits

/-- The number that a text denotes. -/
def readInt (text : String) : Except Error Int :=
  (Text.readNumeral text.toList).mapError (Text.NumeralFault.toError text)

end DecimalMachine
