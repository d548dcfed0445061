import DecimalMachine.Error

/-! # Escapes

What leaves an operation that fails. This is the error, unless a number in its message has more
digits than a numeral may have: such a number cannot be written, and the failure that leaves the
operation is about it instead. `Escape.ofError` says which of the two it is.
-/

namespace DecimalMachine

namespace Text

/-- A number has no more digits than a numeral may have. -/
def IsWritable (n : Int) : Prop := (Nat.toDigits 10 n.natAbs).length ≤ maxDigits

instance (n : Int) : Decidable (IsWritable n) := inferInstanceAs (Decidable (_ ≤ _))

end Text

namespace Error

/-- The numbers that the message for a cause is made with. -/
def numbers : Error → List Int
  | valueOutOfRange value => [value]
  | digitsOutOfRange digit address => [digit, address]
  | addressOutOfRange address _ => [address]
  | programTooLarge size capacity => [size, capacity]
  | badDumpWord address word => [word, address]
  | invalidOpcode _ line => [line]
  | operandOutOfRange value line => [value, line]
  | labelNotFound _ line => [line]
  | duplicateLabel _ line firstLine => [line, firstLine]
  | dataOutOfRange value _ => [value]
  | unhandledOpcode digit _ => [digit]
  | noSuchOpcode digit => [digit]
  | _ => []

/-- The message for a cause can be written. -/
def IsWritable (error : Error) : Prop := ∀ n ∈ error.numbers, Text.IsWritable n

/-- Whether the cause is a value of the right kind that an operation cannot take. -/
def isWrongValue : Error → Bool
  | valueOutOfRange _ | undefinedNumber | badNumeral _ | tooManyDigits _ | noColumns
  | handlerExists _ | noSuchOpcode _ | notOneCharacter _ | noWidth | nullInPath => true
  | _ => false

end Error

/-- What leaves an operation that fails. -/
inductive Escape where
  | raised (error : Error)
  /-- A number has too many digits to be written. -/
  | overlong (n : Int)
  deriving DecidableEq, Repr

namespace Escape

/-- What an error comes to: the numbers in its message are written first. -/
def ofError (error : Error) : Escape :=
  match error.numbers.find? fun n => ¬Text.IsWritable n with
  | some n => .overlong n
  | none => .raised error

/-- Whether assembling and reading numbers waits for it: for mistakes and for wrong values, of which
a number that cannot be written is one. -/
def isAwaited : Escape → Bool
  | raised error => error.isReported || error.isWrongValue
  | overlong _ => true

def reason : Escape → String
  | raised error => error.message
  | overlong _ =>
    s!"Exceeds the limit ({Text.maxDigits} digits) for integer string conversion; " ++
      "use sys.set_int_max_str_digits() to increase the limit"

end Escape

/-- A number in a form, if it can be written. -/
def write (form : Int → String) (n : Int) : Except Escape String :=
  if Text.IsWritable n then .ok (form n) else .error (.overlong n)

end DecimalMachine
