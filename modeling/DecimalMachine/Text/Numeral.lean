import DecimalMachine.Text.Blank
import DecimalMachine.Text.Digit

/-! # Numerals

Whole numbers as text. `decimal` and `zeroPadded` write them; the sign counts towards the width of
a padded number. `readNumeral` reads what people type: blanks around the number are skipped, one
sign may lead, the digits may be of any script, and single underscores may stand between digits.
A number of more than `maxDigits` digits is refused whatever follows it.
-/

namespace DecimalMachine.Text

/-- A number in decimal digits, after a minus sign if it is negative. -/
def decimal (n : Int) : List Char :=
  let digits := Nat.toDigits 10 n.natAbs
  if n < 0 then '-' :: digits else digits

/-- A number in decimal digits with zeros after its sign, so that all is at least `width` long. -/
def zeroPadded (width : Nat) (n : Int) : String :=
  let digits := Nat.toDigits 10 n.natAbs
  let sign := if n < 0 then ['-'] else []
  String.ofList (sign ++ List.replicate (width - sign.length - digits.length) '0' ++ digits)

/-- The most digits that a numeral may have. -/
def maxDigits : Nat := 4300

/-- Why a text is no numeral. -/
inductive NumeralFault where
  /-- The text does not have the form of a numeral. -/
  | malformed
  /-- The text leads with more digits than a numeral may have. -/
  | tooLong (digits : Nat)
  deriving DecidableEq, Repr

/-- The blanks that may surround a numeral: all but the four separator controls. -/
def isNumeralBlank (c : Char) : Bool :=
  isBlank c && !(0x1c ≤ c.toNat && c.toNat ≤ 0x1f)

/-- A character of the body of a numeral. -/
def isNumeralChar (c : Char) : Bool :=
  isDigit c || c == '_'

/-- Whether underscores stand only between digits, with at least one digit in all. -/
def isGrouped (body : List Char) : Bool :=
  (body.splitOn '_').all fun group => !group.isEmpty

/-- The number that a sequence of digits stands for, most significant first. -/
def valueOfDigits (digits : List Nat) : Nat :=
  digits.foldl (fun acc d => 10 * acc + d) 0

/-- Splits a leading sign off a text; `true` stands for minus. -/
def splitSign : List Char → Bool × List Char
  | '-' :: rest => (true, rest)
  | '+' :: rest => (false, rest)
  | rest => (false, rest)

/-- The number that a text denotes. -/
def readNumeral (text : List Char) : Except NumeralFault Int :=
  let (negative, unsigned) := splitSign (text.dropWhile isNumeralBlank)
  let body := unsigned.takeWhile isNumeralChar
  let rest := unsigned.dropWhile isNumeralChar
  let digits := body.filterMap digitValue?
  if !isGrouped body then .error .malformed
  else if maxDigits < digits.length then .error (.tooLong digits.length)
  else if rest.all isNumeralBlank then
    let magnitude := valueOfDigits digits
    .ok (if negative then -magnitude else magnitude)
  else .error .malformed

/-- Whether a text is a plain literal: an optional sign and then at least one of the digits `0` to
`9`, and nothing else. -/
def isLiteral (text : List Char) : Bool :=
  let digits := (splitSign text).2
  !digits.isEmpty && digits.all isPlainDigit

example : zeroPadded 3 (-5) = "-05" := by decide +kernel
example : (readNumeral " 1_0 ".toList).toOption = some 10 := by decide +kernel
example : (readNumeral "5__5".toList).toOption = none := by decide +kernel

end DecimalMachine.Text
