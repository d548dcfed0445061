import DecimalMachine.Text.Unprintable

/-! # Quoted texts

The form in which messages show a text that came from outside. A text stands in single quotes, or
in double quotes if it holds a single quote and no double one. The quote in use, the backslash and
three controls are written with a backslash, every other unprintable character by its code point in
two, four or eight hexadecimal digits, and all else as itself.
-/

namespace DecimalMachine.Text

/-- A number in lower-case hexadecimal digits, filled with zeros on the left up to a width. -/
def hexadecimal (width n : Nat) : List Char :=
  let digits := Nat.toDigits 16 n
  List.replicate (width - digits.length) '0' ++ digits

def quoteMark (text : List Char) : Char :=
  if text.contains '\x27' && !text.contains '"' then '"' else '\x27'

/-- The written form of one character between quotes of the given kind. -/
def escape (mark c : Char) : List Char :=
  if c = mark || c = '\\' then ['\\', c]
  else if c = '\n' then ['\\', 'n']
  else if c = '\r' then ['\\', 'r']
  else if c = '\t' then ['\\', 't']
  else if isPrintable c then [c]
  else if c.toNat ≤ 0xff then '\\' :: 'x' :: hexadecimal 2 c.toNat
  else if c.toNat ≤ 0xffff then '\\' :: 'u' :: hexadecimal 4 c.toNat
  else '\\' :: 'U' :: hexadecimal 8 c.toNat

def quoted (text : String) : String :=
  let mark := quoteMark text.toList
  String.ofList (mark :: text.toList.flatMap (escape mark) ++ [mark])

/-- The first characters of the quoted form of a text, at most as many as given. -/
def quotedUpTo (limit : Nat) (text : String) : String :=
  String.ofList ((quoted text).toList.take limit)

example : quoted "it is" = "\x27it is\x27" := by decide +kernel
example : quoted "a\tb\x00" = "\x27a\\tb\\x00\x27" := by decide +kernel

end DecimalMachine.Text
