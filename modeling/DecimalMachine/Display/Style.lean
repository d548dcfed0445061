/-! # Styles

Text in a style begins with the escape sequence of the style and ends with the one that resets it.
-/

namespace DecimalMachine

inductive Style where
  | bold
  | gray
  | red
  deriving DecidableEq, Repr

namespace Style

/-- The escape sequence that begins a style. -/
def start : Style → String
  | bold => "\x1b[1m"
  | gray => "\x1b[90m"
  | red => "\x1b[31m"

def stop : String := "\x1b[0m"

def apply (style : Style) (text : String) : String := style.start ++ text ++ stop

end Style

/-- A message in the style of errors. -/
def errorText (message : String) : String := Style.red.apply message

end DecimalMachine
