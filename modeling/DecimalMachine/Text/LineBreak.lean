/-! # Line breaks

Two readings of a text as lines. `lines` cuts at every kind of line break and drops the breaks: it
reads program source. `typedLines` first makes every carriage return a line feed and then cuts
after each line feed, keeping it: it reads what is typed on a terminal.
-/

namespace DecimalMachine.Text

/-- A line break is a line feed, a vertical tab, a form feed, a carriage return, one of the
separator controls U+001C to U+001E, or one of the Unicode line ends U+0085, U+2028 and U+2029. -/
def isLineBreak (c : Char) : Bool :=
  let n := c.toNat
  (0x0a ≤ n && n ≤ 0x0d) || (0x1c ≤ n && n ≤ 0x1e) || n == 0x85 || n == 0x2028 || n == 0x2029

/-- Puts a character in front of the first piece, which is made if there is none. -/
def consHead (c : Char) : List (List Char) → List (List Char)
  | [] => [[c]]
  | piece :: rest => (c :: piece) :: rest

/-- The lines of a text without their breaks. A carriage return with its line feed is one break,
and the last line counts only if something stands after the last break. -/
def lines : List Char → List (List Char)
  | [] => []
  | '\r' :: '\n' :: rest => [] :: lines rest
  | c :: rest => if isLineBreak c then [] :: lines rest else consHead c (lines rest)

/-- The text with every carriage return, alone or before a line feed, written as a line feed. -/
def unifyBreaks : List Char → List Char
  | [] => []
  | '\r' :: '\n' :: rest => '\n' :: unifyBreaks rest
  | c :: rest => (if c = '\r' then '\n' else c) :: unifyBreaks rest

/-- The pieces of a text that end with a line feed, and what stands after the last one if anything
does. -/
def linesKeepingFeeds : List Char → List (List Char)
  | [] => []
  | c :: rest =>
    if c = '\n' then [c] :: linesKeepingFeeds rest else consHead c (linesKeepingFeeds rest)

/-- The lines that a terminal delivers for a typed text, each with the line feed that ends it. -/
def typedLines (text : String) : List String :=
  (linesKeepingFeeds (unifyBreaks text.toList)).map String.ofList

@[simp]
theorem lines_nil : lines [] = [] := rfl

end DecimalMachine.Text
