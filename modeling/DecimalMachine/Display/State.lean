import DecimalMachine.Display.Style
import DecimalMachine.Machine.Basic

/-! # Displays

The state of the machine as text. Memory is a grid with a number of cells in each row; the plain
grid has ten, and the styled one shows cells that hold zero in gray. The output is shown on one
line, its rows set apart by a gray bar.
-/

namespace DecimalMachine

namespace Text

variable {α : Type}

/-- The pieces of a list, given the piece that is being filled, last element first, and the room
that is left in it. -/
def chunksFrom (size : Nat) (piece : List α) (room : Nat) : List α → List (List α)
  | [] => if piece.isEmpty then [] else [piece.reverse]
  | x :: rest =>
    match room with
    | 0 => piece.reverse :: chunksFrom size [x] (size - 1) rest
    | left + 1 => chunksFrom size (x :: piece) left rest

/-- A list cut into pieces of a size of at least one, the last of which may be shorter; the empty
list has no piece. -/
def chunks (size : Nat) (list : List α) : List (List α) :=
  chunksFrom size [] size list

end Text

/-- The texts of cells as a grid: spaces between the cells of a row and line feeds between rows. -/
def gridText (columns : Nat) (cells : List String) : String :=
  String.intercalate "\n" ((Text.chunks columns cells).map (String.intercalate " "))

namespace Memory

variable {size : Nat}

/-- How many cells a row of a memory grid has if nothing else is asked for. -/
def defaultColumns : Nat := 10

def text (m : Memory size) : String :=
  gridText defaultColumns (m.toList.map Word.padded)

/-- The text of a cell in a styled grid. -/
def styledCell (w : Word) : String :=
  if w.isZero then Style.gray.apply "000" else w.padded

/-- Memory as a styled grid. -/
def styledText (m : Memory size) (columns : Nat) : String :=
  gridText columns (m.toList.map styledCell)

/-- Memory as a styled grid. A grid cannot have no columns, and a grid of fewer shows nothing. -/
def styledTextOf (m : Memory size) (columns : Int) : Except Error String :=
  if columns = 0 then .error .noColumns
  else if columns < 0 then .ok ""
  else .ok (m.styledText columns.toNat)

end Memory

/-- The registers on one line, their numbers in bold. -/
def Registers.styledText (registers : Registers) : String := registers.textWith Style.bold.apply

namespace Output

/-- How wide the rows of the output are if nothing else is asked for. -/
def defaultWidth : Nat := 4

/-- Rows on one line, set apart by a gray bar. -/
def joinRows (rows : List String) : String := String.intercalate (Style.gray.apply "|") rows

/-- The output on one line, cut into rows of a width. -/
def styledText (output : Output) (width : Nat) : String := joinRows (output.wrapped width)

/-- The output on one line, cut into rows of a width, which has to be at least one character. -/
def styledTextOf (output : Output) (width : Int) : Except Error String :=
  joinRows <$> output.rows width

end Output

/-- The state of the machine: an empty line, the registers, the output and the memory. -/
def Machine.stateText (m : Machine) : String :=
  String.intercalate "\n"
    ["", m.registers.styledText, m.output.styledText Output.defaultWidth,
      m.memory.styledText Memory.defaultColumns]

end DecimalMachine
