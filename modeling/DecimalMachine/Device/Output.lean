import DecimalMachine.Escape
import DecimalMachine.Operand.Basic

/-! # Output

The output of the machine is one text that only grows. A number that follows a number directly is
set off by a line feed; characters are put out as they are. `rows` cuts the text at its line feeds
and, lazily, wherever a row is full: a row is broken before the character that does not fit.
-/

namespace DecimalMachine

/-- What has been put out so far. -/
structure Output where
  /-- All emissions, one after the other. -/
  text : String
  /-- Whether the last emission was a number. -/
  endsInNumber : Bool
  deriving DecidableEq

namespace Output

def empty : Output := ⟨"", false⟩

/-- The text by which a character extends the output. -/
def characterPiece (c : Char) : String := String.singleton c

/-- The text by which a number extends the output. -/
def numberPiece (output : Output) (n : Int) : String :=
  let digits := String.ofList (Text.decimal n)
  if output.endsInNumber then "\n" ++ digits else digits

/-- The output extended by a piece, which is a number or not. -/
def append (output : Output) (piece : String) (isNumber : Bool) : Output :=
  ⟨output.text ++ piece, isNumber⟩

def putCharacter (output : Output) (c : Char) : Output :=
  output.append (characterPiece c) false

def putNumber (output : Output) (n : Int) : Output :=
  output.append (output.numberPiece n) true

@[simp] theorem text_putCharacter (output : Output) (c : Char) :
    (output.putCharacter c).text = output.text ++ characterPiece c := rfl

@[simp] theorem text_putNumber (output : Output) (n : Int) :
    (output.putNumber n).text = output.text ++ output.numberPiece n := rfl

@[simp] theorem endsInNumber_putCharacter (output : Output) (c : Char) :
    (output.putCharacter c).endsInNumber = false := rfl

@[simp] theorem endsInNumber_putNumber (output : Output) (n : Int) :
    (output.putNumber n).endsInNumber = true := rfl

/-- The single character of a text. -/
def characterOf (text : String) : Except Error Char :=
  match text.toList with
  | [c] => .ok c
  | _ => .error (.notOneCharacter text)

/-- Something that is asked of the output: to put out a text as a character, or what an operand
holds as a number. -/
inductive Request where
  | character (text : String)
  | number (operand : Operand)

/-- The output after a request whose number can be written, and the piece by which it grew. It stays
as it is if the text is not one character or the operand holds no number. -/
def serve (output : Output) : Request → Output × Except Error String
  | .character text =>
    match characterOf text with
    | .ok c => (output.putCharacter c, .ok (characterPiece c))
    | .error error => (output, .error error)
  | .number operand =>
    match operand.toInt with
    | .ok n => (output.putNumber n, .ok (output.numberPiece n))
    | .error error => (output, .error error)

/-- The number that a request puts out. -/
def Request.number? : Request → Option Int
  | character _ => none
  | number operand => operand.toInt.toOption

/-- The output after a request, and the piece by which it grew, or what leaves the request if it is
refused. A number is written before anything is put out. -/
def attempt (output : Output) (request : Request) : Output × Except Escape String :=
  match request.number?.filter fun n => ¬Text.IsWritable n with
  | some n => (output, .error (.overlong n))
  | none =>
    let (next, answer) := output.serve request
    (next, answer.mapError Escape.ofError)

/-- The rows of a text, given the row that is being filled, last character first, and the room that
is left in it. -/
def fillRows (width : Nat) (row : List Char) (room : Nat) : List Char → List (List Char)
  | [] => [row.reverse]
  | c :: rest =>
    if c = '\n' then row.reverse :: fillRows width [] width rest
    else
      match room with
      | 0 => row.reverse :: fillRows width [c] (width - 1) rest
      | left + 1 => fillRows width (c :: row) left rest

/-- The output cut into rows of a width. -/
def wrapped (output : Output) (width : Nat) : List String :=
  (fillRows width [] width output.text.toList).map String.ofList

/-- The output cut into rows of a width, which has to be at least one character. -/
def rows (output : Output) (width : Int) : Except Error (List String) :=
  if width < 1 then .error .noWidth else .ok (output.wrapped width.toNat)

end Output

end DecimalMachine
