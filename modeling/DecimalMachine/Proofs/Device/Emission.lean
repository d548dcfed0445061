import DecimalMachine.Device.Output

/-!
# Emissions

What is put out is a sequence of numbers and characters, and its text has a line feed exactly
between two numbers that follow each other directly. `Emission.text` says this of a whole sequence;
putting out the members of the sequence one by one extends the output by this text.

## Main definitions

- `Emission` — a number or a character that is put out
- `Emission.text` — the text of a sequence of emissions
-/

namespace DecimalMachine

/-- Something that is put out. -/
inductive Emission where
  | number (n : Int)
  | character (c : Char)
  deriving DecidableEq

def Emission.isNumber : Emission → Bool
  | number _ => true
  | character _ => false

/-- The text of emissions, given whether the emission before them was a number. -/
def Emission.text (afterNumber : Bool) : List Emission → String
  | [] => ""
  | number n :: rest =>
    (if afterNumber then "\n" else "") ++ String.ofList (Text.decimal n) ++ text true rest
  | character c :: rest => String.singleton c ++ text false rest

namespace Output

def put (output : Output) : Emission → Output
  | .number n => output.putNumber n
  | .character c => output.putCharacter c

theorem numberPiece_eq (output : Output) (n : Int) :
    output.numberPiece n =
      (if output.endsInNumber then "\n" else "") ++ String.ofList (Text.decimal n) := by
  unfold numberPiece
  split <;> simp

/-- Putting emissions out one by one extends the output by their text. -/
theorem text_foldl_put (output : Output) (emissions : List Emission) :
    (emissions.foldl put output).text =
      output.text ++ Emission.text output.endsInNumber emissions := by
  induction emissions generalizing output with
  | nil => simp [Emission.text]
  | cons emission rest ih =>
    rw [List.foldl_cons, ih]
    cases emission with
    | number n =>
      rw [put, text_putNumber, endsInNumber_putNumber, numberPiece_eq, Emission.text,
        String.append_assoc]
    | character c =>
      rw [put, text_putCharacter, endsInNumber_putCharacter, characterPiece, Emission.text,
        String.append_assoc]

/-- The output ends in a number if the last emission is one. -/
theorem endsInNumber_foldl_put (output : Output) (emissions : List Emission) :
    (emissions.foldl put output).endsInNumber =
      (emissions.getLast?.map Emission.isNumber).getD output.endsInNumber := by
  induction emissions generalizing output with
  | nil => rfl
  | cons emission rest ih =>
    have hput : (output.put emission).endsInNumber = emission.isNumber := by
      cases emission <;> rfl
    rw [List.foldl_cons, ih, List.getLast?_cons, hput]
    cases rest.getLast? <;> rfl

end Output

end DecimalMachine
