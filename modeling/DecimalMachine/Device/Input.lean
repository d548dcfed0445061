import DecimalMachine.Console.Event
import DecimalMachine.Error
import DecimalMachine.Operand.Basic
import DecimalMachine.Text.Blank

/-! # Input

The machine reads words from one of two devices: a queue that was filled in advance, or lines typed
in answer to a prompt. A typed line that holds no word is refused with a complaint and the prompt is
repeated; an empty line, without even a line feed, is the end of what is typed.
-/

namespace DecimalMachine

/-- The text of the complaint about a number that is no word. -/
def outOfRangeComplaint : String := "Please input an integer between -999 and 999"

/-- The text of the complaint about a line that is no number. -/
def notANumberComplaint : String := "Please input a valid integer between -999 and 999"

/-- What the machine reads its input from. -/
inductive Input where
  /-- A queue of words, the next one first. -/
  | queue (words : List Word)
  /-- The lines that are still to be typed, and the prompt that asks for each. -/
  | typed (prompt : String) (lines : List String)
  deriving DecidableEq

/-- What reading a word did: the device that is left, what showed, and the word or the error. -/
structure Reading where
  input : Input
  events : List Event
  outcome : Except Error Word

/-- The answer to a typed line: the word it holds, or the complaint about it. -/
def answerLine (line : String) : Except String Word :=
  match Text.readNumeral (Text.trim line.toList) with
  | .ok n =>
    match Word.ofInt? n with
    | some w => .ok w
    | none => .error outOfRangeComplaint
  | .error _ => .error notANumberComplaint

/-- Reads typed lines up to the first one that holds a word or ends the input. -/
def readTyped (prompt : String) : List String → Reading
  | [] => ⟨.typed prompt [], [.prompted prompt], .error .linesExhausted⟩
  | line :: rest =>
    if line.isEmpty then ⟨.typed prompt rest, [.prompted prompt], .error .linesExhausted⟩
    else
      match answerLine line with
      | .ok w => ⟨.typed prompt rest, [.prompted prompt], .ok w⟩
      | .error complaint =>
        let later := readTyped prompt rest
        let rejected := String.ofList (Text.trim line.toList)
        { later with
          events := .prompted prompt :: .complained complaint :: .noticed (.rejectedLine rejected)
            :: later.events }

namespace Input

def read : Input → Reading
  | queue [] => ⟨queue [], [], .error .queueExhausted⟩
  | queue (w :: rest) => ⟨queue rest, [], .ok w⟩
  | typed prompt lines => readTyped prompt lines

/-- A queue of the words of operands. -/
def ofOperands (operands : List Operand) : Except Error Input :=
  queue <$> operands.mapM Operand.readWord

/-- The device with the word of an operand after all others. Lines are typed, not pushed. -/
def push (input : Input) (operand : Operand) : Except Error Input :=
  match input with
  | queue words => do return queue (words ++ [← operand.readWord])
  | typed .. => .error .cannotPush

/-- The device with lines typed after all others. A queue takes none. -/
def typeLines (input : Input) (more : List String) : Input :=
  match input with
  | queue words => queue words
  | typed prompt lines => typed prompt (lines ++ more)

/-- How many words or lines are left. -/
def remaining : Input → Nat
  | queue words => words.length
  | typed _ lines => lines.length

end Input

end DecimalMachine
