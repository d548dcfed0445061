import DecimalMachine.Word.Checked

/-! # Operands

What callers offer where a word is wanted: a word, or a value of another kind. `toWord` accepts
words and whole numbers in range, `toInt` reads a number out of an operand as far as it can, and
`apply` is an operation on two operands of which at least one is a word. Truth values count as the
numbers 0 and 1 in arithmetic and in the order, but never equal a word.
-/

namespace DecimalMachine

/-- A value offered where a word is wanted. What a list or a record holds does not matter. -/
inductive Operand where
  | word (value : Word)
  | int (value : Int)
  | float (value : Float)
  | bool (value : Bool)
  | null
  | text (value : String)
  | list
  | record

/-- The whole part of a floating-point number, read off its sign, exponent and significand. The
largest exponent is that of infinity, if the fraction is zero, and else of what is no number. -/
def wholePart (x : Float) : Except Error Int :=
  let bits := x.toBits.toNat
  let exponent := (bits >>> 52) % 2048
  let fraction := bits % (1 <<< 52)
  if exponent = 2047 then .error (if fraction = 0 then .infiniteNumber else .undefinedNumber)
  else
    let significand := if exponent = 0 then fraction else fraction + (1 <<< 52)
    let magnitude : Nat :=
      if 1075 ≤ exponent then significand <<< (exponent - 1075)
      else significand >>> (1075 - exponent)
    .ok (if bits >>> 63 = 1 then -magnitude else magnitude)

/-- The number by which truth values count. -/
def boolToInt : Bool → Int
  | true => 1
  | false => 0

namespace Operand

def kind : Operand → Kind
  | word _ => .word
  | int _ => .int
  | float _ => .float
  | bool _ => .bool
  | null => .null
  | text _ => .text
  | list => .list
  | record => .record

/-- The word of a whole number; nothing but a whole number has one. -/
def newWord : Operand → Except Error Word
  | int n => Word.ofInt n
  | other => .error (.notAnInteger other.kind)

/-- The word that an operand is or makes. -/
def toWord : Operand → Except Error Word
  | word w => .ok w
  | other => other.newWord

/-- The number in an operand: a floating-point number loses its fraction, a text is read. -/
def toInt : Operand → Except Error Int
  | word w => .ok w.toInt
  | int n => .ok n
  | float x => wholePart x
  | bool b => .ok (boolToInt b)
  | text s => readInt s
  | other => .error (.notANumber other.kind)

/-- The word of the number in an operand. -/
def readWord (operand : Operand) : Except Error Word :=
  match operand with
  | word w => .ok w
  | other => do (int (← other.toInt)).newWord

/-- The number by which an operand takes part in arithmetic and in the order. -/
def amount? : Operand → Option Int
  | word w => some w.toInt
  | int n => some n
  | bool b => some (boolToInt b)
  | _ => none

/-- The number by which an operand is compared for equality. -/
def identity? : Operand → Option Int
  | word w => some w.toInt
  | int n => some n
  | _ => none

/-- The key under which an operand is looked up: numbers count modulo 2⁶¹ − 1, and −1 marks an
error, so that the number −1 has the key of −2. -/
def hashKey? (operand : Operand) : Option Int :=
  operand.amount?.map fun n =>
    let key := n.tmod 0x1fffffffffffffff
    if key = -1 then -2 else key

/-- The answer of an operation. -/
inductive Answer where
  | word (value : Word)
  | truth (value : Bool)
  deriving DecidableEq

/-- The error of a sum or difference that does not apply. Texts and lists on the left of a sum
name what they could be extended by. -/
def unsupported (sign : Sign) (left right : Kind) : Error :=
  match sign, left with
  | .plus, .text => .cannotExtend .text
  | .plus, .list => .cannotExtend .list
  | _, _ => .unsupportedOperands sign left right

def same (a b : Operand) : Bool :=
  match a.identity?, b.identity? with
  | some x, some y => x == y
  | _, _ => false

/-- Combines the amounts of two operands into a word. -/
def combine (sign : Sign) (f : Int → Int → Int) (a b : Operand) : Except Error Answer :=
  match a.amount?, b.amount? with
  | some x, some y => .ok (.word (.wrap (f x y)))
  | _, _ => .error (unsupported sign a.kind b.kind)

/-- Compares the amounts of two operands. -/
def compare (sign : Sign) (f : Int → Int → Bool) (a b : Operand) : Except Error Answer :=
  match a.amount?, b.amount? with
  | some x, some y => .ok (.truth (f x y))
  | _, _ => .error (.unorderedOperands sign a.kind b.kind)

/-- An operation on two operands, at least one of which is a word. -/
def apply (sign : Sign) (a b : Operand) : Except Error Answer :=
  match sign with
  | .plus => combine .plus (· + ·) a b
  | .minus => combine .minus (· - ·) a b
  | .equal => .ok (.truth (same a b))
  | .unequal => .ok (.truth (!same a b))
  | .less => compare .less (fun x y => decide (x < y)) a b
  | .atMost => compare .atMost (fun x y => decide (x ≤ y)) a b
  | .greater => compare .greater (fun x y => decide (x > y)) a b
  | .atLeast => compare .atLeast (fun x y => decide (x ≥ y)) a b

@[simp]
theorem toWord_word (w : Word) : (word w).toWord = .ok w := rfl

@[simp]
theorem toWord_int_toInt (w : Word) : (int w.toInt).toWord = .ok w := by
  simp [toWord, newWord]

end Operand

end DecimalMachine
