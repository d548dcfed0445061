/-! # Reading UTF-8

A byte sequence is read one byte at a time. Between characters any lead byte may come; inside a
character the next byte has to lie in a range that the lead byte and the count of bytes still owed
determine. The first byte that does not fit, or the end of the bytes inside a character, is a fault,
which names the bytes of the broken character that were read.
-/

namespace DecimalMachine.Text

/-- Why a byte sequence is not UTF-8. -/
inductive Utf8Reason where
  /-- No character begins with the byte. -/
  | badStart
  /-- The byte after the ones named does not continue their character. -/
  | badContinuation
  /-- The bytes end inside a character. -/
  | cutShort
  deriving DecidableEq, Repr

/-- The first fault of a byte sequence: the broken character's lead byte, the position of that
byte, and the position after the last byte that belongs to the fault. -/
structure Utf8Fault where
  lead : UInt8
  start : Nat
  stop : Nat
  reason : Utf8Reason
  deriving DecidableEq, Repr

/-- A character of which some bytes have been read. -/
structure OpenChar where
  lead : UInt8
  /-- How many bytes have been read. -/
  taken : Nat
  /-- How many bytes are still owed after the next one. -/
  owed : Nat
  /-- The least byte that may come next. -/
  low : UInt8
  /-- The greatest byte that may come next. -/
  high : UInt8
  bits : Nat

/-- What a lead byte opens: a character of several bytes, or nothing if no character begins so. -/
def openChar? (lead : UInt8) : Option OpenChar :=
  if lead < 0xc2 then none
  else if lead < 0xe0 then some ⟨lead, 1, 0, 0x80, 0xbf, lead.toNat % 0x20⟩
  else if lead < 0xf0 then
    some ⟨lead, 1, 1, if lead = 0xe0 then 0xa0 else 0x80, if lead = 0xed then 0x9f else 0xbf,
      lead.toNat % 0x10⟩
  else if lead < 0xf5 then
    some ⟨lead, 1, 2, if lead = 0xf0 then 0x90 else 0x80, if lead = 0xf4 then 0x8f else 0xbf,
      lead.toNat % 0x08⟩
  else none

/-- The characters of the bytes from a position on, with the open character they continue. -/
def decodeFrom : Nat → Option OpenChar → List UInt8 → Except Utf8Fault (List Char)
  | _, none, [] => .ok []
  | pos, some part, [] => .error ⟨part.lead, pos - part.taken, pos, .cutShort⟩
  | pos, none, byte :: rest =>
    if byte < 0x80 then (Char.ofNat byte.toNat :: ·) <$> decodeFrom (pos + 1) none rest
    else
      match openChar? byte with
      | none => .error ⟨byte, pos, pos + 1, .badStart⟩
      | some part => decodeFrom (pos + 1) (some part) rest
  | pos, some part, byte :: rest =>
    if part.low ≤ byte && byte ≤ part.high then
      let bits := part.bits * 0x40 + byte.toNat % 0x40
      match part.owed with
      | 0 => (Char.ofNat bits :: ·) <$> decodeFrom (pos + 1) none rest
      | owed + 1 =>
        decodeFrom (pos + 1) (some ⟨part.lead, part.taken + 1, owed, 0x80, 0xbf, bits⟩) rest
    else .error ⟨part.lead, pos - part.taken, pos, .badContinuation⟩

/-- The characters that a byte sequence encodes. -/
def decodeUtf8 (bytes : List UInt8) : Except Utf8Fault (List Char) :=
  decodeFrom 0 none bytes

/-- The bytes that encode a text. -/
def encodeUtf8 (text : String) : List UInt8 :=
  text.toUTF8.toList

end DecimalMachine.Text
