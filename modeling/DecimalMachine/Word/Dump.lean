import DecimalMachine.Word.Basic

/-! # Dumps

A dump is the sequence of words as bytes: two for each word, the high byte first, a negative word in
two's complement.
-/

namespace DecimalMachine.Word

def byteCount : Nat := 2

def toBytes (w : Word) : List UInt8 :=
  let n := (w.toInt % 0x10000).toNat
  [UInt8.ofNat (n / 0x100), UInt8.ofNat n]

/-- The number that two bytes stand for, from −32768 to 32767. -/
def signedOfBytes (high low : UInt8) : Int :=
  let n : Int := high.toNat * 0x100 + low.toNat
  if n < 0x8000 then n else n - 0x10000

/-- The dump of a sequence of words. -/
def dump (words : List Word) : List UInt8 :=
  words.flatMap toBytes

@[simp]
theorem dump_nil : dump [] = [] := rfl

@[simp]
theorem dump_cons (w : Word) (words : List Word) :
    dump (w :: words) = w.toBytes ++ dump words := rfl

/-- The bytes of a 16-bit pattern stand for the pattern in two's complement. -/
theorem signedOfBytes_ofNat {n : Nat} (h : n < 0x10000) :
    signedOfBytes (UInt8.ofNat (n / 0x100)) (UInt8.ofNat n) =
      if n < 0x8000 then (n : Int) else (n : Int) - 0x10000 := by
  have hhigh : (UInt8.ofNat (n / 0x100)).toNat = n / 0x100 := by
    rw [UInt8.toNat_ofNat']; omega
  have hlow : (UInt8.ofNat n).toNat = n % 0x100 := by
    rw [UInt8.toNat_ofNat']
  have hsum : ((n / 0x100 : Nat) : Int) * 0x100 + ((n % 0x100 : Nat) : Int) = n := by omega
  unfold signedOfBytes
  rw [hhigh, hlow, hsum]
  by_cases hn : n < 0x8000
  · rw [if_pos (by omega), if_pos hn]
  · rw [if_neg (by omega), if_neg hn]

/-- A word is read back from its bytes. -/
theorem signedOfBytes_toBytes (w : Word) :
    ∃ high low, w.toBytes = [high, low] ∧ signedOfBytes high low = w.toInt := by
  have hl := w.lower
  have hu := w.upper
  refine ⟨UInt8.ofNat ((w.toInt % 0x10000).toNat / 0x100),
    UInt8.ofNat (w.toInt % 0x10000).toNat, rfl, ?_⟩
  rw [signedOfBytes_ofNat (by omega)]
  by_cases h : (w.toInt % 0x10000).toNat < 0x8000
  · rw [if_pos h]; omega
  · rw [if_neg h]; omega

end DecimalMachine.Word
