/-!
# Bytes and words

Sixteen-bit words are put together from bytes and taken apart again, and signed bytes are
widened to words.
-/

namespace Microboard

def joinBytes (high low : UInt8) : UInt16 := UInt16.ofNat (high.toNat * 256 + low.toNat)

def highByte (word : UInt16) : UInt8 := UInt8.ofNat (word.toNat / 256)

def lowByte (word : UInt16) : UInt8 := UInt8.ofNat word.toNat

/-- The word that stands for the same two's complement number as a byte. -/
def signExtend (byte : UInt8) : UInt16 :=
  if byte < 0x80 then byte.toUInt16 else joinBytes 0xFF byte

theorem joinBytes_highByte_lowByte (word : UInt16) :
    joinBytes (highByte word) (lowByte word) = word := by
  have bound := word.toNat_lt
  apply UInt16.toNat_inj.mp
  simp only [joinBytes, highByte, lowByte, UInt8.toNat_ofNat', UInt16.toNat_ofNat']
  omega

theorem highByte_joinBytes (high low : UInt8) : highByte (joinBytes high low) = high := by
  have boundHigh := high.toNat_lt
  have boundLow := low.toNat_lt
  apply UInt8.toNat_inj.mp
  simp only [joinBytes, highByte, UInt8.toNat_ofNat', UInt16.toNat_ofNat']
  omega

theorem lowByte_joinBytes (high low : UInt8) : lowByte (joinBytes high low) = low := by
  have boundHigh := high.toNat_lt
  have boundLow := low.toNat_lt
  apply UInt8.toNat_inj.mp
  simp only [joinBytes, lowByte, UInt8.toNat_ofNat', UInt16.toNat_ofNat']
  omega

theorem toBitVec_joinBytes (high low : UInt8) :
    (joinBytes high low).toBitVec = high.toBitVec ++ low.toBitVec := by
  have boundHigh := high.toNat_lt
  have boundLow := low.toNat_lt
  apply BitVec.eq_of_toNat_eq
  rw [BitVec.toNat_append, ← Nat.shiftLeft_add_eq_or_of_lt low.toBitVec.isLt, Nat.shiftLeft_eq]
  exact Nat.mod_eq_of_lt (show high.toNat * 256 + low.toNat < 65536 by omega)

theorem joinBytes_and (high low high' low' : UInt8) :
    joinBytes high low &&& joinBytes high' low' = joinBytes (high &&& high') (low &&& low') := by
  apply UInt16.toBitVec_inj.mp
  rw [UInt16.toBitVec_and, toBitVec_joinBytes, toBitVec_joinBytes, toBitVec_joinBytes,
    UInt8.toBitVec_and, UInt8.toBitVec_and]
  exact BitVec.and_append

theorem or_and_distrib (a b mask : UInt8) : (a ||| b) &&& mask = a &&& mask ||| b &&& mask := by
  apply UInt8.toBitVec_inj.mp
  rw [UInt8.toBitVec_and, UInt8.toBitVec_or, UInt8.toBitVec_or, UInt8.toBitVec_and,
    UInt8.toBitVec_and]
  exact BitVec.and_or_distrib_right

end Microboard
