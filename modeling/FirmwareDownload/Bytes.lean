/-! Byte strings: the two byte orders of the protocol, pieces, and hexadecimal text. -/

namespace FirmwareDownload

abbrev Bytes := List UInt8

/-- The word whose bytes are `hi` and `lo`. -/
def word (hi lo : UInt8) : UInt16 := hi.toUInt16 <<< 8 ||| lo.toUInt16

def highByte (w : UInt16) : UInt8 := (w >>> 8).toUInt8

def lowByte (w : UInt16) : UInt8 := w.toUInt8

theorem highByte_word (hi lo : UInt8) : highByte (word hi lo) = hi := by
  apply UInt8.toBitVec_inj.mp
  apply BitVec.eq_of_getLsbD_eq
  intro i h
  simp [highByte, word, h, show i < 16 by omega, show 8 + i < 16 by omega]

theorem lowByte_word (hi lo : UInt8) : lowByte (word hi lo) = lo := by
  apply UInt8.toBitVec_inj.mp
  apply BitVec.eq_of_getLsbD_eq
  intro i h
  simp [lowByte, word, h]

theorem word_highByte_lowByte (w : UInt16) : word (highByte w) (lowByte w) = w := by
  apply UInt16.toBitVec_inj.mp
  apply BitVec.eq_of_getLsbD_eq
  intro i h
  simp only [word, highByte, lowByte, UInt16.toBitVec_or, UInt16.toBitVec_shiftLeft,
    UInt8.toBitVec_toUInt16, UInt16.toBitVec_toUInt8, UInt16.toBitVec_shiftRight,
    BitVec.getLsbD_or, BitVec.getLsbD_setWidth]
  by_cases h8 : i < 8
  · simp [h8, h]
  · simp [h8, h, show i - 8 < 8 by omega, show 8 + (i - 8) = i by omega]

theorem toNat_word (hi lo : UInt8) : (word hi lo).toNat = 256 * hi.toNat + lo.toNat := by
  have hl : lo.toNat < 256 := lo.toNat_lt
  have hh : hi.toNat < 256 := hi.toNat_lt
  have hs : hi.toNat <<< 8 = 256 * hi.toNat := by rw [Nat.shiftLeft_eq, Nat.mul_comm]
  simp only [word, UInt16.toNat_or, UInt16.toNat_shiftLeft, UInt8.toNat_toUInt16]
  rw [show (8 : UInt16).toNat % 16 = 8 from rfl, hs, Nat.mod_eq_of_lt (by omega), ← hs,
    ← Nat.shiftLeft_add_eq_or_of_lt (by omega), hs]

def bigEndian16 (w : UInt16) : Bytes := [highByte w, lowByte w]

theorem length_bigEndian16 (w : UInt16) : (bigEndian16 w).length = 2 := rfl

def littleEndian16 (w : UInt16) : Bytes := [lowByte w, highByte w]

def littleEndian32 (w : UInt32) : Bytes :=
  [w.toUInt8, (w >>> 8).toUInt8, (w >>> 16).toUInt8, (w >>> 24).toUInt8]

theorem littleEndian16_eq (w : UInt16) :
    littleEndian16 w = [w.toNat.toUInt8, (w.toNat / 256).toUInt8] := by
  have hlow : lowByte w = w.toNat.toUInt8 := UInt8.toNat_inj.mp (by simp [lowByte])
  have hhigh : highByte w = (w.toNat / 256).toUInt8 :=
    UInt8.toNat_inj.mp (by simp [highByte, Nat.shiftRight_eq_div_pow])
  rw [littleEndian16, hlow, hhigh]

theorem toUInt8_shiftRight (w : UInt32) {k : Nat} (hk : k < 32) :
    (w >>> k.toUInt32).toUInt8 = (w.toNat >>> k).toUInt8 := by
  apply UInt8.toNat_inj.mp
  have hs : k.toUInt32.toNat = k := UInt32.toNat_ofNat_of_lt' (Nat.lt_trans hk (by decide))
  rw [UInt32.toNat_toUInt8, UInt32.toNat_shiftRight, hs, Nat.mod_eq_of_lt hk, Nat.toUInt8_eq,
    UInt8.toNat_ofNat']

theorem littleEndian32_eq (w : UInt32) : littleEndian32 w =
    [w.toNat.toUInt8, (w.toNat / 256).toUInt8, (w.toNat / 65536).toUInt8,
      (w.toNat / 16777216).toUInt8] := by
  have h0 : w.toUInt8 = w.toNat.toUInt8 := UInt8.toNat_inj.mp (by simp)
  have h8 : (w >>> 8).toUInt8 = (w.toNat / 256).toUInt8 :=
    (toUInt8_shiftRight w (k := 8) (by decide)).trans
      (congrArg Nat.toUInt8 (Nat.shiftRight_eq_div_pow w.toNat 8))
  have h16 : (w >>> 16).toUInt8 = (w.toNat / 65536).toUInt8 :=
    (toUInt8_shiftRight w (k := 16) (by decide)).trans
      (congrArg Nat.toUInt8 (Nat.shiftRight_eq_div_pow w.toNat 16))
  have h24 : (w >>> 24).toUInt8 = (w.toNat / 16777216).toUInt8 :=
    (toUInt8_shiftRight w (k := 24) (by decide)).trans
      (congrArg Nat.toUInt8 (Nat.shiftRight_eq_div_pow w.toNat 24))
  rw [littleEndian32, h0, h8, h16, h24]

/-- The double word whose bytes are given from the least significant one up. -/
def doubleWord (b0 b1 b2 b3 : UInt8) : UInt32 :=
  b0.toUInt32 ||| b1.toUInt32 <<< 8 ||| b2.toUInt32 <<< 16 ||| b3.toUInt32 <<< 24

namespace Bytes

/-- The byte at `i`, zero past the end. -/
def byteAt (data : Bytes) (i : Nat) : UInt8 := data.getD i 0

/-- The big-endian word at `i`. -/
def wordAt (data : Bytes) (i : Nat) : UInt16 := word (byteAt data i) (byteAt data (i + 1))

/-- The little-endian word at `i`. -/
def lowWordAt (data : Bytes) (i : Nat) : UInt16 := word (byteAt data (i + 1)) (byteAt data i)

/-- `data` with `piece` in place of as many bytes from `offset` on. -/
def overwrite (data : Bytes) (offset : Nat) (piece : Bytes) : Bytes :=
  data.take offset ++ piece ++ data.drop (offset + piece.length)

theorem length_overwrite {data piece : Bytes} {offset : Nat}
    (h : offset + piece.length ≤ data.length) :
    (overwrite data offset piece).length = data.length := by
  simp only [overwrite, List.length_append, List.length_take, List.length_drop]
  omega

end Bytes

/-- The digits of hexadecimal text, in lower or upper case. -/
def hexDigit (upper : Bool) (n : Nat) : Char :=
  if n < 10 then Char.ofNat (48 + n) else Char.ofNat ((if upper then 55 else 87) + n)

def hexByte (upper : Bool) (b : UInt8) : List Char :=
  [hexDigit upper (b.toNat / 16), hexDigit upper (b.toNat % 16)]

def Bytes.hex (data : Bytes) : String := String.ofList (data.flatMap (hexByte false))

def Bytes.upperHex (data : Bytes) : String := String.ofList (data.flatMap (hexByte true))

def hex2 (b : UInt8) : String := Bytes.upperHex [b]

def hex4 (w : UInt16) : String := Bytes.upperHex (bigEndian16 w)

def hexValue? (c : Char) : Option UInt8 :=
  if '0' ≤ c ∧ c ≤ '9' then some (c.toNat - 48).toUInt8
  else if 'a' ≤ c ∧ c ≤ 'f' then some (c.toNat - 87).toUInt8
  else if 'A' ≤ c ∧ c ≤ 'F' then some (c.toNat - 55).toUInt8
  else none

end FirmwareDownload
