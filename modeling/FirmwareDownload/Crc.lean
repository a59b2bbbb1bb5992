import FirmwareDownload.Bytes

/-! The cyclic redundancy check of a frame: the remainder of a division by
x^16 + x^12 + x^5 + 1, most significant bit first, started from all ones. -/

namespace FirmwareDownload

namespace Crc

/-- The divisor without its leading term. -/
def divisor : UInt16 := 0x1021

/-- One step of the division: the remainder moves up a place, and the divisor is
taken off when a one leaves it. -/
def shift (r : UInt16) : UInt16 :=
  if r &&& 0x8000 = 0 then r <<< 1 else (r <<< 1) ^^^ divisor

def shifts : Nat → UInt16 → UInt16
  | 0, r => r
  | n + 1, r => shifts n (shift r)

/-- A byte enters at the upper end of the remainder and takes eight steps. -/
def absorb (r : UInt16) (b : UInt8) : UInt16 := shifts 8 (r ^^^ b.toUInt16 <<< 8)

end Crc

def crc16 (data : Bytes) : UInt16 := data.foldl Crc.absorb 0xFFFF

end FirmwareDownload
