import FirmwareDownload.Bytes

/-! The download statistics that are kept in the log area: six counters of sixteen
bits, least significant byte first, and a flag. -/

namespace FirmwareDownload

structure Statistics where
  middleware : UInt16 := 0
  firmware : UInt16 := 0
  triggered : UInt16 := 0
  succeeded : UInt16 := 0
  failed : UInt16 := 0
  /-- Failures since the last success. -/
  consecutive : UInt16 := 0
  /-- Set by a success, until normal mode applies the configuration. -/
  pending : Bool := false
  deriving DecidableEq, Repr, Inhabited

namespace Statistics

def size : Nat := 13

def toBytes (s : Statistics) : Bytes :=
  [s.middleware, s.firmware, s.triggered, s.succeeded, s.failed, s.consecutive].flatMap
    littleEndian16 ++ [if s.pending then 1 else 0]

/-- Reads the record at the front of `data`; any flag but zero counts as set. -/
def ofBytes? (data : Bytes) : Option Statistics :=
  if data.length < size then none
  else some {
    middleware := data.lowWordAt 0
    firmware := data.lowWordAt 2
    triggered := data.lowWordAt 4
    succeeded := data.lowWordAt 6
    failed := data.lowWordAt 8
    consecutive := data.lowWordAt 10
    pending := data.byteAt 12 ≠ 0 }

/-- The counters wrap around. -/
def countTrigger (s : Statistics) : Statistics := { s with triggered := s.triggered + 1 }

def countFailure (s : Statistics) : Statistics :=
  { s with failed := s.failed + 1, consecutive := s.consecutive + 1, pending := false }

def countSuccess (s : Statistics) : Statistics :=
  { s with succeeded := s.succeeded + 1, consecutive := 0, pending := true }

end Statistics

end FirmwareDownload
