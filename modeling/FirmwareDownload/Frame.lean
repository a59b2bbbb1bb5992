import FirmwareDownload.Crc
import FirmwareDownload.Status

/-! Frames on the wire: a two-byte header with the length of the body, the body
(an identifier or status byte and a payload), and the check over all of it.
Bit 10 of the header says that more fragments of the same record follow. -/

namespace FirmwareDownload

inductive FrameError
  | tooShort (actual minimum : Nat)
  | bodyTooLarge (length limit : Nat)
  | emptyBody
  | rawTooLarge (length limit : Nat)
  | crcMismatch (expected actual : UInt16)
  | lengthMismatch (declared actual : Nat)
  deriving DecidableEq, Repr

def FrameError.message : FrameError → String
  | tooShort actual minimum => s!"Frame too short: {actual} bytes, minimum {minimum}"
  | bodyTooLarge length limit => s!"Frame body of {length} bytes exceeds maximum {limit}"
  | emptyBody => "Frame body is empty"
  | rawTooLarge length limit => s!"Raw frame of {length} bytes exceeds buffer size {limit}"
  | crcMismatch expected actual =>
    "CRC mismatch: expected 0x" ++ hex4 expected ++ ", got 0x" ++ hex4 actual
  | lengthMismatch declared actual =>
    s!"Length mismatch: header declares {declared}, frame carries {actual}"

structure Frame where
  /-- The identifier of a request, the status of an answer. -/
  code : UInt8
  payload : Bytes
  more : Bool
  deriving DecidableEq, Repr

namespace Frame

def maxLength : Nat := 256

/-- The largest body: what header and check leave of a frame. -/
def maxBody : Nat := 252

/-- Header, one byte of body, and check. -/
def minLength : Nat := 5

def moreBit : UInt16 := 0x0400

/-- The bits of the header that hold the length. -/
def lengthMask : UInt16 := 0x03FF

def header (bodyLength : Nat) (more : Bool) : UInt16 :=
  if more then bodyLength.toUInt16 ||| moreBit else bodyLength.toUInt16

def wrap (body : Bytes) (more : Bool) : Bytes :=
  let covered := bigEndian16 (header body.length more) ++ body
  covered ++ bigEndian16 (crc16 covered)

def encode (f : Frame) : Except FrameError Bytes :=
  let bodyLength := 1 + f.payload.length
  if bodyLength ≤ maxBody then .ok (wrap (f.code :: f.payload) f.more)
  else .error (.bodyTooLarge bodyLength maxBody)

/-- Reads a frame; the check is looked at before the length. -/
def decode (raw : Bytes) : Except FrameError Frame :=
  if raw.length < minLength then .error (.tooShort raw.length minLength)
  else
    let covered := raw.take (raw.length - 2)
    let expected := crc16 covered
    let actual := Bytes.wordAt raw (raw.length - 2)
    if expected ≠ actual then .error (.crcMismatch expected actual)
    else
      let header := Bytes.wordAt raw 0
      let declared := (header &&& lengthMask).toNat
      let carried := raw.length - 4
      if declared ≠ carried then .error (.lengthMismatch declared carried)
      else .ok ⟨Bytes.byteAt raw 2, covered.drop 3, header &&& moreBit ≠ 0⟩

def status (f : Frame) : Status := Status.ofByte f.code

end Frame

end FirmwareDownload
