import FirmwareDownload.Bytes

/-! The status byte that opens every answer of the controller. -/

namespace FirmwareDownload

inductive Status
  | ok
  | invalidAddr
  | unknownCommand
  | abortedCommand
  | pllError
  | addrRangeOverflow
  | bufferOverflow
  | memBusy
  | signatureError
  | firmwareVersionError
  | protocolError
  | degraded
  /-- The first fragment of a segmented record was accepted. -/
  | firstChunkAck
  /-- A further fragment of a segmented record was accepted. -/
  | nextChunkAck
  | internalError5
  | unknown (byte : UInt8)
  deriving DecidableEq, Repr, Inhabited

namespace Status

def ofByte (b : UInt8) : Status :=
  if b = 0x00 then ok
  else if b = 0x01 then invalidAddr
  else if b = 0x0B then unknownCommand
  else if b = 0x0C then abortedCommand
  else if b = 0x0D then pllError
  else if b = 0x1E then addrRangeOverflow
  else if b = 0x1F then bufferOverflow
  else if b = 0x20 then memBusy
  else if b = 0x21 then signatureError
  else if b = 0x24 then firmwareVersionError
  else if b = 0x28 then protocolError
  else if b = 0x2A then degraded
  else if b = 0x2D then firstChunkAck
  else if b = 0x2E then nextChunkAck
  else if b = 0xC5 then internalError5
  else unknown b

def toByte : Status → UInt8
  | ok => 0x00
  | invalidAddr => 0x01
  | unknownCommand => 0x0B
  | abortedCommand => 0x0C
  | pllError => 0x0D
  | addrRangeOverflow => 0x1E
  | bufferOverflow => 0x1F
  | memBusy => 0x20
  | signatureError => 0x21
  | firmwareVersionError => 0x24
  | protocolError => 0x28
  | degraded => 0x2A
  | firstChunkAck => 0x2D
  | nextChunkAck => 0x2E
  | internalError5 => 0xC5
  | unknown b => b

def name : Status → String
  | ok => "OK"
  | invalidAddr => "INVALID_ADDR"
  | unknownCommand => "UNKNOWN_CMD"
  | abortedCommand => "ABORTED_CMD"
  | pllError => "PLL_ERROR"
  | addrRangeOverflow => "ADDR_RANGE_OFL"
  | bufferOverflow => "BUFFER_OFL"
  | memBusy => "MEM_BSY"
  | signatureError => "SIGNATURE_ERROR"
  | firmwareVersionError => "FIRMWARE_VERSION_ERROR"
  | protocolError => "PROTOCOL_ERROR"
  | degraded => "SFWU_DEGRADED"
  | firstChunkAck => "FIRST_FRAGFRAME_RESP"
  | nextChunkAck => "NEXT_FRAGFRAME_RESP"
  | internalError5 => "INTERNAL_ERROR_5"
  | unknown _ => "UNKNOWN"

def text (s : Status) : String := s.name ++ " (0x" ++ hex2 s.toByte ++ ")"

def debugText (s : Status) : String := "DlStatus(" ++ hex2 s.toByte ++ " '" ++ s.name ++ "')"

/-- The status acknowledges a frame, whole or fragment. -/
def isAck (s : Status) : Bool := s = ok ∨ s = firstChunkAck ∨ s = nextChunkAck

/-- The status is a hardware failure that selects a recovery image. -/
def isRecoverable (s : Status) : Bool := s = pllError ∨ s = signatureError

end Status

end FirmwareDownload
