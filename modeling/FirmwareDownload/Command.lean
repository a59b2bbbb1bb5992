import FirmwareDownload.Bytes
import FirmwareDownload.Clock

/-! The commands of the controller, the shape of their sessions, and what a
session asks to be built as its next frame. -/

namespace FirmwareDownload

inductive Command
  | reset
  | getVersion
  | getSessionState
  | checkIntegrity
  | read
  | write
  | log
  | force
  | raw
  deriving DecidableEq, Repr

/-- The course of a session. -/
inductive Shape
  /-- One frame and its answer. -/
  | plain
  /-- Goes on until all bytes are transferred, and resends when the memory is busy. -/
  | readWrite
  deriving DecidableEq, Repr

namespace Command

def text : Command → String
  | reset => "RESET"
  | getVersion => "GET_VERSION"
  | getSessionState => "GET_SESSION_STATE"
  | checkIntegrity => "CHECK_INTEGRITY"
  | read => "READ"
  | write => "WRITE"
  | log => "LOG"
  | force => "FORCE"
  | raw => "RAW"

def shape : Command → Shape
  | reset | getVersion | getSessionState | checkIntegrity | raw => .plain
  | read | write | log | force => .readWrite

end Command

/-! Frame identifiers of requests. -/

namespace RequestId

def reset : UInt8 := 0xF0
def getVersion : UInt8 := 0xF1
def getSessionState : UInt8 := 0xF2
def checkIntegrity : UInt8 := 0xE0
def write : UInt8 := 0xC0
def read : UInt8 := 0xA2
def log : UInt8 := 0xA7
def force : UInt8 := 0xD0

end RequestId

inductive Request
  | none
  /-- An identifier and three zero bytes. -/
  | fixed (id : UInt8)
  /-- An integrity check, with the offset and length of the user-data area if it covers that. -/
  | integrity (area : Option (UInt16 × UInt16))
  | read (addr : UInt32)
  /-- The next record or fragment of the user data. -/
  | write
  /-- The log entry in the user data. -/
  | log
  | force (p0 p1 p2 : UInt8)
  /-- The user data as it is. -/
  | raw
  deriving DecidableEq, Repr

/-- The request of the commands that have neither arguments nor data. -/
def Request.ofFixed? : Command → Option Request
  | .reset => some (.fixed RequestId.reset)
  | .getVersion => some (.fixed RequestId.getVersion)
  | .getSessionState => some (.fixed RequestId.getSessionState)
  | _ => Option.none

end FirmwareDownload
