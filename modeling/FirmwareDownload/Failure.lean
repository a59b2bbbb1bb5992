import FirmwareDownload.Command
import FirmwareDownload.Frame
import FirmwareDownload.Image
import FirmwareDownload.Integrity
import FirmwareDownload.Host

/-! Why a command fails. -/

namespace FirmwareDownload

inductive BufferUse
  | version
  | sessionState
  | integrity
  | read
  | log
  | rawResponse
  deriving DecidableEq, Repr

def BufferUse.text : BufferUse → String
  | version => "version"
  | sessionState => "session state"
  | integrity => "integrity"
  | read => "read"
  | log => "log"
  | rawResponse => "raw response"

/-- What is wrong with the arguments of a call, or missing in a session. -/
inductive ParameterFault
  | noFrameRequested
  | noUserData
  | noCommand
  | emptyBuffer (use : BufferUse)
  | logEntrySize (length : Nat)
  | rawFrameSize (length : Nat)
  | emptyWriteBuffer
  | malformedImage (error : ImageError)
  deriving DecidableEq, Repr

def ParameterFault.message : ParameterFault → String
  | noFrameRequested => "no frame requested"
  | noUserData => "no user data"
  | noCommand => "no command in flight"
  | emptyBuffer use => use.text ++ " response buffer is empty"
  | logEntrySize length => s!"log entry of {length} bytes, expected 1..=64"
  | rawFrameSize length => s!"raw frame of {length} bytes, expected 1..=256"
  | emptyWriteBuffer => "write buffer is empty"
  | malformedImage error => error.message

inductive ReportFault
  | sessionLength (length : Nat)
  | notOperational (lifeCycle : UInt8)
  | stillOpen
  | emptyVersion
  | unknownRevision (revision : UInt8)
  | logLength (length : Nat)
  deriving DecidableEq, Repr

def ReportFault.what : ReportFault → String
  | sessionLength _ | notOperational _ | stillOpen => "session state"
  | emptyVersion | unknownRevision _ => "version"
  | logLength _ => "download log"

def ReportFault.detail : ReportFault → String
  | sessionLength length => s!"{length} bytes"
  | notOperational lifeCycle => s!"life cycle {lifeCycle.toNat} is not operational"
  | stillOpen => "session still open after the download"
  | emptyVersion => "empty"
  | unknownRevision revision => "unknown chip version 0x" ++ hex2 revision
  | logLength length => s!"{length} bytes"

/-- Causes of a failure that has no class of its own. -/
inductive Failure
  | frame (error : FrameError)
  | link (error : LinkError)
  | timer (error : TimerError)
  | image (error : ImageError)
  | unexpectedStatus (status : Status)
  | shortRead (expected actual : Nat)
  | responseOverflow (length capacity : Nat)
  | resendLimit (limit : UInt32)
  | integrity (flags : RegionFlags)
  | badReport (fault : ReportFault)
  | versionMismatch (expected actual : FirmwareVersion)
  | abandoned
  deriving DecidableEq, Repr

def Failure.message : Failure → String
  | frame error => "frame error: " ++ error.message
  | link error => "transport error: " ++ error.message
  | timer error => "timer error: " ++ error.message
  | image error => "image error: " ++ error.message
  | unexpectedStatus status => "unexpected device status " ++ status.text
  | shortRead expected actual => s!"read returned {actual} bytes, requested {expected}"
  | responseOverflow length capacity =>
    s!"response payload of {length} bytes exceeds buffer of {capacity}"
  | resendLimit limit => s!"device still busy after {limit.toNat} resends"
  | integrity flags => "integrity check failed: " ++ flags.text
  | badReport fault => "unexpected " ++ fault.what ++ " report: " ++ fault.detail
  | versionMismatch expected actual =>
    "firmware version " ++ expected.text ++ " not running after download, device reports " ++
      actual.text
  | abandoned => "session ended without delivering a completion"

def Failure.chain : Failure → List String
  | frame error => [(frame error).message, error.message]
  | link error => [(link error).message, error.message]
  | timer error => [(timer error).message, error.message]
  | image error => (image error).message :: error.chain
  | other => [other.message]

inductive DownloadError
  | invalidParameter (fault : ParameterFault)
  | busy
  | timeout
  /-- The controller reported a loop failure while writing. -/
  | writeFailed
  /-- The controller rejected the signature of the image. -/
  | rejected
  | versionError
  | failed (cause : Failure)
  deriving DecidableEq, Repr

namespace DownloadError

def message : DownloadError → String
  | invalidParameter fault => "Invalid parameter: " ++ fault.message
  | busy => "Another download command is in progress"
  | timeout => "No response within the response timeout"
  | writeFailed => "Write failed: controller reported PLL error"
  | rejected => "Write rejected: signature mismatch"
  | versionError => "Firmware version error"
  | failed cause => "Command failed: " ++ cause.message

/-- The error and what caused it, as texts, each cause after its effect. -/
def chain : DownloadError → List String
  | failed cause => (failed cause).message :: cause.chain
  | other => [other.message]

/-- A recovery image may mend this failure. -/
def isRecoverable (e : DownloadError) : Bool := e = writeFailed ∨ e = rejected

end DownloadError

end FirmwareDownload
