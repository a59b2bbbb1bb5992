import FirmwareDownload.Engine.Run
import FirmwareDownload.Image.Selection

/-! The calls that start a command. A call is refused while a session runs, and
when its arguments are not valid; either way nothing has changed. -/

namespace FirmwareDownload

inductive Call
  | reset
  | getVersion (capacity : Nat)
  | getSessionState (capacity : Nat)
  | checkIntegrity (revision : UInt8) (capacity : Nat)
  | read (addr : UInt32) (capacity : Nat)
  | readLog (capacity : Nat)
  /-- Reads the platform area, in download mode. -/
  | readPlatform
  /-- Writes `data`, or without it an image from the library. -/
  | write (recovery : Bool) (data : Option Bytes)
  /-- Stores 1 to 64 bytes in the log area. -/
  | log (entry : Bytes)
  | force (clock : Option ClockSource)
  | raw (frame : Bytes) (capacity : Nat)
  deriving DecidableEq, Repr

def logAreaStart : UInt32 := 0x201F80

def logAreaSize : Nat := 64

def platformAreaStart : UInt32 := 0x2011C0

def platformAreaSize : Nat := 3519

namespace Engine

variable {W : Type} [Host W]

def invalid (e : Engine W) (fault : ParameterFault) : Except DownloadError Unit × Engine W :=
  (.error (.invalidParameter fault), e)

def launch (e : Engine W) : Except DownloadError Unit × Engine W :=
  match e.createTimer with
  | (.error err, e) => (.error err, e)
  | (.ok (), e) => (e.enter .send).sendNext

/-- Arms the session and launches it. If that fails the session is cleared and
the call returns the error; no completion follows. -/
def start (e : Engine W) (command : Command) (request : Request) (userData : Option Bytes)
    (capacity : Nat) : Except DownloadError Unit × Engine W :=
  let e := e.withSession { e.session with
    command := some command
    busy := true
    request := request
    userData := userData.map List.toArray
    response := .ofCapacity capacity
    responseLength := 0
    resendCount := 0
    awaited := true }
  match (e.note (.started command)).launch with
  | (.ok (), e) => (.ok (), e)
  | (.error err, e) =>
    let e := e.release
    (.error err, (e.withSession e.session.reset).note (.finished command (some err)))

/-- A call that hands over a response buffer needs room in it. -/
def startWithBuffer (e : Engine W) (use : BufferUse) (command : Command) (request : Request)
    (capacity : Nat) : Except DownloadError Unit × Engine W :=
  if capacity = 0 then e.invalid (.emptyBuffer use) else e.start command request none capacity

def startRead (e : Engine W) (addr : UInt32) (capacity : Nat) :
    Except DownloadError Unit × Engine W :=
  (e.withSession { e.session with transfer := .startRead addr capacity }).start
    .read (.read addr) none capacity

def startWrite (e : Engine W) (data : Bytes) : Except DownloadError Unit × Engine W :=
  (e.withSession { e.session with
    transfer := { firstWrite := true }, resendLastFrame := false }).start .write .write (some data) 0

/-- Loads a named image; the primary one is kept. -/
def chooseImage (e : Engine W) (recovery : Bool) : Except DownloadError Image × Engine W :=
  let kind := ImageKind.select recovery e.session.lastStatus
  match kind, e.primary with
  | .primary, some image => (.ok image, e)
  | _, _ =>
    match e.library kind with
    | .error err => (.error (.failed (.image err)), e)
    | .ok image => (.ok image, if kind = .primary then { e with primary := some image } else e)

def callWrite (e : Engine W) (recovery : Bool) (data : Option Bytes) :
    Except DownloadError Unit × Engine W :=
  match data with
  | some [] => e.invalid .emptyWriteBuffer
  | some data =>
    match Image.ofBytes data with
    | .error err => e.invalid (.malformedImage err)
    | .ok _ => e.startWrite data
  | none =>
    match e.chooseImage recovery with
    | (.error err, e) => (.error err, e)
    | (.ok image, e) => e.startWrite image.data

def callReadPlatform (e : Engine W) : Except DownloadError Unit × Engine W :=
  match e.setHostMode .download with
  | (.error err, e) => (.error (.failed (.link err)), e)
  | (.ok (), e) =>
    (e.withSession { e.session with restoreNormalMode := true }).startRead
      platformAreaStart platformAreaSize

def callIdle (e : Engine W) : Call → Except DownloadError Unit × Engine W
  | .reset => e.start .reset (.fixed RequestId.reset) none 0
  | .getVersion capacity =>
    e.startWithBuffer .version .getVersion (.fixed RequestId.getVersion) capacity
  | .getSessionState capacity =>
    e.startWithBuffer .sessionState .getSessionState (.fixed RequestId.getSessionState) capacity
  | .checkIntegrity revision capacity =>
    let area := if coversUserData revision then some e.config.chip.userDataArea else none
    e.startWithBuffer .integrity .checkIntegrity (.integrity area) capacity
  | .read addr capacity =>
    if capacity = 0 then e.invalid (.emptyBuffer .read) else e.startRead addr capacity
  | .readLog capacity =>
    if capacity = 0 then e.invalid (.emptyBuffer .log) else e.startRead logAreaStart capacity
  | .readPlatform => e.callReadPlatform
  | .write recovery data => e.callWrite recovery data
  | .log entry =>
    if entry = [] ∨ logAreaSize < entry.length then e.invalid (.logEntrySize entry.length)
    else e.start .log .log (some entry) 0
  | .force clock =>
    let (p0, p1, p2) := clockBytes clock
    e.start .force (.force p0 p1 p2) none 0
  | .raw frame capacity =>
    if frame = [] ∨ Frame.maxLength < frame.length then e.invalid (.rawFrameSize frame.length)
    else if capacity = 0 then e.invalid (.emptyBuffer .rawResponse)
    else e.start .raw .raw (some frame) capacity

/-- Starts a command. Its completion is delivered later if this succeeds. -/
def call (e : Engine W) (c : Call) : Except DownloadError Unit × Engine W :=
  if e.session.busy then (.error .busy, e) else e.callIdle c

def setMode (e : Engine W) (mode : DeviceMode) : Except DownloadError Unit × Engine W :=
  if e.session.busy then (.error .busy, e)
  else
    match e.setHostMode mode with
    | (.error err, e) => (.error (.failed (.link err)), e)
    | (.ok (), e) => (.ok (), e)

def loadPrimary (e : Engine W) : Except DownloadError (Option FirmwareVersion) × Engine W :=
  match e.library .primary with
  | .error err => (.error (.failed (.image err)), e)
  | .ok image => (.ok image.version?, { e with primary := some image })

def primaryVersion? (e : Engine W) : Option FirmwareVersion := e.primary.bind Image.version?

end Engine

end FirmwareDownload
