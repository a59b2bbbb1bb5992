import FirmwareDownload.Chip
import FirmwareDownload.Command
import FirmwareDownload.Frame
import FirmwareDownload.Integrity
import FirmwareDownload.Host

/-! A model of the controller behind its link. In download mode it answers every
frame that it is sent; in normal mode it only knows the core reset. The download
session is open from the first fragment of a record until the record is
committed, and after a write fault until the next reset. The first record of a
burst of writes carries the version that the chip reports from then on. -/

namespace FirmwareDownload

abbrev Memory := UInt32 → UInt8

namespace Memory

/-- Cells that were never programmed read as ones. -/
def erased : Memory := fun _ => 0xFF

/-- Programs `data` from `addr` on; addresses wrap around. -/
def store (m : Memory) (addr : UInt32) (data : Bytes) : Memory := fun cell =>
  (data[(cell - addr).toNat]?).getD (m cell)

/-- The `n` cells from `addr` on; addresses wrap around. -/
def load (m : Memory) (addr : UInt32) (n : Nat) : Bytes :=
  (List.range n).map (fun i => m (addr + i.toUInt32))

end Memory

structure Controller where
  identity : ChipIdentity := {}
  memory : Memory := .erased
  sessionOpen : Bool := false
  /-- The last frame was a write record that the next one may continue. -/
  inBurst : Bool := false
  recordCount : Nat := 0
  /-- Regions that fail their check. -/
  corrupt : UInt8 := 0
  /-- The body so far of a record that arrives in fragments. -/
  openRecord : Option Bytes := none
  /-- Statuses that answer the next write, read and log frames. -/
  injected : List Status := []
  /-- Statuses that answer the next write records only. -/
  writeFaults : List Status := []
  normalMode : Bool := false
  silent : Bool := false
  /-- Answers not fetched yet, oldest first. -/
  outbox : List Bytes := []
  pendingRead : Option Ticket := none
  frameCount : Nat := 0
  /-- Mode switches, oldest first. -/
  modes : List DeviceMode := []

namespace Controller

def respond (c : Controller) (status : Status) (payload : Bytes) : Controller :=
  match Frame.encode ⟨status.toByte, payload, false⟩ with
  | .ok raw => { c with outbox := c.outbox ++ [raw] }
  | .error _ => c

def inject (c : Controller) (status : Status) (count : Nat) : Controller :=
  { c with injected := c.injected ++ List.replicate count status }

def injectWrite (c : Controller) (status : Status) (count : Nat) : Controller :=
  { c with writeFaults := c.writeFaults ++ List.replicate count status }

def poke (c : Controller) (addr : UInt32) (data : Bytes) : Controller :=
  { c with memory := c.memory.store addr data }

def peek (c : Controller) (addr : UInt32) (n : Nat) : Bytes := c.memory.load addr n

def corruptRegion (c : Controller) (r : Region) : Controller :=
  { c with corrupt := c.corrupt ||| r.mask }

/-! ## Reports -/

def versionReport (id : ChipIdentity) : Bytes :=
  let length := (reportLength? (id.hardware &&& 0x0F)).getD 11
  [id.hardware, id.rom] ++ List.replicate (length - 4) 0 ++ [id.minor, id.major]

def operational : UInt8 := 17

def sessionReport (isOpen : Bool) : Bytes := [if isOpen then 1 else 0, 0, operational]

def integrityReport (corrupt : UInt8) : Bytes :=
  (RegionFlags.allPassed &&& ~~~corrupt) :: List.replicate 30 0

/-! ## Frames -/

def commit (c : Controller) : Controller :=
  { c with recordCount := c.recordCount + 1, sessionOpen := false }.respond .ok []

def answerRead (c : Controller) (payload : Bytes) : Controller :=
  match payload with
  | _ :: n0 :: n1 :: a0 :: a1 :: a2 :: a3 :: _ =>
    let n := (word n1 n0).toNat
    let addr := doubleWord a0 a1 a2 a3
    if 248 < n then c.respond .bufferOverflow []
    else if 0 < n ∧ UInt32.size < addr.toNat + n then c.respond .addrRangeOverflow []
    else c.respond .ok ([0, n0, n1] ++ c.memory.load addr n)
  | _ => c.respond .protocolError []

def continueRecord (c : Controller) (body : Bytes) (frame : Frame) : Controller :=
  match c.injected with
  | status :: rest => { c with injected := rest, openRecord := some body }.respond status []
  | [] =>
    let body := body ++ frame.code :: frame.payload
    if frame.more then { c with openRecord := some body }.respond .nextChunkAck []
    else { c with openRecord := none }.commit

/-- The status injected for a frame, if there is one for it. -/
def takeInjected (c : Controller) (code : UInt8) : Option Status × Controller :=
  if code = RequestId.write then
    match c.writeFaults, c.injected with
    | status :: rest, _ => (some status, { c with writeFaults := rest })
    | [], status :: rest => (some status, { c with injected := rest })
    | [], [] => (none, c)
  else if code = RequestId.read ∨ code = RequestId.log then
    match c.injected with
    | status :: rest => (some status, { c with injected := rest })
    | [] => (none, c)
  else (none, c)

/-- Answers a frame with an injected status. A write that fails leaves the session
open, and one that opens a burst opens it again when it is sent anew. -/
def answerInjected (c : Controller) (code : UInt8) (firstInBurst : Bool) (status : Status) :
    Controller :=
  if code = RequestId.write then
    { c with
      sessionOpen := c.sessionOpen || status != Status.memBusy
      inBurst := c.inBurst && status == Status.memBusy && !firstInBurst }.respond status []
  else c.respond status []

def startRecord (c : Controller) (firstInBurst : Bool) (frame : Frame) : Controller :=
  let body := frame.code :: frame.payload
  let identity := match firstInBurst, body with
    | true, _ :: _ :: minor :: major :: _ => { c.identity with minor := minor, major := major }
    | _, _ => c.identity
  let c := { c with sessionOpen := true, identity := identity }
  if frame.more then { c with openRecord := some body }.respond .firstChunkAck [] else c.commit

def answerRequest (c : Controller) (firstInBurst : Bool) (frame : Frame) : Controller :=
  if frame.code = RequestId.reset then { c with sessionOpen := false }.respond .ok []
  else if frame.code = RequestId.getVersion then c.respond .ok (versionReport c.identity)
  else if frame.code = RequestId.getSessionState then c.respond .ok (sessionReport c.sessionOpen)
  else if frame.code = RequestId.checkIntegrity then c.respond .ok (integrityReport c.corrupt)
  else if frame.code = RequestId.read then c.answerRead frame.payload
  else if frame.code = RequestId.log then
    { c with memory := c.memory.store 0x201F80 (frame.payload.drop 3) }.respond .ok []
  else if frame.code = RequestId.force then c.respond .ok []
  else if frame.code = RequestId.write then c.startRecord firstInBurst frame
  else c.respond .unknownCommand []

def answerFrame (c : Controller) (frame : Frame) : Controller :=
  let isWrite : Bool := frame.code = RequestId.write
  let firstInBurst := isWrite && !c.inBurst
  match { c with inBurst := isWrite }.takeInjected frame.code with
  | (some status, c) => c.answerInjected frame.code firstInBurst status
  | (none, c) => c.answerRequest firstInBurst frame

/-- In normal mode a core reset is answered: accepted, version 1.1, configuration kept. -/
def answerNormal (c : Controller) (raw : Bytes) : Controller :=
  match raw with
  | 0x20 :: 0x00 :: _ => { c with outbox := c.outbox ++ [[0x40, 0x00, 0x03, 0x00, 0x11, 0x01]] }
  | _ => c

def receive (c : Controller) (raw : Bytes) : Controller :=
  if c.silent then c
  else if c.normalMode then c.answerNormal raw
  else
    match Frame.decode raw with
    | .error _ => c.respond .protocolError []
    | .ok frame =>
      match c.openRecord with
      | some body => c.continueRecord body frame
      | none => c.answerFrame frame

/-! ## The link -/

/-- Hands the oldest answer to a read that waits for it. -/
def deliver (c : Controller) : List Signal × Controller :=
  match c.pendingRead, c.outbox with
  | some ticket, answer :: rest =>
    ([.received ticket (.ok answer)], { c with outbox := rest, pendingRead := none })
  | _, _ => ([], c)

def write (c : Controller) (frame : Bytes) (ticket : Ticket) : Answer LinkError Controller :=
  let (signals, c) := ({ c with frameCount := c.frameCount + 1 }.receive frame).deliver
  ⟨.ok (), .written ticket (.ok ()) :: signals, c⟩

def read (c : Controller) (ticket : Ticket) : Answer LinkError Controller :=
  match c.pendingRead with
  | some _ => ⟨.error .readPending, [], c⟩
  | none =>
    let (signals, c) := { c with pendingRead := some ticket }.deliver
    ⟨.ok (), signals, c⟩

def abortRead (c : Controller) : Controller := { c with pendingRead := none }

def setMode (c : Controller) (mode : DeviceMode) : Controller :=
  { c with
    modes := c.modes ++ [mode]
    normalMode := mode = .normal
    openRecord := none
    inBurst := false
    outbox := [] }

instance : Link Controller where
  write := write
  read := read
  abortRead := abortRead
  setMode := setMode

end Controller

end FirmwareDownload
