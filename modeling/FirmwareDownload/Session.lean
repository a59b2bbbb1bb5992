import FirmwareDownload.Transfer

/-! A command session: all that one command in flight needs. A session is armed
by a call, builds its frames, handles the answers, and is cleared at its end;
the last failure status and the frame buffer outlive it. -/

namespace FirmwareDownload

inductive Phase
  /-- Idle, or setting up. -/
  | init
  /-- A frame is built, or taken again, and handed to the link. -/
  | send
  /-- Waits until the frame is written. -/
  | recv
  /-- Waits for the answer, or for the end of the wait before a resend. -/
  | timer
  | response
  deriving DecidableEq, Repr, Inhabited

def Phase.text : Phase → String
  | init => "INIT"
  | send => "SEND"
  | recv => "RECV"
  | timer => "TIMER"
  | response => "RESPONSE"

inductive TimerPurpose
  | response
  | resendWait
  deriving DecidableEq, Repr, Inhabited

structure SessionTimer where
  id : Option TimerId := none
  running : Bool := false
  purpose : TimerPurpose := .response
  /-- Ticket of the current arming. -/
  ticket : Option Ticket := none
  timedOut : Bool := false
  deriving DecidableEq, Repr, Inhabited

structure Session where
  command : Option Command := none
  phase : Phase := .init
  busy : Bool := false
  request : Request := .none
  frame : FrameBuffer := .empty
  /-- What a write, a log entry or a raw request sends. -/
  userData : Option (Array UInt8) := none
  response : ResponseBuffer := .empty
  /-- How much of the response buffer is filled. -/
  responseLength : Nat := 0
  transfer : Transfer := {}
  timer : SessionTimer := {}
  /-- The last failure class that the controller reported. -/
  lastStatus : Option Status := none
  resendLastFrame : Bool := false
  /-- Busy answers in a row. -/
  resendCount : UInt32 := 0
  /-- The caller still waits for the completion. -/
  awaited : Bool := false
  writeTicket : Option Ticket := none
  readTicket : Option Ticket := none
  /-- The link goes back to normal mode when the session ends. -/
  restoreNormalMode : Bool := false
  deriving DecidableEq, Inhabited

inductive Verdict
  | proceed
  | resend
  | done
  | failed (error : DownloadError)
  deriving DecidableEq, Repr

namespace Session

def reset (s : Session) : Session := { frame := s.frame, lastStatus := s.lastStatus }

def handOver (s : Session) : Bytes × Session :=
  (s.response.take s.responseLength, { s with response := .empty, responseLength := 0 })

def setFrame (s : Session) : Except DownloadError FrameBuffer → Except DownloadError Unit × Session
  | .ok frame => (.ok (), { s with frame := frame })
  | .error e => (.error e, s)

def compose (s : Session) : Except DownloadError Unit × Session :=
  match s.request with
  | .none => (.error (.invalidParameter .noFrameRequested), s)
  | .fixed id => s.setFrame (Transfer.liftFrame (s.frame.encode (Request.fixedFrame id)))
  | .integrity area =>
    s.setFrame (Transfer.liftFrame (s.frame.encode (Request.integrityFrame area)))
  | .read _ =>
    let (frame, transfer) := s.transfer.composeRead s.frame
    { s with transfer := transfer }.setFrame frame
  | .force p0 p1 p2 =>
    s.setFrame (Transfer.liftFrame (s.frame.encode (Request.forceFrame p0 p1 p2)))
  | .write =>
    match s.userData with
    | none => (.error (.invalidParameter .noUserData), s)
    | some data =>
      let (frame, transfer) := s.transfer.composeWrite data s.frame
      { s with transfer := transfer }.setFrame frame
  | .log =>
    match s.userData with
    | none => (.error (.invalidParameter .noUserData), s)
    | some data => s.setFrame (Transfer.liftFrame (s.frame.encode (Request.logFrame data.toList)))
  | .raw =>
    match s.userData with
    | none => (.error (.invalidParameter .noUserData), s)
    | some data => s.setFrame (Transfer.liftFrame (s.frame.setRaw data.toList))

/-- Copies `data` to the front of the response buffer; without a buffer it is dropped. -/
def keepAnswer (s : Session) (data : Bytes) : Except DownloadError Unit × Session :=
  if s.response.capacity = 0 then (.ok (), s)
  else
    match s.response.store? 0 data with
    | none => (.error (.failed (.responseOverflow data.length s.response.capacity)), s)
    | some response => (.ok (), { s with response := response, responseLength := data.length })

/-- Applies a valid answer that is not a busy memory. -/
def applyAnswer (s : Session) (command : Command) (answer : Frame) :
    Except DownloadError Unit × Session :=
  match command with
  | .write =>
    let status := answer.status
    let (r, transfer) := s.transfer.acceptWrite status
    (r, { s with
      transfer := transfer
      lastStatus := if status.isRecoverable then some status else s.lastStatus })
  | .read =>
    let (r, transfer, response) := s.transfer.acceptRead answer s.response
    (r, { s with transfer := transfer, response := response, responseLength := transfer.offset })
  | _ =>
    if answer.status = .ok then s.keepAnswer answer.payload
    else (.error (.failed (.unexpectedStatus answer.status)), s)

/-- The bytes received are the answer to the command in flight. -/
def handleAnswer (s : Session) (raw : Bytes) : Verdict × Session :=
  match s.command with
  | none => (.failed (.invalidParameter .noCommand), s)
  | some .raw =>
    match s.keepAnswer raw with
    | (.ok (), s) => (.done, s)
    | (.error e, s) => (.failed e, s)
  | some command =>
    match Frame.decode raw with
    | .error e => (.failed (.failed (.frame e)), s)
    | .ok answer =>
      if answer.status = .memBusy ∧ command.shape = .readWrite then
        (.resend, { s with lastStatus := some .memBusy })
      else
        match { s with resendCount := 0 }.applyAnswer command answer with
        | (.error e, s) => (.failed e, s)
        | (.ok (), s) =>
          if command.shape = .readWrite ∧ 0 < s.transfer.remaining then (.proceed, s)
          else (.done, s)

end Session

end FirmwareDownload
