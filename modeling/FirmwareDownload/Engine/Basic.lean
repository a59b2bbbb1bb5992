import FirmwareDownload.Config
import FirmwareDownload.Engine.Notice

/-! The state of an engine and its smallest operations: taking notes, changing
phase, drawing tickets, and the calls on the host. -/

namespace FirmwareDownload

structure Completion where
  command : Command
  result : Except DownloadError Unit
  response : Bytes

structure Engine (W : Type) where
  config : Config
  library : ImageLibrary
  session : Session := {}
  primary : Option Image := none
  /-- Signals not handled yet, oldest first. -/
  queue : List Signal := []
  lastTicket : Ticket := 0
  /-- What happened, newest first. -/
  journal : List Notice := []
  /-- Completions delivered, newest first. -/
  delivered : List Completion := []
  world : W

namespace Engine

variable {W : Type}

def notices (e : Engine W) : List Notice := e.journal.reverse

def isBusy (e : Engine W) : Bool := e.session.busy

def note (e : Engine W) (n : Notice) : Engine W := { e with journal := n :: e.journal }

def withSession (e : Engine W) (s : Session) : Engine W := { e with session := s }

def withWorld (e : Engine W) (w : W) : Engine W := { e with world := w }

def post (e : Engine W) (signals : List Signal) : Engine W :=
  { e with queue := e.queue ++ signals }

/-- Enters a phase; staying in one is not noted. -/
def enter (e : Engine W) (p : Phase) : Engine W :=
  let moved := e.withSession { e.session with phase := p }
  if e.session.phase = p then moved else moved.note (.moved e.session.phase p)

/-- A ticket that was never drawn before. -/
def drawTicket (e : Engine W) : Ticket × Engine W :=
  (e.lastTicket + 1, { e with lastTicket := e.lastTicket + 1 })

/-! ## Calls on the host -/

variable [Host W]

def setHostMode (e : Engine W) (mode : DeviceMode) : Except LinkError Unit × Engine W :=
  let (r, w) := Host.setMode e.world mode
  (r, (e.note (.modeRequested mode)).withWorld w)

def createTimer (e : Engine W) : Except DownloadError Unit × Engine W :=
  match Host.createTimer e.world with
  | (.error err, w) => (.error (.failed (.timer err)), e.withWorld w)
  | (.ok id, w) =>
    let e := (e.note (.timerCreated id)).withWorld w
    (.ok (), e.withSession { e.session with timer := { e.session.timer with id := some id } })

def setTimer (e : Engine W) (purpose : TimerPurpose) (milliseconds : Nat) :
    Except DownloadError Unit × Engine W :=
  match e.session.timer.id with
  | none => (.error (.failed (.timer .exhausted)), e)
  | some id =>
    let (ticket, e) := e.drawTicket
    let answer := Host.startTimer e.world id milliseconds ticket
    let e := e.withWorld answer.world
    match answer.outcome with
    | .error err => (.error (.failed (.timer err)), e.post answer.signals)
    | .ok () =>
      let timer : SessionTimer := { e.session.timer with
        purpose := purpose, ticket := some ticket, running := true, timedOut := false }
      (.ok (), (e.note (.timerArmed id milliseconds)).post answer.signals
        |>.withSession { e.session with timer := timer })

def stopHostTimer (e : Engine W) (id : TimerId) : Engine W :=
  (e.note (.timerStopped id)).withWorld (Host.stopTimer e.world id).2

def deleteHostTimer (e : Engine W) (id : TimerId) : Engine W :=
  (e.note (.timerDeleted id)).withWorld (Host.deleteTimer e.world id).2

def haltTimer (e : Engine W) : Engine W :=
  let stopped := match e.session.timer.id with
    | some id => if e.session.timer.running then e.stopHostTimer id else e
    | none => e
  stopped.withSession { stopped.session with
    timer := { stopped.session.timer with running := false, ticket := none } }

def writeFrame (e : Engine W) : Except DownloadError Unit × Engine W :=
  let frame := e.session.frame.bytes
  let (ticket, e) := e.drawTicket
  let e := (e.withSession { e.session with writeTicket := some ticket }).enter .recv
  let e := e.note (.sent frame)
  let answer := Host.write e.world frame ticket
  let e := (e.withWorld answer.world).post answer.signals
  match answer.outcome with
  | .error err => (.error (.failed (.link err)), e)
  | .ok () => (.ok (), e)

def requestRead (e : Engine W) : Except DownloadError Unit × Engine W :=
  let (ticket, e) := e.drawTicket
  let e := e.withSession { e.session with readTicket := some ticket }
  let answer := Host.read e.world Frame.maxLength ticket
  let e := ((e.note (.readRequested Frame.maxLength)).withWorld answer.world).post answer.signals
  match answer.outcome with
  | .error err => (.error (.failed (.link err)), e)
  | .ok () => (.ok (), e)

def abortRead (e : Engine W) : Engine W :=
  (e.note .readAborted).withWorld (Host.abortRead e.world)

end Engine

end FirmwareDownload
