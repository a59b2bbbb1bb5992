import FirmwareDownload.Engine.Basic

/-! The course of a session. A call starts it with the first frame; after that
every step is taken on a signal, and only on a signal that the session waits for. -/

namespace FirmwareDownload

namespace Engine

variable {W : Type} [Host W]

/-! ## The end of a session -/

def restoreMode (e : Engine W) : Engine W :=
  if e.session.restoreNormalMode then
    let (_, e) := e.setHostMode .normal
    e.withSession { e.session with restoreNormalMode := false }
  else e

def releaseTimer (e : Engine W) : Engine W :=
  let released := match e.session.timer.id with
    | none => e
    | some id =>
      let e := e.withSession { e.session with timer := { e.session.timer with id := none } }
      let e := if e.session.timer.running then e.stopHostTimer id else e
      e.deleteHostTimer id
  released.withSession { released.session with
    timer := { released.session.timer with running := false } }

def release (e : Engine W) : Engine W := e.abortRead.restoreMode.releaseTimer

/-- Ends the session and delivers its completion. -/
def conclude (e : Engine W) (result : Except DownloadError Unit) : Engine W :=
  match e.session.command with
  | none => e
  | some command =>
    let e := e.release
    let (response, session) := e.session.handOver
    let e := (e.withSession session).enter .init
    let awaited := e.session.awaited
    let e := e.withSession e.session.reset
    let e := e.note (.finished command (match result with
      | .ok () => none
      | .error err => some err))
    if awaited then { e with delivered := ⟨command, result, response⟩ :: e.delivered } else e

def concludeOnError : Except DownloadError Unit × Engine W → Engine W
  | (.ok (), e) => e
  | (.error err, e) => e.conclude (.error err)

/-! ## Steps -/

/-- Sends the next frame, or the last one again. -/
def sendNext (e : Engine W) : Except DownloadError Unit × Engine W :=
  if e.session.resendLastFrame then
    (e.withSession { e.session with resendLastFrame := false }).writeFrame
  else
    match e.session.compose with
    | (.error err, s) => (.error err, e.withSession s)
    | (.ok (), s) => (e.withSession s).writeFrame

/-- The frame is out: waits for the answer. -/
def onWritten (e : Engine W) (result : Except LinkError Unit) : Engine W :=
  match result with
  | .error err => e.conclude (.error (.failed (.link err)))
  | .ok () =>
    match e.setTimer .response e.config.responseTimeout.toNat with
    | (.error err, e) => e.conclude (.error err)
    | (.ok (), e) => concludeOnError (e.enter .timer).requestRead

/-- The memory is busy: waits before the frame is sent again, up to the limit. -/
def awaitMemory (e : Engine W) : Engine W :=
  let attempt := e.session.resendCount + 1
  let e := e.withSession { e.session with resendCount := attempt }
  let exhausted : Option UInt32 := e.config.resendLimit.filter (fun limit => limit < attempt)
  match exhausted with
  | some limit => e.conclude (.error (.failed (.resendLimit limit)))
  | none =>
    match (e.note (.resend attempt)).setTimer .resendWait e.config.resendWait.toNat with
    | (.error err, e) => e.conclude (.error err)
    | (.ok (), e) => e.enter .timer

def noteStatus (e : Engine W) (raw : Bytes) : Engine W :=
  if e.session.command = some .raw then e
  else
    match Frame.decode raw with
    | .ok answer => e.note (.answered answer.status)
    | .error _ => e

def noteProgress (e : Engine W) : Engine W :=
  match e.session.command, e.session.request with
  | some command, .write =>
    e.note (.progress command e.session.transfer.offset (e.session.userData.getD #[]).size)
  | some command, .read _ =>
    e.note (.progress command e.session.transfer.bytesRead e.session.response.capacity)
  | _, _ => e

def onAnswer (e : Engine W) (raw : Bytes) : Engine W :=
  let e := (e.note (.received raw)).noteStatus raw
  let (verdict, session) := e.session.handleAnswer raw
  let e := (e.withSession session).noteProgress
  match verdict with
  | .done => e.conclude (.ok ())
  | .failed err => e.conclude (.error err)
  | .proceed => concludeOnError (e.enter .send).sendNext
  | .resend => e.awaitMemory

def onReceived (e : Engine W) (result : Except LinkError Bytes) : Engine W :=
  let e := e.haltTimer.enter .response
  match result with
  | .error err => e.conclude (.error (.failed (.link err)))
  | .ok raw => e.onAnswer raw

def sendAgain (e : Engine W) : Engine W :=
  let e := e.enter .send
  concludeOnError (e.withSession { e.session with resendLastFrame := true }).sendNext

/-- Toggles the controller through normal mode; a failing switch is passed over. -/
def toggleController (e : Engine W) : Engine W :=
  ((e.note .venReset).setHostMode .normal).2.setHostMode .download |>.2

/-- No answer came. A reset needs none: the controller may have restarted. -/
def onSilence (e : Engine W) : Engine W :=
  let e := (e.withSession { e.session with
    timer := { e.session.timer with timedOut := true } }).enter .response
  match e.session.command with
  | none => e
  | some command =>
    let e := e.note (.timeout command)
    let e := if e.config.venResetOnTimeout ∧ e.session.lastStatus = some .signatureError then
      e.toggleController else e
    e.conclude (if command = .reset then .ok () else .error .timeout)

def onExpired (e : Engine W) : Engine W :=
  let e := e.withSession { e.session with
    timer := { e.session.timer with running := false, ticket := none } }
  match e.session.timer.purpose with
  | .response => e.onSilence
  | .resendWait => e.sendAgain

/-! ## Signals -/

/-- Takes a signal. One that the session does not wait for changes nothing. -/
def handle (e : Engine W) (signal : Signal) : Engine W :=
  match signal with
  | .written ticket result =>
    if e.session.phase = .recv ∧ e.session.writeTicket = some ticket then
      (e.withSession { e.session with writeTicket := none }).onWritten result
    else e
  | .received ticket result =>
    if e.session.phase = .timer ∧ e.session.readTicket = some ticket then
      (e.withSession { e.session with readTicket := none }).onReceived result
    else e
  | .expired ticket =>
    if e.session.phase = .timer ∧ e.session.timer.ticket = some ticket then e.onExpired else e

def handleNext (e : Engine W) : Option (Engine W) :=
  match e.queue with
  | [] => none
  | signal :: rest => some ({ e with queue := rest }.handle signal)

/-- Handles the queued signals, and those that they bring, up to `budget`. -/
def handleQueued (budget : Nat) (e : Engine W) : Nat × Engine W :=
  match budget with
  | 0 => (0, e)
  | budget + 1 =>
    match e.handleNext with
    | none => (0, e)
    | some e =>
      let (handled, e) := e.handleQueued budget
      (handled + 1, e)

/-- Handles signals until the session ends, `limit` milliseconds went by without
one, or `budget` steps were taken. Tells whether the engine is idle. -/
def runToIdle (budget limit : Nat) (e : Engine W) : Bool × Engine W :=
  match budget with
  | 0 => (!e.session.busy, e)
  | budget + 1 =>
    if !e.session.busy then (true, e)
    else
      match e.handleNext with
      | some e => e.runToIdle budget limit
      | none =>
        match Host.await e.world limit with
        | (none, w) => (false, e.withWorld w)
        | (some (signals, left), w) => ((e.withWorld w).post signals).runToIdle budget left

/-- Lets go of a session in flight; nothing is delivered. -/
def drop (e : Engine W) : Engine W :=
  if e.session.busy ∨ e.session.timer.id ≠ none then e.release else e

end Engine

end FirmwareDownload
