import FirmwareDownload.AlarmClock
import FirmwareDownload.Controller
import FirmwareDownload.MockLink
import FirmwareDownload.TimerBank

/-! A test bench: a link and timers that an engine runs on, with faults that can
be switched on. Its timers fire by hand unless it has a clock. -/

namespace FirmwareDownload

inductive ReadFault
  | none
  | reject
  | fail
  deriving DecidableEq, Repr, Inhabited

/-- What a failing read reports. -/
def scriptedReason : String := "scripted"

structure Bench (D : Type) where
  link : D
  bank : TimerBank := {}
  /-- Timers that run by themselves, used in place of the bank. -/
  clock : Option AlarmClock := none
  /-- Writes are accepted, but reach nothing and do not end. -/
  holdWrites : Bool := false
  /-- Writes held, oldest first. -/
  held : List Ticket := []
  readFault : ReadFault := .none
  failModes : Bool := false

namespace Bench

variable {D : Type}

def createTimer (b : Bench D) : Except TimerError TimerId × Bench D :=
  match b.clock with
  | some clock =>
    let (r, clock) := clock.create
    (r, { b with clock := some clock })
  | none =>
    let (r, bank) := b.bank.create
    (r, { b with bank := bank })

def startTimer (b : Bench D) (id : TimerId) (milliseconds : Nat) (ticket : Ticket) :
    Answer TimerError (Bench D) :=
  match b.clock with
  | some clock =>
    let (r, clock) := clock.start id milliseconds ticket
    ⟨r, [], { b with clock := some clock }⟩
  | none =>
    let (r, bank) := b.bank.start id milliseconds ticket
    ⟨r, [], { b with bank := bank }⟩

def stopTimer (b : Bench D) (id : TimerId) : Except TimerError Unit × Bench D :=
  match b.clock with
  | some clock =>
    let (r, clock) := clock.stop id
    (r, { b with clock := some clock })
  | none =>
    let (r, bank) := b.bank.stop id
    (r, { b with bank := bank })

def deleteTimer (b : Bench D) (id : TimerId) : Except TimerError Unit × Bench D :=
  match b.clock with
  | some clock =>
    let (r, clock) := clock.delete id
    (r, { b with clock := some clock })
  | none =>
    let (r, bank) := b.bank.delete id
    (r, { b with bank := bank })

def await (b : Bench D) (limit : Nat) : Option (List Signal × Nat) × Bench D :=
  match b.clock with
  | some clock =>
    let (r, clock) := clock.await limit
    (r, { b with clock := some clock })
  | none => (none, b)

variable [Link D]

def write (b : Bench D) (frame : Bytes) (ticket : Ticket) : Answer LinkError (Bench D) :=
  if b.holdWrites then ⟨.ok (), [], { b with held := b.held ++ [ticket] }⟩
  else
    let answer := Link.write b.link frame ticket
    ⟨answer.outcome, answer.signals, { b with link := answer.world }⟩

def read (b : Bench D) (ticket : Ticket) : Answer LinkError (Bench D) :=
  match b.readFault with
  | .reject => ⟨.error .disconnected, [], b⟩
  | .fail => ⟨.ok (), [.received ticket (.error (.readFailed scriptedReason))], b⟩
  | .none =>
    let answer := Link.read b.link ticket
    ⟨answer.outcome, answer.signals, { b with link := answer.world }⟩

def setMode (b : Bench D) (mode : DeviceMode) : Except LinkError Unit × Bench D :=
  if b.failModes then (.error (.modeSwitchFailed mode scriptedReason), b)
  else (.ok (), { b with link := Link.setMode b.link mode })

instance : Host (Bench D) where
  createTimer := createTimer
  startTimer := startTimer
  stopTimer := stopTimer
  deleteTimer := deleteTimer
  write := write
  read b _ ticket := b.read ticket
  abortRead b := { b with link := Link.abortRead b.link }
  setMode := setMode
  await := await

omit [Link D] in
def releaseWrites (b : Bench D) : List Signal × Bench D :=
  (b.held.map (fun ticket => .written ticket (.ok ())), { b with held := [] })

end Bench

end FirmwareDownload
