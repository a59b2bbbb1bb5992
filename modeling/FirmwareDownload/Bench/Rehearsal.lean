import FirmwareDownload.Bench

/-! Rehearsals: a host on which a whole sequence runs by itself. A wait before a
resend is over at once, and an answer that will not come times out at once. The
controller may fall silent for some of the writes; a mock link answers by a script. -/

namespace FirmwareDownload

/-- What a script does about a write. -/
inductive Cue
  | status (byte : UInt8) (payload : Bytes)
  | raw (answer : Bytes)
  /-- No answer: it times out. -/
  | nothing
  /-- No answer, and no timeout either. -/
  | hang
  | reject
  | fail
  /-- The reads that follow are refused, until the next write. -/
  | readReject
  /-- The reads that follow fail, until the next write. -/
  | readFail
  deriving DecidableEq, Repr

/-- Cues for the writes to come, and answers by frame identifier for the rest. -/
structure Script where
  /-- The cues in order; none stands for an answer by identifier. -/
  cues : List (Option Cue) := []
  /-- Cues by identifier; those under none serve the identifiers without cues of their own. -/
  answers : List (Option UInt8 × List Cue) := []
  deriving DecidableEq, Repr, Inhabited

namespace Script

/-- The next cue of a list. The last one is given again and again. -/
def nextOf : List Cue → Cue × List Cue
  | [] => (.nothing, [])
  | [cue] => (cue, [cue])
  | cue :: rest => (cue, rest)

def answerFor (s : Script) (key : Option UInt8) : Option (Cue × Script) :=
  (s.answers.lookup key).map (fun cues =>
    let (cue, rest) := nextOf cues
    (cue, { s with answers := s.answers.map (fun a => if a.1 = key then (key, rest) else a) }))

def answer (s : Script) (frame : Bytes) : Cue × Script :=
  match s.answerFor frame[2]? with
  | some r => r
  | none => (s.answerFor none).getD (.nothing, s)

def next (s : Script) (frame : Bytes) : Cue × Script :=
  match s.cues with
  | some cue :: rest => (cue, { s with cues := rest })
  | none :: rest => { s with cues := rest }.answer frame
  | [] => s.answer frame

end Script

inductive Stage
  /-- A controller that is silent for the writes counted in the given ranges. -/
  | controller (c : Controller) (silences : List (Nat × Nat))
  /-- A mock link with its script, the fault of reads, and whether an answer hangs. -/
  | mock (m : MockLink) (script : Script) (readFault : ReadFault) (hangs : Bool)

namespace Stage

def prepare (m : MockLink) : Cue → List Signal × MockLink
  | .status byte payload => m.queueStatus byte payload
  | .raw answer => m.queueAnswer answer
  | .reject => ([], { m with writeBehavior := .reject })
  | .fail => ([], { m with writeBehavior := .failLater })
  | _ => ([], m)

def readFaultOf : Cue → ReadFault
  | .readReject => .reject
  | .readFail => .fail
  | _ => .none

def write (s : Stage) (n : Nat) (frame : Bytes) (ticket : Ticket) : Answer LinkError Stage :=
  match s with
  | controller c silences =>
    let silent := silences.any (fun r => r.1 ≤ n ∧ n < r.2)
    let answer := { c with silent := silent }.write frame ticket
    ⟨answer.outcome, answer.signals, controller answer.world silences⟩
  | mock m script _ _ =>
    let (cue, script) := script.next frame
    let (signals, m) := prepare { m with writeBehavior := .succeed } cue
    let answer := m.write frame ticket
    ⟨answer.outcome, signals ++ answer.signals, mock answer.world script (readFaultOf cue) (cue = .hang)⟩

/-- A read, and whether its answer will not come. -/
def read (s : Stage) (ticket : Ticket) : Answer LinkError Stage × Bool :=
  match s with
  | controller c silences =>
    let answer := c.read ticket
    (⟨answer.outcome, answer.signals, controller answer.world silences⟩, c.silent)
  | mock m script readFault hangs =>
    match readFault with
    | .reject => (⟨.error .disconnected, [], s⟩, false)
    | .fail => (⟨.ok (), [.received ticket (.error (.readFailed scriptedReason))], s⟩, false)
    | .none =>
      let answer := m.read ticket
      (⟨answer.outcome, answer.signals, mock answer.world script readFault hangs⟩,
        answer.world.parked.isSome && !hangs)

def abortRead : Stage → Stage
  | controller c silences => controller c.abortRead silences
  | mock m script readFault hangs => mock m.abortRead script readFault hangs

def setMode (s : Stage) (mode : DeviceMode) : Stage :=
  match s with
  | controller c silences => controller (c.setMode mode) silences
  | mock m script readFault hangs => mock (m.setMode mode) script readFault hangs

end Stage

structure Rehearsal where
  stage : Stage
  /-- Milliseconds of the timer that waits for an answer. -/
  responseTimeout : Nat
  bank : TimerBank := {}
  writes : Nat := 0
  /-- Mode switches so far, failing ones included. -/
  modeCalls : Nat := 0
  /-- The mode switches that fail, counted from zero. -/
  failModeCalls : List Nat := []

namespace Rehearsal

def expire (r : Rehearsal) : List Signal × Rehearsal :=
  let (arming, bank) := r.bank.fireOldest
  ((arming.map (fun a => Signal.expired a.ticket)).toList, { r with bank := bank })

def startTimer (r : Rehearsal) (id : TimerId) (milliseconds : Nat) (ticket : Ticket) :
    Answer TimerError Rehearsal :=
  match r.bank.start id milliseconds ticket with
  | (.error err, bank) => ⟨.error err, [], { r with bank := bank }⟩
  | (.ok (), bank) =>
    if milliseconds = r.responseTimeout then ⟨.ok (), [], { r with bank := bank }⟩
    else
      let (arming, bank) := bank.fire id
      ⟨.ok (), (arming.map (fun a => Signal.expired a.ticket)).toList, { r with bank := bank }⟩

def write (r : Rehearsal) (frame : Bytes) (ticket : Ticket) : Answer LinkError Rehearsal :=
  let answer := r.stage.write r.writes frame ticket
  ⟨answer.outcome, answer.signals, { r with stage := answer.world, writes := r.writes + 1 }⟩

def read (r : Rehearsal) (ticket : Ticket) : Answer LinkError Rehearsal :=
  let (answer, overdue) := r.stage.read ticket
  let r := { r with stage := answer.world }
  if overdue then
    let (expired, r) := r.expire
    ⟨answer.outcome, answer.signals ++ expired, r⟩
  else ⟨answer.outcome, answer.signals, r⟩

def setMode (r : Rehearsal) (mode : DeviceMode) : Except LinkError Unit × Rehearsal :=
  let n := r.modeCalls
  let r := { r with modeCalls := n + 1 }
  if n ∈ r.failModeCalls then (.error (.modeSwitchFailed mode scriptedReason), r)
  else (.ok (), { r with stage := r.stage.setMode mode })

instance : Host Rehearsal where
  createTimer r :=
    let (id, bank) := r.bank.create
    (id, { r with bank := bank })
  startTimer := startTimer
  stopTimer r id :=
    let (outcome, bank) := r.bank.stop id
    (outcome, { r with bank := bank })
  deleteTimer r id :=
    let (outcome, bank) := r.bank.delete id
    (outcome, { r with bank := bank })
  write := write
  read r _ ticket := r.read ticket
  abortRead r := { r with stage := r.stage.abortRead }
  setMode := setMode
  await r _ := (none, r)

end Rehearsal

end FirmwareDownload
