import FirmwareDownload.Bench
import FirmwareDownload.Engine.Call

/-! Trials: an engine on a bench, driven step by step. -/

namespace FirmwareDownload

/-- Something done to the link of a bench. -/
class Controls (D A : Type) where
  act : D → A → List Signal × D

inductive MockControl
  | queue (answer : Bytes)
  | queueStatus (status : UInt8) (payload : Bytes)
  | queueStatuses (status : UInt8) (count : Nat)
  | clearWrites
  | writeBehavior (behavior : WriteBehavior)
  deriving DecidableEq, Repr

instance : Controls MockLink MockControl where
  act m
    | .queue answer => m.queueAnswer answer
    | .queueStatus status payload => m.queueStatus status payload
    | .queueStatuses status count => m.queueStatuses status count
    | .clearWrites => ([], { m with writes := [] })
    | .writeBehavior behavior => ([], { m with writeBehavior := behavior })

inductive ControllerControl
  | inject (status : Status) (count : Nat)
  | injectWrite (status : Status) (count : Nat)
  | silent (on : Bool)
  | poke (addr : UInt32) (data : Bytes)
  | corrupt (region : Region)
  | sessionOpen (isOpen : Bool)
  deriving DecidableEq, Repr

def ControllerControl.apply (c : Controller) : ControllerControl → Controller
  | inject status count => c.inject status count
  | injectWrite status count => c.injectWrite status count
  | silent on => { c with silent := on }
  | poke addr data => c.poke addr data
  | corrupt region => c.corruptRegion region
  | sessionOpen isOpen => { c with sessionOpen := isOpen }

instance : Controls Controller ControllerControl where
  act c control := ([], control.apply c)

inductive TrialStep (A : Type)
  /-- Lets go of the engine; later calls on it do nothing. -/
  | drop
  | holdWrites (on : Bool)
  | releaseWrites
  | readFault (fault : ReadFault)
  | failModes (on : Bool)
  | failCreate (on : Bool)
  | failStart (on : Bool)
  | fire
  | fireId (id : TimerId)
  | link (control : A)
  | call (c : Call)
  | setMode (mode : DeviceMode)
  | loadPrimary
  | primaryVersion
  | lastFrame
  | handleQueued
  | runToIdle
  | look

inductive Reply
  | nothing
  | dropped
  | result (r : Except DownloadError Unit)
  | count (n : Nat)
  | truth (b : Bool)
  | fired (milliseconds : Option Nat)
  | version (r : Except DownloadError (Option FirmwareVersion))
  | bytes (data : Bytes)

structure Trial (D : Type) where
  engine : Engine (Bench D)
  dropped : Bool := false

namespace Trial

variable {D A : Type} [Link D] [Controls D A]

/-- Handling so many signals counts as never ending. -/
def patience : Nat := 1000000

/-- How long a trial with running timers waits for a command, in milliseconds. -/
def waitLimit : Nat := 5000

def bench (t : Trial D) : Bench D := t.engine.world

def setBench (t : Trial D) (b : Bench D) : Trial D := { t with engine := t.engine.withWorld b }

def post (t : Trial D) (signals : List Signal) : Trial D :=
  if t.dropped then t else { t with engine := t.engine.post signals }

def setBank (t : Trial D) (bank : TimerBank) : Trial D := t.setBench { t.bench with bank := bank }

/-- Hands on what a fired timer was armed with. -/
def postFired (t : Trial D) : Option Arming → Trial D
  | some arming => t.post [.expired arming.ticket]
  | none => t

def onEngine (t : Trial D) (f : Engine (Bench D) → Reply × Engine (Bench D)) : Reply × Trial D :=
  if t.dropped then (.dropped, t)
  else
    let (reply, engine) := f t.engine
    (reply, { t with engine := engine })

def step (t : Trial D) : TrialStep A → Reply × Trial D
  | .drop => (.nothing, { engine := if t.dropped then t.engine else t.engine.drop, dropped := true })
  | .holdWrites on => (.nothing, t.setBench { t.bench with holdWrites := on })
  | .releaseWrites =>
    let (signals, bench) := t.bench.releaseWrites
    (.count signals.length, (t.setBench bench).post signals)
  | .readFault fault => (.nothing, t.setBench { t.bench with readFault := fault })
  | .failModes on => (.nothing, t.setBench { t.bench with failModes := on })
  | .failCreate on => (.nothing, t.setBank { t.bench.bank with failCreate := on })
  | .failStart on => (.nothing, t.setBank { t.bench.bank with failStart := on })
  | .fire =>
    let (arming, bank) := t.bench.bank.fireOldest
    (.fired (arming.map Arming.milliseconds), (t.setBank bank).postFired arming)
  | .fireId id =>
    let (arming, bank) := t.bench.bank.fire id
    (.truth arming.isSome, (t.setBank bank).postFired arming)
  | .link control =>
    let (signals, link) := Controls.act t.bench.link control
    (.nothing, (t.setBench { t.bench with link := link }).post signals)
  | .look => (.nothing, t)
  | .call c => t.onEngine (fun e =>
    let (r, e) := e.call c
    (.result r, e))
  | .setMode mode => t.onEngine (fun e =>
    let (r, e) := e.setMode mode
    (.result r, e))
  | .loadPrimary => t.onEngine (fun e =>
    let (r, e) := e.loadPrimary
    (.version r, e))
  | .primaryVersion => t.onEngine (fun e => (.version (.ok e.primaryVersion?), e))
  | .lastFrame => t.onEngine (fun e => (.bytes e.session.frame.bytes, e))
  | .handleQueued => t.onEngine (fun e =>
    let (n, e) := e.handleQueued patience
    (.count n, e))
  | .runToIdle => t.onEngine (fun e =>
    let (idle, e) := e.runToIdle patience (if e.world.clock.isSome then waitLimit else 0)
    (.truth idle, e))

end Trial

end FirmwareDownload
