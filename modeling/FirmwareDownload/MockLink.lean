import FirmwareDownload.Frame
import FirmwareDownload.Host

/-! A link with answers laid out in advance. A read that finds none is parked until
one is laid out. -/

namespace FirmwareDownload

inductive WriteBehavior
  | succeed
  | reject
  /-- Accepted, and ended with an error. -/
  | failLater
  deriving DecidableEq, Repr, Inhabited

structure MockLink where
  /-- Answers laid out, oldest first. -/
  answers : List Bytes := []
  /-- Frames written, oldest first. -/
  writes : List Bytes := []
  /-- Mode switches, oldest first. -/
  modes : List DeviceMode := []
  parked : Option Ticket := none
  writeBehavior : WriteBehavior := .succeed
  aborts : Nat := 0
  deriving DecidableEq, Repr, Inhabited

namespace MockLink

/-- Lays out an answer; a parked read takes the oldest one. -/
def queueAnswer (m : MockLink) (answer : Bytes) : List Signal × MockLink :=
  match m.parked, m.answers ++ [answer] with
  | some ticket, first :: rest =>
    ([.received ticket (.ok first)], { m with answers := rest, parked := none })
  | _, answers => ([], { m with answers := answers })

/-- Lays out a frame with a status and a payload. One that fits no frame is left out. -/
def queueStatus (m : MockLink) (status : UInt8) (payload : Bytes) : List Signal × MockLink :=
  match Frame.encode ⟨status, payload, false⟩ with
  | .ok raw => m.queueAnswer raw
  | .error _ => ([], m)

def queueStatuses (m : MockLink) (status : UInt8) (count : Nat) : List Signal × MockLink :=
  match count, Frame.encode ⟨status, [], false⟩ with
  | count + 1, .ok raw =>
    let (signals, m) := m.queueAnswer raw
    (signals, { m with answers := m.answers ++ List.replicate count raw })
  | _, _ => ([], m)

def write (m : MockLink) (frame : Bytes) (ticket : Ticket) : Answer LinkError MockLink :=
  match m.writeBehavior with
  | .reject => ⟨.error (.writeFailed "rejected by mock"), [], m⟩
  | .failLater =>
    ⟨.ok (), [.written ticket (.error (.writeFailed "mock write error"))],
      { m with writes := m.writes ++ [frame] }⟩
  | .succeed => ⟨.ok (), [.written ticket (.ok ())], { m with writes := m.writes ++ [frame] }⟩

def read (m : MockLink) (ticket : Ticket) : Answer LinkError MockLink :=
  match m.parked, m.answers with
  | some _, _ => ⟨.error .readPending, [], m⟩
  | none, answer :: rest => ⟨.ok (), [.received ticket (.ok answer)], { m with answers := rest }⟩
  | none, [] => ⟨.ok (), [], { m with parked := some ticket }⟩

def abortRead (m : MockLink) : MockLink := { m with aborts := m.aborts + 1, parked := none }

def setMode (m : MockLink) (mode : DeviceMode) : MockLink := { m with modes := m.modes ++ [mode] }

instance : Link MockLink where
  write := write
  read := read
  abortRead := abortRead
  setMode := setMode

end MockLink

end FirmwareDownload
