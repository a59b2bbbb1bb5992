import FirmwareDownload.Host

/-! Timers that fire only by hand, and that can be made to fail. -/

namespace FirmwareDownload

structure Arming where
  milliseconds : Nat
  ticket : Ticket
  deriving DecidableEq, Repr

structure TimerBank where
  lastId : Nat := 0
  /-- The timers created and not deleted, oldest first, with their arming. -/
  timers : List (TimerId × Option Arming) := []
  /-- The times of all armings, oldest first. -/
  history : List Nat := []
  failCreate : Bool := false
  failStart : Bool := false
  deriving DecidableEq, Repr, Inhabited

namespace TimerBank

def has (b : TimerBank) (id : TimerId) : Bool := b.timers.any (fun t => t.1 = id)

def setArming (b : TimerBank) (id : TimerId) (arming : Option Arming) : TimerBank :=
  { b with timers := b.timers.map (fun t => if t.1 = id then (id, arming) else t) }

def create (b : TimerBank) : Except TimerError TimerId × TimerBank :=
  if b.failCreate then (.error .exhausted, b)
  else
    let id : TimerId := ⟨b.lastId + 1⟩
    (.ok id, { b with lastId := b.lastId + 1, timers := b.timers ++ [(id, none)] })

/-- Arms a timer. The time is entered in the history even if there is no such timer. -/
def start (b : TimerBank) (id : TimerId) (milliseconds : Nat) (ticket : Ticket) :
    Except TimerError Unit × TimerBank :=
  if b.failStart then (.error .exhausted, b)
  else
    let b := { b with history := b.history ++ [milliseconds] }
    if b.has id then (.ok (), b.setArming id (some ⟨milliseconds, ticket⟩))
    else (.error (.unknownTimer id), b)

def stop (b : TimerBank) (id : TimerId) : Except TimerError Unit × TimerBank :=
  if b.has id then (.ok (), b.setArming id none) else (.error (.unknownTimer id), b)

def delete (b : TimerBank) (id : TimerId) : Except TimerError Unit × TimerBank :=
  if b.has id then (.ok (), { b with timers := b.timers.filter (fun t => t.1 ≠ id) })
  else (.error (.unknownTimer id), b)

def armed (b : TimerBank) : List (TimerId × Arming) :=
  b.timers.filterMap (fun t => t.2.map (fun arming => (t.1, arming)))

def fire (b : TimerBank) (id : TimerId) : Option Arming × TimerBank :=
  match b.armed.find? (fun t => t.1 = id) with
  | some (id, arming) => (some arming, b.setArming id none)
  | none => (none, b)

def fireOldest (b : TimerBank) : Option Arming × TimerBank :=
  match b.armed.head? with
  | some (id, arming) => (some arming, b.setArming id none)
  | none => (none, b)

end TimerBank

end FirmwareDownload
