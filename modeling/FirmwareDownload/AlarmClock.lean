import FirmwareDownload.Host

/-! Timers that run by themselves, on a clock that moves only while somebody waits. -/

namespace FirmwareDownload

structure Alarm where
  deadline : Nat
  ticket : Ticket
  deriving DecidableEq, Repr

structure AlarmClock where
  lastId : Nat := 0
  now : Nat := 0
  /-- The timers created and not deleted, oldest first. -/
  timers : List (TimerId × Option Alarm) := []
  deriving DecidableEq, Repr, Inhabited

namespace AlarmClock

def has (c : AlarmClock) (id : TimerId) : Bool := c.timers.any (fun t => t.1 = id)

def setAlarm (c : AlarmClock) (id : TimerId) (alarm : Option Alarm) : AlarmClock :=
  { c with timers := c.timers.map (fun t => if t.1 = id then (id, alarm) else t) }

def create (c : AlarmClock) : Except TimerError TimerId × AlarmClock :=
  let id : TimerId := ⟨c.lastId + 1⟩
  (.ok id, { c with lastId := c.lastId + 1, timers := c.timers ++ [(id, none)] })

def start (c : AlarmClock) (id : TimerId) (milliseconds : Nat) (ticket : Ticket) :
    Except TimerError Unit × AlarmClock :=
  if c.has id then (.ok (), c.setAlarm id (some ⟨c.now + milliseconds, ticket⟩))
  else (.error (.unknownTimer id), c)

def stop (c : AlarmClock) (id : TimerId) : Except TimerError Unit × AlarmClock :=
  if c.has id then (.ok (), c.setAlarm id none) else (.error (.unknownTimer id), c)

def delete (c : AlarmClock) (id : TimerId) : Except TimerError Unit × AlarmClock :=
  if c.has id then (.ok (), { c with timers := c.timers.filter (fun t => t.1 ≠ id) })
  else (.error (.unknownTimer id), c)

/-- The alarm that goes off first. -/
def next? (c : AlarmClock) : Option (TimerId × Alarm) :=
  (c.timers.filterMap (fun t => t.2.map (fun alarm => (t.1, alarm)))).foldl
    (fun best t => match best with
      | some b => if t.2.deadline < b.2.deadline then some t else some b
      | none => some t)
    none

/-- Lets at most `limit` milliseconds pass, until an alarm goes off. One that is due
just when the time is over comes too late. -/
def await (c : AlarmClock) (limit : Nat) : Option (List Signal × Nat) × AlarmClock :=
  match c.next? with
  | some (id, alarm) =>
    let passed := alarm.deadline - c.now
    if passed < limit then
      (some ([.expired alarm.ticket], limit - passed),
        { c.setAlarm id none with now := c.now + passed })
    else (none, { c with now := c.now + limit })
  | none => (none, { c with now := c.now + limit })

end AlarmClock

end FirmwareDownload
