import FirmwareDownload.Bytes

/-! The host of an engine: timers and the link to the controller. Their
calls only start something; its end is posted later as a signal. -/

namespace FirmwareDownload

/-- Timers are numbered from one as they are created. -/
structure TimerId where
  number : Nat
  deriving DecidableEq, Repr

def TimerId.text (id : TimerId) : String := s!"timer#{id.number}"

inductive TimerError
  | exhausted
  | unknownTimer (id : TimerId)
  | poisoned
  | spawn (reason : String)
  deriving DecidableEq, Repr

def TimerError.message : TimerError → String
  | exhausted => "No timer resources available"
  | unknownTimer id => "Unknown timer " ++ id.text
  | poisoned => "Timer service state poisoned"
  | spawn reason => "Failed to start timer thread: " ++ reason

inductive DeviceMode
  | normal
  | download
  deriving DecidableEq, Repr

def DeviceMode.text : DeviceMode → String
  | normal => "NORMAL"
  | download => "DOWNLOAD"

inductive LinkError
  | writeFailed (reason : String)
  | readFailed (reason : String)
  | readPending
  | modeSwitchFailed (mode : DeviceMode) (reason : String)
  | disconnected
  | io (reason : String)
  deriving DecidableEq, Repr

def LinkError.message : LinkError → String
  | writeFailed reason => "Write failed: " ++ reason
  | readFailed reason => "Read failed: " ++ reason
  | readPending => "Read already pending"
  | modeSwitchFailed mode reason => "Mode switch to " ++ mode.text ++ " failed: " ++ reason
  | disconnected => "Device disconnected"
  | io reason => "IO error: " ++ reason

/-- Each request to the host carries a ticket of its own, and so does its signal. Tickets are
numbered from one as they are drawn. -/
abbrev Ticket := Nat

inductive Signal
  | written (ticket : Ticket) (result : Except LinkError Unit)
  | received (ticket : Ticket) (result : Except LinkError Bytes)
  | expired (ticket : Ticket)

def Signal.ticket : Signal → Ticket
  | written t _ => t
  | received t _ => t
  | expired t => t

/-- What a call that may post signals hands back: the signals posted meanwhile come
with the outcome and the new state. -/
structure Answer (ε W : Type) where
  outcome : Except ε Unit
  signals : List Signal
  world : W

/-- What an engine runs on, as operations on its state `W`. -/
class Host (W : Type) where
  createTimer : W → Except TimerError TimerId × W
  /-- Arms a timer for a number of milliseconds; an earlier arming is replaced. -/
  startTimer : W → TimerId → Nat → Ticket → Answer TimerError W
  stopTimer : W → TimerId → Except TimerError Unit × W
  deleteTimer : W → TimerId → Except TimerError Unit × W
  write : W → Bytes → Ticket → Answer LinkError W
  /-- Asks for at most so many bytes. -/
  read : W → Nat → Ticket → Answer LinkError W
  abortRead : W → W
  setMode : W → DeviceMode → Except LinkError Unit × W
  /-- Lets time pass until a signal comes, for at most so many milliseconds: the
  signals and the time left over, or none if the time went by. -/
  await : W → Nat → Option (List Signal × Nat) × W

class Link (D : Type) where
  write : D → Bytes → Ticket → Answer LinkError D
  read : D → Ticket → Answer LinkError D
  abortRead : D → D
  setMode : D → DeviceMode → D

end FirmwareDownload
