import FirmwareDownload.Session

/-! The record of an engine: what it tells its observer and which calls it makes
on its host, in order. Frames handed to the link appear as `sent`. -/

namespace FirmwareDownload

inductive Notice
  | started (command : Command)
  | moved (source target : Phase)
  | sent (frame : Bytes)
  | received (frame : Bytes)
  /-- The status of a valid answer. -/
  | answered (status : Status)
  /-- Bytes transferred so far, of how many. -/
  | progress (command : Command) (current total : Nat)
  | resend (attempt : UInt32)
  | timeout (command : Command)
  | venReset
  | finished (command : Command) (error : Option DownloadError)
  | timerCreated (id : TimerId)
  | timerArmed (id : TimerId) (milliseconds : Nat)
  | timerStopped (id : TimerId)
  | timerDeleted (id : TimerId)
  | readRequested (limit : Nat)
  | readAborted
  | modeRequested (mode : DeviceMode)
  deriving DecidableEq, Repr

def Notice.text : Notice → String
  | started command => "start " ++ command.text
  | moved source target => "state " ++ source.text ++ ">" ++ target.text
  | sent frame => s!"TX {frame.length} " ++ frame.hex
  | received frame => s!"RX {frame.length} " ++ frame.hex
  | answered status => "status " ++ status.text
  | progress command current total => "progress " ++ command.text ++ s!" {current}/{total}"
  | resend attempt => s!"resend {attempt}"
  | timeout command => "timeout " ++ command.text
  | venReset => "ven reset"
  | finished command none => "finish " ++ command.text
  | finished command (some error) => "finish " ++ command.text ++ ": " ++ error.message
  | timerCreated id => "* create " ++ id.text
  | timerArmed id milliseconds => "* arm " ++ id.text ++ s!" {milliseconds}"
  | timerStopped id => "* stop " ++ id.text
  | timerDeleted id => "* delete " ++ id.text
  | readRequested limit => s!"* read {limit}"
  | readAborted => "* abort read"
  | modeRequested mode => "* mode " ++ mode.text

end FirmwareDownload
