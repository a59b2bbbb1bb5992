import FirmwareDownload.Chip
import FirmwareDownload.Image

/-! The settings of an engine. -/

namespace FirmwareDownload

structure ImagePaths where
  primary : Option String := none
  platformRecovery : Option String := none
  productionKey : Option String := none
  deriving DecidableEq, Repr, Inhabited

def ImagePaths.path? (paths : ImagePaths) : ImageKind → Option String
  | .primary => paths.primary
  | .platformRecovery => paths.platformRecovery
  | .productionKey => paths.productionKey

structure Config where
  /-- Milliseconds allowed for an answer once a frame is written. -/
  responseTimeout : UInt64 := 2500
  /-- Milliseconds before a frame that met a busy memory is sent again. -/
  resendWait : UInt64 := 50
  /-- Busy answers in a row that are borne; without a limit, any number. -/
  resendLimit : Option UInt32 := none
  /-- Toggle the controller when an answer times out after a signature error. -/
  venResetOnTimeout : Bool := true
  chip : ChipFamily := .pn548ad
  images : ImagePaths := {}
  deriving DecidableEq, Repr, Inhabited

end FirmwareDownload
