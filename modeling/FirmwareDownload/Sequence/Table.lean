import FirmwareDownload.Chip

/-! The steps of a download and the tables that order them. -/

namespace FirmwareDownload

inductive Step
  /-- Force the clock; a failed answer is passed over. -/
  | normal
  | getSessionState
  | getVersion
  | logRead
  | write
  | log
  | checkIntegrity
  | reset
  | force
  | recover
  | coreReset
  deriving DecidableEq, Repr

def Step.text : Step → String
  | normal => "normal"
  | getSessionState => "get-session-state"
  | getVersion => "get-version"
  | logRead => "log-read"
  | write => "write"
  | log => "log"
  | checkIntegrity => "check-integrity"
  | reset => "reset"
  | force => "force"
  | recover => "recover"
  | coreReset => "send-nci-reset"

inductive Table
  | main
  | recovery
  | log
  deriving DecidableEq, Repr

def downloadSteps : List Step :=
  [.getSessionState, .getVersion, .logRead, .write, .getSessionState, .getVersion, .log,
    .checkIntegrity]

/-- The older family has its clock forced twice before a download. -/
def primarySteps : ChipFamily → List Step
  | .pn548ad => downloadSteps
  | .pn547c2 => .normal :: .normal :: downloadSteps

def Table.steps (chip : ChipFamily) : Table → List Step
  | main => primarySteps chip
  | recovery => [.reset, .force, .recover, .coreReset]
  | log => [.log]

end FirmwareDownload
