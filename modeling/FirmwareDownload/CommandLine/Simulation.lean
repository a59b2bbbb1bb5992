import FirmwareDownload.Bench
import FirmwareDownload.CommandLine.Invocation
import FirmwareDownload.CommandLine.Outcome
import FirmwareDownload.Files
import FirmwareDownload.Sequence.Sequencer

/-! A download to a simulated controller, with a report on it. -/

namespace FirmwareDownload.CommandLine

/-- The program's own version, which is entered in the statistics. -/
def middlewareVersion : UInt16 := 0x0001

/-- Tables that may follow the first one before the sequence is given up. -/
def tableBudget : Nat := 100000

/-- Bytes of an answer that are shown. -/
def shownBytes : Nat := 32

def simulatedController (options : SimulationOptions) : Controller :=
  let chip : Controller := { identity := {
    hardware := options.hardware, major := options.major, minor := options.minor } }
  let chip := chip.inject .memBusy options.busy
  match options.writeFault with
  | some status => chip.injectWrite status options.faultCount
  | none => chip

/-- An engine on the simulated controller, whose timers run by themselves. -/
def simulatedEngine (files : Files) (config : Config) (options : SimulationOptions) :
    Engine (Bench Controller) :=
  let paths := { config.images with primary := options.image.or config.images.primary }
  { config := config
    library := files.library paths.path?
    world := { link := simulatedController options, clock := some {} } }

def resultText : Except DownloadError Unit → String
  | .ok () => "OK"
  | .error e => e.message

def statisticsText (s : Statistics) : String :=
  "fw " ++ hex4 s.firmware ++ " mw " ++ hex4 s.middleware ++
    " trig " ++ toString s.triggered.toNat ++ " ok " ++ toString s.succeeded.toNat ++
    " fail " ++ toString s.failed.toNat ++
    " (consecutive " ++ toString s.consecutive.toNat ++ ") config " ++ toString s.pending

def reportLines (report : SequenceReport) : List String :=
  [labelled 11 "result" (resultText report.result),
    labelled 11 "attempts" (toString report.attempts)] ++
  (report.chipVersion.map fun revision => labelled 11 "chip" ("0x" ++ hex2 revision)).toList ++
  (report.imageVersion.map fun version => labelled 11 "image" version.text).toList ++
  [labelled 11 "up to date" (toString report.upToDate),
    labelled 11 "log" (statisticsText report.statistics)] ++
  (report.integrity.map fun flags => labelled 11 "integrity" flags.text).toList

def completionText (command : Command) : Except DownloadError Bytes → String
  | .ok [] => padRight 18 command.text ++ " OK"
  | .ok answer =>
    padRight 18 command.text ++ " OK  " ++ toString answer.length ++ " bytes  " ++
      Bytes.upperHex (answer.take shownBytes)
  | .error e => padRight 18 command.text ++ " " ++ e.message

/-- Reads the platform area and shows its first bytes. Only an end of the command that was
not seen is a failure. -/
def dumpPlatform (s : Sequencer (Bench Controller)) :
    Except (List String) String × Sequencer (Bench Controller) :=
  match s.attempt .readPlatform with
  | (.refused e, s) => (.error e.chain, s)
  | (.ended result, s) =>
    if s.engine.isBusy then (.error ["command did not finish within 30s"], s)
    else (.ok (completionText .read result), s)

def simulate (files : Files) (config : Config) (options : SimulationOptions) : Outcome :=
  let sequencer : Sequencer (Bench Controller) := {
    engine := simulatedEngine files config options
    options := { middleware := middlewareVersion, forceDownload := options.forceDownload } }
  match sequencer.run tableBudget with
  | none => { ending := .failure ["the sequence did not come to an end"] }
  | some (report, s) =>
    let lines := reportLines report
    let ending : Ending := match report.result with
      | .ok () => .success
      | .error e => .failure e.chain
    if options.dumpPlatform then
      match dumpPlatform s with
      | (.error chain, s) => { lines, ending := .failure chain, notices := s.engine.notices }
      | (.ok line, s) => { lines := lines ++ [line], ending, notices := s.engine.notices }
    else { lines, ending, notices := s.engine.notices }

end FirmwareDownload.CommandLine
