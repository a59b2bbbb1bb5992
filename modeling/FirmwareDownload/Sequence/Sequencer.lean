import FirmwareDownload.Engine.Call
import FirmwareDownload.Sequence.Statistics
import FirmwareDownload.Sequence.Table

/-! A complete firmware update on top of an engine. The main table checks the chip,
writes the primary image, verifies it, and logs the attempt. After a loop failure
or a rejected signature a recovery table follows, and the main table again, as
long as attempts are left. -/

namespace FirmwareDownload

structure SequenceOptions where
  clock : Option ClockSource := none
  /-- Entered in the statistics. -/
  middleware : UInt16 := 0
  maxAttempts : UInt8 := 3
  /-- Write the image even if the chip already runs its version. -/
  forceDownload : Bool := false
  /-- Milliseconds that one command may take. -/
  stepLimit : Nat := 30000
  /-- Signals that are handled for one command before its time counts as over. -/
  patience : Nat := 1000000
  deriving DecidableEq, Repr, Inhabited

inductive Attempt
  | refused (error : DownloadError)
  /-- The command ended, or its time was over. -/
  | ended (result : Except DownloadError Bytes)

def Attempt.result : Attempt → Except DownloadError Bytes
  | refused error => .error error
  | ended r => r

inductive SequenceEntry
  | table (t : Table)
  | step (s : Step)
  | command (c : Call) (attempt : Attempt)

/-- What steps leave behind for later ones. -/
structure SequenceFlags where
  /-- The controller reported an open session. -/
  sessionOpen : Bool := false
  /-- A counted write started and was not logged yet. -/
  unlogged : Bool := false
  /-- The rest of the table is passed over. -/
  skipRest : Bool := false
  /-- The chip runs the version of the image, which is written all the same. -/
  forced : Bool := false
  recovery : Bool := false
  retry : Bool := false
  skipReset : Bool := false
  skipForce : Bool := false
  /-- A recovery image was written after a rejected signature. -/
  coreReset : Bool := false
  deriving DecidableEq, Repr, Inhabited

structure Sequencer (W : Type) where
  engine : Engine W
  options : SequenceOptions
  flags : SequenceFlags := {}
  /-- Counted writes, recovery writes and recovery forces. -/
  attempts : UInt8 := 0
  recoveries : UInt8 := 0
  chipVersion : Option UInt8 := none
  imageVersion : Option FirmwareVersion := none
  /-- The chip already ran the version of the image. -/
  upToDate : Bool := false
  statistics : Statistics := {}
  integrity : Option RegionFlags := none
  /-- What was done, newest first. -/
  history : List SequenceEntry := []

structure SequenceReport where
  result : Except DownloadError Unit
  attempts : UInt8
  chipVersion : Option UInt8
  imageVersion : Option FirmwareVersion
  upToDate : Bool
  statistics : Statistics
  integrity : Option RegionFlags

namespace Sequencer

variable {W : Type} [Host W]

def refuseReport (fault : ReportFault) : Except DownloadError Unit :=
  .error (.failed (.badReport fault))

def mayTry (s : Sequencer W) : Bool := s.attempts < s.options.maxAttempts

def withFlags (s : Sequencer W) (flags : SequenceFlags) : Sequencer W := { s with flags := flags }

/-! ## Commands -/

/-- The completion that was delivered since there were `count` of them. -/
def completionSince (e : Engine W) (count : Nat) : Option Completion :=
  if count < e.delivered.length then e.delivered.head? else none

def attempt (s : Sequencer W) (c : Call) : Attempt × Sequencer W :=
  let count := s.engine.delivered.length
  let (attempt, engine) : Attempt × Engine W :=
    match s.engine.call c with
    | (.error err, e) => (.refused err, e)
    | (.ok (), e) =>
      match e.runToIdle s.options.patience s.options.stepLimit with
      | (false, e) => (.ended (.error .timeout), e)
      | (true, e) =>
        match completionSince e count with
        | none => (.ended (.error (.failed .abandoned)), e)
        | some completion => (.ended (completion.result.map (fun _ => completion.response)), e)
  (attempt, { s with engine := engine, history := .command c attempt :: s.history })

def perform (s : Sequencer W) (c : Call) : Except DownloadError Bytes × Sequencer W :=
  let (attempt, s) := s.attempt c
  (attempt.result, s)

def setMode (s : Sequencer W) (mode : DeviceMode) : Except DownloadError Unit × Sequencer W :=
  let (r, e) := s.engine.setMode mode
  (r, { s with engine := e })

def performThen (s : Sequencer W) (c : Call)
    (take : Sequencer W → Bytes → Except DownloadError Unit × Sequencer W) :
    Except DownloadError Unit × Sequencer W :=
  match s.perform c with
  | (.error err, s) => (.error err, s)
  | (.ok answer, s) => take s answer

/-! ## Steps of the main table -/

/-- Forces the clock and tells whether the controller accepted it. In a recovery
this counts as an attempt. -/
def forceClock (s : Sequencer W) : Except DownloadError Bool × Sequencer W :=
  let s := if s.flags.recovery then { s with attempts := s.attempts + 1 } else s
  match s.attempt (.force s.options.clock) with
  | (.refused err, s) => (.error err, s.withFlags { s.flags with skipForce := false, retry := false })
  | (.ended (.ok _), s) => (.ok true, s)
  | (.ended (.error _), s) => (.ok false, s)

def normal (s : Sequencer W) : Except DownloadError Unit × Sequencer W :=
  if s.flags.skipForce then (.ok (), s)
  else
    let (r, s) := s.forceClock
    (r.map (fun _ => ()), s)

/-- Takes a session report: its flag and its life cycle. -/
def takeSessionState (s : Sequencer W) (report : Bytes) : Except DownloadError Unit × Sequencer W :=
  if report.length ≠ 3 then (refuseReport (.sessionLength report.length), s)
  else if report.byteAt 2 ≠ 17 then (refuseReport (.notOperational (report.byteAt 2)), s)
  else
    let isOpen : Bool := report.byteAt 0 = 1
    let s := s.withFlags { s.flags with sessionOpen := isOpen }
    if isOpen && s.flags.unlogged then
      (refuseReport .stillOpen, s.withFlags { s.flags with retry := s.mayTry })
    else (.ok (), s)

def getSessionState (s : Sequencer W) : Except DownloadError Unit × Sequencer W :=
  if s.flags.skipRest then (.ok (), s) else s.performThen (.getSessionState 3) takeSessionState

/-- Before the write: refuses a lower major version, and finds out whether the chip
runs the version of the image. -/
def checkBefore (s : Sequencer W) (image current : FirmwareVersion) :
    Except DownloadError Unit × Sequencer W :=
  if image.major < current.major then (.error .versionError, s)
  else if image = current then
    if s.options.forceDownload then (.ok (), s.withFlags { s.flags with forced := true })
    else (.ok (), { s.withFlags { s.flags with skipRest := true } with upToDate := true })
  else (.ok (), s)

/-- After the write: the chip has to run the version of the image. -/
def checkAfter (s : Sequencer W) (image current : FirmwareVersion) :
    Except DownloadError Unit × Sequencer W :=
  if image ≠ current then (.error (.failed (.versionMismatch image current)), s)
  else
    (.ok (), { s with statistics := { s.statistics with
      middleware := s.options.middleware
      firmware := word current.major current.minor } })

/-- Takes a version report. One of the wrong length for its revision is passed over. -/
def takeVersion (s : Sequencer W) (report : Bytes) : Except DownloadError Unit × Sequencer W :=
  match report with
  | [] => (refuseReport .emptyVersion, s)
  | hardware :: _ =>
    let revision := hardware &&& 0x0F
    match reportLength? revision with
    | none => (refuseReport (.unknownRevision revision), s)
    | some expected =>
      let s := { s with chipVersion := some revision }
      if report.length ≠ expected then (.ok (), s)
      else
        let current : FirmwareVersion :=
          ⟨report.byteAt (expected - 1), report.byteAt (expected - 2)⟩
        let image := s.imageVersion.getD ⟨0, 0⟩
        if report.byteAt 1 = 0x07 ∧ image.major ≠ 0x01 then (.error .versionError, s)
        else if s.flags.unlogged then s.checkAfter image current
        else s.checkBefore image current

def getVersion (s : Sequencer W) : Except DownloadError Unit × Sequencer W :=
  if s.flags.skipRest || s.flags.sessionOpen then (.ok (), s)
  else s.performThen (.getVersion 11) takeVersion

def takeStatistics (s : Sequencer W) (data : Bytes) : Except DownloadError Unit × Sequencer W :=
  match Statistics.ofBytes? data with
  | none => (refuseReport (.logLength data.length), s)
  | some statistics => (.ok (), { s with statistics := statistics })

def logRead (s : Sequencer W) : Except DownloadError Unit × Sequencer W :=
  let f := s.flags
  if (f.skipRest || f.forced) && !f.sessionOpen || f.sessionOpen && f.retry then (.ok (), s)
  else s.performThen (.readLog Statistics.size) takeStatistics

def countWrite (s : Sequencer W) : Sequencer W :=
  { s with
    flags := { s.flags with unlogged := true }
    attempts := s.attempts + 1
    statistics := s.statistics.countTrigger }

/-- Writes the primary image. A forced write is not counted. -/
def writePrimary (s : Sequencer W) : Except DownloadError Unit × Sequencer W :=
  let counted := !s.flags.forced
  let s := if counted then s.countWrite else s
  match s.attempt (.write false none) with
  | (.refused err, s) =>
    (.error err, if counted then { s with statistics := s.statistics.countFailure } else s)
  | (.ended (.ok _), s) =>
    (.ok (), if s.flags.unlogged then { s with statistics := s.statistics.countSuccess } else s)
  | (.ended (.error err), s) =>
    let s := if s.flags.unlogged then { s with statistics := s.statistics.countFailure } else s
    let s := if err = .writeFailed then
      s.withFlags { s.flags with skipRest := true, recovery := true } else s
    (.error err, s)

def write (s : Sequencer W) : Except DownloadError Unit × Sequencer W :=
  let s := s.withFlags { s.flags with retry := false }
  if s.flags.skipRest && !s.flags.sessionOpen then (.ok (), s) else s.writePrimary

def writeLog (s : Sequencer W) : Except DownloadError Unit × Sequencer W :=
  if (s.flags.skipRest || s.flags.forced) && !s.flags.unlogged then (.ok (), s)
  else
    s.performThen (.log s.statistics.toBytes)
      (fun s _ => (.ok (), s.withFlags { s.flags with unlogged := false }))

/-- Takes an integrity report. One of the wrong length is passed over. -/
def takeIntegrity (s : Sequencer W) (report : Bytes) : Except DownloadError Unit × Sequencer W :=
  if report.length ≠ 31 then (.ok (), s)
  else
    match RegionFlags.ofReport? report with
    | none => (.ok (), s)
    | some flags =>
      let s := { s with integrity := some flags }
      if flags.isOk then (.ok (), s) else (.error (.failed (.integrity flags)), s)

def checkIntegrity (s : Sequencer W) : Except DownloadError Unit × Sequencer W :=
  if s.flags.sessionOpen || s.flags.skipRest then (.ok (), s)
  else s.performThen (.checkIntegrity (s.chipVersion.getD 0) 31) takeIntegrity

/-! ## Steps of the recovery table -/

def reset (s : Sequencer W) : Except DownloadError Unit × Sequencer W :=
  if s.flags.skipReset then (.ok (), s.withFlags { s.flags with skipReset := false })
  else if s.flags.skipRest then (.ok (), s)
  else s.performThen .reset (fun s _ => (.ok (), s))

/-- Restarts the controller by forcing its clock; then the main table is tried again. -/
def force (s : Sequencer W) : Except DownloadError Unit × Sequencer W :=
  if s.flags.skipForce then (.ok (), s)
  else
    match s.forceClock with
    | (.error err, s) => (.error err, s)
    | (.ok false, s) => (.ok (), s)
    | (.ok true, s) =>
      (.ok (), s.withFlags { s.flags with recovery := false, retry := true, skipReset := true })

def recover (s : Sequencer W) : Except DownloadError Unit × Sequencer W :=
  if !s.flags.recovery then (.ok (), s)
  else
    let s := { s.withFlags { s.flags with recovery := false } with attempts := s.attempts + 1 }
    match s.attempt (.write true none) with
    | (.refused err, s) => (.error err, s.withFlags { s.flags with skipForce := false, retry := false })
    | (.ended (.error err), s) => (.error err, s.withFlags { s.flags with skipForce := false })
    | (.ended (.ok _), s) =>
      let flags := if s.flags.skipForce then { s.flags with coreReset := true }
        else { s.flags with retry := true }
      (.ok (), s.withFlags { flags with skipForce := false })

/-- The core reset that keeps the configuration, for normal mode. -/
def coreResetFrame : Bytes := [0x20, 0x00, 0x01, 0x00]

/-- Back in download mode the main table is tried again. -/
def reenterDownload (s : Sequencer W) : Except DownloadError Unit × Sequencer W :=
  match s.setMode .download with
  | (.error err, s) => (.error err, s.withFlags { s.flags with retry := false })
  | (.ok (), s) => (.ok (), s.withFlags { s.flags with retry := true })

def resetCore (s : Sequencer W) : Except DownloadError Unit × Sequencer W :=
  if !s.flags.coreReset then (.ok (), s)
  else
    match (s.withFlags { s.flags with coreReset := false }).setMode .normal with
    | (.error err, s) => (.error err, s.withFlags { s.flags with retry := false })
    | (.ok (), s) => s.performThen (.raw coreResetFrame 6) (fun s _ => s.reenterDownload)

/-! ## Tables -/

def takeStep (s : Sequencer W) (step : Step) : Except DownloadError Unit × Sequencer W :=
  let s := { s with history := .step step :: s.history }
  match step with
  | .normal => s.normal
  | .getSessionState => s.getSessionState
  | .getVersion => s.getVersion
  | .logRead => s.logRead
  | .write => s.write
  | .log => s.writeLog
  | .checkIntegrity => s.checkIntegrity
  | .reset => s.reset
  | .force => s.force
  | .recover => s.recover
  | .coreReset => s.resetCore

def takeSteps (s : Sequencer W) : List Step → Except DownloadError Unit × Sequencer W
  | [] => (.ok (), s)
  | step :: steps =>
    match s.takeStep step with
    | (.error err, s) => (.error err, s)
    | (.ok (), s) => s.takeSteps steps

def runTable (s : Sequencer W) (t : Table) : Except DownloadError Unit × Sequencer W :=
  { s with history := .table t :: s.history }.takeSteps (t.steps s.engine.config.chip)

/-! ## The sequence -/

def start (s : Sequencer W) : Except DownloadError Unit × Sequencer W :=
  match s.engine.loadPrimary with
  | (.error err, e) => (.error err, { s with engine := e })
  | (.ok version, e) =>
    match { s with engine := e, imageVersion := version }.setMode .download with
    | (.error err, s) => (.error err, s)
    | (.ok (), s) => s.runTable .main

/-- After a failure that an image may mend, recovery is due while attempts are left;
a rejected signature goes straight to the recovery write. -/
def react (s : Sequencer W) (status : Except DownloadError Unit) : Sequencer W :=
  match status with
  | .ok () => s
  | .error err =>
    if !err.isRecoverable then s
    else if !s.mayTry then s.withFlags { s.flags with recovery := false, retry := false }
    else
      s.withFlags { s.flags with
        recovery := true
        skipForce := if err = .rejected then true else s.flags.skipForce }

/-- Logs an interrupted write. Its failure counts only after a success. -/
def runLog (s : Sequencer W) (status : Except DownloadError Unit) :
    Except DownloadError Unit × Sequencer W :=
  let (logged, s) := (s.withFlags { s.flags with unlogged := false }).runTable .log
  match status with
  | .ok () => (logged, s)
  | .error err => (.error err, s)

/-- A new try keeps nothing but the note that no reset is needed. -/
def runRetry (s : Sequencer W) : Except DownloadError Unit × Sequencer W :=
  (s.withFlags { retry := true, skipReset := s.flags.skipReset }).runTable .main

/-- The table that is due: the log of an interrupted write before all else, then
recovery as often as attempts are allowed, then another try. -/
def next? (s : Sequencer W) : Option Table :=
  if s.flags.unlogged then some .log
  else if s.flags.recovery then
    if s.recoveries + 1 ≤ s.options.maxAttempts then some .recovery else none
  else if s.flags.retry then some .main
  else none

def runNext (s : Sequencer W) (status : Except DownloadError Unit) :
    Table → Except DownloadError Unit × Sequencer W
  | .log => s.runLog status
  | .recovery => { s with recoveries := s.recoveries + 1 }.runTable .recovery
  | .main => s.runRetry

/-- Runs the tables that follow on `status`, at most `budget` of them; none if they
do not come to an end by then. -/
def runTables (budget : Nat) (s : Sequencer W) (status : Except DownloadError Unit) :
    Option (Except DownloadError Unit × Sequencer W) :=
  let s := s.react status
  match budget, s.next? with
  | _, none => some (status, s)
  | 0, some _ => none
  | budget + 1, some table =>
    let (status, s) := s.runNext status table
    s.runTables budget status

def leave (s : Sequencer W) (status : Except DownloadError Unit) :
    Except DownloadError Unit × Sequencer W :=
  match s.setMode .normal, status with
  | (.ok (), s), status => (status, s)
  | (.error err, s), .ok () => (.error err, s)
  | (.error _, s), .error err => (.error err, s)

def report (s : Sequencer W) (result : Except DownloadError Unit) : SequenceReport where
  result := result
  attempts := s.attempts
  chipVersion := s.chipVersion
  imageVersion := s.imageVersion
  upToDate := s.upToDate
  statistics := s.statistics
  integrity := s.integrity

/-- Runs the whole sequence, recovery included, with at most `budget` tables after
the first. -/
def run (budget : Nat) (s : Sequencer W) : Option (SequenceReport × Sequencer W) :=
  let (status, s) := s.start
  match s.runTables budget status with
  | none => none
  | some (status, s) =>
    let (result, s) := s.leave status
    some (s.report result, s)

end Sequencer

end FirmwareDownload
