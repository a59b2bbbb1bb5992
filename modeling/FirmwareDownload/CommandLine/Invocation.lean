import FirmwareDownload.CommandLine.Arguments
import FirmwareDownload.Digits
import FirmwareDownload.Status

/-! What the program is asked to do. -/

namespace FirmwareDownload.CommandLine

/-- A chip to simulate, and the download it goes through. -/
structure SimulationOptions where
  /-- Replaces the primary image of the settings. -/
  image : Option String := none
  /-- Data frames that meet a busy memory. -/
  busy : Nat := 0
  hardware : UInt8 := 0x08
  major : UInt8 := 0x01
  minor : UInt8 := 0x00
  forceDownload : Bool := false
  /-- The status that the first write records fail with. -/
  writeFault : Option Status := none
  faultCount : Nat := 1
  /-- Read the platform area in the end. -/
  dumpPlatform : Bool := false
  deriving Repr

inductive Job
  /-- Check a frame in hexadecimal text and show its fields. -/
  | decode (frame : String)
  /-- List the frames that carry an image. -/
  | plan (image : String) (dump : Bool)
  | simulate (options : SimulationOptions)
  | version
  deriving Repr

structure Invocation where
  config : Option String
  verbose : Bool
  job : Job
  deriving Repr

/-- Options of every job, which may stand before and after its name. -/
def commonOptions : List OptionSpec :=
  [{ name := "config", letter := some 'c', takesValue := true },
   { name := "verbose", letter := some 'v' }]

def versionOption : OptionSpec := { name := "version", letter := some 'V', last := true }

def planOptions : List OptionSpec := [{ name := "dump" }]

def simulateOptions : List OptionSpec :=
  [{ name := "image", takesValue := true },
   { name := "busy", takesValue := true },
   { name := "hw-version", takesValue := true },
   { name := "fw-major", takesValue := true },
   { name := "fw-minor", takesValue := true },
   { name := "force-download" },
   { name := "write-fault", takesValue := true },
   { name := "fault-count", takesValue := true },
   { name := "dump-platform" }]

def parsePath (text : String) : Option String := if text = "" then none else some text

/-- A byte in decimal digits, or in hexadecimal ones behind `0x`. -/
def parseByte (text : String) : Option UInt8 :=
  let value := match text.toList with
    | '0' :: 'x' :: rest | '0' :: 'X' :: rest => naturalBelow? 256 16 isHexDigit rest
    | cs => naturalBelow? 256 10 Char.isDigit cs
  value.map Nat.toUInt8

def parseCount (text : String) : Option Nat :=
  naturalBelow? UInt64.size 10 Char.isDigit text.toList

def parseFault : String → Option Status
  | "pll" => some .pllError
  | "signature" => some .signatureError
  | _ => none

def parseSimulation (given : Given) : Option SimulationOptions := do
  let standard : SimulationOptions := {}
  let image ← given.read "image" (fun text => (parsePath text).map some) none
  let busy ← given.read "busy" parseCount standard.busy
  let hardware ← given.read "hw-version" parseByte standard.hardware
  let major ← given.read "fw-major" parseByte standard.major
  let minor ← given.read "fw-minor" parseByte standard.minor
  let writeFault ← given.read "write-fault" (fun text => (parseFault text).map some) none
  let faultCount ← given.read "fault-count" parseCount standard.faultCount
  return {
    image, busy, hardware, major, minor, writeFault, faultCount
    forceDownload := given.has "force-download"
    dumpPlatform := given.has "dump-platform" }

/-- The job of this name, and the options given behind the name. -/
def parseJob (name : String) (args : List String) : Option (Given × Job) :=
  match name with
  | "decode" =>
    match scanOnce commonOptions true args with
    | some (given, [frame]) => some (given, .decode frame)
    | _ => none
  | "plan" =>
    match scanOnce (commonOptions ++ planOptions) true args with
    | some (given, [image]) =>
      (parsePath image).map fun image => (given, .plan image (given.has "dump"))
    | _ => none
  | "simulate" =>
    match scanOnce (commonOptions ++ simulateOptions) true args with
    | some (given, []) => (parseSimulation given).map fun options => (given, .simulate options)
    | _ => none
  | _ => none

/-- Reads the arguments of the program. Of two files with settings, the one named behind
the job counts. -/
def Invocation.parse? (args : List String) : Option Invocation := do
  let (before, operands) ← scanOnce (versionOption :: commonOptions) false args
  let first ← before.read "config" (fun text => (parsePath text).map some) none
  if before.has "version" then return { config := none, verbose := false, job := .version }
  let name :: args := operands | none
  let (behind, job) ← parseJob name args
  let config ← behind.read "config" (fun text => (parsePath text).map some) first
  return { config, verbose := before.has "verbose" || behind.has "verbose", job }

end FirmwareDownload.CommandLine
