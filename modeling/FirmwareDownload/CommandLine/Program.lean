import FirmwareDownload.CommandLine.FrameText
import FirmwareDownload.CommandLine.Plan
import FirmwareDownload.CommandLine.Simulation
import FirmwareDownload.Config.Text

/-! The program: arguments and files in, lines and an ending out. -/

namespace FirmwareDownload.CommandLine

def versionText : String := "dnld-cli 0.1.0"

def fail (chain : List String) : Outcome := { ending := .failure chain }

def frameLines (length : Nat) (frame : Frame) : List String :=
  [labelled 9 "length" (toString length ++ " bytes"),
    labelled 9 "code" ("0x" ++ hex2 frame.code ++ " (as status: " ++ frame.status.text ++ ")"),
    labelled 9 "more" (toString frame.more),
    labelled 9 "payload" (toString frame.payload.length ++ " bytes")] ++
  if frame.payload.isEmpty then [] else [padLeft 11 "" ++ frame.payload.upperHex]

def decode (text : String) : Outcome :=
  match readFrameText text with
  | .error e => fail ["frame is not valid hex", e.message]
  | .ok raw =>
    match Frame.decode raw with
    | .error e => fail [e.message]
    | .ok frame => { lines := frameLines raw.length frame }

/-- A line on a frame, and another with its bytes if they are to be dumped. -/
def planLines (dump : Bool) (number : Nat) (frame : PlannedFrame) : List String :=
  let line := "frame " ++ padLeft 5 (toString number) ++
    "  offset " ++ padLeft 7 (toString frame.offset) ++
    "  len " ++ padLeft 3 (toString frame.bytes.length) ++ if frame.more then "  +more" else ""
  if dump then [line, padLeft 4 "" ++ frame.bytes.upperHex] else [line]

def planSummary (image : Image) (frames : List PlannedFrame) : String :=
  toString image.recordCount ++ " records, " ++ toString image.size ++ " bytes -> " ++
    toString frames.length ++ " frames (" ++
    toString (frames.countP (·.more)) ++ " with more-fragments set)"

/-- Frames are listed as they are planned, so those before an error are listed too. -/
def plan (files : Files) (path : String) (dump : Bool) : Outcome :=
  match files path with
  | .error e => fail ["reading " ++ path, e.message]
  | .ok data =>
    match Image.ofBytes data with
    | .error e => fail e.chain
    | .ok image =>
      let (frames, result) :=
        Transfer.planFrames { firstWrite := true } image.data.toArray .empty
      let lines := (frames.zipIdx 1).flatMap fun (frame, number) => planLines dump number frame
      match result with
      | .error e => { lines, ending := .failure e.chain }
      | .ok () => { lines := lines ++ [planSummary image frames] }

def readConfig (files : Files) (path : String) : Except String Config :=
  match files path with
  | .error e => .error e.message
  | .ok data =>
    match (String.fromUTF8? (ByteArray.mk data.toArray)).bind Config.ofText? with
    | some config => .ok config
    | none => .error "not a valid configuration"

def perform (files : Files) (config : Config) : Job → Outcome
  | .decode frame => decode frame
  | .plan image dump => plan files image dump
  | .simulate options => simulate files config options
  | .version => { lines := [versionText] }

namespace Invocation

/-- The settings in force, or what is wrong with the file that should hold them. -/
def settings (invocation : Invocation) (files : Files) : Except (List String) Config :=
  match invocation.config with
  | none => .ok {}
  | some path =>
    match readConfig files path with
    | .error reason => .error ["loading " ++ path, reason]
    | .ok config => .ok config

def wantedFiles (invocation : Invocation) (config : Config) : List String :=
  match invocation.job with
  | .decode _ | .version => []
  | .plan image _ => [image]
  | .simulate options =>
    options.image.toList ++ [ImageKind.primary, .platformRecovery, .productionKey].filterMap
      config.images.path?

/-- Reads the settings before it does anything else. -/
def run (invocation : Invocation) (files : Files) : Outcome :=
  match invocation.settings files with
  | .error chain => fail chain
  | .ok config => perform files config invocation.job

end Invocation

def run (files : Files) (args : List String) : Outcome :=
  match Invocation.parse? args with
  | none => { ending := .misuse }
  | some invocation => invocation.run files

end FirmwareDownload.CommandLine
