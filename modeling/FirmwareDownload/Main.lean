import FirmwareDownload.CommandLine.Program

/-! The program on the files and streams of the system. -/

namespace FirmwareDownload.CommandLine

def usage : String :=
  "usage: [-c FILE] [-v] decode FRAME | plan IMAGE [--dump] | simulate [OPTIONS]"

def fileError : IO.Error → FileError
  | .noFileOrDirectory .. => .missing
  | .inappropriateType _ 20 _ => .notDirectory
  | .inappropriateType _ 21 _ => .isDirectory
  | .invalidArgument _ 36 _ | .resourceExhausted _ 36 _ => .nameTooLong
  | e => .other (toString e)

/-- What a file holds, as an entry of the files that are known. -/
def readFile (path : String) : IO (String × Except FileError Bytes) := do
  try
    let data ← IO.FS.readBinFile path
    return (path, .ok data.toList)
  catch e => return (path, .error (fileError e))

def known (files : List (String × Except FileError Bytes)) : Files := fun path =>
  (files.lookup path).getD (.error .missing)

end FirmwareDownload.CommandLine

open FirmwareDownload.CommandLine in
def main (args : List String) : IO UInt32 := do
  match Invocation.parse? args with
  | none =>
    IO.eprintln usage
    return Ending.misuse.exitCode.toUInt32
  | some invocation =>
    let first ← invocation.config.toList.mapM readFile
    let config := (invocation.settings (known first)).toOption.getD {}
    let others ← (invocation.wantedFiles config).mapM readFile
    let outcome := invocation.run (known (first ++ others))
    if invocation.verbose then outcome.notices.forM fun notice => IO.eprintln notice.text
    outcome.lines.forM IO.println
    outcome.errorText?.forM fun text => IO.eprintln ("Error: " ++ text)
    return outcome.ending.exitCode.toUInt32
