import FirmwareDownload.FileTree
import FirmwareDownload.Image

/-! Files as the program sees them: bytes by path. -/

namespace FirmwareDownload

/-- The bytes of each file, or why they cannot be read. -/
abbrev Files := String → Except FileError Bytes

/-- The given files, in the directory in which paths start. -/
def Files.ofList (files : List (String × Bytes)) : Files := (FileTree.ofList files).read

def Files.image (files : Files) (path : String) : Except ImageError Image :=
  match files path with
  | .error e => .error (.unreadable path e.message)
  | .ok data => Image.ofBytes data

def Files.library (files : Files) (path? : ImageKind → Option String) : ImageLibrary := fun kind =>
  match path? kind with
  | none => .error (.notAvailable kind)
  | some path => files.image path

end FirmwareDownload
