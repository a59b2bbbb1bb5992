import FirmwareDownload.Bytes

/-! A tree of files, and the way that a path takes through it. A path goes from name to
name, and each step but the last has to end in a directory. -/

namespace FirmwareDownload

inductive FileError
  | missing
  /-- A part of the path that is passed through is a file. -/
  | notDirectory
  | isDirectory
  | nameTooLong
  | other (reason : String)
  deriving DecidableEq, Repr

def FileError.message : FileError → String
  | missing => "No such file or directory (os error 2)"
  | notDirectory => "Not a directory (os error 20)"
  | isDirectory => "Is a directory (os error 21)"
  | nameTooLong => "File name too long (os error 36)"
  | other reason => reason

/-- A place in a tree, by the names on the way from the root. -/
abbrev Place := List String

structure FileTree where
  files : List (Place × Bytes)
  /-- Directories that are there even if they hold no file. -/
  directories : List Place
  deriving DecidableEq, Repr

namespace FileTree

/-- Where a path without a slash in front starts. No name in a path is empty, so this
place can be left but not entered. -/
def start : Place := [""]

/-- The given files below the start, in a system that has a directory for what is
temporary and a device that is empty when it is read. -/
def ofList (files : List (String × Bytes)) : FileTree where
  files := (["dev", "null"], []) ::
    files.map fun (name, data) =>
      (start ++ (name.splitOn "/").filter fun part => part ≠ "" ∧ part ≠ ".", data)
  directories := [[], start, ["tmp"]]

def isDirectory (t : FileTree) (place : Place) : Bool :=
  t.directories.contains place ||
    t.files.any fun (file, _) => place.isPrefixOf file && place ≠ file

def isFile (t : FileTree) (place : Place) : Bool := (t.files.lookup place).isSome

/-- The longest name, in bytes. -/
def maxName : Nat := 255

/-- The longest path, in bytes. -/
def maxPath : Nat := 4095

/-- One name further; above the root is the root. -/
def step (t : FileTree) (place : Place) (name : String) : Except FileError Place :=
  if !t.isDirectory place then .error .notDirectory
  else if name = "." then .ok place
  else if name = ".." then .ok place.dropLast
  else if maxName < name.utf8ByteSize then .error .nameTooLong
  else if t.isDirectory (place ++ [name]) || t.isFile (place ++ [name]) then .ok (place ++ [name])
  else .error .missing

def walk (t : FileTree) (place : Place) : List String → Except FileError Place
  | [] => .ok place
  | name :: names =>
    match t.step place name with
    | .error e => .error e
    | .ok place => t.walk place names

/-- The names in a path. A slash at an end or next to another one leaves a directory
where it is, as a single dot does. -/
def names (path : String) : List String :=
  (path.splitOn "/").map fun name => if name = "" then "." else name

def read (t : FileTree) (path : String) : Except FileError Bytes :=
  if path.contains '\x00' then .error (.other "file name contained an unexpected NUL byte")
  else if path = "" then .error .missing
  else if maxPath < path.utf8ByteSize then .error .nameTooLong
  else
    match t.walk (if path.startsWith "/" then [] else start) (names path) with
    | .error e => .error e
    | .ok place =>
      match t.files.lookup place with
      | some data => .ok data
      | none => .error .isDirectory

end FileTree

end FirmwareDownload
