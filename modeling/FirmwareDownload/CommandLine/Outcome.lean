import FirmwareDownload.Digits
import FirmwareDownload.Engine.Notice

/-! How a run of the program ends. -/

namespace FirmwareDownload.CommandLine

inductive Ending
  | success
  /-- The program failed for these causes, each after its effect. -/
  | failure (chain : List String)
  /-- The arguments make no sense. -/
  | misuse
  deriving DecidableEq, Repr

def Ending.exitCode : Ending → UInt8
  | success => 0
  | failure _ => 1
  | misuse => 2

structure Outcome where
  lines : List String := []
  ending : Ending := .success
  notices : List Notice := []
  deriving DecidableEq, Repr

/-- A character as the log shows it. Those that may steer a terminal appear by number. -/
def loggedChar (c : Char) : List Char :=
  if ['\x07', '\x08', '\x0c', '\x1b', '\x7f'].contains c then
    ['\\', 'x'] ++ hexByte false c.toNat.toUInt8
  else if 0x80 ≤ c.toNat ∧ c.toNat < 0xA0 then
    ['\\', 'u', '\x7b'] ++ hexByte false c.toNat.toUInt8 ++ ['\x7d']
  else [c]

def logged (text : String) : String := String.ofList (text.toList.flatMap loggedChar)

/-- The causes of a failure as one text, as it is logged. -/
def Outcome.errorText? (outcome : Outcome) : Option String :=
  match outcome.ending with
  | .failure chain => some (logged (": ".intercalate chain))
  | _ => none

/-- A line with a value behind its name and a colon in the given column. -/
def labelled (column : Nat) (name value : String) : String :=
  padRight column name ++ ": " ++ value

end FirmwareDownload.CommandLine
