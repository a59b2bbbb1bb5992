import FirmwareDownload.Bytes

/-! Chip families and silicon revisions. -/

namespace FirmwareDownload

inductive ChipFamily
  | pn548ad
  | pn547c2
  deriving DecidableEq, Repr, Inhabited

def ChipFamily.text : ChipFamily → String
  | pn548ad => "pn548ad"
  | pn547c2 => "pn547c2"

def ChipFamily.ofText? (name : String) : Option ChipFamily :=
  [pn548ad, pn547c2].find? fun family => family.text = name

/-- Offset and length of the user-data area that an integrity check may cover. -/
def ChipFamily.userDataArea : ChipFamily → UInt16 × UInt16
  | pn548ad => (0x02BC, 0x0C00)
  | pn547c2 => (0x023C, 0x0C80)

/-- On these revisions an integrity check names the user-data area. -/
def coversUserData (revision : UInt8) : Bool :=
  revision = 0x04 ∨ revision = 0x05 ∨ revision = 0x08

/-- Length of the version report, for the known revisions. -/
def reportLength? (revision : UInt8) : Option Nat :=
  if coversUserData revision then some 9
  else if 0x01 ≤ revision ∧ revision ≤ 0x03 then some 11
  else none

structure ChipIdentity where
  hardware : UInt8 := 0x08
  rom : UInt8 := 0x10
  major : UInt8 := 0x01
  minor : UInt8 := 0x00
  deriving DecidableEq, Repr, Inhabited

end FirmwareDownload
