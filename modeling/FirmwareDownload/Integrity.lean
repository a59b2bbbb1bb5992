import FirmwareDownload.Bytes

/-! The first byte of an integrity report: one pass flag for each memory region. -/

namespace FirmwareDownload

/-- The memory regions, in the order of their flag bits. -/
inductive Region
  | userData
  | trimData
  | protectedData
  | patchCode
  | functionCode
  | patchTable
  | functionTable
  deriving DecidableEq, Repr, Inhabited

namespace Region

def all : List Region :=
  [userData, trimData, protectedData, patchCode, functionCode, patchTable, functionTable]

def mask : Region → UInt8
  | userData => 0x01
  | trimData => 0x02
  | protectedData => 0x04
  | patchCode => 0x08
  | functionCode => 0x10
  | patchTable => 0x20
  | functionTable => 0x40

def text : Region → String
  | userData => "user data"
  | trimData => "trim data"
  | protectedData => "protected data"
  | patchCode => "patch code"
  | functionCode => "function code"
  | patchTable => "patch table"
  | functionTable => "function table"

end Region

/-- A set bit means that the region's check passed. -/
structure RegionFlags where
  byte : UInt8
  deriving DecidableEq, Repr, Inhabited

namespace RegionFlags

/-- All regions passed. The uppermost bit belongs to no region. -/
def allPassed : UInt8 := 0x7F

def ofReport? (report : Bytes) : Option RegionFlags := report.head?.map RegionFlags.mk

def passed (f : RegionFlags) (r : Region) : Bool := f.byte &&& r.mask ≠ 0

def failed (f : RegionFlags) : List Region := Region.all.filter (fun r => !f.passed r)

def isOk (f : RegionFlags) : Bool := f.byte &&& allPassed = allPassed

def text (f : RegionFlags) : String :=
  if f.failed = [] then "all regions OK (0x" ++ hex2 f.byte ++ ")"
  else
    "CRC mismatch in " ++ ", ".intercalate (f.failed.map Region.text) ++
      " (0x" ++ hex2 f.byte ++ ")"

end RegionFlags

end FirmwareDownload
