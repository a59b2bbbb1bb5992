import FirmwareDownload.Bytes

/-! Numbers as rows of digits. -/

namespace FirmwareDownload

def isHexDigit (c : Char) : Bool := (hexValue? c).isSome

def digitValue (c : Char) : Nat := ((hexValue? c).getD 0).toNat

/-- The number that digits of a base spell, the highest first. -/
def ofDigits (base : Nat) (digits : List Char) : Nat :=
  digits.foldl (fun n d => n * base + digitValue d) 0

/-- That number if it is below `bound`. Once it is not, no more digits are read. -/
def ofDigitsBelow? (bound base : Nat) (digits : List Char) : Option Nat :=
  digits.foldlM (fun n d =>
    if n * base + digitValue d < bound then some (n * base + digitValue d) else none) 0

/-- A number below `bound`, which a plus may precede. -/
def naturalBelow? (bound base : Nat) (isDigit : Char → Bool) (cs : List Char) : Option Nat :=
  let digits := match cs with
    | '+' :: rest => rest
    | _ => cs
  if digits ≠ [] ∧ digits.all isDigit then ofDigitsBelow? bound base digits else none

/-- `text` behind as many blanks as make it `width` characters long. -/
def padLeft (width : Nat) (text : String) : String :=
  String.ofList (List.replicate (width - text.length) ' ') ++ text

/-- `text` before as many blanks as make it `width` characters long. -/
def padRight (width : Nat) (text : String) : String :=
  text ++ String.ofList (List.replicate (width - text.length) ' ')

end FirmwareDownload
