import FirmwareDownload.Digits

/-! Frames as hexadecimal text. -/

namespace FirmwareDownload.CommandLine

inductive FrameTextError
  | oddLength
  /-- A byte of the text is no digit. -/
  | badDigit (byte : UInt8) (position : Nat)
  deriving DecidableEq, Repr

/-- A byte as the character with its code, between quotes. Controls and marks that do not
show are given by number. -/
def quotedByte (b : UInt8) : String :=
  let body :=
    if b = 0 then "\\0"
    else if b < 0x20 ∨ 0x7F ≤ b ∧ b ≤ 0xA0 ∨ b = 0xAD then
      "\\u\x7b" ++ String.ofList (Nat.toDigits 16 b.toNat) ++ "\x7d"
    else if b = 0x27 then "\\'"
    else if b = 0x5C then "\\\\"
    else String.singleton (Char.ofNat b.toNat)
  "'" ++ body ++ "'"

def FrameTextError.message : FrameTextError → String
  | oddLength => "Odd number of digits"
  | badDigit byte position =>
    "Invalid character " ++ quotedByte byte ++ " at position " ++ toString position

/-- White space of any script. -/
def isSpace (c : Char) : Bool :=
  let n := c.toNat
  (9 ≤ n && n ≤ 13) || n = 0x20 || n = 0x85 || n = 0xA0 || n = 0x1680 ||
    (0x2000 ≤ n && n ≤ 0x200A) || n = 0x2028 || n = 0x2029 || n = 0x202F || n = 0x205F || n = 0x3000

def digitOf (byte : UInt8) (position : Nat) : Except FrameTextError UInt8 :=
  match hexValue? (Char.ofNat byte.toNat) with
  | some value => .ok value
  | none => .error (.badDigit byte position)

/-- Reads pairs of digits; `position` is where the first stands. -/
def readPairs (position : Nat) : Bytes → Except FrameTextError Bytes
  | high :: low :: rest => do
    let high ← digitOf high position
    let low ← digitOf low (position + 1)
    return (high * 16 + low) :: (← readPairs (position + 2) rest)
  | _ => .ok []

/-- Reads the bytes of a frame. White space and colons between digits mean nothing;
positions are those of bytes in what is left without them. -/
def readFrameText (text : String) : Except FrameTextError Bytes :=
  let digits := text.toList.filter fun c => !isSpace c && c ≠ ':'
  let bytes := (String.ofList digits).toUTF8.toList
  if bytes.length % 2 = 1 then .error .oddLength else readPairs 0 bytes

end FirmwareDownload.CommandLine
