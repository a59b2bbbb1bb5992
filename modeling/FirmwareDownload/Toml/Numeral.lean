import FirmwareDownload.Digits

/-! Numbers as TOML writes them. -/

namespace FirmwareDownload.Toml

/-- Digits in which single underscores may stand between two of them. -/
def digits? (isDigit : Char → Bool) : List Char → Option (List Char)
  | [] => none
  | [d] => if isDigit d then some [d] else none
  | d :: '_' :: rest => if isDigit d then (digits? isDigit rest).map (d :: ·) else none
  | d :: rest => if isDigit d then (digits? isDigit rest).map (d :: ·) else none

/-- Decimal digits without needless zeros in front. -/
def decimalDigits? (cs : List Char) : Option (List Char) :=
  (digits? Char.isDigit cs).bind fun digits =>
    if digits.length = 1 ∨ digits.head? ≠ some '0' then some digits else none

/-- Whether a minus stands in front, and what a sign in front is followed by. -/
def signed : List Char → Bool × List Char
  | '-' :: rest => (true, rest)
  | '+' :: rest => (false, rest)
  | cs => (false, cs)

/-- Integers have 64 bits and a sign. -/
def integerBound : Nat := 1 <<< 63

def based? (base : Nat) (isDigit : Char → Bool) (cs : List Char) : Option Int :=
  (digits? isDigit cs).bind fun digits => (ofDigitsBelow? integerBound base digits).map Int.ofNat

def decimal? (cs : List Char) : Option Int :=
  let (negative, cs) := signed cs
  (decimalDigits? cs).bind fun digits =>
    if negative then (ofDigitsBelow? (integerBound + 1) 10 digits).map fun n => -(n : Int)
    else (ofDigitsBelow? integerBound 10 digits).map Int.ofNat

def integer? (cs : List Char) : Option Int :=
  match cs with
  | '0' :: 'x' :: rest => based? 16 isHexDigit rest
  | '0' :: 'o' :: rest => based? 8 (fun c => '0' ≤ c && c ≤ '7') rest
  | '0' :: 'b' :: rest => based? 2 (fun c => c = '0' || c = '1') rest
  | _ => decimal? cs

/-- The least number that rounds to infinity in binary64. -/
def overflowBound : Nat := 1 <<< 1024 - 1 <<< 970

/-- How many digits that number has. -/
def overflowLength : Nat := 309

/-- Whether the number that the digits spell, times `10 ^ exponent`, rounds to infinity.
The bound is whole, so digits behind the point do not count. -/
def overflows (digits : List Char) (exponent : Int) : Bool :=
  let digits := digits.dropWhile (· = '0')
  let point := digits.length + exponent
  if digits.isEmpty ∨ point < overflowLength then false
  else if overflowLength < point then true
  else
    let whole := (digits ++ List.replicate overflowLength '0').take overflowLength
    overflowBound ≤ ofDigits 10 whole

def isDigitOrGap (c : Char) : Bool := c.isDigit || c = '_'

/-- Where an exponent stops growing. -/
def exponentBound : Nat := 0x10000

/-- The number that the digits of an exponent spell. Once the bound is reached, the
digits that are left are passed over. -/
def exponentSize (digits : List Char) : Nat :=
  digits.foldl (fun n d => if n < exponentBound then n * 10 + digitValue d else n) 0

/-- The part from the exponent sign on, as a number; nothing stands for zero. -/
def exponent? : List Char → Option Int
  | [] => some 0
  | e :: cs =>
    if e = 'e' ∨ e = 'E' then
      let (negative, cs) := signed cs
      (digits? Char.isDigit cs).map fun digits =>
        if negative then -(exponentSize digits : Int) else exponentSize digits
    else none

/-- A number with a fraction or an exponent, or one that is none; too large ones are refused. -/
def isFloat (cs : List Char) : Bool :=
  let (negative, body) := signed cs
  if body = ['i', 'n', 'f'] ∨ body = ['n', 'a', 'n'] then true
  else
    let tail := body.dropWhile isDigitOrGap
    let (point, fraction, power) := match tail with
      | '.' :: rest => (true, rest.takeWhile isDigitOrGap, rest.dropWhile isDigitOrGap)
      | _ => (false, [], tail)
    match decimalDigits? (body.takeWhile isDigitOrGap), digits? Char.isDigit fraction,
      exponent? power with
    | some whole, some fraction, some exponent =>
      negative || !overflows (whole ++ fraction) (exponent - fraction.length)
    | some whole, none, some exponent =>
      !point && !power.isEmpty && (negative || !overflows whole exponent)
    | _, _, _ => false

end FirmwareDownload.Toml
