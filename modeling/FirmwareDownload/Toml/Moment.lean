import FirmwareDownload.Digits
import FirmwareDownload.Toml.Layout

/-! Dates and times as TOML writes them. Each reader returns what follows. -/

namespace FirmwareDownload.Toml

/-- The number that `n` digits at the front spell. -/
def exactDigits? (n : Nat) : Reader Nat := fun cs =>
  let digits := cs.take n
  if digits.length = n ∧ digits.all Char.isDigit then
    some (ofDigits 10 digits, cs.drop n)
  else none

/-- Two digits between the bounds. -/
def pair? (least most : Nat) : Reader Nat := fun cs =>
  (exactDigits? 2 cs).filter fun (n, _) => least ≤ n ∧ n ≤ most

def sign? (c : Char) : List Char → Option (List Char)
  | d :: rest => if c = d then some rest else none
  | [] => none

def isLeapYear (year : Nat) : Bool := year % 4 = 0 ∧ (year % 100 ≠ 0 ∨ year % 400 = 0)

def daysIn (year month : Nat) : Nat :=
  if month = 2 then if isLeapYear year then 29 else 28
  else if month = 4 ∨ month = 6 ∨ month = 9 ∨ month = 11 then 30
  else 31

def afterDate? (cs : List Char) : Option (List Char) := do
  let (year, cs) ← exactDigits? 4 cs
  let (month, cs) ← pair? 1 12 (← sign? '-' cs)
  let (_, cs) ← pair? 1 (daysIn year month) (← sign? '-' cs)
  return cs

def afterTime? (cs : List Char) : Option (List Char) := do
  let (_, cs) ← pair? 0 23 cs
  let (_, cs) ← pair? 0 59 (← sign? ':' cs)
  let (_, cs) ← pair? 0 60 (← sign? ':' cs)
  match cs with
  | '.' :: d :: rest =>
    return if d.isDigit then rest.dropWhile Char.isDigit else cs
  | _ => return cs

/-- An offset from universal time is written as hours and minutes. -/
def skipOffset (cs : List Char) : List Char :=
  match cs with
  | 'Z' :: rest | 'z' :: rest => rest
  | '+' :: rest | '-' :: rest =>
    let after := do
      let (_, cs) ← pair? 0 23 rest
      let (_, cs) ← pair? 0 59 (← sign? ':' cs)
      return cs
    after.getD cs
  | _ => cs

/-- What follows the time of a day, if the text goes on with one. -/
def skipTimeOfDay (cs : List Char) : List Char :=
  match cs with
  | c :: rest =>
    if c = 'T' ∨ c = 't' ∨ c = ' ' then ((afterTime? rest).map skipOffset).getD cs else cs
  | [] => []

/-- What follows a date, a time, or both. -/
def afterMoment? (cs : List Char) : Option (List Char) :=
  ((afterDate? cs).map skipTimeOfDay).or (afterTime? cs)

end FirmwareDownload.Toml
