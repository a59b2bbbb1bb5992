import FirmwareDownload.Digits
import FirmwareDownload.Toml.Layout

/-! Quoted text: strings with escapes between double quotes, literal strings between
single quotes, and blocks between three of either, which may span lines. Each text is
written in the plainest of these forms that can hold it. -/

namespace FirmwareDownload.Toml.Quoted

/-- The character that a backslash and this letter stand for. -/
def escaped? : Char → Option Char
  | 'b' => some '\x08'
  | 't' => some '\t'
  | 'n' => some '\n'
  | 'f' => some '\x0c'
  | 'r' => some '\r'
  | '"' => some '"'
  | '\\' => some '\\'
  | _ => none

/-- The character with the code that hexadecimal digits spell. -/
def coded? (digits : List Char) : Option Char :=
  let code := ofDigits 16 digits
  if digits.all isHexDigit ∧ code.isValidChar then some (Char.ofNat code) else none

/-- Puts a character in front of what was read after it. -/
def push (c : Option Char) (read : Option (List Char × List Char)) :
    Option (List Char × List Char) :=
  match c, read with
  | some c, some (body, rest) => some (c :: body, rest)
  | _, _ => none

/-- Up to the double quote that ends a string. -/
def basicBody : Reader (List Char)
  | [] => none
  | '"' :: rest => some ([], rest)
  | '\\' :: 'u' :: a :: b :: c :: d :: rest => push (coded? [a, b, c, d]) (basicBody rest)
  | '\\' :: 'U' :: a :: b :: c :: d :: e :: f :: g :: h :: rest =>
    push (coded? [a, b, c, d, e, f, g, h]) (basicBody rest)
  | '\\' :: c :: rest => push (escaped? c) (basicBody rest)
  | c :: rest => if isText c && c ≠ '\\' then push (some c) (basicBody rest) else none

/-- Up to the single quote that ends a literal string. -/
def literalBody : Reader (List Char)
  | [] => none
  | '\'' :: rest => some ([], rest)
  | c :: rest => if isText c then push (some c) (literalBody rest) else none

/-- A backslash before `cs` stands at the end of its line. -/
def endsLine (cs : List Char) : Bool := (afterBreak? (skipBlanks cs)).isSome

/-- Up to the three double quotes that end a block, which may follow one or two quotes
of the text. A backslash at the end of a line drops the line break and all blanks and
breaks after it; `trimming` says that this is going on. -/
def basicBlock : Bool → Reader (List Char)
  | _, [] => none
  | _, '"' :: '"' :: '"' :: '"' :: '"' :: rest => some (['"', '"'], rest)
  | _, '"' :: '"' :: '"' :: '"' :: rest => some (['"'], rest)
  | _, '"' :: '"' :: '"' :: rest => some ([], rest)
  | trimming, '\r' :: '\n' :: rest =>
    if trimming then basicBlock true rest else push (some '\n') (basicBlock false rest)
  | _, '\\' :: 'u' :: a :: b :: c :: d :: rest => push (coded? [a, b, c, d]) (basicBlock false rest)
  | _, '\\' :: 'U' :: a :: b :: c :: d :: e :: f :: g :: h :: rest =>
    push (coded? [a, b, c, d, e, f, g, h]) (basicBlock false rest)
  | _, '\\' :: rest =>
    if endsLine rest then basicBlock true rest
    else
      match rest with
      | [] => none
      | c :: rest => push (escaped? c) (basicBlock false rest)
  | trimming, c :: rest =>
    if trimming && (isBlank c || c = '\n') then basicBlock true rest
    else if c = '\n' || isText c then push (some c) (basicBlock false rest)
    else none

/-- Up to the three single quotes that end a literal block. -/
def literalBlock : Reader (List Char)
  | [] => none
  | '\'' :: '\'' :: '\'' :: '\'' :: '\'' :: rest => some (['\'', '\''], rest)
  | '\'' :: '\'' :: '\'' :: '\'' :: rest => some (['\''], rest)
  | '\'' :: '\'' :: '\'' :: rest => some ([], rest)
  | '\r' :: '\n' :: rest => push (some '\n') (literalBlock rest)
  | c :: rest => if c = '\n' || isText c then push (some c) (literalBlock rest) else none

/-- A line break that opens a block is not part of it. -/
def skipBreak (cs : List Char) : List Char := (afterBreak? cs).getD cs

/-- A string on one line, as keys may be written too. -/
def readLine : Reader (List Char)
  | '"' :: rest => basicBody rest
  | '\'' :: rest => literalBody rest
  | _ => none

def read : Reader (List Char)
  | '"' :: '"' :: '"' :: rest => basicBlock false (skipBreak rest)
  | '\'' :: '\'' :: '\'' :: rest => literalBlock (skipBreak rest)
  | cs => readLine cs

inductive Style
  | basic
  | literal
  | basicBlock
  | literalBlock
  deriving DecidableEq, Repr

/-- No more than `most` characters `q` in a row, after `run` of them. -/
def runsWithin (q : Char) (most : Nat) : Nat → List Char → Bool
  | _, [] => true
  | run, c :: cs =>
    if c = q then run < most && runsWithin q most (run + 1) cs else runsWithin q most 0 cs

/-- Basic strings are preferred while they need no escape but for tabs, then forms that
need none at all, and then escapes. -/
def style (cs : List Char) : Style :=
  let clean := cs.all (fun c => isText c || c = '\n')
  let oneLine := !cs.contains '\n'
  let plain := clean && !cs.contains '\\'
  if plain && oneLine && runsWithin '"' 0 0 cs then .basic
  else if clean && oneLine && runsWithin '\'' 0 0 cs then .literal
  else if plain && runsWithin '"' 2 0 cs then .basicBlock
  else if clean && runsWithin '\'' 2 0 cs then .literalBlock
  else if oneLine then .basic
  else .basicBlock

def escape (c : Char) : List Char :=
  match c with
  | '\x08' => ['\\', 'b']
  | '\t' => ['\\', 't']
  | '\n' => ['\\', 'n']
  | '\x0c' => ['\\', 'f']
  | '\r' => ['\\', 'r']
  | '"' => ['\\', '"']
  | '\\' => ['\\', '\\']
  | c => if isText c then [c] else ['\\', 'u', '0', '0'] ++ hexByte true c.toNat.toUInt8

/-- A text between three double quotes, after `run` quotes of it: line breaks stay as
they are, and so do quotes as long as there are no three in a row. -/
def escapeBlock : Nat → List Char → List Char
  | _, [] => []
  | run, c :: cs =>
    if c = '\n' then c :: escapeBlock 0 cs
    else if c = '"' && run < 2 then c :: escapeBlock (run + 1) cs
    else escape c ++ escapeBlock 0 cs

/-- A block of more than one line starts on a line of its own. -/
def openBlock (cs : List Char) : List Char := if cs.contains '\n' then ['\n'] else []

def write (cs : List Char) : List Char :=
  match style cs with
  | .basic => '"' :: cs.flatMap escape ++ ['"']
  | .literal => '\'' :: cs ++ ['\'']
  | .basicBlock => ['"', '"', '"'] ++ openBlock cs ++ escapeBlock 0 cs ++ ['"', '"', '"']
  | .literalBlock => ['\'', '\'', '\''] ++ openBlock cs ++ cs ++ ['\'', '\'', '\'']

end FirmwareDownload.Toml.Quoted
