/-! Blanks, comments and line ends in TOML text. -/

namespace FirmwareDownload.Toml

/-- Reads from the front of a text and returns what follows. -/
abbrev Reader (α : Type) := List Char → Option (α × List Char)

def isBlank (c : Char) : Bool := c = ' ' || c = '\t'

/-- Characters that a comment or a string may hold as they are: no controls but the tab. -/
def isText (c : Char) : Bool := c = '\t' || (' ' ≤ c && c ≠ '\x7f')

def skipBlanks (cs : List Char) : List Char := cs.dropWhile isBlank

/-- What follows a line break at the front. -/
def afterBreak? : List Char → Option (List Char)
  | '\n' :: rest => some rest
  | '\r' :: '\n' :: rest => some rest
  | _ => none

def skipComment : List Char → List Char
  | '#' :: rest => rest.dropWhile isText
  | cs => cs

/-- What follows the line, when only blanks and a comment are left on it. -/
def afterLine? (cs : List Char) : Option (List Char) :=
  match skipComment (skipBlanks cs) with
  | [] => some []
  | cs => afterBreak? cs

/-- Drops blanks, line breaks, and comments that end with their line. The first argument
is the text from the sign of the comment on in which the second one stands. -/
def skipFrom : Option (List Char) → List Char → List Char
  | none, [] => []
  | some start, [] => start
  | _, '\n' :: rest => skipFrom none rest
  | _, '\r' :: '\n' :: rest => skipFrom none rest
  | none, '#' :: rest => skipFrom (some ('#' :: rest)) rest
  | none, c :: rest => if isBlank c then skipFrom none rest else c :: rest
  | some start, c :: rest => if isText c then skipFrom (some start) rest else start

/-- The next character that is not layout, where line breaks do not count. -/
def skipLayout (cs : List Char) : List Char := skipFrom none cs

end FirmwareDownload.Toml
