import FirmwareDownload.Toml.Moment
import FirmwareDownload.Toml.Node
import FirmwareDownload.Toml.Numeral
import FirmwareDownload.Toml.Quoted

/-! Keys, values and the statements of a document. -/

namespace FirmwareDownload.Toml

/-- How deep arrays and tables may be nested, and how many parts a key may have. -/
def nestingLimit : Nat := 79

def isBareKey (c : Char) : Bool := c.isAlphanum || c = '_' || c = '-'

def readKey : Reader String := fun cs =>
  match cs with
  | '"' :: _ | '\'' :: _ => (Quoted.readLine cs).map fun (key, rest) => (String.ofList key, rest)
  | _ =>
    let key := cs.takeWhile isBareKey
    if key.isEmpty then none else some (String.ofList key, cs.dropWhile isBareKey)

/-- A dotted key of at most `n` parts, with blanks around each. -/
def readKeys : Nat → Reader KeyPath
  | 0, _ => none
  | n + 1, cs =>
    match readKey (skipBlanks cs) with
    | none => none
    | some (key, rest) =>
      match skipBlanks rest with
      | '.' :: rest =>
        (readKeys n rest).map fun (path, rest) => ({ path with parents := key :: path.parents }, rest)
      | rest => some (⟨[], key⟩, rest)

def readPath : Reader KeyPath := readKeys nestingLimit

def isTokenChar (c : Char) : Bool := c.isAlphanum || c = '_' || c = '+' || c = '-' || c = '.'

/-- A value of one word. -/
def word? (token : List Char) : Option Node :=
  if token = ['t', 'r', 'u', 'e'] then some (.boolean true)
  else if token = ['f', 'a', 'l', 's', 'e'] then some (.boolean false)
  else if isFloat token then some .float
  else (integer? token).map .integer

def readWord : Reader Node := fun cs =>
  (word? (cs.takeWhile isTokenChar)).map fun node => (node, cs.dropWhile isTokenChar)

def readScalar : Reader Node := fun cs =>
  match cs with
  | '"' :: _ | '\'' :: _ =>
    (Quoted.read cs).map fun (body, rest) => (.text (String.ofList body), rest)
  | _ =>
    match afterMoment? cs with
    | some rest => some (.moment, rest)
    | none => readWord cs

/-- Items of an array up to its end; a comma may follow the last. There are at most as
many as the first argument says. -/
def readItems (readItem : Reader Node) : Nat → Reader (List Node)
  | 0, _ => none
  | n + 1, cs =>
    match skipLayout cs with
    | ']' :: rest => some ([], rest)
    | cs =>
      match readItem cs with
      | none => none
      | some (item, rest) =>
        match skipLayout rest with
        | ',' :: rest => (readItems readItem n rest).map fun (items, rest) => (item :: items, rest)
        | ']' :: rest => some ([item], rest)
        | _ => none

def readAssignment (readValue : Reader Node) : Reader (KeyPath × Node) := fun cs =>
  match readPath cs with
  | some (path, '=' :: rest) =>
    (readValue (skipBlanks rest)).map fun (value, rest) => ((path, value), rest)
  | _ => none

/-- Assignments between braces, one at least; they stay on one line. -/
def readMembers (readValue : Reader Node) : Nat → Reader (List (KeyPath × Node))
  | 0, _ => none
  | n + 1, cs =>
    match readAssignment readValue cs with
    | none => none
    | some (member, rest) =>
      match skipBlanks rest with
      | ',' :: rest =>
        (readMembers readValue n rest).map fun (members, rest) => (member :: members, rest)
      | '}' :: rest => some ([member], rest)
      | _ => none

def readBraces (bound : Nat) (readValue : Reader Node) : Reader Node := fun cs =>
  match skipBlanks cs with
  | '}' :: rest => some (.table .closed [], rest)
  | cs =>
    (readMembers readValue bound cs).bind fun (members, rest) =>
      (Entries.ofAssignments? members).map fun entries => (.table .closed entries, rest)

/-- A value in which at most `depth` arrays and tables are nested, none of which has more
than `bound` parts. -/
def readValue (bound : Nat) : Nat → Reader Node
  | 0, cs =>
    match cs with
    | '[' :: _ | '{' :: _ => none
    | cs => readScalar cs
  | depth + 1, cs =>
    match cs with
    | '[' :: rest =>
      (readItems (readValue bound depth) bound rest).map fun (items, rest) => (.array items, rest)
    | '{' :: rest => readBraces bound (readValue bound depth) rest
    | cs => readScalar cs

inductive Statement
  /-- A header in brackets. -/
  | table (path : KeyPath)
  /-- A header in double brackets. -/
  | element (path : KeyPath)
  | assignment (path : KeyPath) (value : Node)
  deriving Repr

/-- A statement, up to the end of its line. -/
def readStatement (bound : Nat) (cs : List Char) : Option (Statement × List Char) :=
  match cs with
  | '[' :: '[' :: rest =>
    match readPath rest with
    | some (path, ']' :: ']' :: rest) => (afterLine? rest).map (.element path, ·)
    | _ => none
  | '[' :: rest =>
    match readPath rest with
    | some (path, ']' :: rest) => (afterLine? rest).map (.table path, ·)
    | _ => none
  | cs =>
    match readAssignment (readValue bound nestingLimit) cs with
    | some ((path, value), rest) => (afterLine? rest).map (.assignment path value, ·)
    | none => none

/-- All statements, of which there are fewer than the first argument says. -/
def readStatements (bound : Nat) : Nat → List Char → Option (List Statement)
  | 0, _ => none
  | n + 1, cs =>
    match skipLayout cs with
    | [] => some []
    | '#' :: rest => if (rest.dropWhile isText).isEmpty then some [] else none
    | cs =>
      match readStatement bound cs with
      | none => none
      | some (statement, rest) => (readStatements bound n rest).map (statement :: ·)

end FirmwareDownload.Toml
