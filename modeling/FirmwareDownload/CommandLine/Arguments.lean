/-! The arguments of a command: options, by name or by letter, and operands. -/

namespace FirmwareDownload.CommandLine

structure OptionSpec where
  name : String
  letter : Option Char := none
  takesValue : Bool := false
  /-- Nothing behind it is looked at. -/
  last : Bool := false
  deriving DecidableEq, Repr

/-- Options with their values, in order; one that takes no value has an empty one. -/
abbrev Given := List (String × String)

/-- What one argument gives, and the option that waits for the next argument. -/
structure Piece where
  given : Given := []
  waiting : Option String := none
  /-- The last argument that counts. -/
  ended : Bool := false
  deriving DecidableEq, Repr

/-- Letters behind a dash. What follows the letter of an option with a value is that
value, with or without an equals sign. -/
def readLetters (known : List OptionSpec) : List Char → Option Piece
  | [] => some {}
  | c :: cs =>
    match known.find? (·.letter = some c) with
    | none => none
    | some spec =>
      if spec.takesValue then
        match cs with
        | [] => some { waiting := some spec.name }
        | '=' :: value => some { given := [(spec.name, String.ofList value)] }
        | value => some { given := [(spec.name, String.ofList value)] }
      else if spec.last then some { given := [(spec.name, "")], ended := true }
      else
        (readLetters known cs).map fun piece =>
          { piece with given := (spec.name, "") :: piece.given }

/-- A name behind two dashes, which an equals sign may part from a value. -/
def readName (known : List OptionSpec) (cs : List Char) : Option Piece :=
  match known.find? (·.name.toList = cs.takeWhile (· ≠ '=')) with
  | none => none
  | some spec =>
    match spec.takesValue, cs.dropWhile (· ≠ '=') with
    | true, [] => some { waiting := some spec.name }
    | true, _ :: value => some { given := [(spec.name, String.ofList value)] }
    | false, [] => some { given := [(spec.name, "")], ended := spec.last }
    | false, _ :: _ => none

/-- Whether an argument is an option; a single dash is none. -/
def isOption (arg : String) : Bool := arg.startsWith "-" && arg ≠ "-"

def readOption (known : List OptionSpec) (arg : String) : Option Piece :=
  match arg.toList with
  | '-' :: '-' :: cs => readName known cs
  | _ :: cs => readLetters known cs
  | [] => none

/-- Options and operands. Without `mixed` all arguments from the first operand on are
operands; two dashes alone have that effect too. -/
def scan (known : List OptionSpec) (mixed : Bool) : List String → Option (Given × List String)
  | [] => some ([], [])
  | arg :: rest =>
    if arg = "--" then some ([], if mixed then rest else arg :: rest)
    else if !isOption arg then
      if mixed then (scan known mixed rest).map fun (given, operands) => (given, arg :: operands)
      else some ([], arg :: rest)
    else
      match readOption known arg with
      | none => none
      | some piece =>
        if piece.ended then some (piece.given, []) else
        match piece.waiting, rest with
        | none, rest =>
          (scan known mixed rest).map fun (given, operands) => (piece.given ++ given, operands)
        | some _, [] => none
        | some name, value :: rest =>
          if isOption value then none
          else
            (scan known mixed rest).map fun (given, operands) =>
              (piece.given ++ (name, value) :: given, operands)

/-- No option may be given twice. -/
def scanOnce (known : List OptionSpec) (mixed : Bool) (args : List String) :
    Option (Given × List String) :=
  (scan known mixed args).filter fun (given, _) => decide (given.map Prod.fst).Nodup

namespace Given

def has (given : Given) (name : String) : Bool := (given.lookup name).isSome

/-- The value of an option that was not given is the default. -/
def read (given : Given) (name : String) (parse : String → Option α) (default : α) : Option α :=
  match given.lookup name with
  | none => some default
  | some value => parse value

end Given

end FirmwareDownload.CommandLine
