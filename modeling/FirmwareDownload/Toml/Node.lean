/-! Values of a TOML document, and the rules on defining tables. -/

namespace FirmwareDownload.Toml

/-- How a table came to be. -/
inductive TableKind
  /-- By a header of its own. -/
  | explicit
  /-- By the header of a table inside it. -/
  | implicit
  /-- By a dotted key. -/
  | dotted
  /-- Between braces; nothing is added to it later. -/
  | closed
  deriving DecidableEq, Repr

inductive Node
  | text (value : String)
  | integer (value : Int)
  /-- A number that is no integer; its value is not kept. -/
  | float
  | boolean (value : Bool)
  /-- A date or a time; its value is not kept. -/
  | moment
  | array (items : List Node)
  | table (kind : TableKind) (entries : List (String × Node))
  /-- Tables under one name, each with a header of its own: the last one, and those
  before it, newest first. -/
  | tables (last : List (String × Node)) (earlier : List (List (String × Node)))
  deriving Repr, Inhabited

/-- Entries in the order in which their keys first appeared. -/
abbrev Entries := List (String × Node)

/-- The way from a table to one inside it. -/
structure KeyPath where
  parents : List String
  last : String
  deriving DecidableEq, Repr

def KeyPath.toList (path : KeyPath) : List String := path.parents ++ [path.last]

/-- Who is on the way: a header may pass through every table, a dotted key only through
tables that have no header yet. -/
inductive Route
  | header
  | dotted
  deriving DecidableEq, Repr

def Route.admits : Route → TableKind → Bool
  | _, .closed => false
  | .header, _ => true
  | .dotted, kind => kind ≠ .explicit

/-- What a table becomes that is missing on the way. -/
def Route.made : Route → TableKind
  | .header => .implicit
  | .dotted => .dotted

namespace Entries

def put (entries : Entries) (key : String) (node : Node) : Entries :=
  entries.map fun entry => if entry.1 = key then (key, node) else entry

def add (entries : Entries) (key : String) (node : Node) : Entries := entries ++ [(key, node)]

/-- Changes the table at the end of `path`, which starts in a table of the given kind.
Of tables under one name the last is meant. -/
def alter (route : Route) (change : TableKind → Entries → Option Entries) :
    TableKind → List String → Entries → Option Entries
  | kind, [], entries => change kind entries
  | _, key :: path, entries =>
    match entries.lookup key with
    | none => (alter route change route.made path []).map fun inner =>
        entries.add key (.table route.made inner)
    | some (.table kind inner) =>
      if route.admits kind then
        (alter route change kind path inner).map fun inner => entries.put key (.table kind inner)
      else none
    | some (.tables last earlier) =>
      (alter route change .explicit path last).map fun inner =>
        entries.put key (.tables inner earlier)
    | some _ => none

/-- Puts a value into the table it belongs to, where its key must be new. A dotted key
defines its table, so it may not reach into a table that was defined otherwise. -/
def assign (entries : Entries) (kind : TableKind) (path : KeyPath) (value : Node) :
    Option Entries :=
  entries.alter .dotted (fun kind entries =>
    if path.parents ≠ [] ∧ kind ≠ .dotted then none
    else if (entries.lookup path.last).isSome then none
    else some (entries.add path.last value)) kind path.parents

def openTable (entries : Entries) (path : KeyPath) : Option Entries :=
  entries.alter .header (fun _ entries =>
    match entries.lookup path.last with
    | none => some (entries.add path.last (.table .explicit []))
    | some (.table .implicit inner) => some (entries.put path.last (.table .explicit inner))
    | some _ => none) .explicit path.parents

def openElement (entries : Entries) (path : KeyPath) : Option Entries :=
  entries.alter .header (fun _ entries =>
    match entries.lookup path.last with
    | none => some (entries.add path.last (.tables [] []))
    | some (.tables last earlier) => some (entries.put path.last (.tables [] (last :: earlier)))
    | some _ => none) .explicit path.parents

/-- The table between braces that the assignments make up. -/
def ofAssignments? (assignments : List (KeyPath × Node)) : Option Entries :=
  assignments.foldlM (fun entries (path, value) => entries.assign .closed path value) []

end Entries

end FirmwareDownload.Toml
