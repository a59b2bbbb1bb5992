import FirmwareDownload.Config
import FirmwareDownload.Toml.Document

/-! Settings as TOML text. What a text does not mention keeps its default, and keys that
mean nothing are passed over. -/

namespace FirmwareDownload

open Toml

namespace Config

/-- An integer from zero on, below `bound`. -/
def natural? (bound : Nat) : Node → Option Nat
  | .integer n => if 0 ≤ n ∧ n < bound then some n.toNat else none
  | _ => none

def flag? : Node → Option Bool
  | .boolean b => some b
  | _ => none

def path? : Node → Option String
  | .text s => some s
  | _ => none

/-- A value that holds nothing may follow a name. -/
def isVoid : Node → Bool
  | .array items => items.isEmpty
  | .table _ entries => entries.isEmpty
  | _ => false

/-- A family is named by a text, or by the only key of a table. -/
def chip? : Node → Option ChipFamily
  | .text name => ChipFamily.ofText? name
  | .table _ [(name, value)] => if isVoid value then ChipFamily.ofText? name else none
  | _ => none

/-- The entry of `key`, which must be of the right kind when it is there. -/
def entry? (entries : Entries) (key : String) (read : Node → Option α) : Option (Option α) :=
  match entries.lookup key with
  | none => some none
  | some node => (read node).map some

def imagesOfEntries? (entries : Entries) : Option ImagePaths := do
  let primary ← entry? entries "primary" path?
  let platformRecovery ← entry? entries "platform_recovery" path?
  let productionKey ← entry? entries "production_key" path?
  return { primary, platformRecovery, productionKey }

/-- Paths are named by the keys of a table, or stand in order in an array. -/
def images? : Node → Option ImagePaths
  | .table _ entries => imagesOfEntries? entries
  | .array items =>
    (items.take 3).mapM path? |>.map fun paths => ⟨paths[0]?, paths[1]?, paths[2]?⟩
  | .moment => some {}
  | _ => none

def ofEntries? (entries : Entries) : Option Config := do
  let responseTimeout ← entry? entries "response_timeout_ms" (natural? UInt64.size)
  let resendWait ← entry? entries "resend_wait_ms" (natural? UInt64.size)
  let resendLimit ← entry? entries "resend_limit" (natural? UInt32.size)
  let venResetOnTimeout ← entry? entries "ven_reset_on_timeout" flag?
  let chip ← entry? entries "chip" chip?
  let images ← entry? entries "images" images?
  let standard : Config := {}
  return {
    responseTimeout := (responseTimeout.map Nat.toUInt64).getD standard.responseTimeout
    resendWait := (resendWait.map Nat.toUInt64).getD standard.resendWait
    resendLimit := resendLimit.map Nat.toUInt32
    venResetOnTimeout := venResetOnTimeout.getD standard.venResetOnTimeout
    chip := chip.getD standard.chip
    images := images.getD standard.images }

def ofText? (text : String) : Option Config := (Document.read text.toList).bind ofEntries?

/-- A line that gives `key` a value. -/
def line (key : String) (value : List Char) : List Char :=
  key.toList ++ [' ', '=', ' '] ++ value ++ ['\n']

def optionalLine (key : String) : Option (List Char) → List Char
  | none => []
  | some value => line key value

def naturalText (n : Nat) : List Char := Nat.toDigits 10 n

def quoted (s : String) : List Char := Quoted.write s.toList

/-- Integers of a document have a sign, so times of more than 63 bits cannot be written. -/
def isWritable (config : Config) : Bool :=
  config.responseTimeout.toNat < Toml.integerBound && config.resendWait.toNat < Toml.integerBound

def lines (config : Config) : List Char :=
  line "response_timeout_ms" (naturalText config.responseTimeout.toNat) ++
  line "resend_wait_ms" (naturalText config.resendWait.toNat) ++
  optionalLine "resend_limit" (config.resendLimit.map (naturalText ·.toNat)) ++
  line "ven_reset_on_timeout" (toString config.venResetOnTimeout).toList ++
  line "chip" (quoted config.chip.text) ++
  "\n[images]\n".toList ++
  optionalLine "primary" (config.images.primary.map quoted) ++
  optionalLine "platform_recovery" (config.images.platformRecovery.map quoted) ++
  optionalLine "production_key" (config.images.productionKey.map quoted)

def toText? (config : Config) : Option String :=
  if config.isWritable then some (String.ofList config.lines) else none

end Config

end FirmwareDownload
