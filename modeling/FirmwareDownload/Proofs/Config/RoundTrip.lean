import Mathlib.Algebra.Group.Nat.Defs
import FirmwareDownload.CommandLine.Program
import FirmwareDownload.Proofs.Toml.Statements

/-! Settings that are saved and loaded again are the same ones, with any paths. A setting that was
left out is absent from the text, and is left out again when the text is loaded. -/

namespace FirmwareDownload

open Toml

namespace Config

variable (config : Config) (images : ImagePaths)

def optionalEntry {α : Type} (key : String) (value : α → Node) (a : Option α) : Entries :=
  a.toList.map fun a => (key, value a)

def rootEntries : Entries :=
  [("response_timeout_ms", .integer config.responseTimeout.toNat),
    ("resend_wait_ms", .integer config.resendWait.toNat)] ++
  optionalEntry "resend_limit" (fun n : UInt32 => .integer n.toNat) config.resendLimit ++
  [("ven_reset_on_timeout", .boolean config.venResetOnTimeout), ("chip", .text config.chip.text)]

def imageEntries : Entries :=
  optionalEntry "primary" .text images.primary ++
  optionalEntry "platform_recovery" .text images.platformRecovery ++
  optionalEntry "production_key" .text images.productionKey

def statements : List Statement :=
  Document.assignments config.rootEntries ++
    .table ⟨[], "images"⟩ :: Document.assignments (imageEntries config.images)

/-! ## The text is read as these statements -/

theorem reads_optionalLine {α : Type} {key : String} {text : α → List Char} {value : α → Node}
    (h : IsBare key) (hv : ∀ a, Spells (text a) (value a)) (a : Option α) :
    Reads (optionalLine key (a.map text)) (Document.assignments (optionalEntry key value a)) := by
  cases a with
  | none => exact reads_nil
  | some a => exact reads_line h (hv a)

theorem toNat_lt_integerBound (n : UInt32) : n.toNat < integerBound :=
  Nat.lt_trans n.toNat_lt (by decide)

theorem reads_lines (h : config.isWritable = true) : Reads config.lines config.statements := by
  rw [isWritable, Bool.and_eq_true, decide_eq_true_eq, decide_eq_true_eq] at h
  have htime := reads_line (show IsBare "response_timeout_ms" by decide) (spells_toDigits h.1)
  have hwait := reads_line (show IsBare "resend_wait_ms" by decide) (spells_toDigits h.2)
  have hlimit := reads_optionalLine (show IsBare "resend_limit" by decide)
    (fun n : UInt32 => spells_toDigits (toNat_lt_integerBound n)) config.resendLimit
  have hreset := reads_line (show IsBare "ven_reset_on_timeout" by decide)
    (spells_bool config.venResetOnTimeout)
  have hchip := reads_line (show IsBare "chip" by decide) (spells_quoted config.chip.text)
  have hheader := reads_break.append (reads_header (show IsBare "images" by decide))
  have hprimary := reads_optionalLine (show IsBare "primary" by decide) spells_quoted
    config.images.primary
  have hrecovery := reads_optionalLine (show IsBare "platform_recovery" by decide) spells_quoted
    config.images.platformRecovery
  have hkey := reads_optionalLine (show IsBare "production_key" by decide) spells_quoted
    config.images.productionKey
  have hroot := (((htime.append hwait).append hlimit).append hreset).append hchip
  have himages := (hprimary.append hrecovery).append hkey
  simpa [lines, statements, rootEntries, imageEntries] using
    (hroot.append hheader).append himages

/-! ## What the statements say -/

@[simp] theorem lookup_optionalEntry {α : Type} (key wanted : String) (value : α → Node)
    (a : Option α) :
    (optionalEntry key value a).lookup wanted = if wanted = key then a.map value else none := by
  cases a with
  | none => simp [optionalEntry]
  | some a =>
    by_cases h : wanted = key <;> simp [optionalEntry, h, List.lookup_cons, beq_false_of_ne]

theorem entry_some {α : Type} {entries : Entries} {key : String} {node : Node}
    {read : Node → Option α} {a : α} (h : entries.lookup key = some node)
    (hr : read node = some a) : entry? entries key read = some (some a) := by
  unfold entry?
  simp [h, hr]

theorem entry_optional {α : Type} {entries : Entries} {key : String} {value : α → Node}
    {read : Node → Option α} {a : Option α} (h : entries.lookup key = a.map value)
    (hr : ∀ x ∈ a, read (value x) = some x) : entry? entries key read = some a := by
  cases a with
  | none =>
    unfold entry?
    simp [h]
  | some a => exact entry_some h (hr a rfl)

theorem imagesOfEntries_imageEntries : imagesOfEntries? (imageEntries images) = some images := by
  have hpath (key : String) (path : Option String)
      (h : (imageEntries images).lookup key = path.map .text) :
      entry? (imageEntries images) key path? = some path := entry_optional h fun _ _ => rfl
  have hprimary := hpath "primary" images.primary (by simp [imageEntries, List.lookup_append])
  have hrecovery := hpath "platform_recovery" images.platformRecovery
    (by simp [imageEntries, List.lookup_append])
  have hkey := hpath "production_key" images.productionKey
    (by simp [imageEntries, List.lookup_append])
  simp [imagesOfEntries?, hprimary, hrecovery, hkey]

theorem natural_toNat {n bound : Nat} (h : n < bound) :
    natural? bound (.integer n) = some n := by
  have hz : 0 ≤ (n : Int) ∧ (n : Int) < bound := by omega
  simp [natural?, hz]

theorem chip_text (chip : ChipFamily) : chip? (.text chip.text) = some chip := by
  cases chip <;> rfl

def entries : Entries :=
  config.rootEntries ++ [("images", .table .explicit (imageEntries config.images))]

theorem ofEntries_entries : ofEntries? config.entries = some config := by
  have htime : entry? config.entries "response_timeout_ms" (natural? UInt64.size) =
      some (some config.responseTimeout.toNat) :=
    entry_some rfl (natural_toNat config.responseTimeout.toNat_lt)
  have hwait : entry? config.entries "resend_wait_ms" (natural? UInt64.size) =
      some (some config.resendWait.toNat) :=
    entry_some rfl (natural_toNat config.resendWait.toNat_lt)
  have hlimit : entry? config.entries "resend_limit" (natural? UInt32.size) =
      some (config.resendLimit.map UInt32.toNat) := by
    have hlookup : config.entries.lookup "resend_limit" =
        (config.resendLimit.map UInt32.toNat).map fun n : Nat => .integer n := by
      simp [entries, rootEntries, List.lookup_cons, List.lookup_append, Function.comp_def]
    refine entry_optional hlookup fun n hn => ?_
    obtain ⟨limit, -, rfl⟩ := Option.map_eq_some_iff.1 hn
    exact natural_toNat limit.toNat_lt
  have hreset : entry? config.entries "ven_reset_on_timeout" flag? =
      some (some config.venResetOnTimeout) := by
    refine entry_some ?_
      (show flag? (.boolean config.venResetOnTimeout) = some config.venResetOnTimeout from rfl)
    simp [entries, rootEntries, List.lookup_cons, List.lookup_append]
  have hchip : entry? config.entries "chip" chip? = some (some config.chip) := by
    refine entry_some ?_ (chip_text config.chip)
    simp [entries, rootEntries, List.lookup_cons, List.lookup_append]
  have himages : entry? config.entries "images" images? = some (some config.images) := by
    refine entry_some ?_
      (show images? (.table .explicit (imageEntries config.images)) = some config.images from
        imagesOfEntries_imageEntries config.images)
    simp [entries, rootEntries, List.lookup_cons, List.lookup_append]
  have hresend : config.resendLimit.map (Nat.toUInt32 ∘ UInt32.toNat) = config.resendLimit := by
    cases config.resendLimit <;> simp
  simp [ofEntries?, htime, hwait, hlimit, hreset, hchip, himages, hresend]

theorem read_lines (h : config.isWritable = true) :
    Document.read config.lines = some config.entries := by
  have hroot : (config.rootEntries.map Prod.fst ++ ["images"]).Nodup := by
    cases hl : config.resendLimit <;> simp [rootEntries, optionalEntry, hl]
  have himages : ((imageEntries config.images).map Prod.fst).Nodup := by
    cases hp : config.images.primary <;> cases hr : config.images.platformRecovery <;>
      cases hk : config.images.productionKey <;> simp [imageEntries, optionalEntry, hp, hr, hk]
  rw [Document.read_of_reads (config.reads_lines h) (by simp [lines, line])]
  simp [statements, Document.foldlM_document hroot himages, entries]

theorem ofText_toText {text : String} (h : config.toText? = some text) :
    ofText? text = some config := by
  unfold toText? at h
  split at h
  · rename_i hw
    rw [← Option.some.inj h, ofText?, String.toList_ofList, config.read_lines hw, Option.bind_some,
      ofEntries_entries]
  · cases h

/-- Settings are saved if no time takes more than 63 bits, and what was saved is loaded as the same
settings. -/
theorem saved_settings_load :
    (config.toText?.isSome = true ↔
      config.responseTimeout.toNat ≤ 2 ^ 63 - 1 ∧ config.resendWait.toNat ≤ 2 ^ 63 - 1) ∧
    ∀ text, config.toText? = some text → ∀ (files : Files) (path : String),
      files path = .ok text.toUTF8.data.toList →
        CommandLine.readConfig files path = .ok config := by
  constructor
  · have hb : integerBound = 2 ^ 63 := rfl
    simp only [toText?, isWritable, hb]
    split
    · simp_all
      omega
    · simp_all
      omega
  · intro text h files path hf
    have hutf8 : String.fromUTF8? (ByteArray.mk text.toUTF8.data.toList.toArray) = some text :=
      dif_pos text.isValidUTF8
    simp only [CommandLine.readConfig, hf, hutf8, Option.bind_some, config.ofText_toText h]

/-- A path whose quotes, backslash and line break cannot stand in the text as they are. -/
theorem saved_settings_load_past_escapes :
    let config : Config :=
      { resendLimit := some 5
        venResetOnTimeout := false
        images := { productionKey := some "keys/\"a\\b\"\r\n.bin" } }
    ∃ text, config.toText? = some text ∧
      CommandLine.readConfig (fun _ => .ok text.toUTF8.data.toList) "dnld.toml" = .ok config := by
  intro config
  obtain ⟨hsaved, hloads⟩ := config.saved_settings_load
  obtain ⟨text, htext⟩ := Option.isSome_iff_exists.1 (hsaved.2 ⟨by decide, by decide⟩)
  exact ⟨text, htext, hloads text htext _ "dnld.toml" rfl⟩

end Config

end FirmwareDownload
