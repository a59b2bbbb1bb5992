import FirmwareDownload.Proofs.Bench.Commands
import FirmwareDownload.Proofs.Controller.Records

/-! An engine on a calm bench with a controller of which nothing fails. What each command of a
download hands over, and what it leaves in the controller. -/

namespace FirmwareDownload

/-- What a command hands over that only asks, with no session open and no region corrupt. -/
def Call.reply? (id : ChipIdentity) : Call → Option Bytes
  | .getVersion _ => some (Controller.versionReport id)
  | .getSessionState _ => some (Controller.sessionReport false)
  | .checkIntegrity _ _ => some (Controller.integrityReport 0)
  | .force _ => some []
  | _ => none

namespace Engine

/-- The engine is at rest and holds the image. Its controller is ready and has these contents; the
last frame that it took was that of a write or not. -/
structure Faces (e : Engine (Bench Controller)) (image : Image) (inBurst : Bool) (id : ChipIdentity)
    (m : Memory) (n : Nat) : Prop where
  primary : e.primary = some image
  link : ∃ c : Controller, e.Rests c ∧ c.Ready ∧ c.inBurst = inBurst ∧ c.contents = (id, m, n)

/-- The call is accepted, its command ends well within so many signals, and this is left. -/
def Gets (e : Engine (Bench Controller)) (call : Call) (signals : Nat) (response : Bytes)
    (e' : Engine (Bench Controller)) : Prop :=
  ∃ d, e.Serves call.command signals response d (e.call call) e'

variable {e : Engine (Bench Controller)} {image : Image} {inBurst : Bool} {id : ChipIdentity}
  {m : Memory} {n : Nat} {payload : Bytes}

theorem Settles.rests {command : Command} {result : Except DownloadError Unit} {response : Bytes}
    {D : Type} {d : D} {e e' : Engine (Bench D)} (h : e.Settles command result response d e') :
    e'.Rests d :=
  ⟨h.idle, h.queue_eq, h.calm⟩

/-- A command that only asks changes nothing. -/
theorem Faces.asks (h : e.Faces image inBurst id m n) (call : Call)
    (hr : call.reply? id = some payload) (hs : call.Sound) (hl : payload.length ≤ call.capacity) :
    ∃ e', e.Gets call 2 payload e' ∧ e'.Faces image false id m n := by
  obtain ⟨hp, c, hrest, hready, -, hc⟩ := h
  obtain rfl : c.identity = id := congrArg Prod.fst hc
  obtain ⟨f, hq, hf, hrep⟩ : ∃ f, call.question? e.config.chip = some f ∧
      f.payload.length < 1023 ∧ Controller.report? c.identity f.code = some payload := by
    cases call with
    | getVersion capacity => exact ⟨_, rfl, by decide, hr⟩
    | getSessionState capacity => exact ⟨_, rfl, by decide, hr⟩
    | checkIntegrity revision capacity =>
      refine ⟨_, rfl, ?_, ?_⟩
      · split <;> simp [Request.integrityFrame, littleEndian16]
      · split <;> exact hr
    | force clock => exact ⟨_, rfl, Nat.lt_of_lt_of_le (Nat.lt_succ_self 3) (by decide), hr⟩
    | _ => cases hr
  have hd : payload.length < 1023 := Nat.lt_of_le_of_lt (Controller.length_report? hrep) (by decide)
  obtain ⟨e', hserves⟩ := hrest.asks hq hs (hready.reports hf hrep) (Frame.decode_wire hd) rfl hl
  exact ⟨e', ⟨_, hserves⟩, hserves.settles.primary.trans hp, _, hserves.settles.rests,
    (hready.facing false).abortRead, rfl, hc⟩

theorem Faces.readsLog (h : e.Faces image inBurst id m n) (capacity : Nat) (hz : 0 < capacity)
    (hl : capacity ≤ Transfer.maxRead) :
    ∃ e', e.Gets (.readLog capacity) 2 (m.load logAreaStart capacity) e' ∧
      e'.Faces image false id m n := by
  obtain ⟨hp, c, hrest, hready, -, hc⟩ := h
  obtain rfl : c.memory = m := congrArg (·.2.1) hc
  obtain ⟨raw, hrep, hpiece⟩ := hready.readsLog hz hl
  obtain ⟨e', hserves⟩ := hrest.readLog (Nat.pos_iff_ne_zero.1 hz) hl hrep hpiece
  exact ⟨e', ⟨_, hserves⟩, hserves.settles.primary.trans hp, _, hserves.settles.rests,
    (hready.facing false).abortRead, rfl, hc⟩

theorem Faces.logs (h : e.Faces image inBurst id m n) {entry : Bytes} (hn : entry ≠ [])
    (hl : entry.length ≤ logAreaSize) :
    ∃ e', e.Gets (.log entry) 2 [] e' ∧
      e'.Faces image false id (m.store logAreaStart entry) n := by
  obtain ⟨hp, c, hrest, hready, -, hc⟩ := h
  have hrep := hready.logs hl
  obtain ⟨e', hserves⟩ := hrest.asks (c := .log entry) rfl ⟨hn, hl⟩ hrep
    (Frame.decode_wire (by decide)) rfl (Nat.le_refl _)
  simp only [Controller.contents, Prod.mk.injEq] at hc
  refine ⟨e', ⟨_, hserves⟩, hserves.settles.primary.trans hp, _, hserves.settles.rests,
    ⟨⟨hready.corrupt, hready.injected, hready.writeFaults, hready.normalMode, hready.silent,
      hready.outbox, rfl⟩, hready.sessionOpen, hready.openRecord⟩, rfl, ?_⟩
  rw [← hc.1, ← hc.2.1, ← hc.2.2]
  rfl

/-- The image is written, and the controller takes on its version. -/
theorem Faces.writes {post : List Bytes} {body : Bytes} {version : FirmwareVersion}
    (h : e.Faces image false id m n) (hr : image.records = body :: post)
    (hv : image.version? = some version) (hl : 4 ≤ body.length) :
    ∃ e', e.Gets (.write false none) (2 * image.writeFrames.length) [] e' ∧
      e'.Faces image true { id with major := version.major, minor := version.minor } m
        (n + image.recordCount) := by
  obtain ⟨hp, c, hrest, hready, hi, hc⟩ := h
  obtain ⟨c', hconv, hready', hi', hc'⟩ := hready.takes_image hi hr hv hl
  obtain ⟨e', hserves⟩ := hrest.write hp hconv
  rw [image.length_exchanges] at hserves
  simp only [Controller.contents, Prod.mk.injEq] at hc hc'
  refine ⟨e', ⟨_, hserves⟩, hserves.settles.primary.trans hp, _, hserves.settles.rests,
    hready'.abortRead, hi', ?_⟩
  rw [← hc.1, ← hc.2.1, ← hc.2.2, ← hc'.1, ← hc'.2.1, ← hc'.2.2]
  rfl

end Engine

end FirmwareDownload
