import Mathlib.Tactic.SplitIfs
import FirmwareDownload.Controller
import FirmwareDownload.Proofs.Bench.Conversation
import FirmwareDownload.Proofs.Frame.Codec
import FirmwareDownload.Proofs.Transfer.Read

/-! A controller in download mode of which nothing fails. It has one answer ready to each frame,
and is as before once that is fetched. -/

namespace FirmwareDownload

theorem Frame.decode_wire {f : Frame} (h : f.payload.length < 1023) : decode f.wire = .ok f :=
  decode_wrap h

namespace Controller

/-- All that a failure can come from, and what waits on the link. -/
def condition (c : Controller) :
    UInt8 × List Status × List Status × Bool × Bool × List Bytes × Option Ticket :=
  (c.corrupt, c.injected, c.writeFaults, c.normalMode, c.silent, c.outbox, c.pendingRead)

/-- No fault is injected, and nothing of an earlier frame is left on the link. -/
structure Sound (c : Controller) : Prop where
  corrupt : c.corrupt = 0
  injected : c.injected = []
  writeFaults : c.writeFaults = []
  normalMode : c.normalMode = false
  silent : c.silent = false
  outbox : c.outbox = []
  pendingRead : c.pendingRead = none

/-- Nothing fails, and no record is on its way. -/
structure Ready (c : Controller) : Prop extends c.Sound where
  sessionOpen : c.sessionOpen = false
  openRecord : c.openRecord = none

/-- What a controller keeps: its identity, its memory, and the number of records it took. -/
def contents (c : Controller) : ChipIdentity × Memory × Nat := (c.identity, c.memory, c.recordCount)

/-- The controller as it looks at a frame. -/
def facing (c : Controller) (isWrite : Bool) : Controller :=
  { c with frameCount := c.frameCount + 1, inBurst := isWrite }

variable {c c' : Controller} {f : Frame} {status : Status} {payload raw : Bytes}

theorem Sound.congr (h : c.Sound) (he : c'.condition = c.condition) : c'.Sound := by
  simp only [condition, Prod.mk.injEq] at he
  obtain ⟨h₁, h₂, h₃, h₄, h₅, h₆, h₇⟩ := he
  exact ⟨h₁.trans h.corrupt, h₂.trans h.injected, h₃.trans h.writeFaults, h₄.trans h.normalMode,
    h₅.trans h.silent, h₆.trans h.outbox, h₇.trans h.pendingRead⟩

theorem Ready.facing (h : c.Ready) (isWrite : Bool) : (c.facing isWrite).Ready :=
  ⟨h.congr rfl, h.sessionOpen, h.openRecord⟩

theorem Ready.abortRead (h : c.Ready) : (Link.abortRead c).Ready :=
  ⟨⟨h.corrupt, h.injected, h.writeFaults, h.normalMode, h.silent, h.outbox, rfl⟩, h.sessionOpen,
    h.openRecord⟩

theorem respond_eq (c : Controller) (status : Status) (h : payload.length ≤ 251) :
    c.respond status payload =
      { c with outbox := c.outbox ++ [Frame.wrap (status.toByte :: payload) false] } := by
  simp [respond, Frame.encode_eq, h]

theorem Sound.fetched (h : c.Sound) : { c with outbox := [], pendingRead := none } = c := by
  rw [← h.outbox, ← h.pendingRead]

/-- A frame that makes the controller respond has its answer ready. -/
theorem Sound.replies (h : c'.Sound) (hl : payload.length ≤ 251)
    (hr : ({ c with frameCount := c.frameCount + 1 } : Controller).receive raw =
      c'.respond status payload) :
    Replies c raw (Frame.wrap (status.toByte :: payload) false) c' := by
  refine ⟨c'.respond status payload, fun t => ?_, fun r => ?_⟩
  · simp [Link.write, write, hr, deliver, respond_eq c' status hl, h.pendingRead]
  · have he := h.fetched
    rw [respond_eq c' status hl, h.outbox]
    simpa [Link.read, read, deliver, h.pendingRead] using he

theorem Ready.receive (h : c.Ready) (hl : f.payload.length < 1023) :
    ({ c with frameCount := c.frameCount + 1 } : Controller).receive f.wire =
      (c.facing (f.code = RequestId.write)).answerRequest
        (f.code = RequestId.write && !c.inBurst) f := by
  have hd := Frame.decode_wire hl
  obtain ⟨⟨-, hi, hw, hn, hs, -, -⟩, -, ho⟩ := h
  cases c
  cases hi
  cases hw
  cases hn
  cases hs
  cases ho
  simp [Controller.receive, hd, answerFrame, takeInjected, Controller.facing]

theorem Ready.responds (h : c.Ready) (hl : f.payload.length < 1023) (hp : payload.length ≤ 251)
    (hr : (c.facing (f.code = RequestId.write)).answerRequest
      (f.code = RequestId.write && !c.inBurst) f = c'.respond status payload) (hs : c'.Sound) :
    Replies c f.wire (Frame.wire ⟨status.toByte, payload, false⟩) c' :=
  hs.replies hp ((h.receive hl).trans hr)

/-! ## Reports -/

theorem length_versionReport (id : ChipIdentity) :
    (versionReport id).length = (reportLength? (id.hardware &&& 0x0F)).getD 11 := by
  have hl : 4 ≤ (reportLength? (id.hardware &&& 0x0F)).getD 11 := by
    unfold reportLength?
    split
    · decide
    · split <;> decide
  simp [versionReport]
  omega

theorem length_versionReport_le (id : ChipIdentity) : (versionReport id).length ≤ 11 := by
  rw [length_versionReport]
  unfold reportLength?
  split
  · decide
  · split <;> decide

/-- The payload of the answer to a frame that only asks. -/
def report? (id : ChipIdentity) (code : UInt8) : Option Bytes :=
  if code = RequestId.getVersion then some (versionReport id)
  else if code = RequestId.getSessionState then some (sessionReport false)
  else if code = RequestId.checkIntegrity then some (integrityReport 0)
  else if code = RequestId.force then some []
  else none

theorem length_report? {id : ChipIdentity} {code : UInt8} (h : report? id code = some payload) :
    payload.length ≤ 251 := by
  have hv := length_versionReport_le id
  unfold report? at h
  split_ifs at h <;> cases h
  · omega
  · simp [sessionReport]
  · simp [integrityReport]
  · simp

theorem Ready.report?_eq (h : c.Ready) (hr : report? c.identity f.code = some payload) :
    f.code ≠ RequestId.write ∧ c.answerRequest false f = c.respond .ok payload := by
  unfold report? at hr
  split_ifs at hr with hc hc hc hc <;> cases hr <;>
    simp only [answerRequest, hc, h.sessionOpen, h.corrupt] <;> exact ⟨by decide, rfl⟩

theorem Ready.reports (h : c.Ready) (hl : f.payload.length < 1023)
    (hr : report? c.identity f.code = some payload) :
    Replies c f.wire (Frame.wire ⟨Status.ok.toByte, payload, false⟩) (c.facing false) := by
  obtain ⟨hw, ha⟩ := (h.facing false).report?_eq hr
  refine h.responds hl (length_report? hr) ?_ (h.facing false).toSound
  rw [decide_eq_false hw]
  exact ha

/-! ## The log area -/

theorem load_store (m : Memory) (addr : UInt32) {data : Bytes} (h : data.length ≤ 2 ^ 32) :
    (m.store addr data).load addr data.length = data := by
  refine List.ext_getElem (by simp [Memory.load]) fun i hi hi' => ?_
  have hn : (addr + i.toUInt32 - addr).toNat = i := by
    rw [UInt32.add_comm, UInt32.add_sub_cancel]
    exact UInt32.toNat_ofNat_of_lt' (show i < 2 ^ 32 by omega)
  simp only [Memory.load, Memory.store, List.getElem_map, List.getElem_range, hn]
  rw [List.getElem?_eq_getElem hi', Option.getD_some]

theorem Ready.logs (h : c.Ready) {entry : Bytes} (hl : entry.length ≤ logAreaSize) :
    Replies c (Request.logFrame entry).wire (Frame.wire ⟨Status.ok.toByte, [], false⟩)
      { c.facing false with memory := c.memory.store logAreaStart entry } := by
  have hl : entry.length ≤ 64 := hl
  refine h.responds ?_ (Nat.zero_le _) rfl (h.congr rfl)
  simp [Request.logFrame]
  omega

/-! ## Reads -/

theorem doubleWord_littleEndian (w : UInt32) :
    doubleWord w.toUInt8 (w >>> 8).toUInt8 (w >>> 16).toUInt8 (w >>> 24).toUInt8 = w := by
  apply UInt32.toBitVec_inj.mp
  apply BitVec.eq_of_getLsbD_eq
  intro i h
  simp only [doubleWord, UInt32.toBitVec_or, UInt32.toBitVec_shiftLeft, UInt8.toBitVec_toUInt32,
    UInt32.toBitVec_toUInt8, UInt32.toBitVec_shiftRight, BitVec.getLsbD_or, BitVec.getLsbD_setWidth]
  -- Each bit comes from the byte that it lies in.
  rcases (by omega : i < 8 ∨ (8 ≤ i ∧ i < 16) ∨ (16 ≤ i ∧ i < 24) ∨ 24 ≤ i) with h' | h' | h' | h'
  · simp [h', h, show i < 16 by omega, show i < 24 by omega]
  · simp [h', h, show ¬ i < 8 by omega, show i - 8 < 8 by omega, show i < 24 by omega]
  · simp [h', h, show ¬ i < 8 by omega, show ¬ i - 8 < 8 by omega, show i - 16 < 8 by omega]
  · simp [h', h, show ¬ i < 8 by omega, show ¬ i - 8 < 8 by omega, show ¬ i - 16 < 8 by omega,
      show i - 24 < 8 by omega]

/-- The payload of the answer that gives so many cells. -/
def readReport (m : Memory) (addr : UInt32) (n : Nat) : Bytes :=
  [0, lowByte n.toUInt16, highByte n.toUInt16] ++ m.load addr n

theorem length_readReport (m : Memory) (addr : UInt32) (n : Nat) :
    (readReport m addr n).length = n + 3 := by
  simp [readReport, Memory.load]

theorem word_length {n : Nat} (hl : n ≤ Transfer.maxRead) :
    (word (highByte n.toUInt16) (lowByte n.toUInt16)).toNat = n := by
  have hl : n ≤ 248 := hl
  rw [word_highByte_lowByte]
  exact UInt16.toNat_ofNat_of_lt' (show n < 65536 by omega)

/-- A request for at most 248 cells is answered unless it goes over the end of the memory. -/
theorem answerRead_readPayload (c : Controller) (addr : UInt32) {n : Nat} (hn : 0 < n)
    (hl : n ≤ Transfer.maxRead) : c.answerRead (Transfer.readPayload addr n) =
      if UInt32.size < addr.toNat + n then c.respond .addrRangeOverflow []
      else c.respond .ok (readReport c.memory addr n) := by
  show c.answerRead (0 :: lowByte n.toUInt16 :: highByte n.toUInt16 ::
    [addr.toUInt8, (addr >>> 8).toUInt8, (addr >>> 16).toUInt8, (addr >>> 24).toUInt8]) = _
  have hm : ¬ 248 < n := Nat.not_lt.2 hl
  simp only [Controller.answerRead, word_length hl, doubleWord_littleEndian, hn, true_and,
    if_neg hm]
  rfl

theorem piece?_readReport (g : ReadRange) (i : Nat) (m : Memory) (addr : UInt32) :
    g.piece? i (Frame.wire ⟨Status.ok.toByte, readReport m addr (g.pieceLength i), false⟩) =
      some (m.load addr (g.pieceLength i)) := by
  have hl : g.pieceLength i ≤ Transfer.maxRead := Nat.min_le_left _ _
  have hm : g.pieceLength i ≤ 248 := hl
  have hlen := length_readReport m addr (g.pieceLength i)
  have he : (Bytes.lowWordAt (readReport m addr (g.pieceLength i)) 1).toNat = g.pieceLength i :=
    word_length hl
  have hd : (readReport m addr (g.pieceLength i)).drop 3 = m.load addr (g.pieceLength i) := rfl
  rw [ReadRange.piece?_eq (Frame.decode_wire (by rw [hlen]; omega))]
  dsimp only
  rw [hd, hlen, if_pos ⟨rfl, Nat.le_add_left _ _, he, by simp [Memory.load]⟩]
  exact congrArg some (List.take_of_length_le (by simp [Memory.load]))

theorem Ready.readsLog (h : c.Ready) {n : Nat} (hn : 0 < n) (hl : n ≤ Transfer.maxRead) :
    ∃ raw, Replies c ((⟨logAreaStart, n⟩ : ReadRange).frame 0) raw (c.facing false) ∧
      (⟨logAreaStart, n⟩ : ReadRange).piece? 0 raw = some (c.memory.load logAreaStart n) := by
  have hm : n ≤ 248 := hl
  have hp : (⟨logAreaStart, n⟩ : ReadRange).pieceLength 0 = n := by
    simp [ReadRange.pieceLength]
    omega
  have hf : (⟨logAreaStart, n⟩ : ReadRange).frame 0 =
      Frame.wire ⟨RequestId.read, Transfer.readPayload logAreaStart n, false⟩ := by
    rw [ReadRange.frame_eq, hp]
    rfl
  have hr : (c.facing false).answerRequest false
      ⟨RequestId.read, Transfer.readPayload logAreaStart n, false⟩ =
        (c.facing false).respond .ok (readReport c.memory logAreaStart n) := by
    -- The area lies far below the end of the memory.
    have ho : ¬ UInt32.size < logAreaStart.toNat + n := by
      have : logAreaStart.toNat = 2105216 := by decide
      have : UInt32.size = 4294967296 := rfl
      omega
    show (c.facing false).answerRead (Transfer.readPayload logAreaStart n) = _
    rw [answerRead_readPayload _ _ hn hl, if_neg ho]
    rfl
  have hlen : (readReport c.memory logAreaStart n).length ≤ 251 := by
    rw [length_readReport]
    omega
  have hrep := h.responds (f := ⟨RequestId.read, Transfer.readPayload logAreaStart n, false⟩)
    (show 7 < 1023 by decide) hlen hr (h.facing false).toSound
  have hpiece := piece?_readReport ⟨logAreaStart, n⟩ 0 c.memory logAreaStart
  rw [hp] at hpiece
  exact ⟨_, hf ▸ hrep, hpiece⟩

end Controller

end FirmwareDownload
