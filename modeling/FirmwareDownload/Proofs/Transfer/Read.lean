import FirmwareDownload.Proofs.Frame.Buffer
import FirmwareDownload.Transfer

/-! A read cuts the range it asks for into pieces of 248 bytes, the last one shorter. The transfer
asks for piece after piece and lays the data of each answer behind that of the one before. -/

namespace FirmwareDownload

structure ReadRange where
  addr : UInt32
  length : Nat

namespace ReadRange

def pieceCount (g : ReadRange) : Nat := (g.length + 247) / 248

def pieceLength (g : ReadRange) (i : Nat) : Nat := min 248 (g.length - 248 * i)

/-- Addresses go round at the end of the address space. -/
def pieceAddr (g : ReadRange) (i : Nat) : UInt32 := g.addr + (248 * i).toUInt32

/-- The request for the piece `i`: behind a zero byte the length of the piece in two bytes and its
address in four, the lowest byte first. -/
def frame (g : ReadRange) (i : Nat) : Bytes :=
  let length := g.pieceLength i
  let addr := (g.pieceAddr i).toNat
  Frame.wrap [0xA2, 0x00, length.toUInt8, (length / 256).toUInt8, addr.toUInt8,
    (addr / 256).toUInt8, (addr / 65536).toUInt8, (addr / 16777216).toUInt8] false

def frames (g : ReadRange) : List Bytes := (List.range g.pieceCount).map g.frame

/-- What an answer gives of the piece `i`: it has to echo the length of the piece and to bring
that many bytes of data; more of them are passed over. -/
def piece? (g : ReadRange) (i : Nat) (raw : Bytes) : Option Bytes :=
  match Frame.decode raw with
  | .ok ⟨code, _ :: low :: high :: data, _⟩ =>
    if Status.ofByte code = .ok ∧ low.toNat + 256 * high.toNat = g.pieceLength i ∧
        g.pieceLength i ≤ data.length then
      some (data.take (g.pieceLength i))
    else none
  | _ => none

/-- What answers give when each one is for the piece behind that of the answer before. -/
def pieces (g : ReadRange) (raws : List Bytes) : List (Option Bytes) := raws.mapIdx g.piece?

theorem lt_pieceCount {g : ReadRange} {i : Nat} :
    i < g.pieceCount ↔ Transfer.maxRead * i < g.length := by
  unfold pieceCount Transfer.maxRead
  omega

theorem pieceLength_eq (g : ReadRange) (i : Nat) :
    g.pieceLength i = min Transfer.maxRead (g.length - Transfer.maxRead * i) :=
  rfl

theorem frame_eq (g : ReadRange) (i : Nat) : g.frame i =
    Frame.wrap (RequestId.read :: Transfer.readPayload (g.pieceAddr i) (g.pieceLength i)) false := by
  have hl : (g.pieceLength i).toUInt16.toNat = g.pieceLength i :=
    UInt16.toNat_ofNat_of_lt' (Nat.lt_of_le_of_lt (Nat.min_le_left ..) (by decide))
  rw [Transfer.readPayload, littleEndian16_eq, littleEndian32_eq, hl]
  rfl

theorem piece?_eq {g : ReadRange} {i : Nat} {raw : Bytes} {answer : Frame}
    (hd : Frame.decode raw = .ok answer) : g.piece? i raw =
    if answer.status = .ok ∧ 3 ≤ answer.payload.length ∧
        (answer.payload.lowWordAt 1).toNat = g.pieceLength i ∧
        g.pieceLength i ≤ (answer.payload.drop 3).length then
      some ((answer.payload.drop 3).take (g.pieceLength i))
    else none := by
  obtain ⟨code, payload, more⟩ := answer
  rw [piece?, hd]
  rcases payload with _ | ⟨zero, _ | ⟨low, _ | ⟨high, data⟩⟩⟩
  · simp
  · simp
  · simp
  · have hw : (Bytes.lowWordAt (zero :: low :: high :: data) 1).toNat =
        low.toNat + 256 * high.toNat := (toNat_word high low).trans (Nat.add_comm ..)
    have hl : 3 ≤ (zero :: low :: high :: data).length := Nat.le_add_left 3 _
    simp only [hw, hl, true_and, List.drop_succ_cons, List.drop_zero]
    rfl

theorem length_piece {g : ReadRange} {i : Nat} {raw data : Bytes} (h : g.piece? i raw = some data) :
    data.length = g.pieceLength i := by
  unfold piece? at h
  split at h
  · split at h <;> cases h
    rename_i ha
    rw [List.length_take, Nat.min_eq_left ha.2.2]
  · cases h

theorem pieces_concat (g : ReadRange) (raws : List Bytes) (raw : Bytes) :
    g.pieces (raws ++ [raw]) = g.pieces raws ++ [g.piece? raws.length raw] :=
  List.mapIdx_concat

theorem length_pieces (g : ReadRange) (raws : List Bytes) : (g.pieces raws).length = raws.length :=
  List.length_mapIdx

theorem isPrefix_frames {g : ReadRange} {n : Nat} (h : n ≤ g.pieceCount) :
    (List.range n).map g.frame <+: g.frames := by
  obtain ⟨k, hk⟩ := Nat.le.dest h
  rw [frames, ← hk, List.range_add, List.map_append]
  exact List.prefix_append _ _

end ReadRange

/-- Data stored right behind the kept cells is added to them. -/
theorem ResponseBuffer.store?_behind {b : ResponseBuffer} {data : Bytes}
    (h : b.front.length + data.length ≤ b.capacity) :
    ∃ c, b.store? b.front.length data = some c ∧ c.capacity = b.capacity ∧
      c.front = b.front ++ data := by
  refine ⟨_, dif_pos h, rfl, ?_⟩
  simp [storeFront]

namespace Transfer

variable {t : Transfer} {g : ReadRange} {i : Nat}

/-- All pieces before the piece `i` were read. -/
structure Faces (t : Transfer) (g : ReadRange) (i : Nat) : Prop where
  remaining : t.remaining = g.length - maxRead * i
  offset : t.offset = min (maxRead * i) g.length
  addr : t.addr = g.addr + t.offset.toUInt32

/-- The frame in flight asks for the piece `i`. -/
structure Asks (t : Transfer) (g : ReadRange) (i : Nat) : Prop extends t.Faces g i where
  lt : i < g.pieceCount
  frameLength : t.frameLength = g.pieceLength i

theorem faces_startRead (g : ReadRange) : (startRead g.addr g.length).Faces g 0 := by
  refine ⟨rfl, ?_, (UInt32.add_zero _).symm⟩
  rw [Nat.mul_zero, Nat.zero_min]
  rfl

theorem Faces.offset_eq (h : t.Faces g i) (hi : i < g.pieceCount) : t.offset = maxRead * i := by
  rw [h.offset, Nat.min_eq_left (Nat.le_of_lt (ReadRange.lt_pieceCount.1 hi))]

theorem Faces.more_iff (h : t.Faces g i) : 0 < t.remaining ↔ i < g.pieceCount := by
  rw [ReadRange.lt_pieceCount, h.remaining]
  exact Nat.sub_pos_iff_lt

theorem Faces.composeRead (h : t.Faces g i) (hi : i < g.pieceCount) (frame : FrameBuffer) :
    ∃ frame' t', t.composeRead frame = (.ok frame', t') ∧ frame'.bytes = g.frame i ∧
      t'.Asks g i := by
  have hn : min t.remaining maxRead = g.pieceLength i := by
    rw [h.remaining, Nat.min_comm, ReadRange.pieceLength_eq]
  have ha : t.addr = g.pieceAddr i := by
    rw [h.addr, h.offset_eq hi]
    rfl
  obtain ⟨frame', he⟩ := frame.encode_ok
    (f := ⟨RequestId.read, readPayload (g.pieceAddr i) (g.pieceLength i), false⟩)
    (show 1 + 7 ≤ 252 by decide)
  have hb : frame'.bytes = g.frame i := by rw [FrameBuffer.bytes_encode he, ReadRange.frame_eq]
  refine ⟨frame', { t with frameLength := g.pieceLength i }, ?_, hb,
    ⟨h.remaining, h.offset, h.addr⟩, hi, rfl⟩
  unfold Transfer.composeRead
  dsimp only
  rw [hn, ha, he]
  rfl

def passed (t : Transfer) : Transfer :=
  { t with
    bytesRead := t.bytesRead + t.frameLength
    remaining := t.remaining - t.frameLength
    addr := t.addr + t.frameLength.toUInt32
    offset := t.offset + t.frameLength }

theorem Asks.passed (h : t.Asks g i) : t.passed.Faces g (i + 1) := by
  have hlt := ReadRange.lt_pieceCount.1 h.lt
  have ho := h.offset_eq h.lt
  have hn : t.frameLength = min maxRead (g.length - maxRead * i) := h.frameLength
  have hs : maxRead * (i + 1) = maxRead * i + maxRead := Nat.mul_succ ..
  refine ⟨?_, ?_, ?_⟩ <;> unfold Transfer.passed <;> dsimp only
  · rw [h.remaining]
    omega
  · omega
  · rw [h.addr, Nat.toUInt32_eq, Nat.toUInt32_eq, Nat.toUInt32_eq, UInt32.ofNat_add,
      UInt32.add_assoc]

variable {raw data : Bytes} {answer : Frame} {response : ResponseBuffer}

/-- An answer that gives the piece is taken, and there is always room for its data. -/
theorem Asks.acceptRead_piece (h : t.Asks g i) (hd : Frame.decode raw = .ok answer)
    (hc : response.capacity = g.length) (hf : response.front.length = t.offset)
    (hp : g.piece? i raw = some data) :
    ∃ response', t.acceptRead answer response = (.ok (), t.passed, response') ∧
      response'.capacity = g.length ∧ response'.front = response.front ++ data := by
  have hlt := ReadRange.lt_pieceCount.1 h.lt
  have ho := h.offset_eq h.lt
  have hl := ReadRange.length_piece hp
  have hn : g.pieceLength i = min maxRead (g.length - maxRead * i) := rfl
  rw [ReadRange.piece?_eq hd] at hp
  split at hp <;> cases hp
  rename_i ha
  obtain ⟨hs, h₃, hecho, hlen⟩ := ha
  have hroom : response.front.length + ((answer.payload.drop 3).take (g.pieceLength i)).length ≤
      response.capacity := by omega
  obtain ⟨response', hst, hcap, hfr⟩ := ResponseBuffer.store?_behind hroom
  refine ⟨response', ?_, hcap.trans hc, hfr⟩
  unfold Transfer.acceptRead
  dsimp only
  rw [h.frameLength, ← hf, if_neg (not_not_intro hs), if_neg (by omega), if_neg (by omega), hst,
    Transfer.passed, h.frameLength, hf]

/-- Any other answer is refused, and never for want of room. -/
theorem Asks.acceptRead_refused (h : t.Asks g i) (hd : Frame.decode raw = .ok answer)
    (response : ResponseBuffer) (hp : g.piece? i raw = none) :
    ∃ cause, t.acceptRead answer response = (.error (.failed cause), t, response) ∧
      ∀ n m, cause ≠ .responseOverflow n m := by
  rw [ReadRange.piece?_eq hd] at hp
  split at hp
  · cases hp
  rename_i ha
  unfold Transfer.acceptRead
  dsimp only
  rw [h.frameLength]
  by_cases hs : answer.status = .ok
  · rw [if_neg (not_not_intro hs)]
    by_cases h₃ : answer.payload.length < 3
    · rw [if_pos h₃]
      exact ⟨_, rfl, nofun⟩
    · have hn : (answer.payload.lowWordAt 1).toNat ≠ g.pieceLength i ∨
          (answer.payload.drop 3).length < g.pieceLength i := by
        simp only [hs, true_and] at ha
        omega
      rw [if_neg h₃, if_pos hn]
      exact ⟨_, rfl, nofun⟩
  · rw [if_pos hs]
    exact ⟨_, rfl, nofun⟩

end Transfer

end FirmwareDownload
