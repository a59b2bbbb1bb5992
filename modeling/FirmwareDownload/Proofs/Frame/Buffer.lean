import FirmwareDownload.Frame.Buffer

/-! What the buffer of the outgoing frame holds: the wrapped body, whatever was in its cells. -/

namespace FirmwareDownload

namespace Bytes

theorem take_overwrite {data : Bytes} {offset : Nat} (h : offset ≤ data.length) (piece : Bytes) :
    (overwrite data offset piece).take (offset + piece.length) = data.take offset ++ piece := by
  have hl : (data.take offset ++ piece).length = offset + piece.length := by
    rw [List.length_append, List.length_take, Nat.min_eq_left h]
  rw [overwrite, ← hl, List.take_left]

theorem take_headed {cells header body : Bytes} (hh : header.length = 2)
    (hc : 2 + body.length ≤ cells.length) :
    (overwrite (overwrite cells 2 body) 0 header).take (2 + body.length) = header ++ body := by
  have hf := take_overwrite (show 2 ≤ cells.length by omega) body
  have hd : ((overwrite cells 2 body).drop 2).take body.length = body := by
    rw [List.take_drop, hf, List.drop_left' (by rw [List.length_take]; omega)]
  rw [overwrite, List.take_zero, List.nil_append, Nat.zero_add, hh, ← hh,
    List.take_length_add_append, hh, hd]

theorem take_overwrite_zero (data piece : Bytes) :
    (overwrite data 0 piece).take piece.length = piece := by
  have ht := take_overwrite (Nat.zero_le data.length) piece
  rwa [Nat.zero_add, List.take_zero, List.nil_append] at ht

end Bytes

namespace FrameBuffer

theorem length_bytes (b : FrameBuffer) : b.bytes.length = b.used := by
  rw [bytes, List.length_take, b.length_cells, Nat.min_eq_left b.used_le]

theorem bytes_encode {b b' : FrameBuffer} {f : Frame} (h : b.encode f = .ok b') :
    b'.bytes = Frame.wrap (f.code :: f.payload) f.more := by
  unfold FrameBuffer.encode at h
  dsimp only at h
  split at h
  · rename_i hle
    cases h
    have hc : b.cells.length = 256 := b.length_cells
    have hle : (f.code :: f.payload).length ≤ 252 := hle
    have hh : (bigEndian16 (Frame.header (f.code :: f.payload).length f.more)).length = 2 := rfl
    have hr : 2 + (f.code :: f.payload).length ≤ b.cells.length := by omega
    have ht := Bytes.take_headed hh hr
    have hl := congrArg List.length ht
    unfold FrameBuffer.bytes Frame.wrap
    dsimp only
    rw [ht]
    refine (Bytes.take_overwrite ?_ (bigEndian16 _)).trans ?_
    · rw [List.length_take, List.length_append, hh] at hl
      omega
    · rw [ht]
  · cases h

theorem encode_ok (b : FrameBuffer) {f : Frame} (h : 1 + f.payload.length ≤ Frame.maxBody) :
    ∃ b', b.encode f = .ok b' := by
  unfold FrameBuffer.encode
  exact ⟨_, dif_pos (by rw [List.length_cons]; omega)⟩

/-- A frame goes into the buffer as it is written without one, or into neither. -/
theorem map_bytes_encode (b : FrameBuffer) (f : Frame) : (b.encode f).map bytes = f.encode := by
  by_cases h : 1 + f.payload.length ≤ Frame.maxBody
  · obtain ⟨b', he⟩ := b.encode_ok h
    rw [he, Except.map, bytes_encode he, Frame.encode, if_pos h]
  · have hb : ¬ (f.code :: f.payload).length ≤ Frame.maxBody := by
      rwa [List.length_cons, Nat.add_comm]
    rw [FrameBuffer.encode, dif_neg hb, Except.map, Frame.encode, if_neg h, List.length_cons,
      Nat.add_comm]

/-- A body of 1 to 252 bytes goes into the buffer wrapped. -/
theorem encodeBody_ok (b : FrameBuffer) {body : Bytes} (more : Bool) (hn : body ≠ [])
    (hl : body.length ≤ Frame.maxBody) :
    ∃ b', b.encodeBody body more = .ok b' ∧ b'.bytes = Frame.wrap body more := by
  cases body with
  | nil => exact absurd rfl hn
  | cons code payload =>
    have hl : 1 + payload.length ≤ Frame.maxBody := by
      rw [List.length_cons, Nat.add_comm] at hl
      exact hl
    obtain ⟨b', he⟩ := b.encode_ok (f := ⟨code, payload, more⟩) hl
    have hb := bytes_encode he
    refine ⟨b', ?_, hb⟩
    rw [encodeBody, he]

theorem setRaw_ok (b : FrameBuffer) {raw : Bytes} (h : raw.length ≤ Frame.maxLength) :
    ∃ b', b.setRaw raw = .ok b' ∧ b'.bytes = raw :=
  ⟨_, dif_pos h, Bytes.take_overwrite_zero b.cells raw⟩

end FrameBuffer

end FirmwareDownload
