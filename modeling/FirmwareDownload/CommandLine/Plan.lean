import FirmwareDownload.Transfer

/-! A write without a controller: its frames one after the other, each one acknowledged as a healthy
controller does. -/

namespace FirmwareDownload

/-- A frame of a write as it is listed. -/
structure PlannedFrame where
  offset : Nat
  bytes : Bytes
  more : Bool
  deriving DecidableEq, Repr

namespace Transfer

variable {t t' : Transfer} {data : Array UInt8} {frame frame' : FrameBuffer}

/-- The status with which a healthy controller takes the frame in flight. -/
def healthyAck (t : Transfer) : Status :=
  if t.segmented then if t.inRecord then .nextChunkAck else .firstChunkAck else .ok

/-- Builds the next frame and takes the answer to it. The frame is listed before it is answered. -/
def planFrame (t : Transfer) (data : Array UInt8) (frame : FrameBuffer) :
    Option PlannedFrame × Except DownloadError (Transfer × FrameBuffer) :=
  match t.composeWrite data frame with
  | (.error e, _) => (none, .error e)
  | (.ok frame, t) =>
    let planned : PlannedFrame := ⟨t.offset, frame.bytes, t.segmented⟩
    match t.acceptWrite t.healthyAck with
    | (.error e, _) => (some planned, .error e)
    | (.ok (), t) => (some planned, .ok (t, frame))

/-! ## Each frame leaves less to plan -/

/-- Bytes that are left, and one more until the write starts. -/
def toPlan (t : Transfer) (data : Array UInt8) : Nat :=
  if t.firstWrite then data.size + 1 else t.remaining

theorem length_of_slice {offset n : Nat} {piece : Bytes} (h : slice data offset n = .ok piece) :
    piece.length = n := by
  unfold slice at h
  split at h
  · cases h
    rw [Array.length_toList, Array.size_extract]
    omega
  · cases h

theorem ne_nil_of_encodeBody {body : Bytes} {more : Bool}
    (h : liftFrame (frame.encodeBody body more) = .ok frame') : body ≠ [] := by
  rintro rfl
  cases h

theorem composeFragment_kept (h : t.composeFragment data frame = (.ok frame', t')) :
    t'.firstWrite = t.firstWrite ∧ t'.remaining = t.remaining ∧ 0 < t'.frameLength := by
  unfold composeFragment at h
  dsimp only at h
  split at h
  · cases h
  · rename_i piece hs
    split at h
    · cases h
    · rename_i he
      cases h
      have hl := length_of_slice hs
      exact ⟨rfl, rfl, hl ▸ List.length_pos_iff.2 (ne_nil_of_encodeBody he)⟩

theorem composeRecord_kept (h : t.composeRecord data frame = (.ok frame', t')) :
    t'.firstWrite = t.firstWrite ∧ t'.remaining = t.remaining ∧ 0 < t'.frameLength := by
  unfold composeRecord at h
  split at h
  · cases h
  · split at h
    · cases h
    · cases h
      exact ⟨rfl, rfl, Nat.succ_pos _⟩

theorem readHeader_kept (h : t.readHeader data = .ok t') :
    t'.firstWrite = t.firstWrite ∧ t'.remaining = t.remaining := by
  unfold readHeader at h
  split at h
  · cases h
    exact ⟨rfl, rfl⟩
  · split at h
    · cases h
    · cases h
      exact ⟨rfl, rfl⟩

theorem startWrite_toPlan (t : Transfer) (data : Array UInt8) :
    (t.startWrite data).firstWrite = false ∧ (t.startWrite data).remaining ≤ t.toPlan data := by
  unfold startWrite toPlan
  cases hf : t.firstWrite with
  | true => exact ⟨rfl, Nat.le_succ _⟩
  | false => exact ⟨hf, Nat.le_refl _⟩

theorem composeWrite_toPlan (h : t.composeWrite data frame = (.ok frame', t')) :
    t'.firstWrite = false ∧ t'.remaining ≤ t.toPlan data ∧ 0 < t'.frameLength := by
  obtain ⟨hf, hr⟩ := t.startWrite_toPlan data
  unfold composeWrite at h
  dsimp only at h
  generalize t.startWrite data = t₁ at h hf hr
  split at h
  · cases h
  · rename_i t₂ hh
    obtain ⟨hf₂, hr₂⟩ := readHeader_kept hh
    have he : t₂.enterRecord.firstWrite = t₂.firstWrite ∧
        t₂.enterRecord.remaining = t₂.remaining := by
      unfold enterRecord
      split <;> exact ⟨rfl, rfl⟩
    split at h
    · obtain ⟨hf', hr', hn⟩ := composeFragment_kept h
      exact ⟨hf'.trans (he.1.trans (hf₂.trans hf)),
        Nat.le_trans (Nat.le_of_eq (hr'.trans (he.2.trans hr₂))) hr, hn⟩
    · obtain ⟨hf', hr', hn⟩ := composeRecord_kept h
      exact ⟨hf'.trans (hf₂.trans hf), Nat.le_trans (Nat.le_of_eq (hr'.trans hr₂)) hr, hn⟩

theorem acceptWrite_remaining {status : Status} (h : t.acceptWrite status = (.ok (), t')) :
    t'.firstWrite = t.firstWrite ∧ t'.remaining ≤ t.remaining - t.frameLength := by
  unfold acceptWrite at h
  cases status with
  | ok | firstChunkAck | nextChunkAck =>
    dsimp only at h
    split at h <;> cases h
    exact ⟨rfl, by dsimp only; omega⟩
  | _ => cases h

theorem planFrame_toPlan {planned : Option PlannedFrame}
    (h : t.planFrame data frame = (planned, .ok (t', frame'))) (hr : t'.remaining ≠ 0) :
    t'.toPlan data < t.toPlan data := by
  unfold planFrame at h
  split at h
  · cases h
  · rename_i t₁ hc
    obtain ⟨hf, hle, hn⟩ := composeWrite_toPlan hc
    dsimp only at h
    split at h
    · cases h
    · rename_i ha
      cases h
      obtain ⟨hf', hle'⟩ := acceptWrite_remaining ha
      have hp : t'.toPlan data = t'.remaining := by rw [toPlan, hf', hf, if_neg Bool.false_ne_true]
      omega

/-- The frames of a write to its end, or up to the error that it meets. -/
def planFrames (t : Transfer) (data : Array UInt8) (frame : FrameBuffer) :
    List PlannedFrame × Except DownloadError Unit :=
  match _h : t.planFrame data frame with
  | (planned, .error e) => (planned.toList, .error e)
  | (planned, .ok (t', frame')) =>
    if _hr : t'.remaining = 0 then (planned.toList, .ok ())
    else
      let (frames, result) := t'.planFrames data frame'
      (planned.toList ++ frames, result)
  termination_by t.toPlan data
  decreasing_by exact planFrame_toPlan _h _hr

end Transfer

end FirmwareDownload
