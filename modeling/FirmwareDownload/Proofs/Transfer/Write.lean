import FirmwareDownload.Proofs.Frame.Buffer
import FirmwareDownload.Proofs.Image.Slices
import FirmwareDownload.Transfer

/-! A write walks through its image: from in front of a record or behind some slices of it, over
the frame that carries the next slice, to the place behind that slice. -/

namespace FirmwareDownload

namespace Transfer

/-- Where the record behind `pre` starts. -/
def startOf (pre : List Bytes) : Nat := (pre.flatMap Record.encode).length

theorem startOf_concat (pre : List Bytes) (body : Bytes) :
    startOf (pre ++ [body]) = startOf pre + (2 + body.length) := by
  unfold startOf
  rw [List.flatMap_append, List.length_append, List.flatMap_cons, List.flatMap_nil,
    List.append_nil, Record.encode, List.length_append]
  rfl

variable {data : Array UInt8} {pre post : List Bytes} {body : Bytes}

theorem size_eq (hd : data.toList = (pre ++ body :: post).flatMap Record.encode) :
    data.size = startOf pre + (2 + body.length) + startOf post := by
  rw [← startOf_concat, ← Array.length_toList, hd, startOf, startOf, ← List.length_append,
    ← List.flatMap_append, List.append_assoc]
  rfl

theorem slice_header (hd : data.toList = (pre ++ body :: post).flatMap Record.encode) :
    slice data (startOf pre) 2 = .ok (bigEndian16 body.length.toUInt16) := by
  have hs := size_eq hd
  have hl : (pre.flatMap Record.encode).length = startOf pre := rfl
  rw [slice_eq (by omega), hd, List.flatMap_append, List.drop_left' hl, List.flatMap_cons]
  rfl

theorem slice_body {offset n : Nat} (hd : data.toList = (pre ++ body :: post).flatMap Record.encode)
    (hn : offset + n ≤ body.length) :
    slice data (startOf pre + 2 + offset) n = .ok ((body.drop offset).take n) := by
  have hs := size_eq hd
  have hh : (bigEndian16 body.length.toUInt16).length = 2 := rfl
  rw [slice_eq (by omega), hd, List.flatMap_append, List.flatMap_cons, Nat.add_assoc]
  rw [show startOf pre = (pre.flatMap Record.encode).length from rfl, List.drop_length_add_append]
  rw [Record.encode, List.append_assoc, ← List.drop_drop, List.drop_left' hh,
    List.drop_append_of_le_length (by omega), List.take_append_of_le_length]
  rw [List.length_drop]
  omega

theorem length_of_header (h : body.length < 65536) :
    ((bigEndian16 body.length.toUInt16).wordAt 0).toNat = body.length := by
  have hw : (bigEndian16 body.length.toUInt16).wordAt 0 = body.length.toUInt16 :=
    word_highByte_lowByte _
  rw [hw]
  exact UInt16.toNat_ofNat_of_lt' h

/-! ## Places in the image -/

/-- In front of the record behind `pre`, with `total` bytes in all. -/
structure AtRecord (t : Transfer) (total : Nat) (pre : List Bytes) : Prop where
  segmented : t.segmented = false
  inRecord : t.inRecord = false
  place : (t.firstWrite = true ∧ pre = []) ∨
    (t.firstWrite = false ∧ t.offset = startOf pre ∧ t.remaining = total - startOf pre)

/-- Behind the first `i` slices of `body`. -/
structure InRecord (t : Transfer) (total : Nat) (pre : List Bytes) (body : Bytes) (i : Nat) :
    Prop where
  started : 0 < i
  more : 252 * i < body.length
  firstWrite : t.firstWrite = false
  segmented : t.segmented = true
  inRecord : t.inRecord = true
  recordLength : t.recordLength = body.length
  offset : t.offset = startOf pre + 2 + 252 * i
  remainingChunk : t.remainingChunk = body.length - 252 * i
  remaining : t.remaining = total - (startOf pre + 2 + 252 * i)

/-- Where the next frame carries the slice `i` of `body`. -/
def Ready (t : Transfer) (total : Nat) (pre : List Bytes) (body : Bytes) (i : Nat) : Prop :=
  (i = 0 ∧ t.AtRecord total pre) ∨ t.InRecord total pre body i

structure Whole (t : Transfer) (total : Nat) (pre : List Bytes) (body : Bytes) : Prop where
  nonempty : 0 < body.length
  fits : body.length ≤ 252
  firstWrite : t.firstWrite = false
  segmented : t.segmented = false
  inRecord : t.inRecord = false
  offset : t.offset = startOf pre
  frameLength : t.frameLength = body.length + 2
  remaining : t.remaining = total - startOf pre

/-- The frame in flight carries the slice `i` of `body`, of which there are several. The two bytes
in front of the body count as transferred once its first slice is. -/
structure Fragment (t : Transfer) (total : Nat) (pre : List Bytes) (body : Bytes) (i : Nat) :
    Prop where
  large : 252 < body.length
  more : 252 * i < body.length
  firstWrite : t.firstWrite = false
  segmented : t.segmented = decide (252 * (i + 1) < body.length)
  inRecord : t.inRecord = decide (0 < i)
  recordLength : t.recordLength = body.length
  offset : t.offset = startOf pre + 2 + 252 * i
  remainingChunk : t.remainingChunk = body.length - 252 * i
  frameLength : t.frameLength = min 252 (body.length - 252 * i)
  remaining : t.remaining = total - (if i = 0 then startOf pre else startOf pre + 2 + 252 * i)

def InFlight (t : Transfer) (total : Nat) (pre : List Bytes) (body : Bytes) (i : Nat) : Prop :=
  (i = 0 ∧ t.Whole total pre body) ∨ t.Fragment total pre body i

/-! ## Building the next frame -/

theorem more_iff {body : Bytes} {i : Nat} :
    Frame.maxBody < body.length - 252 * i ↔ i + 1 < Record.sliceCount body := by
  rw [Record.lt_sliceCount, show Frame.maxBody = 252 from rfl]
  omega

theorem composeFragment_eq {t : Transfer} {i : Nat} (frame : FrameBuffer)
    (hd : data.toList = (pre ++ body :: post).flatMap Record.encode) (hi : 252 * i < body.length)
    (ho : t.offset = startOf pre + 2 + 252 * i) (hc : t.remainingChunk = body.length - 252 * i) :
    ∃ frame', t.composeFragment data frame = (.ok frame', { t with
        segmented := decide (252 * (i + 1) < body.length)
        frameLength := min 252 (body.length - 252 * i) }) ∧
      frame'.bytes = Record.sliceFrame body i := by
  have hs : slice data t.offset (min t.remainingChunk Frame.maxBody) =
      .ok (Record.slice body i) := by
    rw [ho, hc, slice_body hd (by omega), Nat.min_comm, ← List.length_drop,
      ← List.take_eq_take_min]
    rfl
  have hm : decide (Frame.maxBody < t.remainingChunk) = decide (252 * (i + 1) < body.length) := by
    rw [hc, decide_eq_decide, more_iff, Record.lt_sliceCount]
  have hl : (Record.slice body i).length ≤ Frame.maxBody := by
    rw [Record.length_slice]
    exact Nat.min_le_left ..
  obtain ⟨frame', hf, hb⟩ := frame.encodeBody_ok (decide (252 * (i + 1) < body.length))
    (Record.slice_ne_nil hi) hl
  refine ⟨frame', ?_, ?_⟩
  · unfold Transfer.composeFragment
    dsimp only
    rw [hs, hm]
    dsimp only
    rw [hf, hc, Nat.min_comm]
    rfl
  · rw [hb, Record.sliceFrame]
    simp only [Record.lt_sliceCount]

theorem InRecord.composeWrite {t : Transfer} {i : Nat} (frame : FrameBuffer)
    (hd : data.toList = (pre ++ body :: post).flatMap Record.encode)
    (h : t.InRecord data.size pre body i) :
    ∃ frame' t', t.composeWrite data frame = (.ok frame', t') ∧
      frame'.bytes = Record.sliceFrame body i ∧ t'.Fragment data.size pre body i := by
  have hi := h.started
  have hm := h.more
  obtain ⟨frame', he, hb⟩ := composeFragment_eq frame hd hm h.offset h.remainingChunk
  have hl : Frame.maxBody < body.length := by
    rw [show Frame.maxBody = 252 from rfl]
    omega
  have hc : t.composeWrite data frame = t.composeFragment data frame := by
    unfold Transfer.composeWrite Transfer.startWrite Transfer.readHeader Transfer.enterRecord
    dsimp only
    rw [h.firstWrite, if_neg Bool.false_ne_true, h.segmented, if_pos rfl]
    dsimp only
    rw [h.recordLength, h.inRecord, if_pos hl, if_pos rfl]
  refine ⟨frame', _, hc.trans he, hb, ?_⟩
  refine ⟨hl, hm, h.firstWrite, rfl, ?_, h.recordLength, h.offset, h.remainingChunk, rfl, ?_⟩
  · rw [h.inRecord, decide_eq_true hi]
  · rw [if_neg (by omega)]
    exact h.remaining

theorem AtRecord.startWrite {t : Transfer} (h : t.AtRecord data.size pre) :
    (t.startWrite data).firstWrite = false ∧ (t.startWrite data).segmented = false ∧
      (t.startWrite data).inRecord = false ∧ (t.startWrite data).offset = startOf pre ∧
      (t.startWrite data).remaining = data.size - startOf pre := by
  unfold Transfer.startWrite
  rcases h.place with ⟨hf, rfl⟩ | ⟨hf, ho, hr⟩
  · rw [hf, if_pos rfl]
    exact ⟨rfl, h.segmented, h.inRecord, rfl, rfl⟩
  · rw [hf, if_neg Bool.false_ne_true]
    exact ⟨hf, h.segmented, h.inRecord, ho, hr⟩

theorem readHeader_eq {t : Transfer} (hs : t.segmented = false) (ho : t.offset = startOf pre)
    (hd : data.toList = (pre ++ body :: post).flatMap Record.encode) (hb : Record.IsBody body) :
    t.readHeader data = .ok { t with recordLength := body.length } := by
  unfold Transfer.readHeader
  rw [if_neg (by rw [hs]; exact Bool.false_ne_true), ho, slice_header hd]
  dsimp only
  rw [length_of_header hb.2, ← ho]

theorem AtRecord.composeWrite {t : Transfer} (frame : FrameBuffer)
    (hd : data.toList = (pre ++ body :: post).flatMap Record.encode) (hb : Record.IsBody body)
    (h : t.AtRecord data.size pre) :
    ∃ frame' t', t.composeWrite data frame = (.ok frame', t') ∧
      frame'.bytes = Record.sliceFrame body 0 ∧ t'.InFlight data.size pre body 0 := by
  obtain ⟨hf, hs, hi, ho, hr⟩ := h.startWrite
  unfold Transfer.composeWrite
  dsimp only
  generalize t.startWrite data = t₁ at hf hs hi ho hr
  rw [readHeader_eq hs ho hd hb]
  dsimp only
  split
  -- Fragments are cut from behind the length of the record, a whole one is read with it.
  · rename_i hl
    have hl : 252 < body.length := hl
    have hen : ({ t₁ with recordLength := body.length } : Transfer).enterRecord = { t₁ with
        recordLength := body.length
        remainingChunk := body.length
        offset := startOf pre + 2 } := by
      unfold Transfer.enterRecord
      dsimp only
      rw [hi, if_neg Bool.false_ne_true, ho]
    obtain ⟨frame', he, hbytes⟩ := composeFragment_eq (i := 0) frame hd (by omega)
      (t := { t₁ with
        recordLength := body.length, remainingChunk := body.length, offset := startOf pre + 2 })
      rfl rfl
    rw [hen]
    exact ⟨frame', _, he, hbytes, .inr ⟨hl, by omega, hf, rfl, hi, rfl, rfl, rfl, rfl, hr⟩⟩
  · rename_i hl
    have hl : body.length ≤ 252 := Nat.not_lt.1 hl
    have hn : body ≠ [] := by
      rintro rfl
      cases hb.1
    obtain ⟨frame', he, hbytes⟩ := frame.encodeBody_ok false hn hl
    have hsl := slice_body hd (show 0 + body.length ≤ body.length by omega)
    rw [List.drop_zero, List.take_length, Nat.add_zero] at hsl
    refine ⟨frame', { t₁ with recordLength := body.length, frameLength := body.length + 2 }, ?_, ?_,
      .inl ⟨rfl, List.length_pos_iff.2 hn, hl, hf, hs, hi, ho, rfl, hr⟩⟩
    · unfold Transfer.composeRecord
      dsimp only
      rw [ho, hsl]
      dsimp only
      rw [he]
      rfl
    · have hm : ¬ 0 + 1 < Record.sliceCount body := by
        rw [Record.lt_sliceCount]
        omega
      rw [hbytes, Record.sliceFrame, Record.slice_zero hl, decide_eq_false hm]

/-- The next frame carries the next slice. -/
theorem Ready.composeWrite {t : Transfer} {i : Nat} (frame : FrameBuffer)
    (hd : data.toList = (pre ++ body :: post).flatMap Record.encode) (hb : Record.IsBody body)
    (h : t.Ready data.size pre body i) :
    ∃ frame' t', t.composeWrite data frame = (.ok frame', t') ∧
      frame'.bytes = Record.sliceFrame body i ∧ t'.InFlight data.size pre body i := by
  rcases h with ⟨rfl, h⟩ | h
  · exact h.composeWrite frame hd hb
  · obtain ⟨frame', t', he, hbytes, hf⟩ := h.composeWrite frame hd
    exact ⟨frame', t', he, hbytes, .inr hf⟩

/-! ## Taking the answer -/

/-- Behind the slice `i` of `body`. -/
def Behind (t : Transfer) (total : Nat) (pre : List Bytes) (body : Bytes) (i : Nat) : Prop :=
  (i + 1 = Record.sliceCount body ∧ t.AtRecord total (pre ++ [body]) ∧
    t.remaining = total - startOf (pre ++ [body])) ∨
  (i + 1 < Record.sliceCount body ∧ t.InRecord total pre body (i + 1))

theorem InFlight.lt_sliceCount {t : Transfer} {total i : Nat} (h : t.InFlight total pre body i) :
    i < Record.sliceCount body := by
  rw [Record.lt_sliceCount]
  rcases h with ⟨rfl, h⟩ | h
  · have := h.nonempty
    omega
  · exact h.more

theorem InFlight.segmented_iff {t : Transfer} {total i : Nat} (h : t.InFlight total pre body i) :
    t.segmented = true ↔ i + 1 < Record.sliceCount body := by
  rw [Record.lt_sliceCount]
  rcases h with ⟨rfl, h⟩ | h
  · have := h.fits
    rw [h.segmented]
    constructor
    · exact fun h => (Bool.false_ne_true h).elim
    · omega
  · rw [h.segmented, decide_eq_true_iff]

theorem InFlight.inRecord_iff {t : Transfer} {total i : Nat} (h : t.InFlight total pre body i) :
    t.inRecord = true ↔ 0 < i := by
  rcases h with ⟨rfl, h⟩ | h
  · rw [h.inRecord]
    exact ⟨fun h => (Bool.false_ne_true h).elim, fun h => (Nat.lt_irrefl 0 h).elim⟩
  · rw [h.inRecord, decide_eq_true_iff]

theorem InFlight.sliceAck_eq {t : Transfer} {total i : Nat} (h : t.InFlight total pre body i) :
    Record.sliceAck body i =
      if t.segmented then (if t.inRecord then .nextChunkAck else .firstChunkAck) else .ok := by
  have hl := h.lt_sliceCount
  unfold Record.sliceAck
  by_cases hs : i + 1 < Record.sliceCount body
  · rw [if_neg (by omega), if_pos (h.segmented_iff.2 hs)]
    by_cases hi : 0 < i
    · rw [if_neg (by omega), if_pos (h.inRecord_iff.2 hi)]
    · rw [if_pos (by omega), if_neg (mt h.inRecord_iff.1 hi)]
  · rw [if_pos (by omega), if_neg (mt h.segmented_iff.1 hs)]

theorem InFlight.acceptWrite_last {t : Transfer} {total i : Nat} (h : t.InFlight total pre body i)
    (hs : t.segmented = false) :
    ∃ t', t.acceptWrite .ok = (.ok (), t') ∧ t'.Behind total pre body i := by
  have hn : ¬ i + 1 < Record.sliceCount body := by
    rw [← h.segmented_iff, hs]
    exact Bool.false_ne_true
  have hc : i + 1 = Record.sliceCount body := by
    have := h.lt_sliceCount
    omega
  have ht := startOf_concat pre body
  -- The place in front of the frame, with what the frame stands for, is the end of the record.
  have hp : t.firstWrite = false ∧ t.offset + t.frameLength = startOf (pre ++ [body]) ∧
      t.remaining - t.frameLength = total - startOf (pre ++ [body]) := by
    rw [Record.lt_sliceCount] at hn
    rcases h with ⟨rfl, h⟩ | h
    · rw [h.offset, h.remaining, h.frameLength]
      exact ⟨h.firstWrite, by omega, by omega⟩
    · have hl := h.large
      have hm := h.more
      rw [h.offset, h.remaining, h.frameLength, if_neg (by omega)]
      exact ⟨h.firstWrite, by omega, by omega⟩
  obtain ⟨hf, ho, hr⟩ := hp
  unfold Transfer.acceptWrite
  dsimp only
  rw [if_neg (by rw [hs]; exact Bool.false_ne_true)]
  exact ⟨_, rfl, .inl ⟨hc, ⟨hs, rfl, .inr ⟨hf, ho, hr⟩⟩, hr⟩⟩

theorem InFlight.acceptWrite_first {t : Transfer} {total i : Nat} (h : t.InFlight total pre body i)
    (hs : t.segmented = true) (hr : t.inRecord = false) :
    ∃ t', t.acceptWrite .firstChunkAck = (.ok (), t') ∧ t'.Behind total pre body i := by
  have hn := h.segmented_iff.1 hs
  have hi : i = 0 := by
    have := mt h.inRecord_iff.2 (by rw [hr]; exact Bool.false_ne_true)
    omega
  subst hi
  unfold Transfer.acceptWrite
  dsimp only
  rw [if_pos ⟨hs, by rw [hr]; rfl⟩]
  refine ⟨_, rfl, .inr ⟨hn, ?_⟩⟩
  rw [Record.lt_sliceCount] at hn
  rcases h with ⟨-, h⟩ | h
  · have := h.fits
    omega
  · have hl : t.frameLength = 252 := by
      rw [h.frameLength]
      omega
    refine ⟨Nat.zero_lt_one, hn, h.firstWrite, hs, rfl, h.recordLength, ?_, ?_, ?_⟩ <;>
      dsimp only <;> rw [hl]
    · rw [h.offset]
    · rw [h.remainingChunk]
      rfl
    · rw [h.remaining, if_pos rfl]
      omega

theorem InFlight.acceptWrite_next {t : Transfer} {total i : Nat} (h : t.InFlight total pre body i)
    (hs : t.segmented = true) (hr : t.inRecord = true) :
    ∃ t', t.acceptWrite .nextChunkAck = (.ok (), t') ∧ t'.Behind total pre body i := by
  have hn := h.segmented_iff.1 hs
  have hi := h.inRecord_iff.1 hr
  unfold Transfer.acceptWrite
  dsimp only
  rw [if_pos ⟨hs, hr⟩]
  refine ⟨_, rfl, .inr ⟨hn, ?_⟩⟩
  rw [Record.lt_sliceCount] at hn
  rcases h with ⟨rfl, -⟩ | h
  · exact absurd hi (Nat.lt_irrefl 0)
  · have hl : t.frameLength = 252 := by
      rw [h.frameLength]
      omega
    refine ⟨Nat.succ_pos i, hn, h.firstWrite, hs, hr, h.recordLength, ?_, ?_, ?_⟩ <;>
      dsimp only <;> rw [hl]
    · rw [h.offset]
      omega
    · rw [h.remainingChunk]
      omega
    · rw [h.remaining, if_neg (by omega)]
      omega

theorem InFlight.acceptWrite_ack {t : Transfer} {total i : Nat} (h : t.InFlight total pre body i) :
    ∃ t', t.acceptWrite (Record.sliceAck body i) = (.ok (), t') ∧
      t'.Behind total pre body i := by
  rw [h.sliceAck_eq]
  by_cases hs : t.segmented = true
  · rw [if_pos hs]
    by_cases hr : t.inRecord = true
    · rw [if_pos hr]
      exact h.acceptWrite_next hs hr
    · rw [if_neg hr]
      exact h.acceptWrite_first hs (Bool.eq_false_iff.2 hr)
  · rw [if_neg hs]
    exact h.acceptWrite_last (Bool.eq_false_iff.2 hs)

theorem InFlight.acceptWrite_ne {t : Transfer} {total i : Nat} {status : Status}
    (h : t.InFlight total pre body i) (hne : status ≠ Record.sliceAck body i) :
    ∃ error t', t.acceptWrite status = (.error error, t') := by
  rw [h.sliceAck_eq] at hne
  unfold Transfer.acceptWrite
  dsimp only
  cases status with
  | ok =>
    have hs : t.segmented = true := Decidable.byContradiction fun hs => hne (if_neg hs).symm
    dsimp only
    rw [if_pos hs]
    exact ⟨_, _, rfl⟩
  | firstChunkAck =>
    have hn : ¬ (t.segmented = true ∧ (!t.inRecord) = true) := by
      intro hc
      have hr : t.inRecord = false := by simpa using hc.2
      rw [if_pos hc.1, if_neg (by rw [hr]; exact Bool.false_ne_true)] at hne
      exact hne rfl
    dsimp only
    rw [if_neg hn]
    exact ⟨_, _, rfl⟩
  | nextChunkAck =>
    have hn : ¬ (t.segmented = true ∧ t.inRecord = true) := by
      intro hc
      rw [if_pos hc.1, if_pos hc.2] at hne
      exact hne rfl
    dsimp only
    rw [if_neg hn]
    exact ⟨_, _, rfl⟩
  | _ => exact ⟨_, _, rfl⟩

theorem Behind.more_iff {t : Transfer} {i : Nat}
    (hd : data.toList = (pre ++ body :: post).flatMap Record.encode)
    (h : t.Behind data.size pre body i) :
    0 < t.remaining ↔ ¬ (i + 1 = Record.sliceCount body ∧ post = []) := by
  have hs := size_eq hd
  have ht := startOf_concat pre body
  rcases h with ⟨hc, -, hr⟩ | ⟨hc, h⟩
  · cases post with
    | nil =>
      rw [show startOf [] = 0 from rfl] at hs
      rw [hr]
      exact ⟨by omega, fun hn => (hn ⟨hc, rfl⟩).elim⟩
    | cons next post =>
      have hp : 0 < startOf (next :: post) := by
        rw [startOf, List.flatMap_cons, List.length_append, Record.encode, List.length_append]
        have hh : (bigEndian16 next.length.toUInt16).length = 2 := rfl
        omega
      rw [hr]
      exact ⟨fun _ hn => absurd hn.2 (List.cons_ne_nil _ _), fun _ => by omega⟩
  · have hm := h.more
    rw [h.remaining]
    exact ⟨fun _ hn => absurd hn.1 (Nat.ne_of_lt hc), fun _ => by omega⟩

end Transfer

end FirmwareDownload
