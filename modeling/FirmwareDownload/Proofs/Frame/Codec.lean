import FirmwareDownload.Proofs.Frame.Buffer
import Mathlib.Data.Nat.Bitwise

/-! The frame codec in both directions. What is wrapped is read back, and a frame is accepted
for its length, its check and the length in its header alone. -/

namespace FirmwareDownload

namespace Bytes

theorem wordAt_append (data rest : Bytes) (i : Nat) :
    wordAt (data ++ rest) (data.length + i) = wordAt rest i := by
  simp [wordAt, byteAt, List.getElem?_append_right, Nat.add_assoc]

theorem wordAt_bigEndian16 (w : UInt16) (rest : Bytes) :
    wordAt (bigEndian16 w ++ rest) 0 = w := by
  simp [wordAt, byteAt, bigEndian16, word_highByte_lowByte]

theorem bigEndian16_wordAt {data : Bytes} {i : Nat} (h : data.length = i + 2) :
    bigEndian16 (wordAt data i) = data.drop i := by
  have h₀ : i < data.length := by omega
  have h₁ : i + 1 < data.length := by omega
  have he : data.drop (i + 2) = [] := List.drop_eq_nil_of_le (by omega)
  simp [bigEndian16, wordAt, byteAt, highByte_word, lowByte_word, List.drop_eq_getElem_cons h₀,
    List.drop_eq_getElem_cons h₁, he, h₀, h₁]

end Bytes

namespace Frame

theorem toNat_header {n : Nat} (h : n < 1024) (more : Bool) :
    (header n more).toNat = n + if more then 1024 else 0 := by
  have hn : n.toUInt16.toNat = n := UInt16.toNat_ofNat_of_lt' (show n < 65536 by omega)
  cases more with
  | false => simp [header, hn]
  | true =>
    have ho := Nat.two_pow_add_eq_or_of_lt (i := 10) h 1
    simp only [header, if_true, UInt16.toNat_or, hn, moreBit]
    rw [show (0x0400 : UInt16).toNat = 2 ^ 10 * 1 from rfl, Nat.or_comm, ← ho]
    omega

theorem toNat_lengthMask (w : UInt16) : (w &&& lengthMask).toNat = w.toNat % 1024 := by
  rw [UInt16.toNat_and]
  exact Nat.and_two_pow_sub_one_eq_mod w.toNat 10

theorem saysMore_eq (w : UInt16) : decide (w &&& moreBit ≠ 0) = w.toNat.testBit 10 := by
  have hb : (w &&& moreBit).toNat = (w.toNat.testBit 10).toNat * 2 ^ 10 := by
    rw [UInt16.toNat_and]
    exact Nat.and_two_pow w.toNat 10
  have hz : w &&& moreBit = 0 ↔ (w &&& moreBit).toNat = 0 := UInt16.toNat_inj.symm
  simp only [Ne, hz, hb]
  cases w.toNat.testBit 10 <;> rfl

theorem saysMore_header {n : Nat} (h : n < 1024) (more : Bool) :
    decide (header n more &&& moreBit ≠ 0) = more := by
  rw [saysMore_eq, toNat_header h, Nat.testBit_eq_decide_div_mod_eq]
  cases more
  · simp only [Bool.false_eq_true, if_false, decide_eq_false_iff_not]
    omega
  · simp only [if_true, decide_eq_true_eq]
    omega

theorem length_wrap (body : Bytes) (more : Bool) : (wrap body more).length = body.length + 4 := by
  simp [wrap, bigEndian16]

theorem fits_iff (payload : Bytes) : 1 + payload.length ≤ maxBody ↔ payload.length ≤ 251 := by
  rw [show maxBody = 252 from rfl]
  omega

theorem encode_eq (f : Frame) : f.encode =
    if f.payload.length ≤ 251 then .ok (wrap (f.code :: f.payload) f.more)
    else .error (.bodyTooLarge (1 + f.payload.length) maxBody) := by
  simp only [encode, fits_iff]

/-- All that is looked at in a received frame: its length, its check and its header. -/
theorem decode_eq {raw : Bytes} {f : Frame} : decode raw = .ok f ↔
    minLength ≤ raw.length ∧ crc16 (raw.take (raw.length - 2)) = raw.wordAt (raw.length - 2) ∧
      (raw.wordAt 0).toNat % 1024 = raw.length - 4 ∧
      f = ⟨raw.byteAt 2, (raw.take (raw.length - 2)).drop 3, raw.wordAt 0 &&& moreBit ≠ 0⟩ := by
  by_cases hl : raw.length < minLength
  · rw [decode, if_pos hl]
    exact ⟨nofun, fun h => absurd hl (Nat.not_lt.2 h.1)⟩
  rw [decode, if_neg hl]
  dsimp only
  by_cases hc : crc16 (raw.take (raw.length - 2)) = raw.wordAt (raw.length - 2)
  · rw [if_neg (Decidable.not_not.2 hc), toNat_lengthMask]
    by_cases hh : (raw.wordAt 0).toNat % 1024 = raw.length - 4
    · rw [if_neg (Decidable.not_not.2 hh), Except.ok.injEq]
      exact ⟨fun h => ⟨Nat.not_lt.1 hl, hc, hh, h.symm⟩, fun h => h.2.2.2.symm⟩
    · rw [if_pos hh]
      exact ⟨nofun, fun h => absurd h.2.2.1 hh⟩
  · rw [if_pos hc]
    exact ⟨nofun, fun h => absurd h.2.1 hc⟩

theorem checked_iff {raw : Bytes} (h : 2 ≤ raw.length) :
    crc16 (raw.take (raw.length - 2)) = raw.wordAt (raw.length - 2) ↔
      ∃ covered, raw = covered ++ bigEndian16 (crc16 covered) := by
  constructor
  · intro hc
    refine ⟨raw.take (raw.length - 2), ?_⟩
    rw [hc, Bytes.bigEndian16_wordAt (by omega), List.take_append_drop]
  · rintro ⟨covered, hr⟩
    have hl : raw.length - 2 = covered.length := by
      rw [hr, List.length_append, length_bigEndian16]
      omega
    have ht : raw.take covered.length = covered := by rw [hr, List.take_left]
    have hw := Bytes.wordAt_append covered (bigEndian16 (crc16 covered)) 0
    rw [← hr, Nat.add_zero] at hw
    rw [hl, ht, hw]
    exact (word_highByte_lowByte _).symm

/-- A wrapped body is read back, as long as its length fits the header. -/
theorem decode_wrap {code : UInt8} {payload : Bytes} {more : Bool}
    (h : payload.length < 1023) : decode (wrap (code :: payload) more) = .ok ⟨code, payload, more⟩ := by
  have hn : (code :: payload).length < 1024 := by simp only [List.length_cons]; omega
  have hw : (wrap (code :: payload) more).wordAt 0 = header (code :: payload).length more := by
    rw [wrap, List.append_assoc, Bytes.wordAt_bigEndian16]
  have hl := length_wrap (code :: payload) more
  have hn' : (code :: payload).length = payload.length + 1 := rfl
  have ht : (wrap (code :: payload) more).length - 2 =
      (bigEndian16 (header (code :: payload).length more) ++ code :: payload).length := by
    rw [hl, List.length_append]
    exact Nat.add_comm _ _
  refine decode_eq.2 ⟨?_, ?_, ?_, ?_⟩
  · rw [hl, show minLength = 5 from rfl]
    omega
  · exact (checked_iff (by omega)).2 ⟨_, rfl⟩
  · rw [hw, toNat_header hn, hl]
    cases more <;> simp <;> omega
  · rw [hw, saysMore_header hn, ht, wrap, List.take_left]
    rfl

/-- What is accepted and has a plain header is what was wrapped. -/
theorem wrap_decode {raw : Bytes} {f : Frame} (h : decode raw = .ok f)
    (hw : (raw.wordAt 0).toNat < 2048) : raw = wrap (f.code :: f.payload) f.more := by
  obtain ⟨hl, hc, hn, rfl⟩ := decode_eq.1 h
  have hl : 5 ≤ raw.length := hl
  obtain ⟨covered, hr⟩ := (checked_iff (by omega)).1 hc
  have hlen : covered.length = raw.length - 2 := by
    rw [hr, List.length_append, length_bigEndian16]
    omega
  have ht : raw.take (raw.length - 2) = covered := by rw [← hlen, hr, List.take_left]
  match covered, hlen with
  | hi :: lo :: code :: payload, hlen =>
    have hh : raw.wordAt 0 = word hi lo := by rw [hr]; rfl
    have hp : (code :: payload).length = raw.length - 4 := by
      simp only [List.length_cons] at hlen ⊢
      omega
    have hb : raw.byteAt 2 = code := by rw [hr]; rfl
    have hhead : header (code :: payload).length (decide (word hi lo &&& moreBit ≠ 0)) =
        word hi lo := by
      rw [hh] at hn hw
      have hlt : (code :: payload).length < 1024 := by omega
      rw [← UInt16.toNat_inj, toNat_header hlt, saysMore_eq, Nat.testBit_eq_decide_div_mod_eq]
      by_cases hm : (word hi lo).toNat / 2 ^ 10 % 2 = 1
      · simp only [hm, decide_true, if_true]
        omega
      · simp only [hm, decide_false, Bool.false_eq_true, if_false]
        omega
    dsimp only
    rw [ht, hh, hb, List.drop_succ_cons, List.drop_succ_cons, List.drop_succ_cons, List.drop_zero,
      wrap, hhead, show bigEndian16 (word hi lo) = [hi, lo] by
        rw [bigEndian16, highByte_word, lowByte_word]]
    exact hr
  | [], hlen => simp only [List.length_nil] at hlen; omega
  | [_], hlen => simp only [List.length_cons, List.length_nil] at hlen; omega
  | [_, _], hlen => simp only [List.length_cons, List.length_nil] at hlen; omega

theorem buffer_encode_iff (b : FrameBuffer) (f : Frame) (raw : Bytes) :
    (∃ b', b.encode f = .ok b' ∧ b'.bytes = raw) ↔ f.encode = .ok raw := by
  rw [← b.map_bytes_encode f]
  cases b.encode f with
  | ok b' =>
    constructor
    · rintro ⟨_, ⟨⟩, rfl⟩
      rfl
    · intro h
      exact ⟨b', rfl, Except.ok.inj h⟩
  | error => exact ⟨nofun, nofun⟩

/-- A frame is encoded if its payload has at most 251 bytes, into a buffer or not, and the frames
encoded are those that are accepted, fit the buffer and have a header without other bits. Accepted
is whatever is long enough, ends with its check and declares its length. -/
theorem codec_exact (f : Frame) (raw : Bytes) :
    ((∃ encoded, f.encode = .ok encoded) ↔ f.payload.length ≤ 251) ∧
    (∀ b : FrameBuffer, (∃ b', b.encode f = .ok b' ∧ b'.bytes = raw) ↔ f.encode = .ok raw) ∧
    (f.encode = .ok raw ↔
      decode raw = .ok f ∧ raw.length ≤ 256 ∧ (raw.wordAt 0).toNat < 2 ^ 11) ∧
    ((∃ decoded, decode raw = .ok decoded) ↔
      5 ≤ raw.length ∧ (∃ covered, raw = covered ++ bigEndian16 (crc16 covered)) ∧
        (raw.wordAt 0).toNat % 2 ^ 10 = raw.length - 4) := by
  refine ⟨?_, fun b => buffer_encode_iff b f raw, ⟨?_, ?_⟩, ⟨?_, ?_⟩⟩
  · rw [encode_eq]
    by_cases h : f.payload.length ≤ 251
    · simp [h]
    · simp [h]
  · intro h
    rw [encode_eq] at h
    split at h
    · rename_i hl
      cases h
      have hn : (f.code :: f.payload).length < 1024 := by simp only [List.length_cons]; omega
      refine ⟨decode_wrap (by omega), ?_, ?_⟩
      · rw [length_wrap, List.length_cons]
        omega
      · rw [wrap, List.append_assoc, Bytes.wordAt_bigEndian16, toNat_header hn]
        split <;> omega
    · cases h
  · rintro ⟨hd, hl, hw⟩
    have hr := wrap_decode hd hw
    have hlen := length_wrap (f.code :: f.payload) f.more
    rw [← hr, List.length_cons] at hlen
    rw [encode_eq, if_pos (by omega), hr]
  · rintro ⟨g, hd⟩
    obtain ⟨hl, hc, hn, -⟩ := decode_eq.1 hd
    have hl : 5 ≤ raw.length := hl
    exact ⟨hl, (checked_iff (by omega)).1 hc, hn⟩
  · rintro ⟨hl, hc, hn⟩
    exact ⟨_, decode_eq.2 ⟨hl, (checked_iff (by omega)).2 hc, hn, rfl⟩⟩

/-- The request for the version. -/
example : encode ⟨0xF1, [0, 0, 0], false⟩ =
    .ok [0x00, 0x04, 0xF1, 0x00, 0x00, 0x00, 0x6E, 0xEF] := by decide +kernel

end Frame

end FirmwareDownload
