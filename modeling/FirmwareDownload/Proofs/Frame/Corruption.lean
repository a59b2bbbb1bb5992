import FirmwareDownload.Proofs.Crc.Division
import FirmwareDownload.Proofs.Frame.Codec

/-! What a corrupted frame looks like to the check. Up to three flipped bits, and any that lie
close together, leave a remainder, wherever in the frame they are. -/

namespace FirmwareDownload

namespace Bytes

/-- `data` with the bits flipped that are set in `pattern`. -/
def flip (data pattern : Bytes) : Bytes := List.zipWith (· ^^^ ·) data pattern

theorem length_flip {data pattern : Bytes} (h : pattern.length = data.length) :
    (data.flip pattern).length = data.length := by
  simp [flip, h]

/-- Few bits are set, or all that are lie among sixteen in a row. -/
def IsSlight (pattern : Bytes) : Prop :=
  (1 ≤ pattern.bits.count true ∧ pattern.bits.count true ≤ 3) ∨
    (true ∈ pattern.bits ∧
      ∃ start, ∀ i, pattern.bits[i]? = some true → start ≤ i ∧ i < start + 16)

end Bytes

theorem eq_replicate_of_not_mem {bits : List Bool} (h : true ∉ bits) :
    bits = List.replicate bits.length false :=
  List.eq_replicate_iff.2 ⟨rfl, fun b hb => by cases b with
    | false => rfl
    | true => exact absurd hb h⟩

theorem exists_first_set {bits : List Bool} (h : true ∈ bits) :
    ∃ n rest, bits = List.replicate n false ++ true :: rest := by
  obtain ⟨front, rest, rfl, hf⟩ := List.eq_append_cons_of_mem h
  exact ⟨front.length, rest, by rw [← eq_replicate_of_not_mem hf]⟩

namespace Crc

theorem remainder_first_set (n : Nat) (rest : List Bool) :
    remainder 0 (List.replicate n false ++ true :: rest) = remainder divisor rest := by
  rw [remainder_append, remainder_replicate, shifts_zero]
  rfl

/-- Bits that lie close together leave a remainder. -/
theorem remainder_burst {bits : List Bool} (h : true ∈ bits) {start : Nat}
    (hs : ∀ i, bits[i]? = some true → start ≤ i ∧ i < start + 16) : remainder 0 bits ≠ 0 := by
  intro hr
  have hafter : true ∉ bits.drop (start + 16) := by
    intro hm
    obtain ⟨i, hi⟩ := List.mem_iff_getElem?.1 hm
    rw [List.getElem?_drop] at hi
    have := hs _ hi
    omega
  obtain ⟨n, rest, hb⟩ := exists_first_set h
  have hn : start ≤ n := by
    refine (hs n ?_).1
    rw [hb, List.getElem?_append_right (by simp)]
    simp
  -- The bits behind the first one that is set: at most fifteen, and then none.
  have hrest : rest = rest.take 15 ++ List.replicate (rest.drop 15).length false := by
    rw [← eq_replicate_of_not_mem, List.take_append_drop]
    intro hm
    obtain ⟨i, hi⟩ := List.mem_iff_getElem?.1 hm
    rw [List.getElem?_drop] at hi
    have hi' : bits[n + (15 + i + 1)]? = some true := by
      rw [hb, List.getElem?_append_right (by simp)]
      simpa using hi
    have := hs _ hi'
    omega
  rw [hb, remainder_first_set, hrest, remainder_append, remainder_replicate] at hr
  have hl : (rest.take 15).length ≤ 15 := List.length_take_le 15 rest
  have hz := testBit_of_remainder_eq_zero (shifts_eq_zero hr) (i := 0) (by omega)
  revert hz
  decide

/-- So do two bits, however far apart they are in a frame. -/
theorem remainder_pair {bits : List Bool} (h : bits.count true = 2) (hl : bits.length ≤ 2048) :
    remainder 0 bits ≠ 0 := by
  intro hr
  obtain ⟨n, rest, rfl⟩ := exists_first_set (List.count_pos_iff.1 (by omega : 0 < bits.count true))
  have hc : rest.count true = 1 := by
    simpa [List.count_append, List.count_replicate] using h
  obtain ⟨m, rest', rfl⟩ := exists_first_set (List.count_pos_iff.1 (by omega : 0 < rest.count true))
  have hz : true ∉ rest' := by
    simpa [List.count_append, List.count_replicate, List.count_eq_zero] using hc
  rw [remainder_first_set, remainder_append, remainder_replicate, remainder_cons,
    eq_replicate_of_not_mem hz, remainder_replicate] at hr
  have hx : shifts m divisor ^^^ 0x8000 = 0 := shift_eq_zero (shifts_eq_zero hr)
  have he : shifts (m + 1) 0x8000 = 0x8000 := UInt16.xor_eq_zero_iff.1 hx
  refine shifts_ne ?_ he
  simp only [List.length_append, List.length_cons, List.length_replicate] at hl
  omega

theorem remainder_ne_zero {pattern : Bytes} (h : pattern.IsSlight) (hl : pattern.length ≤ 256) :
    pattern.foldl absorb 0 ≠ 0 := by
  rw [foldl_absorb]
  have hlen := pattern.length_bits
  rcases h with ⟨h₁, h₃⟩ | ⟨hm, start, hs⟩
  · by_cases h₂ : pattern.bits.count true = 2
    · exact remainder_pair h₂ (by omega)
    · intro hr
      have hp := parity_remainder 0 pattern.bits
      rw [hr, show parity 16 0 = false by decide, Bool.false_xor] at hp
      exact absurd (of_decide_eq_false hp.symm) (by omega)
  · exact remainder_burst hm hs

/-- A word takes itself to zero. -/
theorem foldl_absorb_bigEndian16 (r : UInt16) : (bigEndian16 r).foldl absorb r = 0 := by
  have hlow : r ^^^ (highByte r).toUInt16 <<< 8 = (lowByte r).toUInt16 := by
    apply UInt16.toBitVec_inj.mp
    apply BitVec.eq_of_getLsbD_eq
    intro i hi
    simp only [highByte, lowByte, UInt16.toBitVec_xor, UInt16.toBitVec_shiftLeft,
      UInt8.toBitVec_toUInt16, UInt16.toBitVec_toUInt8, UInt16.toBitVec_shiftRight,
      BitVec.getLsbD_xor, BitVec.getLsbD_setWidth]
    by_cases h8 : i < 8
    · simp [h8, hi]
    · simp [h8, hi, show i - 8 < 8 by omega, show 8 + (i - 8) = i by omega]
  have hup : ∀ b : UInt8, shifts 8 b.toUInt16 = b.toUInt16 <<< 8 :=
    byte_forall (by decide +kernel)
  rw [bigEndian16, List.foldl_cons, List.foldl_cons, List.foldl_nil, absorb, absorb, hlow, hup,
    UInt16.xor_self, shifts_zero]

end Crc

namespace Frame

theorem foldl_absorb_of_checked {raw : Bytes} (h : 2 ≤ raw.length)
    (hc : crc16 (raw.take (raw.length - 2)) = raw.wordAt (raw.length - 2)) :
    raw.foldl Crc.absorb 0xFFFF = 0 := by
  obtain ⟨covered, hr⟩ := (checked_iff h).1 hc
  rw [hr, List.foldl_append]
  exact Crc.foldl_absorb_bigEndian16 (crc16 covered)

/-- A frame that is encoded and then slightly corrupted, in whatever place, fails its check. -/
theorem corruption_detected (f : Frame) (pattern : Bytes) (hf : f.payload.length ≤ 251)
    (hl : pattern.length = f.payload.length + 5) (hp : pattern.IsSlight) :
    ∃ raw, f.encode = .ok raw ∧ raw.length = pattern.length ∧
      ∃ expected actual, decode (raw.flip pattern) = .error (.crcMismatch expected actual) := by
  have he := f.encode_eq
  rw [if_pos hf] at he
  have hlen := length_wrap (f.code :: f.payload) f.more
  rw [List.length_cons] at hlen
  refine ⟨_, he, by omega, ?_⟩
  have hd : decode (wrap (f.code :: f.payload) f.more) = .ok ⟨f.code, f.payload, f.more⟩ :=
    decode_wrap (by omega)
  obtain ⟨-, hc, -, -⟩ := decode_eq.1 hd
  have hr := foldl_absorb_of_checked (by omega) hc
  generalize wrap (f.code :: f.payload) f.more = raw at hlen hr
  have hn := Bytes.length_flip (show pattern.length = raw.length by omega)
  by_cases hc' : crc16 ((raw.flip pattern).take ((raw.flip pattern).length - 2)) =
      (raw.flip pattern).wordAt ((raw.flip pattern).length - 2)
  · have hx := Crc.foldl_absorb_xor (show raw.length = pattern.length by omega) 0xFFFF 0
    rw [hr, UInt16.xor_zero, UInt16.zero_xor] at hx
    have hz := foldl_absorb_of_checked (show 2 ≤ (raw.flip pattern).length by omega) hc'
    exact absurd (hx.symm.trans hz) (Crc.remainder_ne_zero hp (by omega))
  · have hs : ¬ (raw.flip pattern).length < minLength := by
      rw [show minLength = 5 from rfl]
      omega
    rw [decode, if_neg hs]
    exact ⟨_, _, if_pos hc'⟩

/-- Sixteen bits in a row, from the identifier into the check. -/
theorem corruption_detected_across :
    ∃ raw, encode ⟨0x24, [], false⟩ = .ok raw ∧ raw.length = 5 ∧
      ∃ expected actual,
        decode (raw.flip [0, 0, 0x0F, 0xFF, 0xF0]) = .error (.crcMismatch expected actual) := by
  refine corruption_detected ⟨0x24, [], false⟩ [0, 0, 0x0F, 0xFF, 0xF0] (by decide) rfl ?_
  refine .inr ⟨by decide, 20, fun i hi => ?_⟩
  have hlt : i < 40 := by
    have := List.getElem?_eq_some_iff.1 hi
    exact this.1
  revert hi
  revert i
  decide

end Frame

end FirmwareDownload
