import FirmwareDownload.Crc
import Mathlib.Data.Nat.Bitwise

/-! The check as a division, bit by bit. The remainder of a sum is the sum of the remainders, no
step loses a remainder, and each bit that is one changes its parity. -/

namespace FirmwareDownload

theorem byte_forall {p : UInt8 → Prop} (h : ∀ n : Fin 256, p (UInt8.ofNat n)) (b : UInt8) : p b := by
  have hb := h ⟨b.toNat, UInt8.toNat_lt b⟩
  rwa [UInt8.ofNat_toNat] at hb

/-- The bits in the order in which they are sent. -/
def byteBits (b : UInt8) : List Bool := (List.range 8).map (fun i => b.toNat.testBit (7 - i))

namespace Bytes

def bits (data : Bytes) : List Bool := data.flatMap byteBits

theorem length_bits (data : Bytes) : data.bits.length = 8 * data.length := by
  induction data with
  | nil => rfl
  | cons b data ih =>
    have hb : (byteBits b).length = 8 := by simp [byteBits]
    simp only [bits, List.flatMap_cons, List.length_append, hb, List.length_cons] at ih ⊢
    omega

end Bytes

namespace Crc

def top (r : UInt16) : Bool := r.toNat.testBit 15

/-- The divisor is taken off, or nothing. -/
def excess (bit : Bool) : UInt16 := if bit then divisor else 0

theorem shift_eq (r : UInt16) : shift r = (r <<< 1) ^^^ excess (top r) := by
  have hb : (r &&& 0x8000).toNat = (top r).toNat * 2 ^ 15 := by
    rw [UInt16.toNat_and]
    exact Nat.and_two_pow r.toNat 15
  have hz : r &&& 0x8000 = 0 ↔ (r &&& 0x8000).toNat = 0 := UInt16.toNat_inj.symm
  simp only [shift, hz, hb]
  cases top r <;> simp [excess]

theorem top_xor (r s : UInt16) : top (r ^^^ s) = (top r ^^ top s) := by
  simp [top, UInt16.toNat_xor]

theorem excess_xor (b c : Bool) : excess (b ^^ c) = excess b ^^^ excess c := by
  cases b <;> cases c <;> simp [excess]

theorem xor_swap (a b c d : UInt16) : a ^^^ b ^^^ (c ^^^ d) = a ^^^ c ^^^ (b ^^^ d) := by ac_rfl

/-! ## A step of the division -/

theorem shift_xor (r s : UInt16) : shift (r ^^^ s) = shift r ^^^ shift s := by
  simp only [shift_eq, top_xor, excess_xor, UInt16.shiftLeft_xor]
  exact xor_swap ..

theorem shifts_xor (n : Nat) (r s : UInt16) : shifts n (r ^^^ s) = shifts n r ^^^ shifts n s := by
  induction n generalizing r s with
  | zero => rfl
  | succ n ih => simp only [shifts, shift_xor, ih]

theorem shifts_zero (n : Nat) : shifts n 0 = 0 := by
  induction n with
  | zero => rfl
  | succ n ih => exact ih

/-- The lowest bit tells whether the divisor was taken off. -/
theorem testBit_shift (r : UInt16) (i : Nat) (h : i < 16) :
    (shift r).toNat.testBit i =
      ((decide (1 ≤ i) && r.toNat.testBit (i - 1)) ^^ (top r && divisor.toNat.testBit i)) := by
  have hs : (r <<< 1).toNat = r.toNat <<< 1 % 2 ^ 16 := by simp
  rw [shift_eq, UInt16.toNat_xor, Nat.testBit_xor, hs, Nat.testBit_mod_two_pow,
    Nat.testBit_shiftLeft]
  cases top r <;> simp [excess, h]

theorem shift_eq_zero {r : UInt16} (h : shift r = 0) : r = 0 := by
  have hb : ∀ i < 16, (shift r).toNat.testBit i = false := by simp [h]
  have ht : top r = false := by
    have h₀ := hb 0 (by decide)
    rw [testBit_shift r 0 (by decide)] at h₀
    simpa [show divisor.toNat.testBit 0 = true by decide] using h₀
  rw [← UInt16.toNat_inj]
  refine Nat.eq_of_testBit_eq fun i => ?_
  rw [show (0 : UInt16).toNat = 0 from rfl, Nat.zero_testBit]
  by_cases hi : i < 15
  · have hs := hb (i + 1) (by omega)
    rw [testBit_shift r (i + 1) (by omega), ht] at hs
    simpa using hs
  · by_cases he : i = 15
    · rw [he]
      exact ht
    · exact Nat.testBit_lt_two_pow (Nat.lt_of_lt_of_le (UInt16.toNat_lt r)
        (Nat.pow_le_pow_right (by decide) (by omega)))

theorem shifts_eq_zero {n : Nat} {r : UInt16} (h : shifts n r = 0) : r = 0 := by
  induction n generalizing r with
  | zero => exact h
  | succ n ih => exact shift_eq_zero (ih h)

/-! ## Bits that enter one at a time -/

def leading (bit : Bool) : UInt16 := if bit then 0x8000 else 0

/-- A bit enters at the upper end of the remainder and takes a step. -/
def feed (r : UInt16) (bit : Bool) : UInt16 := shift (r ^^^ leading bit)

/-- What is left of `r` once these bits entered. -/
def remainder (r : UInt16) (bits : List Bool) : UInt16 := bits.foldl feed r

theorem remainder_cons (r : UInt16) (b : Bool) (bits : List Bool) :
    remainder r (b :: bits) = remainder (feed r b) bits :=
  rfl

theorem remainder_append (r : UInt16) (bits bits' : List Bool) :
    remainder r (bits ++ bits') = remainder (remainder r bits) bits' :=
  List.foldl_append

theorem remainder_replicate (r : UInt16) (n : Nat) :
    remainder r (List.replicate n false) = shifts n r := by
  induction n generalizing r with
  | zero => rfl
  | succ n ih => simp [List.replicate_succ, remainder_cons, ih, feed, leading, shifts]

theorem remainder_split (r : UInt16) (bits : List Bool) :
    remainder r bits = shifts bits.length r ^^^ remainder 0 bits := by
  induction bits generalizing r with
  | nil => simp [remainder, shifts]
  | cons b bits ih =>
    rw [remainder_cons, remainder_cons, ih, ih (feed 0 b), feed, feed, shift_xor, shifts_xor,
      UInt16.zero_xor, UInt16.xor_assoc, List.length_cons, shifts]

theorem absorb_eq (r : UInt16) (b : UInt8) : absorb r b = remainder r (byteBits b) := by
  have hz : ∀ b : UInt8, shifts 8 (b.toUInt16 <<< 8) = remainder 0 (byteBits b) :=
    byte_forall (by decide +kernel)
  rw [remainder_split, absorb, shifts_xor, hz]
  rfl

theorem foldl_absorb (r : UInt16) (data : Bytes) :
    data.foldl absorb r = remainder r data.bits := by
  induction data generalizing r with
  | nil => rfl
  | cons b data ih =>
    rw [List.foldl_cons, ih, absorb_eq, ← remainder_append]
    rfl

/-- The remainder of a sum is the sum of the remainders. -/
theorem foldl_absorb_xor {data pattern : Bytes} (h : data.length = pattern.length) (r s : UInt16) :
    (List.zipWith (· ^^^ ·) data pattern).foldl absorb (r ^^^ s) =
      data.foldl absorb r ^^^ pattern.foldl absorb s := by
  induction data generalizing pattern r s with
  | nil =>
    obtain rfl : pattern = [] := List.length_eq_zero_iff.1 (by simpa using h.symm)
    rfl
  | cons b data ih =>
    cases pattern with
    | nil => simp at h
    | cons c pattern =>
      have hx : absorb (r ^^^ s) (b ^^^ c) = absorb r b ^^^ absorb s c := by
        simp only [absorb, UInt8.toUInt16_xor, UInt16.shiftLeft_xor]
        rw [xor_swap, shifts_xor]
      simp only [List.zipWith_cons_cons, List.foldl_cons, hx]
      exact ih (by simpa using h) _ _

/-! ## What the remainder tells of the bits -/

/-- The parity of the lowest `n` bits. -/
def parity : Nat → UInt16 → Bool
  | 0, _ => false
  | n + 1, r => parity n r ^^ r.toNat.testBit n

theorem parity_xor (n : Nat) (r s : UInt16) : parity n (r ^^^ s) = (parity n r ^^ parity n s) := by
  induction n with
  | zero => rfl
  | succ n ih =>
    simp only [parity, ih, UInt16.toNat_xor, Nat.testBit_xor, Bool.xor_assoc, Bool.xor_left_comm]

theorem parity_shiftLeft {n : Nat} (h : n < 16) (r : UInt16) :
    parity (n + 1) (r <<< 1) = parity n r := by
  have hs : (r <<< 1).toNat = r.toNat <<< 1 % 2 ^ 16 := by simp
  induction n with
  | zero => simp [parity, hs]
  | succ n ih =>
    rw [parity, ih (by omega), parity, hs, Nat.testBit_mod_two_pow, Nat.testBit_shiftLeft]
    simp [h]

/-- The divisor has an even number of terms. -/
theorem parity_shift (r : UInt16) : parity 16 (shift r) = parity 16 r := by
  have he : parity 16 (excess (top r)) = top r := by
    cases top r
    · decide
    · decide
  rw [shift_eq, parity_xor, parity_shiftLeft (by decide), he]
  rfl

theorem parity_remainder (r : UInt16) (bits : List Bool) :
    parity 16 (remainder r bits) = (parity 16 r ^^ decide (bits.count true % 2 = 1)) := by
  induction bits generalizing r with
  | nil => simp [remainder]
  | cons b bits ih =>
    rw [remainder_cons, ih, feed, parity_shift, parity_xor, Bool.xor_assoc]
    congr 1
    have hb : parity 16 (leading b) = b := by cases b <;> decide
    rw [hb]
    cases b
    · simp
    · rw [List.count_cons_self]
      by_cases hc : bits.count true % 2 = 1
      · simp [hc, show ¬ (bits.count true + 1) % 2 = 1 by omega]
      · simp [hc, show (bits.count true + 1) % 2 = 1 by omega]

/-- A remainder that so few bits bring to zero is all in its upper end. -/
theorem testBit_of_remainder_eq_zero {r : UInt16} {bits : List Bool} (h : remainder r bits = 0)
    {i : Nat} (hi : i + bits.length < 16) : r.toNat.testBit i = false := by
  induction bits generalizing r i with
  | nil =>
    rw [show r = 0 from h]
    exact Nat.zero_testBit i
  | cons b bits ih =>
    rw [List.length_cons] at hi
    have hlow : ∀ j, j + bits.length < 16 → (feed r b).toNat.testBit j = false :=
      fun j hj => ih (by rw [← h]; rfl) hj
    have ht : top (r ^^^ leading b) = false := by
      have h₀ := hlow 0 (by omega)
      rw [feed, testBit_shift _ 0 (by decide)] at h₀
      simpa [show divisor.toNat.testBit 0 = true by decide] using h₀
    have hs := hlow (i + 1) (by omega)
    have hl : (leading b).toNat.testBit i = false := by
      cases b with
      | false => exact Nat.zero_testBit i
      | true => exact Nat.testBit_two_pow_of_ne (n := 15) (by omega)
    rw [feed, testBit_shift _ (i + 1) (by omega), ht, UInt16.toNat_xor, Nat.add_sub_cancel,
      Nat.testBit_xor, hl] at hs
    simpa using hs

/-- Whether one of the next steps leads back to the leading bit alone. -/
def returns : Nat → UInt16 → Bool
  | 0, _ => false
  | n + 1, r => shift r == 0x8000 || returns n (shift r)

theorem returns_of_shifts {n d : Nat} {r : UInt16} (hd : d < n) (h : shifts (d + 1) r = 0x8000) :
    returns n r = true := by
  induction d generalizing n r with
  | zero =>
    cases n with
    | zero => omega
    | succ n => simp [returns, show shift r = 0x8000 from h]
  | succ d ih =>
    cases n with
    | zero => omega
    | succ n => simp [returns, ih (by omega : d < n) h]

set_option maxRecDepth 10000 in
/-- Within the bits of the longest frame the steps do not come back to where they started. -/
theorem shifts_ne {d : Nat} (h : d < 2047) : shifts (d + 1) 0x8000 ≠ 0x8000 := by
  intro hs
  have hr : returns 2047 0x8000 = false := by decide +kernel
  rw [returns_of_shifts h hs] at hr
  cases hr

end Crc

/-- The catalogue's check value. -/
example : crc16 [0x31, 0x32, 0x33, 0x34, 0x35, 0x36, 0x37, 0x38, 0x39] = 0x29B1 := by
  decide +kernel

end FirmwareDownload
