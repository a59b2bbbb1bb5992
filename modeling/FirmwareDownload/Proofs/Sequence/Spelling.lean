import Mathlib.Tactic.SplitIfs
import FirmwareDownload.Sequence.Statistics

/-! The record of the downloads byte by byte: where its counters are read and how they are put. -/

namespace FirmwareDownload

/-- The number that the two bytes from `i` on make, the low one first. -/
def Bytes.pairAt (data : Bytes) (i : Nat) : Nat :=
  (data.getD i 0).toNat + 256 * (data.getD (i + 1) 0).toNat

theorem Bytes.toNat_lowWordAt (data : Bytes) (i : Nat) :
    (data.lowWordAt i).toNat = data.pairAt i := by
  rw [lowWordAt, toNat_word, Nat.add_comm]
  rfl

namespace Statistics

variable {record : Statistics} {data : Bytes}

/-- The record that the first thirteen of these bytes make. -/
structure ReadFrom (record : Statistics) (data : Bytes) : Prop where
  size_le : 13 ≤ data.length
  middleware : record.middleware.toNat = data.pairAt 0
  firmware : record.firmware.toNat = data.pairAt 2
  triggered : record.triggered.toNat = data.pairAt 4
  succeeded : record.succeeded.toNat = data.pairAt 6
  failed : record.failed.toNat = data.pairAt 8
  consecutive : record.consecutive.toNat = data.pairAt 10
  pending : record.pending = true ↔ data.getD 12 0 ≠ 0

theorem ofBytes?_eq_some_iff : ofBytes? data = some record ↔ record.ReadFrom data := by
  unfold ofBytes?
  constructor
  · intro h
    split_ifs at h with hl
    cases h
    exact ⟨Nat.le_of_not_lt hl, data.toNat_lowWordAt 0, data.toNat_lowWordAt 2,
      data.toNat_lowWordAt 4, data.toNat_lowWordAt 6, data.toNat_lowWordAt 8,
      data.toNat_lowWordAt 10, decide_eq_true_iff⟩
  · rintro ⟨hl, hm, hf, ht, hs, hx, hc, hp⟩
    have hw : ∀ {w : UInt16} {i : Nat}, w.toNat = data.pairAt i → data.lowWordAt i = w :=
      fun {w i} h => UInt16.toNat_inj.1 ((data.toNat_lowWordAt i).trans h.symm)
    have hp : decide (data.byteAt 12 ≠ 0) = record.pending :=
      Bool.eq_iff_iff.2 (decide_eq_true_iff.trans hp.symm)
    have hn : ¬ data.length < size := Nat.not_lt.2 hl
    rw [if_neg hn, hw hm, hw hf, hw ht, hw hs, hw hx, hw hc, hp]

/-- The thirteen bytes of a record: each counter by its remainder and its quotient, and the flag. -/
def spelled (record : Statistics) : Bytes :=
  [(record.middleware.toNat % 256).toUInt8, (record.middleware.toNat / 256).toUInt8,
    (record.firmware.toNat % 256).toUInt8, (record.firmware.toNat / 256).toUInt8,
    (record.triggered.toNat % 256).toUInt8, (record.triggered.toNat / 256).toUInt8,
    (record.succeeded.toNat % 256).toUInt8, (record.succeeded.toNat / 256).toUInt8,
    (record.failed.toNat % 256).toUInt8, (record.failed.toNat / 256).toUInt8,
    (record.consecutive.toNat % 256).toUInt8, (record.consecutive.toNat / 256).toUInt8,
    if record.pending then 1 else 0]

theorem toBytes_eq_spelled (record : Statistics) : record.toBytes = record.spelled := by
  have hw : ∀ w : UInt16,
      littleEndian16 w = [(w.toNat % 256).toUInt8, (w.toNat / 256).toUInt8] := fun w => by
    rw [littleEndian16_eq, show w.toNat.toUInt8 = (w.toNat % 256).toUInt8 from
      UInt8.toNat_inj.1 (by simp)]
  simp only [toBytes, List.flatMap_cons, List.flatMap_nil, hw]
  rfl

theorem length_toBytes (record : Statistics) : record.toBytes.length = size := rfl

theorem ofBytes?_toBytes (record : Statistics) : ofBytes? record.toBytes = some record := by
  have hw : ∀ w, word (highByte w) (lowByte w) = w := word_highByte_lowByte
  cases hp : record.pending <;>
    simp [ofBytes?, toBytes, littleEndian16, Statistics.size, Bytes.lowWordAt, Bytes.byteAt, hw]

end Statistics

end FirmwareDownload
