import FirmwareDownload.Bytes

/-! The response buffer that a call hands over: cells that are zero until something is
stored in them. Only the cells up to the last one stored are kept. -/

namespace FirmwareDownload

structure ResponseBuffer where
  capacity : Nat := 0
  front : Bytes := []
  front_le : front.length ≤ capacity := by exact Nat.zero_le _
  deriving DecidableEq, Repr

namespace ResponseBuffer

def empty : ResponseBuffer := {}

instance : Inhabited ResponseBuffer := ⟨empty⟩

def ofCapacity (n : Nat) : ResponseBuffer := { capacity := n }

def bytes (b : ResponseBuffer) : Bytes := b.front ++ List.replicate (b.capacity - b.front.length) 0

theorem length_bytes (b : ResponseBuffer) : b.bytes.length = b.capacity := by
  have h := b.front_le
  simp only [bytes, List.length_append, List.length_replicate]
  omega

def take (b : ResponseBuffer) (n : Nat) : Bytes :=
  b.front.take n ++ List.replicate (min n b.capacity - b.front.length) 0

theorem take_eq (b : ResponseBuffer) (n : Nat) : b.take n = b.bytes.take n := by
  have h := b.front_le
  simp only [take, bytes, List.take_append, List.take_replicate]
  congr 2
  omega

/-- The kept cells once `data` is stored from `offset` on. -/
def storeFront (front : Bytes) (offset : Nat) (data : Bytes) : Bytes :=
  front.take offset ++ List.replicate (offset - front.length) 0 ++ data ++
    front.drop (offset + data.length)

theorem length_storeFront (front : Bytes) (offset : Nat) (data : Bytes) :
    (storeFront front offset data).length = max front.length (offset + data.length) := by
  simp only [storeFront, List.length_append, List.length_take, List.length_replicate,
    List.length_drop]
  omega

/-- Stores `data` in the cells from `offset` on, if there are so many. -/
def store? (b : ResponseBuffer) (offset : Nat) (data : Bytes) : Option ResponseBuffer :=
  if h : offset + data.length ≤ b.capacity then
    some {
      capacity := b.capacity
      front := storeFront b.front offset data
      front_le := by rw [length_storeFront]; exact Nat.max_le.2 ⟨b.front_le, h⟩ }
  else none

theorem bytes_store? {b c : ResponseBuffer} {offset : Nat} {data : Bytes}
    (h : b.store? offset data = some c) : c.bytes = b.bytes.overwrite offset data := by
  unfold store? at h
  split at h
  · rename_i hle
    cases h
    have hb := b.front_le
    rw [bytes, length_storeFront]
    simp only [bytes, Bytes.overwrite, storeFront, List.take_append, List.take_replicate,
      List.drop_append, List.drop_replicate, List.append_assoc]
    congr 2
    · congr 1
      omega
    · congr 3
      omega
  · cases h

end ResponseBuffer

end FirmwareDownload
