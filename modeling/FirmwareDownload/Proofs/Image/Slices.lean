import FirmwareDownload.Frame
import FirmwareDownload.Image
import FirmwareDownload.Status

/-! The frames that carry an image, counted out: each record goes out in slices of at most 252
bytes, all but the last of them wrapped with the bit that says that more follow. -/

namespace FirmwareDownload

namespace Record

def sliceCount (body : Bytes) : Nat := (body.length + (Frame.maxBody - 1)) / Frame.maxBody

def slice (body : Bytes) (i : Nat) : Bytes := (body.drop (Frame.maxBody * i)).take Frame.maxBody

def sliceFrame (body : Bytes) (i : Nat) : Bytes :=
  Frame.wrap (slice body i) (i + 1 < sliceCount body)

/-- What the controller answers if it takes the slice. -/
def sliceAck (body : Bytes) (i : Nat) : Status :=
  if i + 1 = sliceCount body then .ok else if i = 0 then .firstChunkAck else .nextChunkAck

/-- The slice on its way, and the answer of a controller that takes it. -/
def exchange (body : Bytes) (i : Nat) : Bytes × Bytes :=
  (sliceFrame body i, Frame.wrap [(sliceAck body i).toByte] false)

def mapSlices {α : Type} (g : Bytes → Nat → α) (body : Bytes) : List α :=
  (List.range (sliceCount body)).map (g body)

def frames (body : Bytes) : List Bytes := mapSlices sliceFrame body

def acks (body : Bytes) : List Status := mapSlices sliceAck body

theorem lt_sliceCount {body : Bytes} {i : Nat} : i < sliceCount body ↔ 252 * i < body.length := by
  unfold sliceCount
  rw [show Frame.maxBody = 252 from rfl]
  omega

theorem sliceCount_pos {body : Bytes} (hb : IsBody body) : 0 < sliceCount body := by
  cases body with
  | nil => cases hb.1
  | cons b body => exact lt_sliceCount.2 (by simp)

theorem length_slice (body : Bytes) (i : Nat) :
    (slice body i).length = min 252 (body.length - 252 * i) := by
  rw [slice, List.length_take, List.length_drop]
  rfl

theorem slice_ne_nil {body : Bytes} {i : Nat} (h : 252 * i < body.length) : slice body i ≠ [] := by
  intro he
  have hl := length_slice body i
  rw [he, List.length_nil] at hl
  omega

theorem slice_zero {body : Bytes} (h : body.length ≤ 252) : slice body 0 = body := by
  rw [slice, Nat.mul_zero, List.drop_zero]
  exact List.take_of_length_le h

variable {α : Type} (g : Bytes → Nat → α) (pre : List Bytes) {body : Bytes} {i : Nat}

/-- What belongs to the slices in front of the slice `i` of `body`, the record behind `pre`. -/
def upTo (body : Bytes) (i : Nat) : List α := pre.flatMap (mapSlices g) ++ (mapSlices g body).take i

theorem upTo_zero (body : Bytes) : upTo g pre body 0 = pre.flatMap (mapSlices g) :=
  List.append_nil _

theorem upTo_succ (h : i < sliceCount body) :
    upTo g pre body (i + 1) = upTo g pre body i ++ [g body i] := by
  rw [upTo, mapSlices, List.take_add_one, List.getElem?_map, List.getElem?_range h]
  exact (List.append_assoc ..).symm

theorem upTo_sliceCount (body : Bytes) :
    upTo g pre body (sliceCount body) = (pre ++ [body]).flatMap (mapSlices g) := by
  have hl : (mapSlices g body).length = sliceCount body := by
    rw [mapSlices, List.length_map, List.length_range]
  rw [upTo, ← hl, List.take_length, List.flatMap_append, List.flatMap_cons, List.flatMap_nil,
    List.append_nil]

theorem isPrefix_upTo (body : Bytes) (post : List Bytes) (i : Nat) :
    upTo g pre body i <+: (pre ++ body :: post).flatMap (mapSlices g) := by
  rw [upTo, List.flatMap_append, List.flatMap_cons, List.prefix_append_right_inj]
  exact (List.take_prefix i _).trans (List.prefix_append ..)

theorem isPrefix_upTo_next (h : i < sliceCount body) (post : List Bytes) :
    upTo g pre body i ++ [g body i] <+: (pre ++ body :: post).flatMap (mapSlices g) :=
  upTo_succ g pre h ▸ isPrefix_upTo g pre body post (i + 1)

variable {pre} {pre' post post' : List Bytes} {body' : Bytes} {i' : Nat}

/-- What belongs to the slices behind the slice `i` of `body`, the record in front of `post`. -/
def after (body : Bytes) (i : Nat) (post : List Bytes) : List α :=
  (mapSlices g body).drop (i + 1) ++ post.flatMap (mapSlices g)

theorem upTo_append_after (h : i < sliceCount body) :
    upTo g pre body i ++ g body i :: after g body i post =
      (pre ++ body :: post).flatMap (mapSlices g) := by
  rw [List.append_cons, ← upTo_succ g pre h, upTo, after, List.append_assoc,
    ← List.append_assoc (List.take _ _), List.take_append_drop, ← List.flatMap_cons,
    ← List.flatMap_append]

theorem after_last (h : i + 1 = sliceCount body) : after g body i [] = [] := by
  simp [after, mapSlices, h]

theorem after_next (h : i < sliceCount body) (h' : i' < sliceCount body')
    (hr : pre ++ body :: post = pre' ++ body' :: post')
    (hu : upTo g pre' body' i' = upTo g pre body (i + 1)) :
    after g body i post = g body' i' :: after g body' i' post' := by
  have hl := (upTo_append_after g h).trans (congrArg (List.flatMap (mapSlices g)) hr)
  rw [← upTo_append_after g h', hu, upTo_succ g pre h, List.append_assoc] at hl
  exact (List.cons.inj (List.append_cancel_left hl)).2

/-- The place behind the slice `i` of `body`, the record behind `pre`: the records that are complete
there, and how many slices of the next one. -/
def behind (pre : List Bytes) (body : Bytes) (i : Nat) : List Bytes × Nat :=
  if i + 1 = sliceCount body then (pre ++ [body], 0) else (pre, i + 1)

theorem upTo_behind (hr : pre ++ body :: post = pre' ++ body' :: post')
    (hb : behind pre body i = (pre', i')) : upTo g pre' body' i' = upTo g pre body (i + 1) := by
  unfold behind at hb
  split at hb <;> obtain ⟨rfl, rfl⟩ := Prod.mk.inj hb
  · rename_i hi
    rw [hi, upTo_zero, upTo_sliceCount]
  · rw [(List.cons.inj (List.append_cancel_left hr)).1]

theorem upTo_behind_all (hb : behind pre body i = (pre', 0)) :
    upTo g pre body (i + 1) = pre'.flatMap (mapSlices g) := by
  unfold behind at hb
  split at hb
  · rename_i hl
    rw [hl, upTo_sliceCount, (Prod.mk.inj hb).1]
  · cases (Prod.mk.inj hb).2

end Record

namespace Image

theorem exists_record (image : Image) : ∃ body post, image.records = body :: post := by
  cases hr : image.records with
  | nil =>
    refine absurd ?_ image.data_ne
    rw [image.data_eq, hr]
    rfl
  | cons body post => exact ⟨body, post, rfl⟩

def writeFrames (image : Image) : List Bytes := image.records.flatMap Record.frames

def writeAcks (image : Image) : List Status := image.records.flatMap Record.acks

def exchanges (image : Image) : List (Bytes × Bytes) :=
  image.records.flatMap (Record.mapSlices Record.exchange)

theorem length_exchanges (image : Image) : image.exchanges.length = image.writeFrames.length := by
  simp [exchanges, writeFrames, Record.frames, Record.mapSlices, List.length_flatMap]

end Image

end FirmwareDownload
