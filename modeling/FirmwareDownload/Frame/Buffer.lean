import FirmwareDownload.Frame

/-! The buffer of the outgoing frame: 256 cells that are written over and never
cleared between frames, and the number of cells in use. -/

namespace FirmwareDownload

structure FrameBuffer where
  cells : Bytes
  used : Nat
  length_cells : cells.length = Frame.maxLength
  used_le : used ≤ Frame.maxLength
  deriving DecidableEq

namespace FrameBuffer

def empty : FrameBuffer where
  cells := List.replicate Frame.maxLength 0
  used := 0
  length_cells := List.length_replicate
  used_le := Nat.zero_le _

instance : Inhabited FrameBuffer := ⟨empty⟩

def bytes (b : FrameBuffer) : Bytes := b.cells.take b.used

/-- Writes body, header and check into the cells; the check is computed from the
cells themselves. -/
def encode (b : FrameBuffer) (f : Frame) : Except FrameError FrameBuffer :=
  let body := f.code :: f.payload
  if h : body.length ≤ Frame.maxBody then
    let filled := Bytes.overwrite b.cells 2 body
    let headed := Bytes.overwrite filled 0 (bigEndian16 (Frame.header body.length f.more))
    let check := crc16 (headed.take (2 + body.length))
    have h₀ : body.length ≤ 252 := h
    have hb : b.cells.length = 256 := b.length_cells
    have h₁ : filled.length = 256 :=
      (Bytes.length_overwrite (by omega)).trans hb
    have h₂ : headed.length = 256 :=
      (Bytes.length_overwrite (by simp only [bigEndian16, List.length_cons, List.length_nil]; omega)).trans h₁
    .ok {
      cells := Bytes.overwrite headed (2 + body.length) (bigEndian16 check)
      used := 2 + body.length + 2
      length_cells :=
        (Bytes.length_overwrite
          (by simp only [bigEndian16, List.length_cons, List.length_nil]; omega)).trans h₂
      used_le := by show 2 + body.length + 2 ≤ 256; omega }
  else .error (.bodyTooLarge body.length Frame.maxBody)

/-- A body brings its own identifier as its first byte. -/
def encodeBody (b : FrameBuffer) (body : Bytes) (more : Bool) : Except FrameError FrameBuffer :=
  match body with
  | [] => .error .emptyBody
  | code :: payload => b.encode ⟨code, payload, more⟩

/-- Takes `raw` as it is, without header or check. -/
def setRaw (b : FrameBuffer) (raw : Bytes) : Except FrameError FrameBuffer :=
  if h : raw.length ≤ Frame.maxLength then
    .ok {
      cells := Bytes.overwrite b.cells 0 raw
      used := raw.length
      length_cells := (Bytes.length_overwrite (by rw [b.length_cells]; omega)).trans b.length_cells
      used_le := h }
  else .error (.rawTooLarge raw.length Frame.maxLength)

def clear (_ : FrameBuffer) : FrameBuffer := empty

end FrameBuffer

end FirmwareDownload
