import FirmwareDownload.Proofs.Frame.Buffer
import Mathlib.Data.List.Induction

/-! The buffer of the outgoing frame in use. Its cells are written over again and again and never
cleared in between. Whatever was done before, it shows what the last operation that succeeded has
put into it, and an operation that fails does so before anything is stored. -/

namespace FirmwareDownload

namespace Bytes

/-- Two pieces stored one behind the other are stored as one. -/
theorem overwrite_append {data : Bytes} {offset : Nat} (h : offset ≤ data.length)
    (first second : Bytes) :
    overwrite (overwrite data offset first) (offset + first.length) second =
      overwrite data offset (first ++ second) := by
  have hl : (data.take offset ++ first).length = offset + first.length := by
    rw [List.length_append, List.length_take, Nat.min_eq_left h]
  have hd : (overwrite data offset first).drop (offset + first.length + second.length) =
      data.drop (offset + (first ++ second).length) := by
    rw [overwrite, ← hl, List.drop_length_add_append, hl, List.drop_drop, List.length_append,
      Nat.add_assoc]
  rw [overwrite, take_overwrite h, hd, overwrite, List.append_assoc _ first second]

theorem overwrite_all {data piece : Bytes} (h : piece.length = data.length) :
    overwrite data 0 piece = piece := by
  rw [overwrite, Nat.zero_add, h, List.drop_length, List.take_zero, List.nil_append,
    List.append_nil]

end Bytes

namespace FrameBuffer

/-! ## Single stores -/

/-- Stores `piece` in the cells from `offset` on. -/
def store (b : FrameBuffer) (offset : Nat) (piece : Bytes)
    (h : offset + piece.length ≤ Frame.maxLength) : FrameBuffer where
  cells := Bytes.overwrite b.cells offset piece
  used := b.used
  length_cells := (Bytes.length_overwrite (by rw [b.length_cells]; exact h)).trans b.length_cells
  used_le := b.used_le

def setUsed (b : FrameBuffer) (used : Nat) (h : used ≤ Frame.maxLength) : FrameBuffer :=
  { b with used := used, used_le := h }

theorem eq_of_cells {b c : FrameBuffer} (hc : b.cells = c.cells) (hu : b.used = c.used) :
    b = c := by
  cases b
  cases c
  cases hc
  cases hu
  rfl

theorem store_append (b : FrameBuffer) {offset : Nat} {first second : Bytes}
    (h : offset + (first ++ second).length ≤ Frame.maxLength)
    (h₁ : offset + first.length ≤ Frame.maxLength)
    (h₂ : offset + first.length + second.length ≤ Frame.maxLength) :
    (b.store offset first h₁).store (offset + first.length) second h₂ =
      b.store offset (first ++ second) h :=
  eq_of_cells (Bytes.overwrite_append
    (Nat.le_trans (Nat.le_of_add_right_le h₁) (Nat.le_of_eq b.length_cells.symm)) first second) rfl

/-! ## Operations -/

inductive Operation
  | encode (f : Frame)
  | encodeBody (body : Bytes) (more : Bool)
  | setRaw (raw : Bytes)
  | clear
  deriving DecidableEq, Repr

/-- Checks and stores, one after the other, on the cells themselves: a check that fails ends them
and takes back nothing of what was stored. -/
abbrev Stores := ExceptT FrameError (StateM FrameBuffer)

namespace Stores

theorem within {n : Nat} (h : n ≤ 256) : n ≤ Frame.maxLength :=
  h

theorem framed_le {n : Nat} (h : n ≤ Frame.maxBody) : 2 + n + 2 ≤ Frame.maxLength := by
  have h : n ≤ 252 := h
  exact within (by omega)

theorem parts_le {code : UInt8} {payload : Bytes} (h : (code :: payload).length ≤ Frame.maxBody) :
    2 + [code].length ≤ Frame.maxLength ∧ 2 + [code].length + payload.length ≤ Frame.maxLength := by
  have hf := framed_le h
  rw [List.length_cons] at hf
  rw [List.length_singleton]
  omega

/-- Writes the header in front of a body in the cells, and behind it the check over both. -/
def close (bodyLength : Nat) (more : Bool) (h : bodyLength ≤ Frame.maxBody) : Stores Unit := do
  modify (·.store 0 (bigEndian16 (Frame.header bodyLength more)) (within (by
    rw [length_bigEndian16]
    omega)))
  -- The check is read off the cells, so it covers whatever stands in front of it by now.
  modify fun b =>
    b.store (2 + bodyLength) (bigEndian16 (crc16 (b.cells.take (2 + bodyLength)))) (framed_le h)
  modify (·.setUsed (2 + bodyLength + 2) (framed_le h))

def encode (f : Frame) : Stores Unit := do
  let bodyLength := (f.code :: f.payload).length
  if h : bodyLength ≤ Frame.maxBody then
    modify (·.store 2 [f.code] (parts_le h).1)
    modify (·.store 3 f.payload (parts_le h).2)
    close bodyLength f.more h
  else throw (.bodyTooLarge bodyLength Frame.maxBody)

def encodeBody (body : Bytes) (more : Bool) : Stores Unit :=
  match body with
  | [] => throw .emptyBody
  | code :: payload => encode ⟨code, payload, more⟩

def setRaw (raw : Bytes) : Stores Unit := do
  if h : raw.length ≤ Frame.maxLength then
    modify (·.store 0 raw ((Nat.zero_add _).symm ▸ h))
    modify (·.setUsed raw.length h)
  else throw (.rawTooLarge raw.length Frame.maxLength)

def clear : Stores Unit := do
  modify (·.store 0 (List.replicate Frame.maxLength 0)
    (Nat.le_of_eq ((Nat.zero_add _).trans List.length_replicate)))
  modify (·.setUsed 0 (Nat.zero_le _))

end Stores

namespace Operation

def stores : Operation → Stores Unit
  | encode f => .encode f
  | encodeBody body more => .encodeBody body more
  | setRaw raw => .setRaw raw
  | clear => .clear

/-- What the operation is to put into a buffer. -/
def content : Operation → Except FrameError Bytes
  | encode f => f.encode
  | encodeBody [] _ => .error .emptyBody
  | encodeBody (code :: payload) more => Frame.encode ⟨code, payload, more⟩
  | setRaw raw =>
    if raw.length ≤ Frame.maxLength then .ok raw
    else .error (.rawTooLarge raw.length Frame.maxLength)
  | clear => .ok []

/-- A body has 1 to 252 bytes, and a raw frame has at most 256. -/
def Fits : Operation → Prop
  | encode f => 1 + f.payload.length ≤ 252
  | encodeBody body _ => body ≠ [] ∧ body.length ≤ 252
  | setRaw raw => raw.length ≤ 256
  | clear => True

theorem ite_ok_iff {p : Prop} [Decidable p] (raw : Bytes) (err : FrameError) :
    p ↔ ∃ bytes, (if p then .ok raw else .error err : Except FrameError Bytes) = .ok bytes := by
  by_cases h : p
  · rw [if_pos h]
    exact ⟨fun _ => ⟨raw, rfl⟩, fun _ => h⟩
  · rw [if_neg h]
    refine ⟨fun hp => absurd hp h, ?_⟩
    rintro ⟨_, ⟨⟩⟩

theorem fits_iff (op : Operation) : op.Fits ↔ ∃ bytes, op.content = .ok bytes := by
  cases op with
  | encode f => exact ite_ok_iff (p := 1 + f.payload.length ≤ Frame.maxBody) ..
  | encodeBody body more =>
    cases body with
    | nil =>
      refine ⟨fun h => absurd rfl h.1, ?_⟩
      rintro ⟨_, ⟨⟩⟩
    | cons code payload =>
      have hc : 1 + payload.length ≤ 252 ↔ ∃ bytes, Frame.encode ⟨code, payload, more⟩ = .ok bytes :=
        ite_ok_iff ..
      rw [Nat.add_comm] at hc
      exact ⟨fun h => hc.1 h.2, fun h => ⟨List.cons_ne_nil code payload, hc.2 h⟩⟩
  | setRaw raw => exact ite_ok_iff (p := raw.length ≤ Frame.maxLength) ..
  | clear => exact ⟨fun _ => ⟨[], rfl⟩, fun _ => trivial⟩

end Operation

/-- The buffer that the operation makes of `b`. -/
def result (b : FrameBuffer) : Operation → Except FrameError FrameBuffer
  | .encode f => b.encode f
  | .encodeBody body more => b.encodeBody body more
  | .setRaw raw => b.setRaw raw
  | .clear => .ok b.clear

/-- Carries the operation out in the cells of `b`. -/
def perform (b : FrameBuffer) (op : Operation) : Except FrameError Unit × FrameBuffer :=
  op.stores.run.run b

def performAll (b : FrameBuffer) (ops : List Operation) : FrameBuffer :=
  ops.foldl (fun b op => (b.perform op).2) b

/-! ## One operation -/

/-- The buffer behind a call that hands back a new one, or none. -/
def settle (b : FrameBuffer) : Except FrameError FrameBuffer → Except FrameError Unit × FrameBuffer
  | .ok b' => (.ok (), b')
  | .error err => (.error err, b)

theorem run_encode (b : FrameBuffer) (f : Frame) :
    (Stores.encode f).run.run b = b.settle (b.encode f) := by
  by_cases h : (f.code :: f.payload).length ≤ Frame.maxBody
  · have hb : 2 + (f.code :: f.payload).length ≤ Frame.maxLength :=
      Nat.le_of_add_right_le (Stores.framed_le h)
    obtain ⟨h₁, h₂⟩ := Stores.parts_le h
    calc
      (Stores.encode f).run.run b
        = (Stores.close (f.code :: f.payload).length f.more h).run.run
            ((b.store 2 [f.code] h₁).store 3 f.payload h₂) := by
          rw [Stores.encode, dif_pos h]
          rfl
      _ = (Stores.close (f.code :: f.payload).length f.more h).run.run
            (b.store 2 (f.code :: f.payload) hb) :=
          congrArg _ (b.store_append hb h₁ h₂)
      _ = b.settle (b.encode f) := by
          rw [FrameBuffer.encode, dif_pos h]
          rfl
  · rw [Stores.encode, dif_neg h, FrameBuffer.encode, dif_neg h]
    rfl

theorem run_setRaw (b : FrameBuffer) (raw : Bytes) :
    (Stores.setRaw raw).run.run b = b.settle (b.setRaw raw) := by
  rw [Stores.setRaw, FrameBuffer.setRaw]
  split <;> rfl

theorem run_clear (b : FrameBuffer) : Stores.clear.run.run b = (.ok (), b.clear) :=
  Prod.ext rfl (eq_of_cells
    (Bytes.overwrite_all (List.length_replicate.trans b.length_cells.symm)) rfl)

/-- Carried out in the cells, an operation does what it does with the buffer as a whole: its checks
come before its first store. -/
theorem perform_eq (b : FrameBuffer) (op : Operation) : b.perform op = b.settle (b.result op) := by
  cases op with
  | encode f => exact b.run_encode f
  | encodeBody body more =>
    cases body with
    | nil => rfl
    | cons code payload => exact b.run_encode ⟨code, payload, more⟩
  | setRaw raw => exact b.run_setRaw raw
  | clear => exact b.run_clear

/-- What an operation leaves in a buffer does not depend on the buffer. -/
theorem map_bytes_result (b : FrameBuffer) (op : Operation) :
    (b.result op).map bytes = op.content := by
  cases op with
  | encode f => exact b.map_bytes_encode f
  | encodeBody body more =>
    cases body with
    | nil => rfl
    | cons code payload => exact b.map_bytes_encode ⟨code, payload, more⟩
  | setRaw raw =>
    rw [result, Operation.content]
    by_cases h : raw.length ≤ Frame.maxLength
    · obtain ⟨b', hr, hb⟩ := b.setRaw_ok h
      rw [if_pos h, hr, Except.map, hb]
    · rw [if_neg h, FrameBuffer.setRaw, dif_neg h]
      rfl
  | clear => rfl

theorem perform_cases (b : FrameBuffer) (op : Operation) :
    (∃ b', op.content = .ok b'.bytes ∧ b.result op = .ok b' ∧ b.perform op = (.ok (), b')) ∨
    ∃ err, op.content = .error err ∧ b.result op = .error err ∧ b.perform op = (.error err, b) := by
  have hc := b.map_bytes_result op
  have hp := b.perform_eq op
  cases hr : b.result op with
  | ok b' =>
    rw [hr] at hc hp
    exact .inl ⟨b', hc.symm, rfl, hp⟩
  | error err =>
    rw [hr] at hc hp
    exact .inr ⟨err, hc.symm, rfl, hp⟩

/-! ## Many operations -/

theorem performAll_concat (b : FrameBuffer) (ops : List Operation) (op : Operation) :
    b.performAll (ops ++ [op]) = ((b.performAll ops).perform op).2 :=
  List.foldl_append

/-- The contents that the operations put into a buffer, one after the other. -/
def contents (ops : List Operation) : List Bytes := ops.flatMap fun op => op.content.toOption.toList

theorem contents_concat (ops : List Operation) (op : Operation) :
    contents (ops ++ [op]) = contents ops ++ op.content.toOption.toList := by
  rw [contents, List.flatMap_append, List.flatMap_singleton, contents]

theorem bytes_performAll (b : FrameBuffer) (ops : List Operation) :
    (b.performAll ops).bytes = (contents ops).getLast?.getD b.bytes := by
  -- From the back: the last operation shows its content, or what was shown before it.
  induction ops using List.reverseRecOn with
  | nil => rfl
  | append_singleton ops op ih =>
    rw [performAll_concat, contents_concat]
    obtain ⟨b', hc, -, hp⟩ | ⟨err, hc, -, hp⟩ := (b.performAll ops).perform_cases op
    · rw [hp, hc, Except.toOption, Option.toList_some, List.getLast?_concat, Option.getD_some]
    · rw [hp, hc, Except.toOption, Option.toList_none, List.append_nil]
      exact ih

/-- Whatever has been done to a buffer, it shows what the last operation that succeeded has put into
it, never more than 256 bytes. The next operation succeeds exactly if what it is given fits, and
then shows what it would in any other buffer; else it changes nothing. -/
theorem shows_last_success (b : FrameBuffer) (ops : List Operation) :
    let now := b.performAll ops
    now.used ≤ 256 ∧ now.bytes.length = now.used ∧
    now.bytes = (contents ops).getLast?.getD b.bytes ∧
    ∀ op : Operation,
      match op.content with
      | .ok bytes => op.Fits ∧ ∃ next, now.result op = .ok next ∧ now.perform op = (.ok (), next) ∧
        next.bytes = bytes ∧ next.used = bytes.length
      | .error err => ¬ op.Fits ∧ now.result op = .error err ∧
        now.perform op = (.error err, now) := by
  refine ⟨(b.performAll ops).used_le, length_bytes _, b.bytes_performAll ops, fun op => ?_⟩
  rw [op.fits_iff]
  obtain ⟨next, hc, hr, hp⟩ | ⟨err, hc, hr, hp⟩ := (b.performAll ops).perform_cases op
  · rw [hc]
    exact ⟨⟨_, rfl⟩, next, hr, hp, rfl, (length_bytes next).symm⟩
  · rw [hc]
    exact ⟨nofun, hr, hp⟩

end FrameBuffer

end FirmwareDownload
