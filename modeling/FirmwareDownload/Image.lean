import FirmwareDownload.Bytes

/-! Download images: one or more write records, each a two-byte length and a body
of that many bytes that opens with the write identifier. -/

namespace FirmwareDownload

/-- The images that a write may take its data from. -/
inductive ImageKind
  | primary
  /-- For parts that reported a loop failure. -/
  | platformRecovery
  /-- Signed with the production key. -/
  | productionKey
  deriving DecidableEq, Repr

def ImageKind.text : ImageKind → String
  | primary => "primary"
  | platformRecovery => "platform-recovery"
  | productionKey => "production-key"

inductive ImageError
  | empty
  | truncated (offset needed available : Nat)
  | emptyRecord (offset : Nat)
  | badRecordId (offset : Nat) (id : UInt8)
  | notAvailable (kind : ImageKind)
  | unreadable (path reason : String)
  deriving DecidableEq, Repr

def ImageError.message : ImageError → String
  | empty => "Image is empty"
  | truncated offset needed available =>
    s!"Record at offset {offset} truncated: needs {needed} bytes, {available} left"
  | emptyRecord offset => s!"Record at offset {offset} has an empty body"
  | badRecordId offset id =>
    s!"Record at offset {offset} starts with 0x" ++ hex2 id ++ ", expected write command"
  | notAvailable kind => kind.text ++ " image not available"
  | unreadable path reason => "Failed to read " ++ path ++ ": " ++ reason

def ImageError.chain : ImageError → List String
  | unreadable path reason => [(unreadable path reason).message, reason]
  | other => [other.message]

structure FirmwareVersion where
  major : UInt8
  minor : UInt8
  deriving DecidableEq, Repr

def FirmwareVersion.text (v : FirmwareVersion) : String := hex2 v.major ++ "." ++ hex2 v.minor

namespace Record

/-- The identifier of the write command, with which each body opens. -/
def writeId : UInt8 := 0xC0

/-- A body as an image holds it. -/
def IsBody (body : Bytes) : Prop := body.head? = some writeId ∧ body.length < 65536

instance (body : Bytes) : Decidable (IsBody body) := by unfold IsBody; infer_instance

/-- A body behind its length, which keeps sixteen bits. -/
def encode (body : Bytes) : Bytes := bigEndian16 body.length.toUInt16 ++ body

/-- The body at the front of `data`, and what follows it. `offset` is where `data`
starts in the image. -/
def split (offset : Nat) (data : Bytes) : Except ImageError (Bytes × Bytes) :=
  match data with
  | hi :: lo :: rest =>
    let n := (word hi lo).toNat
    let body := rest.take n
    if n = 0 then .error (.emptyRecord offset)
    else if body.length < n then .error (.truncated offset (2 + n) (2 + rest.length))
    else if body.headD 0 ≠ writeId then .error (.badRecordId offset (body.headD 0))
    else .ok (body, rest.drop n)
  | short => .error (.truncated offset 2 short.length)

/-- All bodies of `data`. Each record takes at least one unit of the first argument. -/
def splitAll : Nat → Nat → Bytes → Except ImageError (List Bytes)
  | _, _, [] => .ok []
  | 0, offset, _ :: _ => .error (.emptyRecord offset)
  | n + 1, offset, b :: data =>
    match split offset (b :: data) with
    | .error e => .error e
    | .ok (body, rest) =>
      match splitAll n (offset + 2 + body.length) rest with
      | .error e => .error e
      | .ok bodies => .ok (body :: bodies)

theorem split_sound {offset : Nat} {data body rest : Bytes}
    (h : split offset data = .ok (body, rest)) : data = encode body ++ rest ∧ IsBody body := by
  unfold split at h
  split at h
  · rename_i hi lo tail
    dsimp only at h
    have hlt : (word hi lo).toNat < 65536 := UInt16.toNat_lt _
    split at h
    · cases h
    split at h
    · cases h
    split at h
    · cases h
    rename_i hn hlen hid
    simp only [Except.ok.injEq, Prod.mk.injEq] at h
    obtain ⟨rfl, rfl⟩ := h
    have hle : (tail.take (word hi lo).toNat).length = (word hi lo).toNat := by
      have := List.length_take_le (word hi lo).toNat tail
      omega
    refine ⟨?_, ?_, by omega⟩
    · have hw : bigEndian16 (word hi lo).toNat.toUInt16 = [hi, lo] := by
        rw [Nat.toUInt16_eq, UInt16.ofNat_toNat, bigEndian16, highByte_word, lowByte_word]
      simp only [encode, hle, hw, List.cons_append, List.nil_append, List.take_append_drop]
    · cases hb : tail.take (word hi lo).toNat with
      | nil => rw [hb] at hle; simp at hle; omega
      | cons b bs =>
        rw [hb, List.headD_cons, Decidable.not_not] at hid
        rw [List.head?_cons, hid]
  · cases h

theorem splitAll_sound {n offset : Nat} {data : Bytes} {bodies : List Bytes}
    (h : splitAll n offset data = .ok bodies) :
    data = bodies.flatMap encode ∧ ∀ body ∈ bodies, IsBody body := by
  induction n generalizing offset data bodies with
  | zero =>
    cases data with
    | nil => cases h; simp
    | cons b data => simp [splitAll] at h
  | succ n ih =>
    cases data with
    | nil => cases h; simp
    | cons b data =>
      unfold splitAll at h
      split at h
      · cases h
      · rename_i body rest hs
        split at h
        · cases h
        · rename_i more hm
          cases h
          obtain ⟨hd, hb⟩ := split_sound hs
          obtain ⟨hr, hbs⟩ := ih hm
          refine ⟨by rw [hd, hr, List.flatMap_cons], ?_⟩
          intro x hx
          rcases List.mem_cons.mp hx with rfl | hx
          · exact hb
          · exact hbs x hx

/-- The next body from `offset` on, and where it ends. All that is asked for is that it lies
within the data. -/
def next? (data : Bytes) (offset : Nat) : Option (Bytes × Nat) :=
  match data.drop offset with
  | hi :: lo :: rest =>
    let n := (word hi lo).toNat
    if n ≤ rest.length then some (rest.take n, offset + 2 + n) else none
  | _ => none

theorem next?_bounds {data body : Bytes} {offset next : Nat}
    (h : next? data offset = some (body, next)) : offset < next ∧ next ≤ data.length := by
  unfold next? at h
  split at h
  · rename_i hi lo rest hd
    have hl := congrArg List.length hd
    simp only [List.length_drop, List.length_cons] at hl
    dsimp only at h
    split at h
    · cases h
      omega
    · cases h
  · cases h

/-- The bodies from `offset` on, up to the first that does not lie within the data. -/
def walk (data : Bytes) (offset : Nat) : List Bytes :=
  match _h : next? data offset with
  | none => []
  | some (body, next) => body :: walk data next
  termination_by data.length - offset
  decreasing_by
    have := next?_bounds _h
    omega

end Record

/-- A download image: its bytes, and the record bodies they are made of. -/
structure Image where
  data : Bytes
  records : List Bytes
  data_eq : data = records.flatMap Record.encode
  data_ne : data ≠ []
  isBody : ∀ body ∈ records, Record.IsBody body
  deriving DecidableEq

namespace Image

/-- Reads an image; an error names the first record that is not well formed. -/
def ofBytes (data : Bytes) : Except ImageError Image :=
  if hd : data = [] then .error .empty
  else
    match h : Record.splitAll data.length 0 data with
    | .error e => .error e
    | .ok records =>
      .ok ⟨data, records, (Record.splitAll_sound h).1, hd, (Record.splitAll_sound h).2⟩

/-- Lays out record bodies and reads the result as an image. -/
def ofRecords (bodies : List Bytes) : Except ImageError Image :=
  ofBytes (bodies.flatMap Record.encode)

def size (image : Image) : Nat := image.data.length

def recordCount (image : Image) : Nat := image.records.length

/-- The bodies again, read off the bytes. -/
def bodies (image : Image) : List Bytes := Record.walk image.data 0

/-- The firmware version at its place in the first record, when the image reaches so far. -/
def version? (image : Image) : Option FirmwareVersion :=
  match image.data[5]?, image.data[4]? with
  | some major, some minor => some ⟨major, minor⟩
  | _, _ => none

end Image

abbrev ImageLibrary := ImageKind → Except ImageError Image

def ImageLibrary.ofList (images : List (ImageKind × Image)) : ImageLibrary := fun kind =>
  match images.lookup kind with
  | some image => .ok image
  | none => .error (.notAvailable kind)

end FirmwareDownload
