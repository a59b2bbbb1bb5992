import FirmwareDownload.Failure
import FirmwareDownload.Frame.Buffer
import FirmwareDownload.ResponseBuffer

/-! A transfer cuts a write or a read into frames. A record whose body fits a
frame goes out in one piece, a larger one in fragments; a read asks for at most
248 bytes at a time. -/

namespace FirmwareDownload

structure Transfer where
  /-- Bytes still to transfer. -/
  remaining : Nat := 0
  /-- Where the transfer stands in the user data or the response buffer. -/
  offset : Nat := 0
  /-- Bytes of the current body not yet acknowledged. -/
  remainingChunk : Nat := 0
  /-- Bytes that the frame in flight stands for. -/
  frameLength : Nat := 0
  /-- Length of the current body. -/
  recordLength : Nat := 0
  bytesRead : Nat := 0
  firstWrite : Bool := false
  /-- The first fragment of the current record was acknowledged. -/
  inRecord : Bool := false
  /-- The frame in flight is not the last fragment, or the read takes several frames. -/
  segmented : Bool := false
  addr : UInt32 := 0
  deriving DecidableEq, Repr, Inhabited

namespace Transfer

/-- The largest read of one frame. -/
def maxRead : Nat := 248

/-- The `n` bytes from `offset` on, when they end within the data. Even an empty piece
may not start past the end. -/
def slice (data : Array UInt8) (offset n : Nat) : Except DownloadError Bytes :=
  if offset + n ≤ data.size then .ok (data.extract offset (offset + n)).toList
  else .error (.failed (.image (.truncated offset n (data.size - offset))))

theorem slice_eq {data : Array UInt8} {offset n : Nat} (h : offset + n ≤ data.size) :
    slice data offset n = .ok ((data.toList.drop offset).take n) := by
  rw [slice, if_pos h, Array.toList_extract, List.extract_eq_take_drop, Nat.add_sub_cancel_left]

def liftFrame : Except FrameError FrameBuffer → Except DownloadError FrameBuffer
  | .ok frame => .ok frame
  | .error e => .error (.failed (.frame e))

/-! ## Writing -/

def startWrite (t : Transfer) (data : Array UInt8) : Transfer :=
  if t.firstWrite then { t with remaining := data.size, offset := 0, firstWrite := false } else t

/-- Reads the length of the record at hand, unless a record is being continued. -/
def readHeader (t : Transfer) (data : Array UInt8) : Except DownloadError Transfer :=
  if t.segmented then .ok t
  else
    match slice data t.offset 2 with
    | .error e => .error e
    | .ok header => .ok { t with recordLength := (header.wordAt 0).toNat }

/-- Steps over the header of a record that needs fragments. -/
def enterRecord (t : Transfer) : Transfer :=
  if t.inRecord then t
  else { t with remainingChunk := t.recordLength, offset := t.offset + 2 }

def composeFragment (t : Transfer) (data : Array UInt8) (frame : FrameBuffer) :
    Except DownloadError FrameBuffer × Transfer :=
  let n := min t.remainingChunk Frame.maxBody
  let t := { t with segmented := Frame.maxBody < t.remainingChunk }
  match slice data t.offset n with
  | .error e => (.error e, t)
  | .ok piece =>
    match liftFrame (frame.encodeBody piece t.segmented) with
    | .error e => (.error e, t)
    | .ok frame => (.ok frame, { t with frameLength := n })

def composeRecord (t : Transfer) (data : Array UInt8) (frame : FrameBuffer) :
    Except DownloadError FrameBuffer × Transfer :=
  match slice data (t.offset + 2) t.recordLength with
  | .error e => (.error e, t)
  | .ok body =>
    match liftFrame (frame.encodeBody body false) with
    | .error e => (.error e, t)
    | .ok frame => (.ok frame, { t with frameLength := t.recordLength + 2 })

def composeWrite (t : Transfer) (data : Array UInt8) (frame : FrameBuffer) :
    Except DownloadError FrameBuffer × Transfer :=
  let t := t.startWrite data
  match t.readHeader data with
  | .error e => (.error e, t)
  | .ok t =>
    if Frame.maxBody < t.recordLength then t.enterRecord.composeFragment data frame
    else t.composeRecord data frame

/-- Takes the status that answers a write frame. A busy memory is not answered
here: the frame is sent again and the transfer stays where it is. -/
def acceptWrite (t : Transfer) (status : Status) : Except DownloadError Unit × Transfer :=
  let n := t.frameLength
  match status with
  | .ok =>
    if t.segmented then (.error (.failed (.unexpectedStatus .ok)), t)
    else
      (.ok (), { t with
        remainingChunk := if t.inRecord then t.remainingChunk - n else t.remainingChunk
        inRecord := false
        remaining := t.remaining - n
        offset := t.offset + n })
  | .firstChunkAck =>
    if t.segmented ∧ !t.inRecord then
      (.ok (), { t with
        inRecord := true
        remainingChunk := t.remainingChunk - n
        remaining := t.remaining - (n + 2)
        offset := t.offset + n })
    else (.error (.failed (.unexpectedStatus .firstChunkAck)), t)
  | .nextChunkAck =>
    if t.segmented ∧ t.inRecord then
      (.ok (), { t with
        remainingChunk := t.remainingChunk - n
        remaining := t.remaining - n
        offset := t.offset + n })
    else (.error (.failed (.unexpectedStatus .nextChunkAck)), t)
  | .firmwareVersionError => (.error .versionError, { t with remaining := 0, offset := 0 })
  | .pllError => (.error .writeFailed, t)
  | .signatureError => (.error .rejected, t)
  | other => (.error (.failed (.unexpectedStatus other)), t)

/-! ## Reading -/

def startRead (addr : UInt32) (capacity : Nat) : Transfer :=
  { remaining := capacity, addr := addr, segmented := maxRead < capacity }

/-- The payload of a read request: its length and address behind a zero byte. -/
def readPayload (addr : UInt32) (n : Nat) : Bytes :=
  0 :: littleEndian16 n.toUInt16 ++ littleEndian32 addr

def composeRead (t : Transfer) (frame : FrameBuffer) :
    Except DownloadError FrameBuffer × Transfer :=
  let n := min t.remaining maxRead
  match liftFrame (frame.encode ⟨RequestId.read, readPayload t.addr n, false⟩) with
  | .error e => (.error e, t)
  | .ok frame => (.ok frame, { t with frameLength := n })

/-- Takes the answer to a read request. Its payload is a zero byte, the length
asked for, and the data, which is copied to its place in `response`. -/
def acceptRead (t : Transfer) (answer : Frame) (response : ResponseBuffer) :
    Except DownloadError Unit × Transfer × ResponseBuffer :=
  let n := t.frameLength
  let refuse (cause : Failure) : Except DownloadError Unit × Transfer × ResponseBuffer :=
    (.error (.failed cause), t, response)
  if answer.status ≠ .ok then refuse (.unexpectedStatus answer.status)
  else if answer.payload.length < 3 then refuse (.shortRead n 0)
  else
    let echoed := (answer.payload.lowWordAt 1).toNat
    let data := answer.payload.drop 3
    if echoed ≠ n ∨ data.length < n then refuse (.shortRead n (min echoed data.length))
    else
      match response.store? t.offset (data.take n) with
      | none => refuse (.responseOverflow (t.offset + n) response.capacity)
      | some response =>
        (.ok (), { t with
          bytesRead := t.bytesRead + n
          remaining := t.remaining - n
          addr := t.addr + n.toUInt32
          offset := t.offset + n }, response)

end Transfer

/-! ## Requests of one frame -/

namespace Request

def fixedFrame (id : UInt8) : Frame := ⟨id, [0, 0, 0], false⟩

def integrityFrame : Option (UInt16 × UInt16) → Frame
  | some (offset, length) =>
    ⟨RequestId.checkIntegrity, [0, 0, 0] ++ littleEndian16 offset ++ littleEndian16 length, false⟩
  | Option.none => ⟨RequestId.checkIntegrity, [0, 0, 0], false⟩

def logFrame (entry : Bytes) : Frame := ⟨RequestId.log, [0, 0, 0] ++ entry, false⟩

def forceFrame (p0 p1 p2 : UInt8) : Frame := ⟨RequestId.force, [p0, p1, p2], false⟩

end Request

end FirmwareDownload
