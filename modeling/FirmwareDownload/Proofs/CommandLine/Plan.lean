import FirmwareDownload.CommandLine.Program
import FirmwareDownload.Proofs.Bench.Handing

/-! What a plan lists is what a write hands over. The plan walks through the image slice by slice as
the write does, and its counts are read off the records. -/

namespace FirmwareDownload

namespace Record

/-- A slice of a record at `start` as it is listed. It stands where its bytes are, and the record as
a whole where it starts if it is a single slice. -/
def entry (start : Nat) (body : Bytes) (i : Nat) : PlannedFrame where
  offset := if body.length ≤ 252 then start else start + 2 + 252 * i
  bytes := sliceFrame body i
  more := decide (i + 1 < sliceCount body)

def listing (start : Nat) (body : Bytes) : List PlannedFrame := mapSlices (entry start) body

/-- The slices of records from `start` on. -/
def listings (start : Nat) : List Bytes → List PlannedFrame
  | [] => []
  | body :: bodies => listing start body ++ listings (start + (2 + body.length)) bodies

variable {start i : Nat} {body : Bytes} {bodies : List Bytes}

theorem length_listing : (listing start body).length = sliceCount body := by
  rw [listing, mapSlices, List.length_map, List.length_range]

theorem drop_listing (hi : i < sliceCount body) :
    (listing start body).drop i = entry start body i :: (listing start body).drop (i + 1) := by
  have hl : i < (listing start body).length := length_listing ▸ hi
  rw [List.drop_eq_getElem_cons hl]
  simp [listing, mapSlices]

/-- Only the last slice of a body has none behind it. -/
theorem countP_listing : (listing start body).countP (·.more) = sliceCount body - 1 := by
  have hl : (listing start body).countP (·.more) =
      (List.range (sliceCount body)).countP fun i => decide (i + 1 < sliceCount body) :=
    List.countP_map
  rw [hl]
  cases sliceCount body with
  | zero => rfl
  | succ n =>
    have hall : (List.range n).countP (fun i => decide (i < n)) = n := by
      rw [List.countP_eq_length.2 (by simp), List.length_range]
    simp [List.range_succ, hall]

theorem length_listings : (listings start bodies).length = (bodies.map sliceCount).sum := by
  induction bodies generalizing start with
  | nil => rfl
  | cons body bodies ih =>
    rw [listings, List.length_append, length_listing, ih, List.map_cons, List.sum_cons]

theorem countP_listings (h : ∀ body ∈ bodies, IsBody body) :
    (listings start bodies).countP (·.more) = (bodies.map sliceCount).sum - bodies.length := by
  have hc : (listings start bodies).countP (·.more) + bodies.length =
      (bodies.map sliceCount).sum := by
    induction bodies generalizing start with
    | nil => rfl
    | cons body bodies ih =>
      have hpos := sliceCount_pos (h body List.mem_cons_self)
      have ih := @ih (start + (2 + body.length)) fun b hb => h b (List.mem_cons_of_mem _ hb)
      rw [listings, List.countP_append, countP_listing, List.length_cons, List.map_cons,
        List.sum_cons]
      omega
  omega

theorem bytes_listings :
    (listings start bodies).map PlannedFrame.bytes = bodies.flatMap frames := by
  induction bodies generalizing start with
  | nil => rfl
  | cons body bodies ih =>
    have hl : (listing start body).map PlannedFrame.bytes = frames body := List.map_map
    rw [listings, List.map_append, hl, ih, List.flatMap_cons]

end Record

namespace Transfer

variable {t : Transfer} {data : Array UInt8} {pre post : List Bytes} {body : Bytes} {i : Nat}

theorem Ready.lt_sliceCount {total : Nat} (h : t.Ready total pre body i)
    (hb : Record.IsBody body) : i < Record.sliceCount body := by
  rcases h with ⟨rfl, -⟩ | h
  · exact Record.sliceCount_pos hb
  · exact Record.lt_sliceCount.2 h.more

theorem InFlight.entry_eq {total : Nat} (h : t.InFlight total pre body i) :
    ⟨t.offset, Record.sliceFrame body i, t.segmented⟩ = Record.entry (startOf pre) body i := by
  have hs : t.segmented = decide (i + 1 < Record.sliceCount body) := by
    rw [Bool.eq_iff_iff, h.segmented_iff, decide_eq_true_iff]
  have ho : t.offset =
      if body.length ≤ 252 then startOf pre else startOf pre + 2 + 252 * i := by
    rcases h with ⟨rfl, h⟩ | h
    · rw [if_pos h.fits, h.offset]
    · rw [if_neg (Nat.not_le.2 h.large), h.offset]
  rw [Record.entry, hs, ho]

/-- A healthy controller takes the slice that is planned next. -/
theorem Ready.planFrame (h : t.Ready data.size pre body i) (frame : FrameBuffer)
    (hd : data.toList = (pre ++ body :: post).flatMap Record.encode) (hb : Record.IsBody body) :
    ∃ t' frame', t.planFrame data frame =
        (some (Record.entry (startOf pre) body i), .ok (t', frame')) ∧
      t'.Behind data.size pre body i := by
  obtain ⟨frame', t₁, hc, hbytes, hf⟩ := h.composeWrite frame hd hb
  obtain ⟨t', ha, hbehind⟩ := hf.acceptWrite_ack
  have hack : t₁.healthyAck = Record.sliceAck body i := hf.sliceAck_eq.symm
  refine ⟨t', frame', ?_, hbehind⟩
  rw [← hf.entry_eq]
  simp only [Transfer.planFrame, hc, hack, ha, hbytes]

theorem planFrames_last {frame frame' : FrameBuffer} {planned : Option PlannedFrame}
    {t' : Transfer} (h : t.planFrame data frame = (planned, .ok (t', frame')))
    (hr : t'.remaining = 0) : t.planFrames data frame = (planned.toList, .ok ()) := by
  rw [planFrames]
  split
  · rename_i he
    cases h.symm.trans he
  · rename_i he
    cases h.symm.trans he
    rw [dif_pos hr]

theorem planFrames_next {frame frame' : FrameBuffer} {planned : Option PlannedFrame}
    {t' : Transfer} (h : t.planFrame data frame = (planned, .ok (t', frame')))
    (hr : t'.remaining ≠ 0) : t.planFrames data frame =
      (planned.toList ++ (t'.planFrames data frame').1, (t'.planFrames data frame').2) := by
  rw [planFrames]
  split
  · rename_i he
    cases h.symm.trans he
  · rename_i he
    cases h.symm.trans he
    rw [dif_neg hr]

/-- What is listed from the slice `i` of `body` on, with the records of `post` behind. -/
def listedFrom (pre : List Bytes) (body : Bytes) (i : Nat) (post : List Bytes) :
    List PlannedFrame :=
  (Record.listing (startOf pre) body).drop i ++ Record.listings (startOf (pre ++ [body])) post

theorem listedFrom_zero (pre : List Bytes) (body : Bytes) (post : List Bytes) :
    listedFrom pre body 0 post = Record.listings (startOf pre) (body :: post) := by
  rw [listedFrom, startOf_concat]
  rfl

theorem listedFrom_succ (hi : i < Record.sliceCount body) : listedFrom pre body i post =
    Record.entry (startOf pre) body i :: listedFrom pre body (i + 1) post := by
  rw [listedFrom, Record.drop_listing hi]
  rfl

/-- A slice is the last one, with nothing listed behind it, or what is listed behind it is what is
listed from the next one on. -/
theorem Behind.last_or_next (h : t.Behind data.size pre body i)
    (hd : data.toList = (pre ++ body :: post).flatMap Record.encode) :
    (t.remaining = 0 ∧ listedFrom pre body (i + 1) post = []) ∨
    (t.remaining ≠ 0 ∧ ∃ pre' body' post' i', pre ++ body :: post = pre' ++ body' :: post' ∧
      t.Ready data.size pre' body' i' ∧
      listedFrom pre body (i + 1) post = listedFrom pre' body' i' post') := by
  have hmore := h.more_iff hd
  rcases h with ⟨hi, hat, -⟩ | ⟨hi, hin⟩
  · have hdrop : listedFrom pre body (i + 1) post =
        Record.listings (startOf (pre ++ [body])) post := by
      rw [listedFrom, List.drop_eq_nil_of_le (Nat.le_of_eq (Record.length_listing.trans hi.symm)),
        List.nil_append]
    cases post with
    | nil => exact .inl ⟨Nat.le_zero.1 (Nat.not_lt.1 fun h => hmore.1 h ⟨hi, rfl⟩), hdrop⟩
    | cons body' post =>
      refine .inr ⟨Nat.ne_of_gt (hmore.2 fun h => List.cons_ne_nil _ _ h.2), pre ++ [body], body',
        post, 0, List.append_cons .., .inl ⟨rfl, hat⟩, ?_⟩
      rw [hdrop, listedFrom_zero]
  · exact .inr ⟨Nat.ne_of_gt (hmore.2 fun h => Nat.ne_of_lt hi h.1), pre, body, post, i + 1, rfl,
      .inr hin, rfl⟩

/-- From in front of a slice on, that slice and all behind it are planned. -/
theorem Ready.planFrames (h : t.Ready data.size pre body i) (frame : FrameBuffer)
    (hd : data.toList = (pre ++ body :: post).flatMap Record.encode)
    (hb : ∀ b ∈ pre ++ body :: post, Record.IsBody b) :
    t.planFrames data frame = (listedFrom pre body i post, .ok ()) := by
  -- The induction is on what is listed from the slice on.
  induction hrest : listedFrom pre body i post generalizing t frame pre body post i with
  | nil =>
    rw [listedFrom_succ (h.lt_sliceCount (hb body (by simp)))] at hrest
    cases hrest
  | cons x rest ih =>
    have hbody := hb body (by simp)
    rw [listedFrom_succ (h.lt_sliceCount hbody)] at hrest
    obtain ⟨rfl, hbehind⟩ := List.cons.inj hrest
    obtain ⟨t', frame', hp, ht⟩ := h.planFrame frame hd hbody
    rcases ht.last_or_next hd with ⟨hz, hnil⟩ | ⟨hz, pre', body', post', i', hr, hready, hl⟩
    · rw [planFrames_last hp hz, ← hbehind, hnil]
      rfl
    · rw [planFrames_next hp hz, ih hready frame' (hr ▸ hd) (hr ▸ hb) (hl.symm.trans hbehind)]
      rfl

/-- The whole image is planned without an error. -/
theorem planFrames_image (image : Image) :
    planFrames { firstWrite := true } image.data.toArray .empty =
      (Record.listings 0 image.records, .ok ()) := by
  obtain ⟨body, post, hrec⟩ := image.exists_record
  have hready : Ready { firstWrite := true } image.data.toArray.size [] body 0 :=
    .inl ⟨rfl, rfl, rfl, .inl ⟨rfl, rfl⟩⟩
  have hb := image.isBody
  have hd := image.data_eq
  rw [hrec] at hb hd ⊢
  rw [hready.planFrames .empty hd hb, listedFrom_zero]
  rfl

end Transfer

namespace CommandLine

open Transfer Engine

/-! ## The lines of a plan -/

/-- A number at the right edge of a column. -/
def column (width n : Nat) : String :=
  String.ofList (List.replicate (width - (Nat.toDigits 10 n).length) ' ' ++ Nat.toDigits 10 n)

/-- The line of a frame: its number, where it stands in the image, its length, and whether more
follow. -/
def frameLine (number : Nat) (frame : PlannedFrame) : String :=
  "frame " ++ column 5 number ++ "  offset " ++ column 7 frame.offset ++ "  len " ++
    column 3 frame.bytes.length ++ if frame.more then "  +more" else ""

/-- The line of its bytes, two digits for each. -/
def hexLine (bytes : Bytes) : String :=
  let digit (n : Nat) : Char := "0123456789ABCDEF".toList.getD n ' '
  "    " ++ String.ofList (bytes.flatMap fun b => [digit (b.toNat / 16), digit (b.toNat % 16)])

theorem padLeft_toString (width n : Nat) : padLeft width (toString n) = column width n := by
  have h : toString n = String.ofList (Nat.toDigits 10 n) := rfl
  rw [padLeft, column, String.ofList_append, h, String.length_ofList]

theorem hexDigit_upper : ∀ n < 16, hexDigit true n = "0123456789ABCDEF".toList.getD n ' ' := by
  decide

theorem hexByte_upper (b : UInt8) : hexByte true b =
    ["0123456789ABCDEF".toList.getD (b.toNat / 16) ' ',
      "0123456789ABCDEF".toList.getD (b.toNat % 16) ' '] := by
  have hb := b.toNat_lt
  rw [hexByte, hexDigit_upper _ (by omega), hexDigit_upper _ (by omega)]

theorem planLines_eq (dump : Bool) (number : Nat) (frame : PlannedFrame) :
    planLines dump number frame =
      frameLine number frame :: if dump then [hexLine frame.bytes] else [] := by
  have hhex : padLeft 4 "" ++ frame.bytes.upperHex = hexLine frame.bytes := by
    rw [Bytes.upperHex, hexLine, funext hexByte_upper]
    rfl
  unfold planLines
  simp only [padLeft_toString, hhex]
  cases dump <;> rfl

/-! ## Plans and writes -/

/-- A plan of an image lists the frames that a write of that image hands over, each on a line and, in
a dump, with its bytes on another. There is one for each 252 bytes of a record or part of them, and
all but the last one of a record say that more follow. -/
theorem plan_predicts_write {files : Files} {path : String} {data : Bytes} {image : Image}
    (hf : files path = .ok data) (hi : Image.ofBytes data = .ok image) :
    let count := (image.records.map fun body => (body.length + 251) / 252).sum
    let frames := Record.listings 0 image.records
    (∀ dump, plan files path dump = { lines :=
      ((frames.zipIdx 1).flatMap fun (frame, number) =>
        frameLine number frame :: if dump then [hexLine frame.bytes] else []) ++
        [toString image.recordCount ++ " records, " ++ toString data.length ++ " bytes -> " ++
          toString count ++ " frames (" ++ toString (count - image.recordCount) ++
          " with more-fragments set)"] }) ∧
    frames.length = count ∧ frames.countP (·.more) = count - image.recordCount ∧
    ∀ {e : Engine (Bench Controller)} {c : Controller} {recovery : Bool} {wanted : Option Bytes},
      e.InStep (.idle c) → c.Undisturbed → e.Picks recovery image wanted →
      ∃ e₁, e.call (.write recovery wanted) = (.ok (), e₁) ∧
        ∀ moves, (∀ m ∈ moves, m = .handleNext ∨ ∃ ticket, m = .expire ticket) →
          (∃ k, (attend^[k] (e₁.plays moves)).session.Idle) ∧
          ((e₁.plays moves).session.Idle →
            (e₁.plays moves).delivered = ⟨.write, .ok (), []⟩ :: e.delivered ∧
            sentFrames (e₁.plays moves).journal =
              sentFrames e.journal ++ frames.map PlannedFrame.bytes) := by
  intro count frames
  have hbytes : frames.map PlannedFrame.bytes = image.writeFrames := Record.bytes_listings
  have hlength : frames.length = count := Record.length_listings
  have hmore : frames.countP (·.more) = count - image.recordCount :=
    Record.countP_listings image.isBody
  refine ⟨fun dump => ?_, hlength, hmore, fun h hu hp => hbytes ▸ h.handsOver hu hp⟩
  have hsize : image.size = data.length := congrArg List.length (Image.data_of_ofBytes hi)
  simp only [plan, hf, hi, planFrames_image, planLines_eq, planSummary, hsize]
  rw [show (Record.listings 0 image.records).length = count from hlength,
    show (Record.listings 0 image.records).countP (·.more) = _ from hmore]

/-- One record of 253 bytes is planned in two frames, and written in the same two. -/
theorem plan_predicts_write_of_two_slices :
    let e := fresh {} (ImageLibrary.ofList []) ({ link := {} } : Bench Controller)
    ∃ (frames : List PlannedFrame) (e₁ : Engine (Bench Controller)) (k : Nat),
      frames.length = 2 ∧
      plan (fun _ => .ok twoSlices) "image" true = { lines :=
        ((frames.zipIdx 1).flatMap fun (frame, number) =>
          [frameLine number frame, hexLine frame.bytes]) ++
          ["1 records, 255 bytes -> 2 frames (1 with more-fragments set)"] } ∧
      e.call (.write false (some twoSlices)) = (.ok (), e₁) ∧
      (attend^[k] e₁).session.Idle ∧
      sentFrames (attend^[k] e₁).journal = frames.map PlannedFrame.bytes := by
  intro e
  have hrec : (Image.ofBytes twoSlices).toOption.map Image.records = some [twoSlices.drop 2] := by
    decide +kernel
  obtain ⟨image, himg⟩ : ∃ image, Image.ofBytes twoSlices = .ok image := by
    cases himg : Image.ofBytes twoSlices with
    | error err => rw [himg] at hrec; cases hrec
    | ok image => exact ⟨image, rfl⟩
  rw [himg] at hrec
  have hrec : image.records = [twoSlices.drop 2] := Option.some.inj hrec
  have hsum : (image.records.map fun body => (body.length + 251) / 252).sum = 2 := by
    rw [hrec]
    decide +kernel
  have hsize : twoSlices.length = 255 := by
    rw [twoSlices, List.length_append, List.length_replicate]
    rfl
  obtain ⟨hplan, hlength, -, hwrite⟩ :=
    @plan_predicts_write (fun _ => .ok twoSlices) "image" _ _ rfl himg
  have hin : e.InStep (.idle {}) :=
    inStep_fresh _ _ ⟨rfl, rfl, rfl, rfl, fun _ => ⟨rfl, rfl⟩⟩ ⟨rfl, rfl, rfl, rfl⟩
  obtain ⟨e₁, hcall, hmoves⟩ := hwrite hin ⟨rfl, rfl, rfl⟩
    (show e.Picks false image (some twoSlices) from himg)
  obtain ⟨⟨k, hk⟩, -⟩ := hmoves [] nofun
  obtain ⟨moves, he, hm⟩ := e₁.attends_eq_plays k
  change (attend^[k] e₁).session.Idle at hk
  refine ⟨_, e₁, k, hlength.trans hsum, ?_, hcall, hk, ?_⟩
  · rw [hplan, hsum, Image.recordCount, hrec, hsize]
    rfl
  · rw [he]
    exact ((hmoves moves hm).2 (he ▸ hk)).2

end CommandLine

end FirmwareDownload
