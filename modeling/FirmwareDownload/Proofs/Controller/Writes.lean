import FirmwareDownload.Proofs.Controller.Records
import FirmwareDownload.Proofs.Controller.Serving

/-! A controller that takes an image while its memory is busy at times. A busy answer uses up one
status that was injected, and the write stands where it stood; each other slice is acknowledged. -/

namespace FirmwareDownload

namespace Controller

/-- Nothing but a busy memory is injected. -/
def OnlyBusy (c : Controller) : Prop := ∀ status ∈ c.injected ++ c.writeFaults, status = .memBusy

/-- A busy memory was the answer to a frame. -/
structure Spends (c c' : Controller) : Prop where
  busy : c'.OnlyBusy
  progress : c'.progress = c.progress
  frameCount : c'.frameCount = c.frameCount + 1
  pending : c'.pending + 1 = c.pending

/-- Since it was like `c₀` the controller took the records `pre` of the image and `i` slices of the
next one, and `n` busy memories were injected. -/
structure Took (c c₀ : Controller) (image : Image) (pre : List Bytes) (i n : Nat) : Prop where
  busy : c.OnlyBusy
  openRecord : c.openRecord.isSome = decide (0 < i)
  inBurst : c.inBurst = !decide (pre = [] ∧ i = 0)
  recordCount : c.recordCount = c₀.recordCount + pre.length
  identity : c.identity =
    if pre = [] ∧ i = 0 then c₀.identity else c₀.renamed (image.records.headD [])
  /-- A frame is a slice that was taken, or used up one that was injected. -/
  frameCount : c.frameCount + c.pending =
    c₀.frameCount + (c₀.pending + n) + ((pre.flatMap Record.frames).length + i)

variable {c c' c₀ : Controller} {f : Frame} {image : Image} {pre post : List Bytes}
  {status : Status} {body raw payload : Bytes} {i n : Nat}

/-! ## Answers -/

theorem answerInjected_memBusy (c : Controller) (firstInBurst : Bool) :
    c.answerInjected RequestId.write firstInBurst .memBusy =
      { c with inBurst := c.inBurst && !firstInBurst }.respond .memBusy [] := by
  simp [answerInjected]

/-- A response without a payload is the answer to the frame. -/
theorem Serving.responded {frame : Bytes} {c₁ : Controller} (h : c.Serving)
    (ha : c.Answers frame raw c') (hr : c.counting.receive frame = c₁.respond status [])
    (hs : c₁.standing = c.counting.standing) :
    statusOf raw = some (Status.ofByte status.toByte) ∧ c' = c₁ := by
  have ha₁ : c.Answers frame (Frame.wire ⟨status.toByte, [], false⟩) c₁ :=
    (h.counting.congr hs).responds (Nat.zero_le _) hr
  obtain ⟨rfl, rfl⟩ := ha.unique ha₁
  have hd : Frame.decode (Frame.wire ⟨status.toByte, [], false⟩) = .ok ⟨status.toByte, [], false⟩ :=
    Frame.decode_wire (show 0 < 1023 by decide)
  exact ⟨statusOf_of_decode hd, rfl⟩

/-- A write frame with no record open is looked at, unless a status was injected for it. -/
theorem Serving.receive_write (h : c.Serving) (ho : c.openRecord = none)
    (hl : payload.length < 1023) (more : Bool) :
    c.counting.receive (Frame.wire ⟨RequestId.write, payload, more⟩) =
        (c.facing true).answerRequest (!c.inBurst) ⟨RequestId.write, payload, more⟩ ∨
      ∃ status c₁, (c.facing true).Draws status c₁ ∧
        c.counting.receive (Frame.wire ⟨RequestId.write, payload, more⟩) =
          c₁.answerInjected RequestId.write (!c.inBurst) status := by
  rcases (c.facing true).takeInjected_cases RequestId.write with he | ⟨status, c₁, he, hd⟩
  · exact .inl (h.receive_request (f := ⟨RequestId.write, payload, more⟩) ho hl he)
  · exact .inr ⟨status, c₁, hd,
      h.receive_injected (f := ⟨RequestId.write, payload, more⟩) ho hl he⟩

/-- A first slice meets a busy memory if one is injected, else it is the record or opens it. -/
theorem Serving.answers_first {more : Bool} (h : c.Serving) (ho : c.openRecord = none)
    (hb : c.OnlyBusy) (hl : payload.length < 1023)
    (ha : c.Answers (Frame.wire ⟨RequestId.write, payload, more⟩) raw c') :
    (statusOf raw = some .memBusy ∧ c.Spends c') ∨
      statusOf raw = some (if more then .firstChunkAck else .ok) ∧
        c' = if more then c.opened (RequestId.write :: payload)
          else c.taken (RequestId.write :: payload) := by
  rcases h.receive_write ho hl more with hr | ⟨status, c₁, hd, hr⟩
  · right
    cases more with
    | true => exact h.responded ha (hr.trans (c.answerRequest_opens payload)) rfl
    | false => exact h.responded ha (hr.trans (c.answerRequest_takes payload)) rfl
  · left
    obtain rfl : status = .memBusy := hb status hd.drawn
    have hp := hd.progress
    simp only [progress, Prod.mk.injEq] at hp
    obtain ⟨hraw, rfl⟩ := h.responded ha (hr.trans (c₁.answerInjected_memBusy _)) hd.standing
    refine ⟨hraw, fun s hs => hb s (hd.rest s hs), ?_, ?_, hd.pending⟩
    · simp only [progress, hp, Controller.facing, Bool.true_and, Bool.not_not]
    · have hs := hd.standing
      simp only [standing, Prod.mk.injEq] at hs
      exact hs.2.2.2.2

/-- So does any other slice, and else it goes on with the record or is its last one. -/
theorem Serving.answers_fragment (h : c.Serving) (ho : c.openRecord = some body)
    (hb : c.OnlyBusy) (hl : f.payload.length < 1023) (ha : c.Answers f.wire raw c') :
    (statusOf raw = some .memBusy ∧ c.Spends c') ∨
      statusOf raw = some (if f.more then .nextChunkAck else .ok) ∧
        c' = if f.more then c.continued (body ++ f.code :: f.payload) else c.closed := by
  have hr : c.counting.receive f.wire = c.counting.continueRecord body f :=
    h.counting.receive_open ho (Frame.decode_wire hl)
  unfold continueRecord at hr
  split at hr
  · rename_i status rest hi
    left
    have hd : c.Draws status { c with injected := rest } := draws_injected hi
    obtain rfl : status = .memBusy := hb status hd.drawn
    obtain ⟨hraw, rfl⟩ := h.responded ha hr rfl
    refine ⟨hraw, fun s hs => hb s (hd.rest s hs), ?_, rfl, hd.pending⟩
    rw [progress, progress, ho]
    rfl
  · right
    cases hm : f.more with
    | true =>
      rw [hm] at hr
      exact h.responded ha hr rfl
    | false =>
      rw [hm] at hr
      exact h.responded ha hr rfl

/-! ## Slices -/

theorem Took.spends (h : c.Took c₀ image pre i n) (hs : c.Spends c') :
    c'.Took c₀ image pre i n := by
  have hp := hs.progress
  simp only [progress, Prod.mk.injEq] at hp
  refine ⟨hs.busy, hp.2.2.2 ▸ h.openRecord, hp.2.1.trans h.inBurst, hp.2.2.1.trans h.recordCount,
    hp.1.trans h.identity, ?_⟩
  have hf := hs.frameCount
  have hn := hs.pending
  have := h.frameCount
  omega

/-- The first record brings its version, and the others do not. -/
theorem Took.renamed_body (h : c.Took c₀ image pre 0 n) (hq : c₀.inBurst = false)
    (hrec : image.records = pre ++ body :: post) :
    c.renamed body = c₀.renamed (image.records.headD []) := by
  cases pre with
  | nil =>
    have hi : c.inBurst = c₀.inBurst := h.inBurst.trans hq.symm
    have hid : c.identity = c₀.identity := h.identity
    rw [hrec]
    simp only [Controller.renamed, hi, hid]
    rfl
  | cons first pre =>
    rw [renamed_of_inBurst h.inBurst]
    exact h.identity

/-- Of each slice that is taken the controller keeps this. -/
structure Accepts (c c' c₀ : Controller) (image : Image) : Prop where
  busy : c'.OnlyBusy
  inBurst : c'.inBurst = true
  identity : c'.identity = c₀.renamed (image.records.headD [])
  frameCount : c'.frameCount = c.frameCount + 1
  pending : c'.pending = c.pending

theorem Took.goes_on (h : c.Took c₀ image pre i n) (ha : c.Accepts c' c₀ image)
    (ho : c'.openRecord.isSome = true) (hr : c'.recordCount = c.recordCount) :
    c'.Took c₀ image pre (i + 1) n := by
  have hn : ¬ (pre = [] ∧ i + 1 = 0) := fun hn => Nat.succ_ne_zero i hn.2
  refine ⟨ha.busy, ?_, ?_, hr.trans h.recordCount, ?_, ?_⟩
  · rw [ho, decide_eq_true i.succ_pos]
  · rw [ha.inBurst, decide_eq_false hn, Bool.not_false]
  · rw [if_neg hn, ha.identity]
  · rw [ha.frameCount, ha.pending]
    have := h.frameCount
    omega

theorem Took.completes (h : c.Took c₀ image pre i n) (ha : c.Accepts c' c₀ image)
    (ho : c'.openRecord = none) (hr : c'.recordCount = c.recordCount + 1)
    (hi : i + 1 = Record.sliceCount body) : c'.Took c₀ image (pre ++ [body]) 0 n := by
  have hn : ¬ (pre ++ [body] = [] ∧ 0 = 0) := fun hn => by simp at hn
  have hl : (Record.frames body).length = Record.sliceCount body := by
    simp [Record.frames, Record.mapSlices]
  refine ⟨ha.busy, by rw [ho]; rfl, ?_, ?_, ?_, ?_⟩
  · rw [ha.inBurst, decide_eq_false hn, Bool.not_false]
  · rw [hr, h.recordCount, List.length_append, List.length_singleton, Nat.add_assoc]
  · rw [if_neg hn, ha.identity]
  · rw [ha.frameCount, ha.pending, List.flatMap_append, List.length_append, List.flatMap_singleton,
      hl]
    have := h.frameCount
    omega

/-- What the answer to the slice `i` of `body` makes of a controller that took all before it. -/
def Takes (c c' c₀ : Controller) (image : Image) (pre : List Bytes) (body : Bytes) (i n : Nat)
    (raw : Bytes) : Prop :=
  statusOf raw = some .memBusy ∧ c.Spends c' ∨
    statusOf raw = some (Record.sliceAck body i) ∧ c'.pending = c.pending ∧
      c'.Took c₀ image (Record.behind pre body i).1 (Record.behind pre body i).2 n ∧
      (i + 1 = Record.sliceCount body → c'.sessionOpen = false)

theorem Took.takes_first (h : c.Took c₀ image pre 0 n) (hc : c.Serving) (hq : c₀.inBurst = false)
    (hrec : image.records = pre ++ body :: post)
    (ha : c.Answers (Record.sliceFrame body 0) raw c') :
    c.Takes c' c₀ image pre body 0 n raw := by
  have hb : Record.IsBody body := image.isBody body (by rw [hrec]; simp)
  obtain ⟨payload, hs, hl, hf⟩ := exists_first_slice hb
  have ho : c.openRecord = none :=
    Option.isNone_iff_eq_none.1 (Option.isSome_eq_false_iff.1 h.openRecord)
  have hid := h.renamed_body hq hrec
  rw [← c.renamed_slice, hs] at hid
  rw [hf] at ha
  refine (hc.answers_first ho h.busy hl ha).imp_right ?_
  rintro ⟨hraw, hc'⟩
  rw [hraw, Record.sliceAck, Record.behind]
  by_cases hm : 0 + 1 = Record.sliceCount body
  · rw [decide_eq_false (by omega), if_neg Bool.false_ne_true] at hc' ⊢
    subst hc'
    rw [if_pos hm, if_pos hm]
    exact ⟨rfl, rfl, h.completes ⟨h.busy, rfl, hid, rfl, rfl⟩ ho rfl hm, fun _ => rfl⟩
  · have hn := Record.sliceCount_pos hb
    rw [decide_eq_true (by omega), if_pos rfl] at hc' ⊢
    subst hc'
    rw [if_neg hm, if_neg hm]
    exact ⟨rfl, rfl, h.goes_on ⟨h.busy, rfl, hid, rfl, rfl⟩ rfl rfl, fun hm' => absurd hm' hm⟩

theorem Took.takes_next (h : c.Took c₀ image pre (i + 1) n) (hc : c.Serving)
    (hi : i + 1 < Record.sliceCount body)
    (ha : c.Answers (Record.sliceFrame body (i + 1)) raw c') :
    c.Takes c' c₀ image pre body (i + 1) n raw := by
  obtain ⟨code, payload, -, hl, hf⟩ := exists_slice hi
  obtain ⟨start, ho⟩ := Option.isSome_iff_exists.1 (h.openRecord.trans (decide_eq_true i.succ_pos))
  have hn : ¬ (pre = [] ∧ i + 1 = 0) := fun hn => Nat.succ_ne_zero i hn.2
  have hb := h.inBurst
  have hid := h.identity
  rw [decide_eq_false hn] at hb
  rw [if_neg hn] at hid
  rw [hf] at ha
  refine (hc.answers_fragment ho h.busy hl ha).imp_right ?_
  rintro ⟨hraw, hc'⟩
  rw [hraw, Record.sliceAck, Record.behind]
  by_cases hm : i + 1 + 1 = Record.sliceCount body
  · dsimp only at hc' ⊢
    rw [decide_eq_false (by omega), if_neg Bool.false_ne_true] at hc' ⊢
    subst hc'
    rw [if_pos hm, if_pos hm]
    exact ⟨rfl, rfl, h.completes ⟨h.busy, hb, hid, rfl, rfl⟩ rfl rfl hm, fun _ => rfl⟩
  · dsimp only at hc' ⊢
    rw [decide_eq_true (by omega), if_pos rfl] at hc' ⊢
    subst hc'
    rw [if_neg hm, if_neg hm, if_neg i.succ_ne_zero]
    exact ⟨rfl, rfl, h.goes_on ⟨h.busy, hb, hid, rfl, rfl⟩ rfl rfl, fun hm' => absurd hm' hm⟩

theorem Took.takes (h : c.Took c₀ image pre i n) (hc : c.Serving) (hq : c₀.inBurst = false)
    (hrec : image.records = pre ++ body :: post) (hi : i < Record.sliceCount body)
    (ha : c.Answers (Record.sliceFrame body i) raw c') :
    c.Takes c' c₀ image pre body i n raw := by
  cases i with
  | zero => exact h.takes_first hc hq hrec ha
  | succ i => exact h.takes_next hc hi ha

theorem injects_kept {control : ControllerControl} {k : Nat} (c : Controller)
    (hk : control = .inject .memBusy k ∨ control = .injectWrite .memBusy k) :
    (control.apply c).pending = c.pending + k ∧ (control.apply c).frameCount = c.frameCount ∧
      (control.apply c).sessionOpen = c.sessionOpen ∧ (control.apply c).progress = c.progress := by
  rcases hk with rfl | rfl
  · refine ⟨?_, rfl, rfl, rfl⟩
    simp only [ControllerControl.apply, inject, pending, List.length_append, List.length_replicate]
    omega
  · refine ⟨?_, rfl, rfl, rfl⟩
    simp only [ControllerControl.apply, injectWrite, pending, List.length_append,
      List.length_replicate]
    omega

theorem OnlyBusy.injects {control : ControllerControl} {k : Nat} (h : c.OnlyBusy)
    (hk : control = .inject .memBusy k ∨ control = .injectWrite .memBusy k) :
    (control.apply c).OnlyBusy := by
  intro status hs
  have hb := h status
  rcases hk with rfl | rfl <;>
    simp only [ControllerControl.apply, inject, injectWrite, List.mem_append,
      List.mem_replicate] at hb hs <;> tauto

theorem Took.injects {control : ControllerControl} {k : Nat} (h : c.Took c₀ image pre i n)
    (hk : control = .inject .memBusy k ∨ control = .injectWrite .memBusy k) :
    (control.apply c).Took c₀ image pre i (n + k) := by
  obtain ⟨hp, hf, -, hc⟩ := c.injects_kept hk
  simp only [progress, Prod.mk.injEq] at hc
  refine ⟨h.busy.injects hk, hc.2.2.2 ▸ h.openRecord, hc.2.1.trans h.inBurst,
    hc.2.2.1.trans h.recordCount, hc.1.trans h.identity, ?_⟩
  have := h.frameCount
  omega

/-- Since it was like `c` the controller took the whole image, and `n` busy memories were injected
meanwhile. -/
structure Committed (c' c : Controller) (image : Image) (n : Nat) : Prop where
  recordCount : c'.recordCount = c.recordCount + image.recordCount
  sessionOpen : c'.sessionOpen = false
  openRecord : c'.openRecord = none
  outbox : c'.outbox = []
  /-- There was one frame more than the image has for each busy memory that answered. -/
  frameCount : c'.frameCount + c'.pending =
    c.frameCount + image.writeFrames.length + (c.pending + n)
  version : ∀ body post, image.records = body :: post → 4 ≤ body.length →
    ∃ version front, image.version? = some version ∧
      c'.identity = { c.identity with major := version.major, minor := version.minor } ∧
      versionReport c'.identity = front ++ [version.minor, version.major]

theorem versionReport_eq (id : ChipIdentity) :
    ∃ front, versionReport id = front ++ [id.minor, id.major] :=
  ⟨_, rfl⟩

theorem Took.committed (h : c'.Took c image image.records 0 n) (hc : c'.Serving)
    (hq : c.inBurst = false) (ho : c'.sessionOpen = false) : c'.Committed c image n := by
  have hf := h.frameCount
  have hopen := Option.isNone_iff_eq_none.1 (Option.isSome_eq_false_iff.1 h.openRecord)
  refine ⟨h.recordCount, ho, hopen, hc.outbox, ?_, fun body post hrec hl => ?_⟩
  · rw [Image.writeFrames]
    omega
  · obtain ⟨_, _, version, _, -, hv⟩ := exists_version hrec hl
    have hid := h.identity
    rw [if_neg (by rw [hrec]; exact fun hn => List.cons_ne_nil _ _ hn.1), hrec] at hid
    have he := hid.trans (renamed_version hq hrec hv hl)
    obtain ⟨front, hfront⟩ := versionReport_eq c'.identity
    refine ⟨version, front, hv, he, ?_⟩
    rw [hfront, he]

/-- Before the write nothing was taken. -/
theorem took_nothing (hb : c.OnlyBusy) (ho : c.openRecord = none) (hq : c.inBurst = false) :
    c.Took c image [] 0 0 :=
  ⟨hb, by rw [ho]; rfl, hq, rfl, rfl, rfl⟩

end Controller

end FirmwareDownload
