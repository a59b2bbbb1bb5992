import FirmwareDownload.Bench
import FirmwareDownload.Proofs.Engine.Exchange
import FirmwareDownload.Proofs.Engine.Invariant
import FirmwareDownload.Proofs.Transfer.Write

/-! A write sends its image, slice by slice, and nothing else: each slice once it is its turn and
again while the memory is busy. It ends well if and only if each slice was acknowledged. -/

namespace FirmwareDownload

theorem Image.data_of_ofBytes {data : Bytes} {image : Image} (h : Image.ofBytes data = .ok image) :
    image.data = data := by
  unfold Image.ofBytes at h
  split at h
  · cases h
  · split at h
    · cases h
    · cases h
      rfl

/-- All slices before the slice `i` of `body` were sent and acknowledged, and that one was sent. -/
structure Sent (ns : List Notice) (pre : List Bytes) (body : Bytes) (i : Nat) : Prop where
  last : lastSent ns = some (Record.sliceFrame body i)
  frames : freshFrames ns = Record.upTo Record.sliceFrame pre body (i + 1)
  acks : answers ns = (Record.upTo Record.sliceAck pre body i).map some

structure Finishes (image : Image) (ns : List Notice) (result : Except DownloadError Unit) :
    Prop where
  begun : freshFrames ns ≠ []
  frames : freshFrames ns <+: image.writeFrames
  taken : result = .ok () ↔
    freshFrames ns = image.writeFrames ∧ answers ns = image.writeAcks.map some

section

variable {image : Image} {ns ns' : List Notice} {pre post : List Bytes} {body raw : Bytes} {i : Nat}

theorem Sent.congr (h : Sent ns pre body i) (hs : SameExchange ns' ns) : Sent ns' pre body i :=
  ⟨hs.lastSent.trans h.last, hs.freshFrames.trans h.frames, hs.answers.trans h.acks⟩

theorem Finishes.congr {result : Except DownloadError Unit} (h : Finishes image ns result)
    (hs : SameExchange ns' ns) : Finishes image ns' result := by
  refine ⟨hs.freshFrames ▸ h.begun, hs.freshFrames ▸ h.frames, ?_⟩
  rw [hs.freshFrames, hs.answers]
  exact h.taken

theorem Sent.begun (h : Sent ns pre body i) (hi : i < Record.sliceCount body) :
    freshFrames ns ≠ [] := by
  rw [h.frames, Record.upTo_succ _ _ hi]
  exact List.append_ne_nil_of_right_ne_nil _ (List.cons_ne_nil _ _)

theorem Sent.isPrefix_frames (h : Sent ns pre body i) (hr : image.records = pre ++ body :: post) :
    freshFrames ns <+: image.writeFrames := by
  rw [h.frames, Image.writeFrames, hr]
  exact Record.isPrefix_upTo Record.sliceFrame pre body post (i + 1)

theorem Sent.isPrefix_next (h : Sent ns pre body i) (hr : image.records = pre ++ body :: post)
    (hi : i < Record.sliceCount body) :
    answers ns ++ [some (Record.sliceAck body i)] <+: image.writeAcks.map some := by
  have hp := Record.isPrefix_upTo_next Record.sliceAck pre hi post
  rw [h.acks, Image.writeAcks, hr, ← List.map_singleton, ← List.map_append]
  exact hp.map some

theorem Sent.fails (h : Sent ns pre body i) (hr : image.records = pre ++ body :: post)
    (hi : i < Record.sliceCount body) (err : DownloadError) :
    Finishes image ns (.error err) := by
  refine ⟨h.begun hi, h.isPrefix_frames hr, fun he => (nomatch he), fun ha => ?_⟩
  have hl := (ha.2 ▸ h.isPrefix_next hr hi).length_le
  rw [List.length_append, List.length_singleton] at hl
  omega

theorem Sent.busy (h : Sent ns pre body i) (hb : statusOf raw = some .memBusy) :
    Sent (.received raw :: ns) pre body i := by
  refine ⟨h.last, h.frames, ?_⟩
  rw [answers, if_pos hb, List.append_nil]
  exact h.acks

theorem Sent.refused (h : Sent ns pre body i) (hr : image.records = pre ++ body :: post)
    (hi : i < Record.sliceCount body) (hb : statusOf raw ≠ some .memBusy)
    (ha : statusOf raw ≠ some (Record.sliceAck body i)) (err : DownloadError) :
    Finishes image (.received raw :: ns) (.error err) := by
  refine ⟨h.begun hi, h.isPrefix_frames hr, fun he => (nomatch he), fun hall => ?_⟩
  have hp := h.isPrefix_next hr hi
  rw [← hall.2, answers, if_neg hb] at hp
  have he := List.append_cancel_left (hp.eq_of_length (by simp))
  exact (ha (List.cons.inj he).1.symm).elim

theorem sliceAck_ne_memBusy (body : Bytes) (i : Nat) : Record.sliceAck body i ≠ .memBusy := by
  unfold Record.sliceAck
  split
  · exact Status.noConfusion
  · split <;> exact Status.noConfusion

theorem Sent.acknowledged (h : Sent ns pre body i) (hi : i < Record.sliceCount body)
    (ha : statusOf raw = some (Record.sliceAck body i)) :
    answers (.received raw :: ns) = (Record.upTo Record.sliceAck pre body (i + 1)).map some := by
  have hb : statusOf raw ≠ some .memBusy := by
    rw [ha]
    exact fun he => sliceAck_ne_memBusy body i (Option.some.inj he)
  rw [answers, if_neg hb, h.acks, ha, Record.upTo_succ _ pre hi, List.map_append]
  rfl

theorem Sent.done (h : Sent ns pre body i) (hr : image.records = pre ++ [body])
    (hi : i + 1 = Record.sliceCount body) (ha : statusOf raw = some (Record.sliceAck body i)) :
    Finishes image (.received raw :: ns) (.ok ()) := by
  have hf : freshFrames (.received raw :: ns) = image.writeFrames := by
    rw [Image.writeFrames, hr]
    exact h.frames.trans (hi ▸ Record.upTo_sliceCount Record.sliceFrame pre body)
  have hi' : i < Record.sliceCount body := by omega
  refine ⟨h.begun hi', hf ▸ List.prefix_rfl, fun _ => ⟨hf, ?_⟩, fun _ => rfl⟩
  rw [h.acknowledged hi' ha, hi, Record.upTo_sliceCount, Image.writeAcks, hr]
  rfl

theorem Sent.next {pre' : List Bytes} {body' : Bytes} {i' : Nat} (h : Sent ns pre body i)
    (hi : i < Record.sliceCount body) (ha : statusOf raw = some (Record.sliceAck body i))
    (hi' : i' < Record.sliceCount body')
    (hu : ∀ {α : Type} (g : Bytes → Nat → α),
      Record.upTo g pre' body' i' = Record.upTo g pre body (i + 1)) :
    Sent (.sent (Record.sliceFrame body' i') :: .received raw :: ns) pre' body' i' := by
  have ho : ¬ Retransmits (.received raw :: ns) (Record.sliceFrame body' i') := by
    intro hre
    have hb := of_decide_eq_true hre.1
    rw [ha] at hb
    exact sliceAck_ne_memBusy body i (Option.some.inj hb)
  refine ⟨rfl, ?_, ?_⟩
  · rw [freshFrames, if_neg ho, Record.upTo_succ _ pre' hi', hu]
    exact congrArg (· ++ _) h.frames
  · exact (h.acknowledged hi ha).trans (congrArg _ (hu Record.sliceAck).symm)

theorem Sent.again (h : Sent ns pre body i) (ho : owesResend ns = true) :
    Sent (.sent (Record.sliceFrame body i) :: ns) pre body i := by
  refine ⟨rfl, ?_, h.acks⟩
  rw [freshFrames, if_pos ⟨ho, h.last⟩, List.append_nil]
  exact h.frames

end

/-! ## The session -/

theorem Transfer.Behind.next {t : Transfer} {total : Nat} {pre post : List Bytes} {body : Bytes}
    {i : Nat} (h : t.Behind total pre body i)
    (hm : ¬ (i + 1 = Record.sliceCount body ∧ post = [])) :
    ∃ pre' body' post' i', pre ++ body :: post = pre' ++ body' :: post' ∧
      t.Ready total pre' body' i' ∧ Record.behind pre body i = (pre', i') ∧
      ∀ {α : Type} (g : Bytes → Nat → α),
        Record.upTo g pre' body' i' = Record.upTo g pre body (i + 1) := by
  rcases h with ⟨hc, ht, -⟩ | ⟨hn, ht⟩
  · cases post with
    | nil => exact (hm ⟨hc, rfl⟩).elim
    | cons next post =>
      refine ⟨pre ++ [body], next, post, 0, by simp, .inl ⟨rfl, ht⟩, if_pos hc, fun g => ?_⟩
      rw [hc, Record.upTo_zero, Record.upTo_sliceCount]
  · exact ⟨pre, body, post, i + 1, rfl, .inr ht, if_neg (Nat.ne_of_lt hn), fun g => rfl⟩

namespace Session

/-- The frame in flight carries the slice `i` of `body`, a record of the image between `pre` and
`post`. -/
structure Writing (s : Session) (image : Image) (pre : List Bytes) (body : Bytes)
    (post : List Bytes) (i : Nat) : Prop where
  records : image.records = pre ++ body :: post
  request : s.request = .write
  userData : s.userData = some image.data.toArray
  silent : s.responseLength = 0
  frame : s.frame.bytes = Record.sliceFrame body i
  transfer : s.transfer.InFlight image.data.toArray.size pre body i

/-- All that a write looks at. -/
def outgoing (s : Session) : Request × Option (Array UInt8) × Nat × FrameBuffer × Transfer :=
  (s.request, s.userData, s.responseLength, s.frame, s.transfer)

theorem compose_write {s : Session} {data : Array UInt8} (hr : s.request = .write)
    (hu : s.userData = some data) : s.compose =
      { s with transfer := (s.transfer.composeWrite data s.frame).2 }.setFrame
        (s.transfer.composeWrite data s.frame).1 := by
  cases s
  cases hr
  cases hu
  rfl

variable {s : Session} {image : Image} {pre post : List Bytes} {body raw : Bytes} {i : Nat}

theorem Writing.congr {s' : Session} (h : s.Writing image pre body post i)
    (hs : s'.outgoing = s.outgoing) : s'.Writing image pre body post i := by
  obtain ⟨hr, hu, hl, hf, ht⟩ : s'.request = s.request ∧ s'.userData = s.userData ∧
      s'.responseLength = s.responseLength ∧ s'.frame = s.frame ∧ s'.transfer = s.transfer := by
    simpa [outgoing] using hs
  refine ⟨h.records, hr.trans h.request, hu.trans h.userData, hl.trans h.silent, ?_, ?_⟩
  · rw [hf, h.frame]
  · rw [ht]
    exact h.transfer

theorem Writing.handleAnswer_ack (h : s.Writing image pre body post i)
    (hc : s.command = some .write) (ha : statusOf raw = some (Record.sliceAck body i)) :
    ∃ t : Transfer, s.handleAnswer raw = (if 0 < t.remaining then .proceed else .done,
        s.taking t (Record.sliceAck body i)) ∧
      t.Behind image.data.toArray.size pre body i := by
  obtain ⟨answer, hd, hs⟩ := statusOf_eq_some ha
  obtain ⟨t, he, ht⟩ := h.transfer.acceptWrite_ack
  refine ⟨t, ?_, ht⟩
  rw [handleAnswer_write hc, hd]
  dsimp only
  rw [hs, if_neg (sliceAck_ne_memBusy body i), he]

theorem Writing.handleAnswer_refused (h : s.Writing image pre body post i)
    (hc : s.command = some .write) (hb : statusOf raw ≠ some .memBusy)
    (ha : statusOf raw ≠ some (Record.sliceAck body i)) :
    ∃ err s', s.handleAnswer raw = (.failed err, s') ∧ s'.responseLength = 0 := by
  rw [handleAnswer_write hc]
  cases hd : Frame.decode raw with
  | error e => exact ⟨_, s, rfl, h.silent⟩
  | ok answer =>
    have hs : statusOf raw = some answer.status := by rw [statusOf, hd]
    rw [hs] at hb ha
    obtain ⟨err, t, he⟩ := h.transfer.acceptWrite_ne (fun he => ha (congrArg some he))
    dsimp only
    rw [if_neg (fun he => hb (congrArg some he)), he]
    exact ⟨err, _, rfl, h.silent⟩

theorem compose_writing (hrec : image.records = pre ++ body :: post) (hr : s.request = .write)
    (hu : s.userData = some image.data.toArray) (hl : s.responseLength = 0)
    (ht : s.transfer.Ready image.data.toArray.size pre body i) :
    ∃ s', s.compose = (.ok (), s') ∧ s'.Writing image pre body post i := by
  have hd : image.data.toArray.toList = (pre ++ body :: post).flatMap Record.encode :=
    hrec ▸ image.data_eq
  have hb : Record.IsBody body := image.isBody body (by rw [hrec]; simp)
  obtain ⟨frame, t, he, hf, hin⟩ := ht.composeWrite s.frame hd hb
  rw [compose_write hr hu, he]
  exact ⟨_, rfl, hrec, hr, hu, hl, hf, hin⟩

theorem compose_first (hrec : image.records = body :: post) (hr : s.request = .write)
    (hu : s.userData = some image.data.toArray) (hl : s.responseLength = 0)
    (ht : s.transfer.AtRecord image.data.toArray.size []) :
    ∃ s', s.compose = (.ok (), s') ∧ s'.Writing image [] body post 0 := by
  have hrec' : image.records = [] ++ body :: post := hrec
  exact compose_writing hrec' hr hu hl (.inl ⟨rfl, ht⟩)

/-- The session writes the image and `ns` tells how far it is. Only a frame that was answered by a
busy memory is waited for to be sent again. -/
def Carries (s : Session) (image : Image) (ns : List Notice) : Prop :=
  ∃ pre body post i, s.Writing image pre body post i ∧ Sent ns pre body i ∧
    (s.phase = .timer → s.timer.purpose = .resendWait → owesResend ns = true)

theorem Carries.fails {ns : List Notice} (h : s.Carries image ns) (err : DownloadError) :
    s.responseLength = 0 ∧ Finishes image ns (.error err) := by
  obtain ⟨pre, body, post, i, hw, hs, -⟩ := h
  exact ⟨hw.silent, hs.fails hw.records hw.transfer.lt_sliceCount err⟩

def Outlines (s : Session) (image : Image) (ns : List Notice) :
    Option (Except DownloadError Unit) → Prop
  | none => s.Carries image ns
  | some result => s.responseLength = 0 ∧ Finishes image ns result

theorem Carries.outlines {ns : List Notice} {W : Type} [Host W]
    {outcome : Option (Except DownloadError Unit)} (h : s.Carries image ns)
    (ho : Engine.Unhindered W outcome) : s.Outlines image ns outcome := by
  cases ho with
  | goes => exact h
  | fails => exact h.fails _

end Session

namespace Engine

variable {W : Type} [Host W] {e e' : Engine W} {id : TimerId} {signal : Signal} {s : Session}
  {ns ns' : List Notice} {outcome : Option (Except DownloadError Unit)} {image : Image}

/-! ## Steps of a write -/

theorem Reacts.outlines_busy {r : Ticket} {raw : Bytes} (hw : e.session.Waiting .write id)
    (hc : e.session.Carries image ns) (hb : statusOf raw = some .memBusy)
    (h : e.Reacts e' .write id (.received r (.ok raw)) s ns' outcome) :
    s.Outlines image (ns' ++ ns) outcome := by
  obtain ⟨pre, body, post, i, hwr, hs, -⟩ := hc
  obtain ⟨after, hp, rfl, h'⟩ := h.of_resend (Session.handleAnswer_memBusy hw.command rfl hb)
  have hx := e.session.sameExchange_answerNotices raw ns
  rw [List.append_assoc]
  have hx' := (hp.sameExchange _).trans hx
  have hs' := (hs.busy hb).congr hx'
  rcases h' with ⟨rfl, err, rfl⟩ | ⟨t, rfl, rfl⟩
  · exact ⟨hwr.silent, hs'.fails hwr.records hwr.transfer.lt_sliceCount err⟩
  · refine ⟨pre, body, post, i, hwr.congr rfl, hs', fun _ _ => ?_⟩
    rw [hx'.owesResend, owesResend, hb]
    rfl

theorem Reacts.outlines_ack {r : Ticket} {raw : Bytes} {pre post : List Bytes} {body : Bytes}
    {i : Nat} (hw : e.session.Waiting .write id) (hwr : e.session.Writing image pre body post i)
    (hs : Sent ns pre body i) (hk : statusOf raw = some (Record.sliceAck body i))
    (h : e.Reacts e' .write id (.received r (.ok raw)) s ns' outcome) :
    s.Outlines image (ns' ++ ns) outcome := by
  have hwr' : e.session.answering.Writing image pre body post i := hwr.congr rfl
  have hx := e.session.sameExchange_answerNotices raw ns
  have hd : image.data.toArray.toList = (pre ++ body :: post).flatMap Record.encode :=
    hwr.records ▸ image.data_eq
  obtain ⟨t, ha, ht⟩ := hwr'.handleAnswer_ack hw.command hk
  -- The last slice of the last record ends the write; behind any other one the next is sent.
  by_cases hm : i + 1 = Record.sliceCount body ∧ post = []
  · have hr : ¬ 0 < t.remaining := fun hr => (ht.more_iff hd).1 hr hm
    rw [if_neg hr] at ha
    obtain ⟨rfl, rfl, rfl⟩ := h.of_done ha
    exact ⟨hwr.silent, (hs.done (hm.2 ▸ hwr.records) hm.1 hk).congr hx⟩
  · rw [if_pos ((ht.more_iff hd).2 hm)] at ha
    obtain ⟨pre', body', post', i', hrec, hrd, -, hu⟩ := ht.next hm
    obtain ⟨s₂, hc, hw₂⟩ := Session.compose_writing (hwr.records.trans hrec)
      (s := { e.session.answering.taking t (Record.sliceAck body i) with phase := .send })
      hwr.request hwr.userData hwr.silent hrd
    rcases h.of_proceed ha with ⟨err, hc', -, -⟩ | ⟨s₂', t', hc', rfl, rfl, ho⟩
    · cases hc.symm.trans hc'
    · obtain ⟨-, rfl⟩ := Prod.ext_iff.1 (hc.symm.trans hc')
      have hn := hs.next hwr.transfer.lt_sliceCount hk hw₂.transfer.lt_sliceCount hu
      refine Session.Carries.outlines ⟨pre', body', post', i', hw₂.congr rfl, hn.congr ?_,
        fun hp => nomatch hp⟩ ho
      have hpl : Plain [.moved .send .recv, .moved .response .send] :=
        .of_all rfl
      exact hw₂.frame ▸ ((hpl.sameExchange _).trans hx).sent s₂.frame.bytes

theorem Reacts.outlines_received {r : Ticket} {raw : Bytes} (hw : e.session.Waiting .write id)
    (hc : e.session.Carries image ns)
    (h : e.Reacts e' .write id (.received r (.ok raw)) s ns' outcome) :
    s.Outlines image (ns' ++ ns) outcome := by
  by_cases hb : statusOf raw = some .memBusy
  · exact h.outlines_busy hw hc hb
  · obtain ⟨pre, body, post, i, hwr, hs, -⟩ := hc
    by_cases hk : statusOf raw = some (Record.sliceAck body i)
    · exact h.outlines_ack hw hwr hs hk
    · have hwr' : e.session.answering.Writing image pre body post i := hwr.congr rfl
      obtain ⟨err, s', ha, hl⟩ := hwr'.handleAnswer_refused hw.command hb hk
      obtain ⟨rfl, rfl, rfl⟩ := h.of_failed ha
      exact ⟨hl, (hs.refused hwr.records hwr.transfer.lt_sliceCount hb hk err).congr
        (e.session.sameExchange_answerNotices raw ns)⟩

theorem Reacts.outlines_written {w : Ticket} {result : Except LinkError Unit}
    (hc : e.session.Carries image ns)
    (h : e.Reacts e' .write id (.written w result) s ns' outcome) :
    s.Outlines image (ns' ++ ns) outcome := by
  cases h with
  | writeFailed => exact hc.fails _
  | timerRefused => exact hc.fails _
  | listens ht hr ho =>
    obtain ⟨pre, body, post, i, hwr, hs, -⟩ := hc
    have hp : Plain [.readRequested Frame.maxLength, .moved .recv .timer,
        .timerArmed id e.config.responseTimeout.toNat] :=
      .of_all rfl
    exact Session.Carries.outlines ⟨pre, body, post, i, hwr.congr rfl,
      hs.congr (hp.sameExchange ns), fun _ hp => nomatch hp⟩ ho

theorem Reacts.outlines_expired {t : Ticket} (ha : e.session.Awaits (.expired t))
    (hc : e.session.Carries image ns)
    (h : e.Reacts e' .write id (.expired t) s ns' outcome) :
    s.Outlines image (ns' ++ ns) outcome := by
  cases h with
  | silent =>
    have hp : Plain (e.session.venResetNotices e.config ++
        [.timeout .write, .moved .timer .response]) :=
      (Session.plain_venResetNotices _ _).append (.of_all rfl)
    obtain ⟨hl, hf⟩ := hc.fails .timeout
    exact ⟨hl, hf.congr (hp.sameExchange ns)⟩
  | resends hp hd ho =>
    obtain ⟨pre, body, post, i, hwr, hs, hb⟩ := hc
    have hpl : Plain [.moved .send .recv, .moved .timer .send] := .of_all rfl
    have hx := hpl.sameExchange ns
    refine Session.Carries.outlines ⟨pre, body, post, i, hwr.congr rfl, ?_,
      fun hp => nomatch hp⟩ ho
    exact hwr.frame ▸ (hs.congr hx).again (hx.owesResend.trans (hb ha.1 hp))

theorem Reacts.outlines (hw : e.session.Waiting .write id) (ha : e.session.Awaits signal)
    (hc : e.session.Carries image ns) (h : e.Reacts e' .write id signal s ns' outcome) :
    s.Outlines image (ns' ++ ns) outcome := by
  cases signal with
  | written w result => exact h.outlines_written hc
  | expired t => exact h.outlines_expired ha hc
  | received r result =>
    cases result with
    | ok raw => exact h.outlines_received hw hc
    | error err =>
      cases h with
      | readFailed =>
        have hp : Plain (.moved .timer .response :: e.session.haltNotices) :=
          e.session.plain_haltNotices.cons rfl
        obtain ⟨hl, hf⟩ := hc.fails (.failed (.link err))
        exact ⟨hl, hf.congr (hp.sameExchange ns)⟩

/-! ## The course of a write -/

/-- Since `e` a write of the image was started: it is under way, or it is over. -/
structure Course (e : Engine W) (image : Image) (e' : Engine W) : Prop where
  standing : e'.Standing
  ongoing : ∃ ns, e'.journal = ns ++ e.journal ∧
    ((e'.delivered = e.delivered ∧ (∃ id, e'.session.Waiting .write id) ∧
        e'.session.Carries image ns) ∨
      e'.session.Idle ∧ ∃ result, e'.delivered = ⟨.write, result, []⟩ :: e.delivered ∧
        Finishes image ns result)

theorem Course.reacts {rest : List Signal} {command : Command} {e₁ : Engine W}
    (h : e.Course image e') (hw : e'.session.Waiting command id) (ha : e'.session.Awaits signal)
    (hr : (e'.popped rest).Reacts e₁ command id signal s ns' outcome)
    (ht : (e'.popped rest).Turns s ns' command outcome e₁) (hs : e₁.Standing) :
    e.Course image e₁ := by
  obtain ⟨ns, hj, ⟨hd, ⟨id', hw'⟩, hc⟩ | ⟨hi, -⟩⟩ := h.ongoing
  · obtain rfl := Option.some.inj (hw'.command.symm.trans hw.command)
    have ho := Reacts.outlines (e := e'.popped rest) hw ha hc hr
    cases outcome with
    | none =>
      refine ⟨hs, ns' ++ ns, ?_, .inl ⟨ht.delivered.trans hd, ⟨id, ?_⟩, ht.session ▸ ho⟩⟩
      · rw [ht.journal, List.append_assoc, ← hj]
        rfl
      · rw [ht.session]
        exact Reacts.waiting (e := e'.popped rest) hw ha hr rfl
    | some result =>
      obtain ⟨hl, hf⟩ := ho
      refine ⟨hs, _, ?_, .inr ⟨?_, result, ?_,
        hf.congr ((s.plain_endNotices.sameExchange _).finished .write (errorOf result))⟩⟩
      · rw [ht.journal, show (e'.popped rest).journal = ns ++ e.journal from hj]
        simp only [List.cons_append, List.append_assoc]
      · rw [ht.session]
        exact Session.idle_reset _
      · rw [ht.delivered, hl, ResponseBuffer.take_eq, List.take_zero]
        exact congrArg (_ :: ·) hd
  · -- Once the write is over no session waits, and none is started by the link or a timer.
    have hb : e'.session.busy = false := by rw [hi]; rfl
    cases hb.symm.trans hw.busy

/-- A move of the link and the timers, or the handling of a signal, keeps to the course. -/
theorem Course.move (h : e.Course image e') {m : Move W} (hm : m.Serves) :
    e.Course image (e'.move m) := by
  have hs := (h.standing.move_advances m).standing h.standing
  cases hm with
  | arrive signals => exact ⟨hs, h.ongoing⟩
  | pass w => exact ⟨hs, h.ongoing⟩
  | handleNext =>
    have hh := h.standing.handleNext_handles
    unfold Engine.move at hs ⊢
    dsimp only at hs ⊢
    generalize e'.handleNext.getD e' = e₁ at hh hs
    cases hh with
    | nothing => exact h
    | ignores => exact ⟨hs, h.ongoing⟩
    | reacts hq hw ha hr ht => exact h.reacts hw ha hr ht hs

theorem Course.run (h : e.Course image e') {moves : List (Move W)}
    (hm : ∀ m ∈ moves, Move.Serves m) : e.Course image (e'.run moves) := by
  induction moves generalizing e' with
  | nil => exact h
  | cons m moves ih =>
    exact ih (h.move (hm m (List.mem_cons_self ..)))
      (fun m' hm' => hm m' (List.mem_cons_of_mem m hm'))

omit [Host W] in
theorem Course.frames (h : e.Course image e') : ∃ ns, e'.journal = ns ++ e.journal ∧
    freshFrames ns ≠ [] ∧ freshFrames ns <+: image.writeFrames := by
  obtain ⟨ns, hj, ⟨-, -, hc⟩ | ⟨-, result, -, hf⟩⟩ := h.ongoing
  · have hf := (hc.fails .timeout).2
    exact ⟨ns, hj, hf.begun, hf.frames⟩
  · exact ⟨ns, hj, hf.begun, hf.frames⟩

theorem Launches.carries {failure : Option DownloadError}
    (h : e.Launches e' (e.session.writing.armed .write .write (some image.data) 0) s ns failure) :
    failure ≠ none ∧ freshFrames (ns ++ [.started .write]) = [] ∨
      s.Carries image (ns ++ [.started .write]) := by
  obtain ⟨body, post, hrec⟩ := image.exists_record
  cases h with
  | noTimer => exact .inl ⟨Option.some_ne_none _, rfl⟩
  | frameRefused => exact .inl ⟨Option.some_ne_none _, rfl⟩
  | @sends id t s _ hc _ _ =>
    obtain ⟨s', hc', hw⟩ := Session.compose_first hrec
      (s := { (e.session.writing.armed .write .write (some image.data) 0).timed id with
        phase := .send }) rfl rfl rfl ⟨rfl, rfl, .inl ⟨rfl, rfl⟩⟩
    obtain ⟨-, rfl⟩ := Prod.ext_iff.1 (hc'.symm.trans hc)
    refine .inr ⟨[], body, post, 0, hw.congr rfl, ⟨congrArg some hw.frame, ?_, rfl⟩,
      fun hp => nomatch hp⟩
    rw [Record.upTo_succ _ _ hw.transfer.lt_sliceCount, ← hw.frame]
    rfl

def Takes (e : Engine W) (recovery : Bool) (image : Image) : Option Bytes → Prop
  | some data => Image.ofBytes data = .ok image
  | none => e.library (.select recovery e.session.lastStatus) = .ok image ∨
    ImageKind.select recovery e.session.lastStatus = .primary ∧ e.primary = some image

variable {recovery : Bool} {data : Option Bytes}

omit [Host W] in
theorem Prepares.write_eq {ns₀ : List Notice} {s₀ : Session} {request : Request}
    {userData : Option Bytes} {capacity : Nat}
    (h : e.Prepares (.write recovery data) s₀ ns₀ request userData capacity) :
    ∃ image, e.Takes recovery image data ∧ s₀ = e.session.writing ∧ ns₀ = [] ∧
      request = .write ∧ userData = some image.data ∧ capacity = 0 := by
  cases h with
  | plain hc => exact (hc rfl).elim
  | read hc => cases hc
  | readPlatform hc => cases hc
  | @write _ _ image hc hi =>
    cases hc
    refine ⟨image, hi, rfl, rfl, rfl, ?_, rfl⟩
    rw [Image.data_of_ofBytes hi]
  | writeNamed hc hi =>
    cases hc
    exact ⟨_, hi, rfl, rfl, rfl, rfl, rfl⟩

theorem Calls.course (hs : e.Standing) (h : e.Calls (.write recovery data) (.ok ()) e') :
    ∃ image, e.Takes recovery image data ∧ e.Course image e' := by
  have hst := h.standing hs
  cases h with
  | starts hidle hpre hl hp =>
    obtain ⟨image, hi, rfl, rfl, rfl, rfl, rfl⟩ := hpre.write_eq
    obtain ⟨id, hw⟩ := hl.waiting rfl rfl rfl rfl (by rw [hidle]; rfl)
    rcases hl.carries with ⟨hn, -⟩ | hc
    · exact (hn rfl).elim
    · exact ⟨image, hi, hst, _, hp.journal, .inl ⟨hp.delivered, ⟨id, hp.session ▸ hw⟩,
        hp.session ▸ hc⟩⟩

/-- Even a write that is not accepted sends nothing but its image. -/
theorem Calls.frames {r : Except DownloadError Unit} (hs : e.Standing)
    (h : e.Calls (.write recovery data) r e') : ∃ ns, e'.journal = ns ++ e.journal ∧
      (freshFrames ns = [] ∨
        ∃ image, e.Takes recovery image data ∧ freshFrames ns <+: image.writeFrames) := by
  cases r with
  | ok =>
    obtain ⟨image, hi, hc⟩ := h.course hs
    obtain ⟨ns, hj, -, hf⟩ := hc.frames
    exact ⟨ns, hj, .inr ⟨image, hi, hf⟩⟩
  | error err =>
    cases h with
    | @refused _ ns _ hn hp =>
      refine ⟨ns, hp.journal, .inl ?_⟩
      rcases hn with rfl | rfl <;> rfl
    | @undone _ s _ ns _ _ _ _ _ _ hpre hl hp =>
      obtain ⟨image, hi, rfl, rfl, rfl, rfl, rfl⟩ := hpre.write_eq
      have hx := ((s.plain_releaseNotices.sameExchange (ns ++ [.started .write])).finished
        .write (some err)).freshFrames
      refine ⟨_, hp.journal, ?_⟩
      rcases hl.carries with ⟨-, hn⟩ | hc
      · exact .inl (hx.trans hn)
      · exact .inr ⟨image, hi, hx ▸ (hc.fails .timeout).2.frames⟩

/-- What goes over the link since a write of an image was accepted is the image, slice by slice,
but for frames that a busy memory makes it send again, and the write succeeds if and only if all
of it went over and each slice was acknowledged. -/
theorem write_sends_image (config : Config) (library : ImageLibrary) (w : W)
    (moves : List (Move W)) (recovery : Bool) (data : Bytes) (image : Image) (e₁ : Engine W)
    (later : List (Move W)) (hi : Image.ofBytes data = .ok image)
    (hc : ((fresh config library w).run moves).call (.write recovery (some data)) = (.ok (), e₁))
    (hl : ∀ m ∈ later, Move.Serves m) :
    let e := (fresh config library w).run moves
    let e₂ := e₁.run later
    ∃ ns, e₂.journal = ns ++ e.journal ∧ freshFrames ns <+: image.writeFrames ∧
      (e₂.delivered = e.delivered ∨
        ∃ result, e₂.delivered = ⟨.write, result, []⟩ :: e.delivered) ∧
      (e₂.delivered = ⟨.write, .ok (), []⟩ :: e.delivered ↔
        freshFrames ns = image.writeFrames ∧ answers ns = image.writeAcks.map some) := by
  have hs := (standing_fresh config library w).run moves
  dsimp only
  generalize (fresh config library w).run moves = e at hc hs
  have hca := hs.call_calls (.write recovery (some data))
  rw [hc] at hca
  obtain ⟨image', hi', hcr⟩ := hca.course hs
  obtain rfl := Except.ok.inj (hi'.symm.trans hi)
  obtain ⟨ns, hj, ⟨hd, -, hcr⟩ | ⟨-, result, hd, hf⟩⟩ := (hcr.run hl).ongoing
  · have hf := (hcr.fails .timeout).2
    refine ⟨ns, hj, hf.frames, .inl hd, ?_, fun h => nomatch hf.taken.2 h⟩
    rw [hd]
    exact fun h => (List.cons_ne_self _ _ h.symm).elim
  · refine ⟨ns, hj, hf.frames, .inr ⟨result, hd⟩, ?_⟩
    rw [hd, ← hf.taken, List.cons.injEq, Completion.mk.injEq]
    exact ⟨fun h => h.1.2.1, fun h => ⟨⟨rfl, h, rfl⟩, rfl⟩⟩

def twoSlices : Bytes := [0, 253, 0xC0] ++ List.replicate 252 0

/-- The first slice is acknowledged, the second meets a busy memory before it is. -/
def busyOnce : Bench MockLink :=
  { link := { answers := [0x2D, 0x20, 0x00].map (fun status => Frame.wrap [status] false) } }

def busyMoves : List (Move (Bench MockLink)) :=
  [.handleNext, .handleNext, .handleNext, .handleNext, .arrive [.expired 7], .handleNext,
    .handleNext, .handleNext]

theorem write_sends_image_past_busy :
    ∃ image e₁, Image.ofBytes twoSlices = .ok image ∧
      (fresh {} (ImageLibrary.ofList []) busyOnce).call (.write false (some twoSlices)) =
        (.ok (), e₁) ∧
      (∀ m ∈ busyMoves, Move.Serves m) ∧
      ∃ ns, (e₁.run busyMoves).journal = ns ++ [] ∧
        (e₁.run busyMoves).delivered = [⟨.write, .ok (), []⟩] ∧
        freshFrames ns = image.writeFrames ∧ answers ns = image.writeAcks.map some := by
  have hi : (Image.ofBytes twoSlices).isOk = true := by decide +kernel
  have hm : ∀ m ∈ busyMoves, Move.Serves m := by
    simp [busyMoves, Move.Serves.handleNext, Move.Serves.arrive]
  obtain ⟨hc, hr⟩ : (((fresh {} (ImageLibrary.ofList []) busyOnce).call
      (.write false (some twoSlices))).1.isOk = true) ∧
      (((fresh {} (ImageLibrary.ofList []) busyOnce).call
        (.write false (some twoSlices))).2.run busyMoves).delivered.map (fun c => c.result.isOk) =
        [true] := by decide +kernel
  cases himg : Image.ofBytes twoSlices with
  | error err => rw [himg] at hi; cases hi
  | ok image =>
    rcases hcall : (fresh {} (ImageLibrary.ofList []) busyOnce).call
      (.write false (some twoSlices)) with ⟨r, e₁⟩
    rw [hcall] at hc hr
    cases r with
    | error err => cases hc
    | ok =>
      obtain ⟨ns, hj, -, hd, hiff⟩ := write_sends_image {} (ImageLibrary.ofList []) busyOnce []
        false twoSlices image e₁ busyMoves himg hcall hm
      have hd' : (e₁.run busyMoves).delivered = [⟨.write, .ok (), []⟩] := by
        rcases hd with hd | ⟨result, hd⟩
        · rw [hd] at hr
          cases hr
        · rw [hd] at hr ⊢
          cases result with
          | error err => cases hr
          | ok => rfl
      exact ⟨image, e₁, rfl, rfl, hm, ns, hj, hd', hiff.1 hd'⟩

end Engine

end FirmwareDownload
