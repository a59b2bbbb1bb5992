import FirmwareDownload.Proofs.Bench.Conversation
import FirmwareDownload.Proofs.Engine.Pursuit
import FirmwareDownload.Proofs.Engine.Reading
import FirmwareDownload.Proofs.Engine.Writing
import FirmwareDownload.Proofs.Frame.Codec

/-! The commands of a download on a calm bench. Each is a conversation of its own, and it ends well
if the link holds its part of it. -/

namespace FirmwareDownload

theorem Record.statusOf_exchange (body : Bytes) (i : Nat) :
    statusOf (exchange body i).2 = some (sliceAck body i) := by
  refine (statusOf_of_decode (Frame.decode_wrap (by simp))).trans (congrArg some ?_)
  unfold Frame.status sliceAck
  split
  · rfl
  · split <;> rfl

/-- The frame of a call, if its command is to ask one thing of the controller. -/
def Call.question? (chip : ChipFamily) : Call → Option Frame
  | .getVersion _ => some (Request.fixedFrame RequestId.getVersion)
  | .getSessionState _ => some (Request.fixedFrame RequestId.getSessionState)
  | .checkIntegrity revision _ =>
    some (Request.integrityFrame (if coversUserData revision then some chip.userDataArea else none))
  | .log entry => some (Request.logFrame entry)
  | .force clock => some (Request.forceFrame (clockBytes clock).1 (clockBytes clock).2.1
      (clockBytes clock).2.2)
  | _ => none

/-- There is room for an answer of some length, or the entry has a length that the log takes. -/
def Call.Sound : Call → Prop
  | .getVersion capacity => capacity ≠ 0
  | .getSessionState capacity => capacity ≠ 0
  | .checkIntegrity _ capacity => capacity ≠ 0
  | .log entry => entry ≠ [] ∧ entry.length ≤ logAreaSize
  | _ => True

namespace Session

variable {s s' : Session} {command : Command} {raw data : Bytes} {f answer : Frame}

theorem setFrame_encode (s : Session) (h : f.payload.length ≤ 251) :
    ∃ frame, s.setFrame (Transfer.liftFrame (s.frame.encode f)) =
      (.ok (), { s with frame := frame }) ∧ frame.bytes = f.wire := by
  obtain ⟨frame, he⟩ := s.frame.encode_ok ((Frame.fits_iff _).2 h)
  refine ⟨frame, ?_, FrameBuffer.bytes_encode he⟩
  rw [he]
  rfl

theorem keepAnswer_ok (s : Session) (hl : data.length ≤ s.response.capacity)
    (hz : s.responseLength = 0) : ∃ s', s.keepAnswer data = (.ok (), s') ∧
      s'.transfer = s.transfer ∧ s'.response.take s'.responseLength = data := by
  by_cases hc : s.response.capacity = 0
  · have hd : data = [] := List.eq_nil_of_length_eq_zero (by omega)
    refine ⟨s, if_pos hc, rfl, ?_⟩
    rw [hz, hd, ResponseBuffer.take_eq, List.take_zero]
  · have hst : ∃ b, s.response.store? 0 data = some b := ⟨_, dif_pos (by omega)⟩
    obtain ⟨b, hb⟩ := hst
    have he : s.keepAnswer data = (.ok (), { s with response := b, responseLength := data.length }) := by
      unfold Session.keepAnswer
      rw [if_neg hc, hb]
    have hk := keepAnswer_kept (congrArg Prod.fst he) hc
    rw [he] at hk
    exact ⟨_, he, rfl, hk⟩

theorem handleAnswer_granted (hc : s.command = some command) (ha : command.asks = true)
    (hd : Frame.decode raw = .ok answer) (hs : answer.status = .ok)
    (hl : answer.payload.length ≤ s.response.capacity) (hz : s.responseLength = 0)
    (ht : s.transfer.remaining = 0) : ∃ s', s.handleAnswer raw = (.done, s') ∧
      s'.response.take s'.responseLength = answer.payload := by
  have hr : command ≠ .raw := by
    rintro rfl
    cases ha
  obtain ⟨s', he, hts, hp⟩ := keepAnswer_ok { s with resendCount := 0 } hl hz
  refine ⟨s', ?_, hp⟩
  rw [handleAnswer_framed hc hr, hd]
  dsimp only
  rw [if_neg (by rw [hs]; exact fun h => Status.noConfusion h.1), applyAnswer_asks ha, if_pos hs, he]
  dsimp only
  rw [if_neg (by rw [hts]; simp [ht])]

theorem performs_asking (ha : command.asks = true)
    (hc : s.compose = s.setFrame (Transfer.liftFrame (s.frame.encode f)))
    (hf : f.payload.length ≤ 251) (hd : Frame.decode raw = .ok answer) (hs : answer.status = .ok)
    (hl : answer.payload.length ≤ s.response.capacity) (hz : s.responseLength = 0)
    (ht : s.transfer.remaining = 0) : s.Performs command answer.payload [(f.wire, raw)] := by
  obtain ⟨frame, he, hb⟩ := s.setFrame_encode hf
  refine ⟨_, hc.trans he, hb, fun s₁ hcargo hc₁ => ?_⟩
  exact handleAnswer_granted hc₁ ha hd hs (response_of_cargo hcargo ▸ hl)
    ((responseLength_of_cargo hcargo).trans hz) (transfer_of_cargo hcargo ▸ ht)

theorem performs_reading {g : ReadRange} (hn : g.pieceCount = 1) (hr : s.request = .read g.addr)
    (hg : s.Gathered g []) (ht : s.transfer.Faces g 0) (hp : g.piece? 0 raw = some data) :
    s.Performs .read data [(g.frame 0, raw)] := by
  obtain ⟨s', hc, hw⟩ := compose_reading hr hg ht (by rw [hn]; exact Nat.zero_lt_one)
  refine ⟨s', hc, hw.frame, fun s₁ hs hc₁ => ?_⟩
  obtain ⟨s₂, ha, -, hg₂, -⟩ := (hw.congr hs).handleAnswer_piece hc₁ hp
  refine ⟨s₂, ?_, ?_⟩
  · rw [ha, hn]
    rfl
  · rw [hg₂.handOver]
    simp

/-! ## Writing an image -/

variable {image : Image} {pre post : List Bytes} {body : Bytes} {i : Nat}

theorem outgoing_of_cargo (h : s'.cargo = s.cargo) : s'.outgoing = s.outgoing := by
  simp only [cargo, Prod.mk.injEq] at h
  simp only [outgoing, Prod.mk.injEq]
  exact ⟨h.1, h.2.1, h.2.2.2.1, h.2.2.2.2.1, h.2.2.2.2.2⟩

/-- Behind a slice that was acknowledged the write is done, or the next slice is built. -/
theorem Writing.acknowledged (h : s.Writing image pre body post i) (hc : s.command = some .write)
    (hk : statusOf raw = some (Record.sliceAck body i)) :
    ∃ verdict s', s.handleAnswer raw = (verdict, s') ∧ s'.responseLength = 0 ∧ s'.resendCount = 0 ∧
      (verdict = .done ∧ Record.behind pre body i = (image.records, 0) ∧
          Record.after Record.exchange body i post = [] ∨
        ∃ s'' pre' body' post' i', verdict = .proceed ∧
          { s' with phase := .send }.compose = (.ok (), s'') ∧
          s''.Writing image pre' body' post' i' ∧ Record.behind pre body i = (pre', i') ∧
          Record.after Record.exchange body i post =
            Record.exchange body' i' :: Record.after Record.exchange body' i' post') := by
  have hd : image.data.toArray.toList = (pre ++ body :: post).flatMap Record.encode :=
    h.records ▸ image.data_eq
  obtain ⟨t, ha, ht⟩ := h.handleAnswer_ack hc hk
  refine ⟨_, _, ha, h.silent, rfl, ?_⟩
  by_cases hm : i + 1 = Record.sliceCount body ∧ post = []
  · obtain ⟨hi, rfl⟩ := hm
    have hr : ¬ 0 < t.remaining := fun hr => (ht.more_iff hd).1 hr ⟨hi, rfl⟩
    refine .inl ⟨if_neg hr, ?_, Record.after_last _ hi⟩
    rw [h.records]
    exact if_pos hi
  · obtain ⟨pre', body', post', i', hrec, hrd, hp, hu⟩ := ht.next hm
    obtain ⟨s'', hcomp, hw⟩ := compose_writing (h.records.trans hrec)
      (s := { s.taking t (Record.sliceAck body i) with phase := .send })
      h.request h.userData h.silent hrd
    exact .inr ⟨s'', pre', body', post', i', if_pos ((ht.more_iff hd).2 hm), hcomp, hw, hp,
      Record.after_next _ h.transfer.lt_sliceCount hw.transfer.lt_sliceCount hrec (hu _)⟩

theorem Writing.hears (h : s.Writing image pre body post i) :
    Hears .write [] (Record.after Record.exchange body i post) s (Record.exchange body i).2 := by
  -- The exchanges that are left tell which slice was sent last, so the induction is on them.
  generalize hl : Record.after Record.exchange body i post = rest
  induction rest generalizing s pre body post i with
  | nil =>
    intro s₁ hs hc
    obtain ⟨verdict, s₂, ha, hz, -, ⟨rfl, -⟩ | ⟨_, _, body', post', i', -, -, -, -, hn⟩⟩ :=
      (h.congr (outgoing_of_cargo hs)).acknowledged hc (Record.statusOf_exchange body i)
    · refine ⟨s₂, ha, ?_⟩
      rw [hz, ResponseBuffer.take_eq, List.take_zero]
    · cases hl.symm.trans hn
  | cons x rest ih =>
    intro s₁ hs hc
    obtain ⟨verdict, s₂, ha, -, -,
        ⟨-, -, hn⟩ | ⟨s₃, _, body', post', i', rfl, hcomp, hw, -, hn⟩⟩ :=
      (h.congr (outgoing_of_cargo hs)).acknowledged hc (Record.statusOf_exchange body i)
    · cases hl.symm.trans hn
    · obtain ⟨rfl, rfl⟩ := List.cons.inj (hl.symm.trans hn)
      exact ⟨s₂, s₃, ha, hcomp, hw.frame, ih hw rfl⟩

theorem performs_writing (hr : s.request = .write) (hu : s.userData = some image.data.toArray)
    (hl : s.responseLength = 0) (ht : s.transfer.AtRecord image.data.toArray.size []) :
    s.Performs .write [] image.exchanges := by
  obtain ⟨body, post, hrec⟩ := image.exists_record
  obtain ⟨s', hc, hw⟩ := compose_first hrec hr hu hl ht
  have he : image.exchanges =
      Record.exchange body 0 :: Record.after Record.exchange body 0 post := by
    rw [Image.exchanges, hw.records, ← Record.upTo_append_after _ hw.transfer.lt_sliceCount,
      Record.upTo_zero]
    rfl
  rw [he]
  exact ⟨s', hc, hw.frame, hw.hears⟩

end Session

namespace Engine

variable {D : Type} [Link D] {e : Engine (Bench D)} {d d' : D} {c : Call} {f answer : Frame}
  {raw : Bytes}

omit [Link D] in
theorem Rests.reaches (h : e.Rests d) : e.Reaches e.session [] d e := by
  refine ⟨rfl, h.queue_eq, h.calm, fun id hid => ?_, rfl, rfl, rfl, rfl⟩
  rw [h.idle] at hid
  cases hid

theorem Rests.setMode (h : e.Rests d) (mode : DeviceMode) :
    ∃ e', e.setMode mode = (.ok (), e') ∧ e'.Rests (Link.setMode d mode) ∧
      e'.config = e.config ∧ e'.primary = e.primary := by
  have hb : e.session.busy = false := by rw [h.idle]; rfl
  obtain ⟨e', he, h'⟩ := h.reaches.setHostMode mode
  refine ⟨e', ?_, ⟨h'.session ▸ h.idle, h'.queue_eq, h'.calm⟩, h'.config, h'.primary⟩
  simp [Engine.setMode, hb, he]

theorem Rests.call_eq (h : e.Rests d) (c : Call) : e.call c = e.callIdle c := by
  have hb : e.session.busy = false := by rw [h.idle]; rfl
  exact call_idle hb c

theorem Rests.start_asking {command : Command} {request : Request} {userData : Option Bytes}
    {capacity : Nat} (h : e.Rests d) (ha : command.asks = true)
    (hc : ∀ s : Session, s.request = request → s.userData = userData.map List.toArray →
      s.compose = s.setFrame (Transfer.liftFrame (s.frame.encode f)))
    (hf : f.payload.length ≤ 251) (hr : Replies d f.wire raw d')
    (hd : Frame.decode raw = .ok answer) (ho : answer.status = .ok)
    (hl : answer.payload.length ≤ capacity) :
    ∃ e', e.Serves command 2 answer.payload (Link.abortRead d')
      (e.start command request userData capacity) e' := by
  have hn : e.session.resendLastFrame = false := by rw [h.idle]; rfl
  have hm : e.session.restoreNormalMode = false := by rw [h.idle]; rfl
  have ht : e.session.transfer.remaining = 0 := by rw [h.idle]; rfl
  exact h.reaches.start hn hm (fun id => Session.performs_asking ha (hc _ rfl rfl) hf hd ho hl rfl
    ht) (.single hr)

theorem Rests.startWithBuffer_asking {command : Command} {request : Request} {capacity : Nat}
    (h : e.Rests d) (use : BufferUse) (hn : capacity ≠ 0) (ha : command.asks = true)
    (hc : ∀ s : Session, s.request = request →
      s.compose = s.setFrame (Transfer.liftFrame (s.frame.encode f)))
    (hf : f.payload.length ≤ 251) (hr : Replies d f.wire raw d')
    (hd : Frame.decode raw = .ok answer) (ho : answer.status = .ok)
    (hl : answer.payload.length ≤ capacity) :
    ∃ e', e.Serves command 2 answer.payload (Link.abortRead d')
      (e.startWithBuffer use command request capacity) e' := by
  unfold Engine.startWithBuffer
  rw [if_neg hn]
  exact h.start_asking ha (fun s hs _ => hc s hs) hf hr hd ho hl

theorem Rests.asks (h : e.Rests d) (hq : c.question? e.config.chip = some f) (hs : c.Sound)
    (hr : Replies d f.wire raw d') (hd : Frame.decode raw = .ok answer)
    (ho : answer.status = .ok) (hl : answer.payload.length ≤ c.capacity) :
    ∃ e', e.Serves c.command 2 answer.payload (Link.abortRead d') (e.call c) e' := by
  rw [h.call_eq]
  unfold Engine.callIdle
  cases c with
  | getVersion capacity =>
    cases hq
    refine h.startWithBuffer_asking _ hs rfl (fun s hs => ?_) (by decide) hr hd ho hl
    rw [Session.compose, hs]
  | getSessionState capacity =>
    cases hq
    refine h.startWithBuffer_asking _ hs rfl (fun s hs => ?_) (by decide) hr hd ho hl
    rw [Session.compose, hs]
  | checkIntegrity revision capacity =>
    cases hq
    refine h.startWithBuffer_asking _ hs rfl (fun s hs => ?_) ?_ hr hd ho hl
    · rw [Session.compose, hs]
    · split <;> simp [Request.integrityFrame, littleEndian16]
  | log entry =>
    cases hq
    obtain ⟨hn, hz⟩ := hs
    have hz' : entry.length ≤ 64 := hz
    dsimp only
    rw [if_neg (fun h => h.elim hn (Nat.not_lt.2 hz))]
    refine h.start_asking rfl (fun s hs hu => ?_) ?_ hr hd ho hl
    · rw [Session.compose, hs]
      dsimp only
      rw [hu]
      rfl
    · simp only [Request.logFrame, List.length_append, List.length_cons, List.length_nil]
      omega
  | force clock =>
    cases hq
    dsimp only
    generalize clockBytes clock = pll at hr ⊢
    refine h.start_asking rfl (fun s hs _ => ?_) (Nat.le_of_ble_eq_true rfl) hr hd ho hl
    rw [Session.compose, hs]
  | _ => cases hq

theorem Rests.readLog {capacity : Nat} {data : Bytes} (h : e.Rests d) (hz : capacity ≠ 0)
    (hl : capacity ≤ Transfer.maxRead)
    (hr : Replies d ((⟨logAreaStart, capacity⟩ : ReadRange).frame 0) raw d')
    (hp : (⟨logAreaStart, capacity⟩ : ReadRange).piece? 0 raw = some data) :
    ∃ e', e.Serves .read 2 data (Link.abortRead d') (e.call (.readLog capacity)) e' := by
  have hn : e.session.resendLastFrame = false := by rw [h.idle]; rfl
  have hm : e.session.restoreNormalMode = false := by rw [h.idle]; rfl
  have hc : (⟨logAreaStart, capacity⟩ : ReadRange).pieceCount = 1 := by
    have hl : capacity ≤ 248 := hl
    show (capacity + (248 - 1)) / 248 = 1
    omega
  have h₁ := h.reaches.update (fun s => s.reading logAreaStart capacity) fun _ hid => hid
  rw [h.call_eq]
  unfold Engine.callIdle
  dsimp only
  rw [if_neg hz]
  refine h₁.start hn hm (fun id => Session.performs_reading hc rfl ?_ ?_ hp) (.single hr)
  · exact ⟨rfl, rfl, rfl, rfl⟩
  · exact Transfer.faces_startRead ⟨logAreaStart, capacity⟩

theorem Rests.write {image : Image} (h : e.Rests d) (hp : e.primary = some image)
    (hc : Converses d image.exchanges d') :
    ∃ e', e.Serves .write (2 * image.exchanges.length) [] (Link.abortRead d')
      (e.call (.write false none)) e' := by
  have hm : e.session.restoreNormalMode = false := by rw [h.idle]; rfl
  have h₁ := h.reaches.update Session.writing fun _ hid => hid
  have hi : e.chooseImage false = (.ok image, e) := by
    unfold Engine.chooseImage ImageKind.select
    rw [hp]
  rw [h.call_eq]
  unfold Engine.callIdle Engine.callWrite
  dsimp only
  rw [hi]
  exact h₁.start rfl hm (fun id => Session.performs_writing rfl rfl rfl ⟨rfl, rfl, .inl ⟨rfl, rfl⟩⟩)
    hc

end Engine

end FirmwareDownload
