import FirmwareDownload.Bench
import FirmwareDownload.Proofs.Engine.Exchange
import FirmwareDownload.Proofs.Engine.Following
import FirmwareDownload.Proofs.Transfer.Read

/-! A read asks for its range, piece by piece, and hands back what the answers gave up to the first
one that is no use. It ends well if and only if each piece was given, and then it is the range. -/

namespace FirmwareDownload

/-- What a call reads, if it is a read. -/
def Call.range? : Call → Option ReadRange
  | .read addr capacity => some ⟨addr, capacity⟩
  | .readLog capacity => some ⟨logAreaStart, capacity⟩
  | .readPlatform => some ⟨platformAreaStart, platformAreaSize⟩
  | _ => none

/-- The answers gave these pieces, and the next one was asked for. -/
structure Asked (ns : List Notice) (g : ReadRange) (pieces : List Bytes) : Prop where
  last : lastSent ns = some (g.frame pieces.length)
  frames : freshFrames ns = (List.range (pieces.length + 1)).map g.frame
  given : g.pieces (replies ns) = pieces.map some

/-- A read ends with all pieces, or with an answer that gives none, or with the last one missing. -/
inductive ReadEnds (g : ReadRange) (ns : List Notice) (pieces : List Bytes) :
    Except DownloadError Unit → Prop
  | whole : freshFrames ns = g.frames → pieces.length = g.pieceCount →
    g.pieces (replies ns) = pieces.map some → ReadEnds g ns pieces (.ok ())
  | broken {err : DownloadError} {refused : List (Option Bytes)} : freshFrames ns <+: g.frames →
    pieces.length < g.pieceCount → g.pieces (replies ns) = pieces.map some ++ refused →
    (refused = [] ∨ refused = [none]) → err.Fits → ReadEnds g ns pieces (.error err)

section

variable {g : ReadRange} {ns ms : List Notice} {pieces : List Bytes} {raw data : Bytes}
  {err : DownloadError}

/-- Whatever pieces one takes the answers to give, a read that broke off is short of one. -/
theorem ReadEnds.taken {result : Except DownloadError Unit} (h : ReadEnds g ns pieces result) :
    result = .ok () ↔ freshFrames ns = g.frames ∧
      ∃ all : List Bytes, all.length = g.pieceCount ∧ g.pieces (replies ns) = all.map some := by
  cases h with
  | whole hf hn hp => exact ⟨fun _ => ⟨hf, pieces, hn, hp⟩, fun _ => rfl⟩
  | broken _ hn hp hr =>
    refine ⟨nofun, ?_⟩
    rintro ⟨-, all, hall, hp'⟩
    rw [hp] at hp'
    rcases hr with rfl | rfl
    · have hl := congrArg List.length hp'
      rw [List.append_nil, List.length_map, List.length_map] at hl
      omega
    · have hm : none ∈ all.map some := hp' ▸ List.mem_append_right _ (List.mem_singleton_self _)
      obtain ⟨_, -, he⟩ := List.mem_map.1 hm
      cases he

theorem ReadEnds.given {result : Except DownloadError Unit} (h : ReadEnds g ns pieces result) :
    freshFrames ns <+: g.frames ∧
      (∃ refused, g.pieces (replies ns) = pieces.map some ++ refused ∧
        (refused = [] ∨ refused = [none])) ∧
      (∀ length capacity, result ≠ .error (.failed (.responseOverflow length capacity))) ∧
      (result = .ok () → pieces.length = g.pieceCount) := by
  cases h with
  | whole hf hn hp =>
    exact ⟨hf ▸ List.prefix_rfl, ⟨[], by rw [hp, List.append_nil], .inl rfl⟩, nofun, fun _ => hn⟩
  | broken hf _ hp hr he =>
    exact ⟨hf, ⟨_, hp, hr⟩, fun _ _ h => he _ _ (Except.error.inj h), nofun⟩

theorem Asked.count (h : Asked ns g pieces) : (replies ns).length = pieces.length := by
  have hl := congrArg List.length h.given
  rwa [ReadRange.length_pieces, List.length_map] at hl

theorem Asked.plain (h : Asked ns g pieces) (hp : Plain ms) : Asked (ms ++ ns) g pieces := by
  have hx := hp.sameExchange ns
  exact ⟨hx.lastSent.trans h.last, hx.freshFrames.trans h.frames, hp.replies ns ▸ h.given⟩

theorem Asked.again (h : Asked ns g pieces) (ho : owesResend ns = true) :
    Asked (.sent (g.frame pieces.length) :: ns) g pieces := by
  refine ⟨rfl, ?_, h.given⟩
  rw [freshFrames, if_pos ⟨ho, h.last⟩, List.append_nil]
  exact h.frames

theorem Asked.isPrefix_frames (h : Asked ns g pieces) (hi : pieces.length < g.pieceCount) :
    freshFrames ns <+: g.frames :=
  h.frames ▸ ReadRange.isPrefix_frames hi

theorem Asked.broken (h : Asked ns g pieces) (hi : pieces.length < g.pieceCount)
    (he : err.Fits) : ReadEnds g ns pieces (.error err) := by
  refine .broken (h.isPrefix_frames hi) hi ?_ (.inl rfl) he
  rw [h.given, List.append_nil]

/-! ## Answers -/

variable (s : Session)

theorem Asked.busy (h : Asked ns g pieces) (hb : statusOf raw = some .memBusy) :
    Asked (s.answerNotices raw ++ ns) g pieces := by
  have hx := s.sameExchange_answerNotices raw ns
  refine ⟨hx.lastSent.trans h.last, hx.freshFrames.trans h.frames, ?_⟩
  rw [s.replies_answerNotices, replies, if_pos hb, List.append_nil]
  exact h.given

theorem Asked.pieces_answer (h : Asked ns g pieces) (hb : statusOf raw ≠ some .memBusy) :
    g.pieces (replies (s.answerNotices raw ++ ns)) =
      pieces.map some ++ [g.piece? pieces.length raw] := by
  rw [s.replies_answerNotices, replies, if_neg hb, ReadRange.pieces_concat, h.given, h.count]

theorem Asked.refused (h : Asked ns g pieces) (hi : pieces.length < g.pieceCount)
    (hb : statusOf raw ≠ some .memBusy) (hp : g.piece? pieces.length raw = none)
    (he : err.Fits) : ReadEnds g (s.answerNotices raw ++ ns) pieces (.error err) := by
  have hx := s.sameExchange_answerNotices raw ns
  refine .broken (hx.freshFrames ▸ h.isPrefix_frames hi) hi (h.pieces_answer s hb) (.inr ?_) he
  rw [hp]

theorem Asked.given_concat (h : Asked ns g pieces) (hb : statusOf raw ≠ some .memBusy)
    (hp : g.piece? pieces.length raw = some data) :
    g.pieces (replies (s.answerNotices raw ++ ns)) = (pieces ++ [data]).map some := by
  rw [h.pieces_answer s hb, hp, List.map_append, List.map_singleton]

theorem Asked.whole (h : Asked ns g pieces) (hi : pieces.length + 1 = g.pieceCount)
    (hb : statusOf raw ≠ some .memBusy) (hp : g.piece? pieces.length raw = some data) :
    ReadEnds g (s.answerNotices raw ++ ns) (pieces ++ [data]) (.ok ()) := by
  have hx := s.sameExchange_answerNotices raw ns
  refine .whole ?_ ?_ (h.given_concat s hb hp)
  · rw [ReadRange.frames, ← hi]
    exact hx.freshFrames.trans h.frames
  · rw [List.length_append, List.length_singleton, hi]

theorem Asked.next (h : Asked ns g pieces) (hb : statusOf raw ≠ some .memBusy)
    (hp : g.piece? pieces.length raw = some data) (hm : Plain ms) :
    Asked (.sent (g.frame (pieces ++ [data]).length) :: (ms ++ (s.answerNotices raw ++ ns))) g
      (pieces ++ [data]) := by
  have hx := (hm.sameExchange _).trans (s.sameExchange_answerNotices raw ns)
  have hr : ¬ Retransmits (ms ++ (s.answerNotices raw ++ ns))
      (g.frame (pieces ++ [data]).length) := by
    intro hr
    have ho : owesResend (.received raw :: ns) = true := hx.owesResend ▸ hr.1
    exact hb (of_decide_eq_true ho)
  refine ⟨rfl, ?_, ?_⟩
  · have hf : freshFrames (ms ++ (s.answerNotices raw ++ ns)) = _ := hx.freshFrames.trans h.frames
    rw [freshFrames, if_neg hr, hf, List.length_append, List.length_singleton,
      List.range_succ (n := pieces.length + 1), List.map_append, List.map_singleton]
  · exact (congrArg g.pieces (hm.replies _)).trans (h.given_concat s hb hp)

theorem ne_memBusy_of_piece {i : Nat} (hp : g.piece? i raw = some data) :
    statusOf raw ≠ some .memBusy := by
  intro hb
  obtain ⟨answer, hd, hs⟩ := statusOf_eq_some hb
  rw [ReadRange.piece?_eq hd, if_neg (by rw [hs]; exact fun ha => Status.noConfusion ha.1)] at hp
  cases hp

end

/-! ## The session -/

namespace Session

/-- The response buffer holds these pieces and nothing else. -/
structure Gathered (s : Session) (g : ReadRange) (pieces : List Bytes) : Prop where
  capacity : s.response.capacity = g.length
  front : s.response.front = pieces.flatten
  responseLength : s.responseLength = pieces.flatten.length
  filled : pieces.flatten.length = min (Transfer.maxRead * pieces.length) g.length

/-- The frame in flight asks for the piece behind these. -/
structure Reading (s : Session) (g : ReadRange) (pieces : List Bytes) : Prop extends
    s.Gathered g pieces where
  request : s.request = .read g.addr
  frame : s.frame.bytes = g.frame pieces.length
  transfer : s.transfer.Asks g pieces.length

variable {s s' : Session} {g : ReadRange} {pieces : List Bytes} {raw data : Bytes}

theorem Gathered.handOver (h : s.Gathered g pieces) :
    s.response.take s.responseLength = pieces.flatten := by
  have hl : s.responseLength = s.response.front.length := by rw [h.front, h.responseLength]
  have hz : min s.responseLength s.response.capacity - s.response.front.length = 0 := by omega
  rw [ResponseBuffer.take, hz, List.replicate_zero, List.append_nil, h.responseLength, h.front,
    List.take_length]

theorem Reading.congr (h : s.Reading g pieces) (hs : s'.cargo = s.cargo) :
    s'.Reading g pieces := by
  obtain ⟨hr, -, hb, hl, hf, ht⟩ : s'.request = s.request ∧ s'.userData = s.userData ∧
      s'.response = s.response ∧ s'.responseLength = s.responseLength ∧ s'.frame = s.frame ∧
      s'.transfer = s.transfer := by
    simpa [cargo] using hs
  refine ⟨⟨?_, ?_, hl.trans h.responseLength, h.filled⟩, hr.trans h.request, ?_, ?_⟩
  · rw [hb, h.capacity]
  · rw [hb, h.front]
  · rw [hf, h.frame]
  · rw [ht]
    exact h.transfer

theorem compose_reading (hr : s.request = .read g.addr) (hg : s.Gathered g pieces)
    (ht : s.transfer.Faces g pieces.length) (hi : pieces.length < g.pieceCount) :
    ∃ s', s.compose = (.ok (), s') ∧ s'.Reading g pieces := by
  obtain ⟨frame, t, he, hf, ha⟩ := ht.composeRead hi s.frame
  have hc : s.compose = { s with transfer := (s.transfer.composeRead s.frame).2 }.setFrame
      (s.transfer.composeRead s.frame).1 := by
    unfold Session.compose
    rw [hr]
  rw [hc, he]
  exact ⟨_, rfl, ⟨hg.capacity, hg.front, hg.responseLength, hg.filled⟩, hr, hf, ha⟩

def receiving (s : Session) (transfer : Transfer) (response : ResponseBuffer) : Session :=
  { s with
    resendCount := 0
    transfer := transfer
    response := response
    responseLength := transfer.offset }

theorem handleAnswer_read {answer : Frame} (hc : s.command = some .read)
    (hd : Frame.decode raw = .ok answer) (hb : statusOf raw ≠ some .memBusy) :
    s.handleAnswer raw = match s.transfer.acceptRead answer s.response with
      | (.error err, transfer, response) => (.failed err, s.receiving transfer response)
      | (.ok (), transfer, response) =>
        (if 0 < transfer.remaining then .proceed else .done, s.receiving transfer response) := by
  have hn : ¬ (answer.status = .memBusy ∧ Command.read.shape = .readWrite) := by
    rintro ⟨hs, -⟩
    exact hb ((statusOf_of_decode hd).trans (congrArg some hs))
  have ha : ({ s with resendCount := 0 } : Session).applyAnswer .read answer =
      ((s.transfer.acceptRead answer s.response).1,
        s.receiving (s.transfer.acceptRead answer s.response).2.1
          (s.transfer.acceptRead answer s.response).2.2) :=
    rfl
  rw [handleAnswer_framed hc Command.noConfusion, hd]
  dsimp only
  rw [if_neg hn, ha]
  rcases s.transfer.acceptRead answer s.response with ⟨r, transfer, response⟩
  cases r with
  | error err => rfl
  | ok =>
    dsimp only
    by_cases hr : 0 < transfer.remaining
    · rw [if_pos ⟨rfl, hr⟩, if_pos hr]
    · rw [if_neg (fun h => hr h.2), if_neg hr]

theorem Reading.handleAnswer_piece (h : s.Reading g pieces) (hc : s.command = some .read)
    (hp : g.piece? pieces.length raw = some data) :
    ∃ s', s.handleAnswer raw =
        (if pieces.length + 1 < g.pieceCount then .proceed else .done, s') ∧
      s'.request = .read g.addr ∧ s'.Gathered g (pieces ++ [data]) ∧
      s'.transfer.Faces g (pieces.length + 1) := by
  have hb := ne_memBusy_of_piece hp
  have hf := h.transfer.passed
  have hl : (pieces ++ [data]).flatten = pieces.flatten ++ data := by simp
  have ho : s.transfer.passed.offset = (pieces.flatten ++ data).length := by
    rw [List.length_append, ReadRange.length_piece hp, ← h.transfer.frameLength, h.filled,
      ← h.transfer.offset]
    rfl
  cases hd : Frame.decode raw with
  | error err =>
    rw [ReadRange.piece?, hd] at hp
    cases hp
  | ok answer =>
    obtain ⟨response, ha, hcap, hfr⟩ := h.transfer.acceptRead_piece hd h.capacity
      (by rw [h.front, h.filled, h.transfer.offset]) hp
    rw [handleAnswer_read hc hd hb, ha]
    refine ⟨s.receiving s.transfer.passed response, ?_, h.request, ⟨hcap, ?_, ?_, ?_⟩, hf⟩
    · simp only [hf.more_iff]
    · exact hfr.trans (by rw [h.front, hl])
    · exact ho.trans (by rw [hl])
    · rw [hl, ← ho, hf.offset, List.length_append, List.length_singleton]

theorem Reading.handleAnswer_refused (h : s.Reading g pieces) (hc : s.command = some .read)
    (hb : statusOf raw ≠ some .memBusy) (hp : g.piece? pieces.length raw = none) :
    ∃ err s', s.handleAnswer raw = (.failed err, s') ∧ err.Fits ∧ s'.Gathered g pieces := by
  cases hd : Frame.decode raw with
  | error err =>
    rw [handleAnswer_framed hc Command.noConfusion, hd]
    exact ⟨_, s, rfl, nofun, h.toGathered⟩
  | ok answer =>
    obtain ⟨cause, ha, hn⟩ := h.transfer.acceptRead_refused hd s.response hp
    rw [handleAnswer_read hc hd hb, ha]
    refine ⟨_, _, rfl, fun n m he => hn n m (DownloadError.failed.inj he),
      h.capacity, h.front, ?_, h.filled⟩
    exact h.transfer.offset.trans h.filled.symm

/-- The session reads the range and `ns` tells how far it is. -/
def Reads (g : ReadRange) (s : Session) (ns : List Notice) : Prop :=
  ∃ pieces, s.Reading g pieces ∧ Asked ns g pieces ∧
    (s.phase = .timer → s.timer.purpose = .resendWait → owesResend ns = true)

end Session

/-- The read is over and hands back the pieces that it was given. -/
def HandsBack (g : ReadRange) (result : Except DownloadError Unit) (response : Bytes)
    (ns : List Notice) : Prop :=
  ∃ pieces, response = pieces.flatten ∧ ReadEnds g ns pieces result ∧
    pieces.flatten.length = min (Transfer.maxRead * pieces.length) g.length

namespace Engine

variable {W : Type} [Host W] {e e' : Engine W} {c : Call} {id : TimerId} {signal : Signal}
  {s : Session} {ns ns' : List Notice} {outcome : Option (Except DownloadError Unit)}
  {g : ReadRange} {pieces : List Bytes} {raw data : Bytes}

/-! ## Steps of a read -/

theorem reading_broken {err : DownloadError} (h : s.Reading g pieces) (ha : Asked ns g pieces)
    (he : err.Fits) : HandsBack g (.error err) (s.response.take s.responseLength) ns :=
  ⟨pieces, h.handOver, ha.broken h.transfer.lt he, h.filled⟩

theorem reading_tells (h : s.Reading g pieces) (ha : Asked ns g pieces)
    (hw : s.phase = .timer → s.timer.purpose = .resendWait → owesResend ns = true)
    (ho : Unhindered W outcome) : s.Tells (Session.Reads g) (HandsBack g) ns outcome := by
  cases ho with
  | goes => exact ⟨pieces, h, ha, hw⟩
  | fails hf => exact reading_broken h ha hf.fits

theorem Reacts.reads_busy {r : Ticket} (hw : e.session.Waiting .read id)
    (hr : e.session.Reading g pieces) (ha : Asked ns g pieces)
    (hb : statusOf raw = some .memBusy)
    (h : e.Reacts e' .read id (.received r (.ok raw)) s ns' outcome) :
    s.Tells (Session.Reads g) (HandsBack g) (ns' ++ ns) outcome := by
  have hv := Session.handleAnswer_memBusy (s := e.session.answering) hw.command rfl hb
  have hf : ∀ err, outcome = some (.error err) → err.Fits := by
    rintro err rfl
    exact h.resend_fits (congrArg Prod.fst hv)
  obtain ⟨after, hp, rfl, h'⟩ := h.of_resend hv
  have hx := (hp.sameExchange _).trans (e.session.sameExchange_answerNotices raw ns)
  have ha' := (ha.busy e.session hb).plain hp
  rw [List.append_assoc]
  rcases h' with ⟨rfl, err, rfl⟩ | ⟨t, rfl, rfl⟩
  · exact reading_broken (hr.congr rfl) ha' (hf err rfl)
  · refine ⟨pieces, hr.congr rfl, ha', fun _ _ => ?_⟩
    rw [hx.owesResend, owesResend, hb]
    rfl

theorem Reacts.reads_piece {r : Ticket} (hw : e.session.Waiting .read id)
    (hr : e.session.Reading g pieces) (ha : Asked ns g pieces)
    (hp : g.piece? pieces.length raw = some data)
    (h : e.Reacts e' .read id (.received r (.ok raw)) s ns' outcome) :
    s.Tells (Session.Reads g) (HandsBack g) (ns' ++ ns) outcome := by
  have hb := ne_memBusy_of_piece hp
  have hl : (pieces ++ [data]).length = pieces.length + 1 := List.length_append
  have hr' : e.session.answering.Reading g pieces := hr.congr rfl
  obtain ⟨s₁, hv, hq, hg, ht⟩ := hr'.handleAnswer_piece hw.command hp
  by_cases hm : pieces.length + 1 < g.pieceCount
  · rw [if_pos hm] at hv
    obtain ⟨s₂, hc, hr₂⟩ := Session.compose_reading (s := { s₁ with phase := .send }) hq
      ⟨hg.capacity, hg.front, hg.responseLength, hg.filled⟩ (hl ▸ ht) (hl ▸ hm)
    rcases h.of_proceed hv with ⟨err, hc', -, -⟩ | ⟨s₂', t, hc', rfl, rfl, ho⟩
    · cases hc.symm.trans hc'
    · obtain ⟨-, rfl⟩ := Prod.ext_iff.1 (hc.symm.trans hc')
      have hn := ha.next e.session hb hp
        (show Plain [.moved .send .recv, .moved .response .send] from .of_all rfl)
      rw [← hr₂.frame] at hn
      exact reading_tells (hr₂.congr rfl) hn (fun hph => nomatch hph) ho
  · rw [if_neg hm] at hv
    obtain ⟨rfl, rfl, rfl⟩ := h.of_done hv
    have hlast : pieces.length + 1 = g.pieceCount := by
      have := hr.transfer.lt
      omega
    exact ⟨_, hg.handOver, ha.whole e.session hlast hb hp, hg.filled⟩

theorem Reacts.reads_refused {r : Ticket} (hw : e.session.Waiting .read id)
    (hr : e.session.Reading g pieces) (ha : Asked ns g pieces)
    (hb : statusOf raw ≠ some .memBusy) (hp : g.piece? pieces.length raw = none)
    (h : e.Reacts e' .read id (.received r (.ok raw)) s ns' outcome) :
    s.Tells (Session.Reads g) (HandsBack g) (ns' ++ ns) outcome := by
  have hr' : e.session.answering.Reading g pieces := hr.congr rfl
  obtain ⟨err, s₁, hv, he, hg⟩ := hr'.handleAnswer_refused hw.command hb hp
  obtain ⟨rfl, rfl, rfl⟩ := h.of_failed hv
  exact ⟨pieces, hg.handOver, ha.refused e.session hr.transfer.lt hb hp he, hg.filled⟩

theorem reads_unanswered {s₀ : Session} (h : s₀.Reads g ns) (hu : s₀.Unanswered s ns') :
    s.Reads g (ns' ++ ns) := by
  obtain ⟨pieces, hr, ha, hb⟩ := h
  refine ⟨pieces, hr.congr hu.cargo, ?_⟩
  cases hu with
  | plain _ hp hq => exact ⟨ha.plain hp, fun hph hq' => nomatch (hq hph).symm.trans hq'⟩
  | resent _ hp hph hq hph' =>
    have hn := (ha.plain hp).again ((hp.sameExchange ns).owesResend.trans (hb hph hq))
    rw [← hr.frame] at hn
    exact ⟨hn, fun hq' => nomatch hph'.symm.trans hq'⟩

theorem reads_break {result : Except DownloadError Unit} (h : s.Reads g ns)
    (hb : Breaks W .read result) : HandsBack g result (s.response.take s.responseLength) ns := by
  obtain ⟨pieces, hr, ha, -⟩ := h
  obtain ⟨err, rfl, he⟩ := hb.error Command.noConfusion
  exact reading_broken hr ha he

theorem reads_steady (g : ReadRange) : Steady W .read (Session.Reads g) (HandsBack g) := by
  apply Steady.of_answers
  · exact reads_unanswered
  · exact reads_break
  · rintro e e' id r raw s ns ns' outcome hw ⟨pieces, hr, ha, -⟩ h
    by_cases hm : statusOf raw = some .memBusy
    · exact h.reads_busy hw hr ha hm
    · cases hp : g.piece? pieces.length raw with
      | none => exact h.reads_refused hw hr ha hm hp
      | some data => exact h.reads_piece hw hr ha hp

/-! ## The course of a read -/

theorem Launches.reads {s₀ : Session} {ns₀ : List Notice} (hg : 0 < g.length)
    (hn : ns₀ = [] ∨ ns₀ = [.modeRequested .download])
    (h : e.Launches e' ((s₀.reading g.addr g.length).armed .read (.read g.addr) none g.length)
      s ns none) : s.Reads g (ns ++ .started .read :: ns₀) := by
  cases h with
  | @sends id t s _ hc =>
    let armed := ((s₀.reading g.addr g.length).armed .read (.read g.addr) none g.length).timed id
    have hempty : { armed with phase := .send }.Gathered g [] :=
      ⟨rfl, rfl, rfl, (Nat.zero_min _).symm⟩
    obtain ⟨s', hc', hr⟩ := Session.compose_reading rfl hempty (Transfer.faces_startRead g)
      (ReadRange.lt_pieceCount.2 hg)
    obtain ⟨-, rfl⟩ := Prod.ext_iff.1 (hc'.symm.trans hc)
    refine ⟨[], hr.congr rfl, ⟨congrArg some hr.frame, ?_, ?_⟩, fun hp => nomatch hp⟩
    · rcases hn with rfl | rfl <;> exact congrArg (fun frame => [frame]) hr.frame
    · rcases hn with rfl | rfl <;> rfl

/-- An accepted call of a read starts it on a range that is not empty. -/
theorem call_range (hs : e.Standing) (hc : c.range? = some g) (h : e.call c = (.ok (), e')) :
    ∃ s₀ ns₀ e₁, e.Passes s₀ ns₀ e₁ ∧ (ns₀ = [] ∨ ns₀ = [.modeRequested .download]) ∧
      (s₀.phase = .init ∧ s₀.resendLastFrame = false ∧ s₀.tickets = (none, none, none)) ∧
      0 < g.length ∧ e₁.startRead g.addr g.length = (.ok (), e') := by
  unfold Engine.call at h
  split at h
  · cases h
  rename_i hb
  have hi := hs.idle_of_not_busy (Bool.eq_false_iff.2 hb)
  have hst : e.session.phase = .init ∧ e.session.resendLastFrame = false ∧
      e.session.tickets = (none, none, none) := by
    rw [hi]
    exact ⟨rfl, rfl, rfl⟩
  cases c with
  | read addr capacity =>
    cases hc
    rw [Engine.callIdle] at h
    split at h
    · cases h
    · exact ⟨_, _, e, .refl e, .inl rfl, hst, by dsimp only; omega, h⟩
  | readLog capacity =>
    cases hc
    rw [Engine.callIdle] at h
    split at h
    · cases h
    · exact ⟨_, _, e, .refl e, .inl rfl, hst, by dsimp only; omega, h⟩
  | readPlatform =>
    cases hc
    have hp := (Passes.refl e).setHostMode .download
    rw [Engine.callIdle, Engine.callReadPlatform] at h
    split at h
    · cases h
    · rename_i he
      rw [he] at hp
      exact ⟨_, _, _, hp.update (fun s => { s with restoreNormalMode := true }), .inr rfl, hst,
        by decide, h⟩
  | _ => cases hc

theorem call_follows (hs : e.Standing) (hc : c.range? = some g) (h : e.call c = (.ok (), e')) :
    e.Follows .read (Session.Reads g) (HandsBack g) e' := by
  obtain ⟨s₀, ns₀, e₁, hp, hn, ⟨hph, hf, ht⟩, hg, hr⟩ := call_range hs hc h
  obtain ⟨s, ns, r, e₂, he, hl, hst⟩ := (hp.update (fun s => s.reading g.addr g.length)).start
    hph hf .read (.read g.addr) none g.length
  obtain ⟨rfl, rfl⟩ := Prod.mk.inj (he.symm.trans hr)
  obtain ⟨id, hw⟩ := hl.waiting rfl rfl rfl hf ht
  exact .underway hst.journal hst.delivered (hst.session ▸ hw) (hst.session ▸ hl.reads hg hn)

/-- A read that was accepted asks for its range piece by piece, each one once but for a busy
memory. It ends well if and only if all were asked for and each answer gave its piece, and then it
hands back as much as it was called for. However it ends, it hands back the pieces given before
the first answer that gave none. -/
theorem read_tiles_range (config : Config) (library : ImageLibrary) (w : W)
    (moves : List (Move W)) (c : Call) (g : ReadRange) (e₁ : Engine W) (later : List (Move W))
    (hg : c.range? = some g)
    (hc : ((fresh config library w).run moves).call c = (.ok (), e₁))
    (hl : ∀ m ∈ later, Move.Serves m) :
    let e := (fresh config library w).run moves
    let e₂ := e₁.run later
    ∃ ns, e₂.journal = ns ++ e.journal ∧ freshFrames ns <+: g.frames ∧
      (e₂.delivered = e.delivered ∨
        ∃ (result : Except DownloadError Unit) (pieces : List Bytes)
          (refused : List (Option Bytes)),
          e₂.delivered = ⟨.read, result, pieces.flatten⟩ :: e.delivered ∧
          g.pieces (replies ns) = pieces.map some ++ refused ∧
          (refused = [] ∨ refused = [none]) ∧
          (∀ length capacity, result ≠ .error (.failed (.responseOverflow length capacity))) ∧
          (result = .ok () → pieces.flatten.length = g.length)) ∧
      ((∃ response, e₂.delivered = ⟨.read, .ok (), response⟩ :: e.delivered) ↔
        freshFrames ns = g.frames ∧ ∃ pieces : List Bytes,
          pieces.length = g.pieceCount ∧ g.pieces (replies ns) = pieces.map some) := by
  have hs := (standing_fresh config library w).run moves
  dsimp only
  generalize (fresh config library w).run moves = e at hc hs
  cases (call_follows hs hg hc).run (reads_steady g) hl with
  | @underway ns id hj hd hw hr =>
    obtain ⟨pieces, hrd, ha, -⟩ := hr
    have he := ha.broken hrd.transfer.lt (show DownloadError.Fits .timeout from nofun)
    refine ⟨ns, hj, he.given.1, .inl hd, ?_, fun h => nomatch he.taken.2 h⟩
    rintro ⟨response, hd'⟩
    exact (List.cons_ne_self _ _ (hd'.symm.trans hd)).elim
  | @ended closing ns result response hj hcl _ hd hh =>
    obtain ⟨pieces, rfl, he, hlen⟩ := hh
    have hf : freshFrames (.finished .read (errorOf result) :: (closing ++ ns)) = freshFrames ns :=
      (hcl.sameExchange ns).freshFrames
    have hp : replies (.finished .read (errorOf result) :: (closing ++ ns)) = replies ns :=
      hcl.replies ns
    obtain ⟨hpre, ⟨refused, hgiven, hr⟩, hov, hall⟩ := he.given
    refine ⟨_, hj, hf ▸ hpre, .inr ⟨result, pieces, refused, hd, hp ▸ hgiven, hr, hov, ?_⟩, ?_⟩
    · intro hok
      have hn : ¬ pieces.length < g.pieceCount := by rw [hall hok]; exact Nat.lt_irrefl _
      rw [ReadRange.lt_pieceCount] at hn
      rw [hlen]
      omega
    · rw [hf, hp, ← he.taken, hd]
      refine ⟨?_, fun hok => ⟨pieces.flatten, by rw [hok]⟩⟩
      rintro ⟨response, hd'⟩
      exact (Completion.mk.inj (List.cons.inj hd').1).2.1

/-- The last two bytes of the address space and the first two. -/
def aroundEnd : ReadRange := ⟨0xFFFFFFFE, 4⟩

/-- The memory is busy at first, and then the answer has a byte too many. -/
def busyReader : Bench MockLink :=
  { link := {
      answers := [[0x20], [0, 0, 4, 0, 0x11, 0x22, 0x33, 0x44, 0x55]].map
        (fun body => Frame.wrap body false) } }

def readMoves : List (Move (Bench MockLink)) :=
  [.handleNext, .handleNext, .arrive [.expired 4], .handleNext, .handleNext, .handleNext]

theorem read_tiles_range_past_busy :
    ∃ e₁, (fresh {} (ImageLibrary.ofList []) busyReader).call (.read 0xFFFFFFFE 4) =
        (.ok (), e₁) ∧
      (∀ m ∈ readMoves, Move.Serves m) ∧
      ∃ ns, (e₁.run readMoves).journal = ns ++ [] ∧
        (e₁.run readMoves).delivered = [⟨.read, .ok (), [0x11, 0x22, 0x33, 0x44]⟩] ∧
        freshFrames ns = aroundEnd.frames ∧ ∃ pieces : List Bytes,
          pieces.length = aroundEnd.pieceCount ∧
          aroundEnd.pieces (replies ns) = pieces.map some := by
  have hm : ∀ m ∈ readMoves, Move.Serves m := by
    simp [readMoves, Move.Serves.handleNext, Move.Serves.arrive]
  obtain ⟨hc, hr⟩ : (((fresh {} (ImageLibrary.ofList []) busyReader).call
      (.read 0xFFFFFFFE 4)).1.isOk = true) ∧
      (((fresh {} (ImageLibrary.ofList []) busyReader).call (.read 0xFFFFFFFE 4)).2.run
        readMoves).delivered.map (fun c => (c.result.isOk, c.response)) =
        [(true, [0x11, 0x22, 0x33, 0x44])] := by decide +kernel
  rcases hcall : (fresh {} (ImageLibrary.ofList []) busyReader).call (.read 0xFFFFFFFE 4) with
    ⟨r, e₁⟩
  rw [hcall] at hc hr
  cases r with
  | error err => cases hc
  | ok =>
    obtain ⟨ns, hj, -, hd, hiff⟩ := read_tiles_range {} (ImageLibrary.ofList []) busyReader []
      (.read 0xFFFFFFFE 4) aroundEnd e₁ readMoves rfl hcall hm
    have hd' : (e₁.run readMoves).delivered = [⟨.read, .ok (), [0x11, 0x22, 0x33, 0x44]⟩] := by
      rcases hd with hd | ⟨result, pieces, -, hd, -⟩
      · rw [hd] at hr
        cases hr
      · rw [hd] at hr ⊢
        obtain ⟨hok, hresp⟩ := Prod.mk.inj (List.cons.inj hr).1
        cases result with
        | error err => cases hok
        | ok =>
          rw [← hresp]
          rfl
    exact ⟨e₁, rfl, hm, ns, hj, hd', hiff.1 ⟨_, hd'⟩⟩

end Engine

end FirmwareDownload
