import FirmwareDownload.Proofs.Engine.Reaction

/-! A session in flight stands still between two signals. Here is where it can stand, which
signals it waits for there, and all that can come of such a signal. -/

namespace FirmwareDownload

namespace Session

structure OnFrame (s : Session) : Prop where
  phase : s.phase = .recv
  write : s.writeTicket.isSome = true
  read : s.readTicket = none
  timer : s.timer.ticket = none

/-- The session waits for its timer, and for an answer unless the memory was busy. -/
structure OnTimer (s : Session) : Prop where
  phase : s.phase = .timer
  timer : s.timer.ticket.isSome = true
  write : s.writeTicket = none
  read : s.readTicket.isSome = true ↔ s.timer.purpose = .response

structure Waiting (s : Session) (command : Command) (id : TimerId) : Prop extends
    s.Underway command id where
  place : s.OnFrame ∨ s.OnTimer

def Awaits (s : Session) : Signal → Prop
  | .written ticket _ => s.phase = .recv ∧ s.writeTicket = some ticket
  | .received ticket _ => s.phase = .timer ∧ s.readTicket = some ticket
  | .expired ticket => s.phase = .timer ∧ s.timer.ticket = some ticket

theorem Waiting.onTimer {s : Session} {command : Command} {id : TimerId}
    (h : s.Waiting command id) (hp : s.phase = .timer) : s.OnTimer := by
  rcases h.place with hf | ht
  · cases hf.phase.symm.trans hp
  · exact ht

theorem Awaits.phase {s : Session} {signal : Signal} (h : s.Awaits signal) :
    s.phase = .recv ∨ s.phase = .timer := by
  cases signal with
  | written => exact .inl h.1
  | received => exact .inr h.1
  | expired => exact .inr h.1

/-! ## What answers and frames leave alone -/

theorem keepAnswer_eq (s : Session) (data : Bytes) : ∃ response length,
    (s.keepAnswer data).2 = { s with response := response, responseLength := length } := by
  unfold Session.keepAnswer
  split
  · exact ⟨s.response, s.responseLength, rfl⟩
  · split
    · exact ⟨s.response, s.responseLength, rfl⟩
    · exact ⟨_, _, rfl⟩

theorem applyAnswer_eq (s : Session) (command : Command) (answer : Frame) :
    ∃ transfer response length status, (s.applyAnswer command answer).2 =
      { s with
        transfer := transfer, response := response, responseLength := length
        lastStatus := status } := by
  unfold Session.applyAnswer
  split
  · exact ⟨_, s.response, s.responseLength, _, rfl⟩
  · exact ⟨_, _, _, s.lastStatus, rfl⟩
  · split
    · obtain ⟨response, length, he⟩ := s.keepAnswer_eq answer.payload
      exact ⟨s.transfer, response, length, s.lastStatus, he⟩
    · exact ⟨s.transfer, s.response, s.responseLength, s.lastStatus, rfl⟩

/-- An answer changes the transfer, the response and the counts, and nothing else. -/
theorem handleAnswer_eq (s : Session) (raw : Bytes) :
    ∃ transfer response length status count, (s.handleAnswer raw).2 =
      { s with
        transfer := transfer, response := response, responseLength := length
        lastStatus := status, resendCount := count } := by
  unfold Session.handleAnswer
  split
  · exact ⟨_, _, _, _, _, rfl⟩
  · obtain ⟨response, length, he⟩ := s.keepAnswer_eq raw
    split <;> rename_i hs <;> rw [hs] at he <;>
      exact ⟨s.transfer, response, length, s.lastStatus, s.resendCount, he⟩
  · rename_i command _ _
    split
    · exact ⟨_, _, _, _, _, rfl⟩
    · rename_i answer _
      split
      · exact ⟨s.transfer, s.response, s.responseLength, some .memBusy, s.resendCount, rfl⟩
      · obtain ⟨transfer, response, length, status, he⟩ :=
          applyAnswer_eq { s with resendCount := 0 } command answer
        refine ⟨transfer, response, length, status, 0, ?_⟩
        split <;> rename_i hs <;> rw [hs] at he
        · exact he
        · split <;> exact he

theorem handleAnswer_raw {s : Session} (hc : s.command = some .raw) (raw : Bytes) :
    s.handleAnswer raw = match s.keepAnswer raw with
      | (.ok (), s) => (.done, s)
      | (.error e, s) => (.failed e, s) := by
  unfold Session.handleAnswer
  rewrite [hc]
  rfl

theorem handleAnswer_framed {s : Session} {command : Command} (hc : s.command = some command)
    (hr : command ≠ .raw) (raw : Bytes) :
    s.handleAnswer raw = match Frame.decode raw with
      | .error e => (.failed (.failed (.frame e)), s)
      | .ok answer =>
        if answer.status = .memBusy ∧ command.shape = .readWrite then
          (.resend, { s with lastStatus := some .memBusy })
        else
          match { s with resendCount := 0 }.applyAnswer command answer with
          | (.error e, s) => (.failed e, s)
          | (.ok (), s) =>
            (if command.shape = .readWrite ∧ 0 < s.transfer.remaining then .proceed else .done,
              s) := by
  unfold Session.handleAnswer
  split
  · rename_i hn
    cases hn.symm.trans hc
  · rename_i hn
    exact (hr (Option.some.inj (hc.symm.trans hn))).elim
  · rename_i command' _ hn
    obtain rfl := Option.some.inj (hn.symm.trans hc)
    cases Frame.decode raw with
    | error e => rfl
    | ok answer =>
      dsimp only
      split
      · rfl
      · generalize ({ s with resendCount := 0 } : Session).applyAnswer command' answer = applied
        obtain ⟨r, s'⟩ := applied
        cases r with
        | error e => rfl
        | ok => exact (apply_ite (fun v => (v, s')) _ _ _).symm

def taking (s : Session) (transfer : Transfer) (status : Status) : Session :=
  { s with
    resendCount := 0
    transfer := transfer
    lastStatus := if status.isRecoverable then some status else s.lastStatus }

theorem applyAnswer_write (s : Session) (answer : Frame) :
    { s with resendCount := 0 }.applyAnswer .write answer =
      ((s.transfer.acceptWrite answer.status).1,
        s.taking (s.transfer.acceptWrite answer.status).2 answer.status) :=
  rfl

theorem applyAnswer_other {s : Session} {command : Command} {answer : Frame}
    (hr : command ≠ .read) (hw : command ≠ .write) :
    s.applyAnswer command answer =
      if answer.status = .ok then s.keepAnswer answer.payload
      else (.error (.failed (.unexpectedStatus answer.status)), s) := by
  cases command <;> first | rfl | exact absurd rfl hr | exact absurd rfl hw

/-- A command of one frame is over with its answer. -/
theorem handleAnswer_single {s : Session} {command : Command} {raw : Bytes} {answer : Frame}
    (hc : s.command = some command) (hs : command.shape = .plain) (hr : command ≠ .raw)
    (hd : Frame.decode raw = .ok answer) :
    s.handleAnswer raw =
      if answer.status = .ok then
        match { s with resendCount := 0 }.keepAnswer answer.payload with
        | (.ok (), s) => (.done, s)
        | (.error e, s) => (.failed e, s)
      else (.failed (.failed (.unexpectedStatus answer.status)), { s with resendCount := 0 }) := by
  have hshape : ¬ command.shape = .readWrite := by
    rw [hs]
    exact Shape.noConfusion
  rw [handleAnswer_framed hc hr, hd]
  dsimp only
  rw [if_neg fun h => hshape h.2,
    applyAnswer_other (by rintro rfl; cases hs) (by rintro rfl; cases hs)]
  by_cases hst : answer.status = .ok
  · rw [if_pos hst, if_pos hst]
    cases ({ s with resendCount := 0 } : Session).keepAnswer answer.payload with
    | mk r s' =>
      cases r with
      | error err => rfl
      | ok =>
        dsimp only
        rw [if_neg fun h => hshape h.1]
  · rw [if_neg hst, if_neg hst]

theorem handleAnswer_write {s : Session} (hc : s.command = some .write) (raw : Bytes) :
    s.handleAnswer raw = match Frame.decode raw with
      | .error e => (.failed (.failed (.frame e)), s)
      | .ok answer =>
        if answer.status = .memBusy then (.resend, { s with lastStatus := some .memBusy })
        else
          match s.transfer.acceptWrite answer.status with
          | (.error e, transfer) => (.failed e, s.taking transfer answer.status)
          | (.ok (), transfer) =>
            (if 0 < transfer.remaining then .proceed else .done,
              s.taking transfer answer.status) := by
  have hs : Command.write.shape = .readWrite := rfl
  rw [handleAnswer_framed hc Command.noConfusion]
  cases Frame.decode raw with
  | error e => rfl
  | ok answer =>
    dsimp only
    by_cases hb : answer.status = .memBusy
    · rw [if_pos ⟨hb, hs⟩, if_pos hb]
    · rw [if_neg (fun h => hb h.1), if_neg hb, applyAnswer_write]
      rcases s.transfer.acceptWrite answer.status with ⟨r, transfer⟩
      cases r with
      | error e => rfl
      | ok u =>
        dsimp only
        by_cases hr : 0 < transfer.remaining
        · rw [if_pos ⟨hs, hr⟩, if_pos hr]
        · rw [if_neg (fun h => hr h.2), if_neg hr]

theorem setFrame_eq (s : Session) (r : Except DownloadError FrameBuffer) :
    ∃ frame, (s.setFrame r).2 = { s with frame := frame } := by
  cases r with
  | ok frame => exact ⟨frame, rfl⟩
  | error err => exact ⟨s.frame, rfl⟩

theorem setFrame_transfer_eq (s : Session) (transfer : Transfer)
    (r : Except DownloadError FrameBuffer) : ∃ frame transfer',
    ({ s with transfer := transfer }.setFrame r).2 =
      { s with frame := frame, transfer := transfer' } :=
  (setFrame_eq { s with transfer := transfer } r).imp (fun _ he => ⟨transfer, he⟩)

/-- Building a frame changes the frame and the transfer, and nothing else. -/
theorem compose_eq (s : Session) : ∃ frame transfer,
    s.compose.2 = { s with frame := frame, transfer := transfer } := by
  unfold Session.compose
  split
  · exact ⟨s.frame, s.transfer, rfl⟩
  · exact s.setFrame_transfer_eq s.transfer _
  · exact s.setFrame_transfer_eq s.transfer _
  · exact s.setFrame_transfer_eq _ _
  · exact s.setFrame_transfer_eq s.transfer _
  · split
    · exact ⟨s.frame, s.transfer, rfl⟩
    · exact s.setFrame_transfer_eq _ _
  · split
    · exact ⟨s.frame, s.transfer, rfl⟩
    · exact s.setFrame_transfer_eq s.transfer _
  · split
    · exact ⟨s.frame, s.transfer, rfl⟩
    · exact s.setFrame_transfer_eq s.transfer _

theorem composed {s s' : Session} {r : Except DownloadError Unit} (hc : s.compose = (r, s')) :
    ∃ frame transfer, s' = { s with frame := frame, transfer := transfer } := by
  obtain ⟨frame, transfer, he⟩ := s.compose_eq
  exact ⟨frame, transfer, (congrArg Prod.snd hc).symm.trans he⟩

theorem Underway.handleAnswer {s : Session} {command : Command} {id : TimerId}
    (h : s.Underway command id) (raw : Bytes) :
    (s.answering.handleAnswer raw).2.Underway command id := by
  obtain ⟨_, _, _, _, _, he⟩ := s.answering.handleAnswer_eq raw
  rw [he]
  exact ⟨h.busy, h.command, h.awaited, h.timer, h.fresh⟩

theorem Underway.compose {s s' : Session} {command : Command} {id : TimerId}
    {r : Except DownloadError Unit} (h : s.Underway command id)
    (hc : { s with phase := .send }.compose = (r, s')) : s'.Underway command id := by
  obtain ⟨_, _, he⟩ := composed hc
  rw [he]
  exact ⟨h.busy, h.command, h.awaited, h.timer, h.fresh⟩

theorem handleAnswer_phase (s : Session) (raw : Bytes) :
    (s.answering.handleAnswer raw).2.phase = .response := by
  obtain ⟨_, _, _, _, _, he⟩ := s.answering.handleAnswer_eq raw
  rw [he]
  rfl

theorem compose_phase {s s' : Session} {r : Except DownloadError Unit}
    (hc : { s with phase := .send }.compose = (r, s')) : s'.phase = .send := by
  obtain ⟨_, _, he⟩ := composed hc
  rw [he]

def tickets (s : Session) : Option Ticket × Option Ticket × Option Ticket :=
  (s.writeTicket, s.readTicket, s.timer.ticket)

theorem handleAnswer_tickets (s : Session) (raw : Bytes) :
    (s.answering.handleAnswer raw).2.tickets = (s.writeTicket, none, none) := by
  obtain ⟨_, _, _, _, _, he⟩ := s.answering.handleAnswer_eq raw
  rw [he]
  rfl

theorem compose_tickets {s s' : Session} {r : Except DownloadError Unit}
    (hc : { s with phase := .send }.compose = (r, s')) : s'.tickets = s.tickets := by
  obtain ⟨_, _, he⟩ := composed hc
  rw [he]
  rfl

theorem moveNotices_of_phase {s : Session} {p q : Phase} (hp : s.phase = p) (hq : p ≠ q) :
    s.moveNotices q = [.moved p q] := by
  rw [moveNotices, hp, if_neg hq]

end Session

namespace Engine

variable {W : Type} [Host W]

/-- The session ends with `result`, or goes on if there is none yet. -/
def Turns (e : Engine W) (s : Session) (ns : List Notice) (command : Command) :
    Option (Except DownloadError Unit) → Engine W → Prop
  | none, e' => e.Passes s ns e'
  | some result, e' => e.Concludes s ns command result e'

inductive Unhindered (W : Type) [Host W] : Option (Except DownloadError Unit) → Prop
  | goes : Unhindered W none
  | fails {err : DownloadError} : HostFault W err → Unhindered W (some (.error err))

theorem GoesOn.turns {e e' : Engine W} {s : Session} {ns : List Notice} {command : Command}
    (h : e.GoesOn s ns command e') :
    ∃ outcome, Unhindered W outcome ∧ e.Turns s ns command outcome e' := by
  rcases h with h | ⟨err, hf, h⟩
  · exact ⟨none, .goes, h⟩
  · exact ⟨some (.error err), .fails hf, h⟩

/-- What a session in flight makes of a signal that it waits for, on the way from `e` to `e'`: the
session it becomes, what is noted, newest first, and how it ends, if it does. -/
inductive Reacts (e e' : Engine W) (command : Command) (id : TimerId) :
    Signal → Session → List Notice → Option (Except DownloadError Unit) → Prop
  | writeFailed {w : Ticket} {err : LinkError} :
    Reacts e e' command id (.written w (.error err)) e.session.frameOut []
      (some (.error (.failed (.link err))))
  | timerRefused {w : Ticket} {err : DownloadError} : HostFault W err →
    Reacts e e' command id (.written w (.ok ())) e.session.frameOut [] (some (.error err))
  | listens {w t r : Ticket} {outcome : Option (Except DownloadError Unit)} :
    e.Draws e' t → e.Draws e' r → Unhindered W outcome →
    Reacts e e' command id (.written w (.ok ())) (e.session.frameOut.listening t r)
      [.readRequested Frame.maxLength, .moved .recv .timer,
        .timerArmed id e.config.responseTimeout.toNat] outcome
  | readFailed {r : Ticket} {err : LinkError} :
    Reacts e e' command id (.received r (.error err)) e.session.answering
      (.moved .timer .response :: e.session.haltNotices) (some (.error (.failed (.link err))))
  | done {r : Ticket} {raw : Bytes} : (e.session.answering.handleAnswer raw).1 = .done →
    Reacts e e' command id (.received r (.ok raw)) (e.session.answering.handleAnswer raw).2
      (e.session.answerNotices raw) (some (.ok ()))
  | failed {r : Ticket} {raw : Bytes} {err : DownloadError} :
    (e.session.answering.handleAnswer raw).1 = .failed err →
    Reacts e e' command id (.received r (.ok raw)) (e.session.answering.handleAnswer raw).2
      (e.session.answerNotices raw) (some (.error err))
  | frameRefused {r : Ticket} {raw : Bytes} {err : DownloadError} {s : Session} :
    (e.session.answering.handleAnswer raw).1 = .proceed →
    { (e.session.answering.handleAnswer raw).2 with phase := .send }.compose = (.error err, s) →
    Reacts e e' command id (.received r (.ok raw)) s
      (.moved .response .send :: e.session.answerNotices raw) (some (.error err))
  | proceeds {r t : Ticket} {raw : Bytes} {s : Session}
      {outcome : Option (Except DownloadError Unit)} :
    (e.session.answering.handleAnswer raw).1 = .proceed →
    { (e.session.answering.handleAnswer raw).2 with phase := .send }.compose = (.ok (), s) →
    e.Draws e' t → Unhindered W outcome →
    Reacts e e' command id (.received r (.ok raw)) (s.sending t)
      (.sent s.frame.bytes :: .moved .send .recv :: .moved .response .send ::
        e.session.answerNotices raw) outcome
  | exhausted {r : Ticket} {raw : Bytes} {limit : UInt32} :
    (e.session.answering.handleAnswer raw).1 = .resend →
    e.config.resendLimit = some limit →
    limit < (e.session.answering.handleAnswer raw).2.resendCount + 1 →
    Reacts e e' command id (.received r (.ok raw))
      (e.session.answering.handleAnswer raw).2.countBusy (e.session.answerNotices raw)
      (some (.error (.failed (.resendLimit limit))))
  | waitRefused {r : Ticket} {raw : Bytes} {err : DownloadError} :
    (e.session.answering.handleAnswer raw).1 = .resend → HostFault W err →
    Reacts e e' command id (.received r (.ok raw))
      (e.session.answering.handleAnswer raw).2.countBusy
      (.resend ((e.session.answering.handleAnswer raw).2.resendCount + 1) ::
        e.session.answerNotices raw) (some (.error err))
  | holds {r t : Ticket} {raw : Bytes} :
    (e.session.answering.handleAnswer raw).1 = .resend →
    (∀ limit, e.config.resendLimit = some limit →
      (e.session.answering.handleAnswer raw).2.resendCount + 1 ≤ limit) →
    e.Draws e' t →
    Reacts e e' command id (.received r (.ok raw))
      ((e.session.answering.handleAnswer raw).2.holding t)
      (.moved .response .timer :: .timerArmed id e.config.resendWait.toNat ::
        .resend ((e.session.answering.handleAnswer raw).2.resendCount + 1) ::
          e.session.answerNotices raw) none
  | silent {t : Ticket} : e.session.timer.purpose = .response →
    Reacts e e' command id (.expired t) e.session.lapsed.silenced
      (e.session.venResetNotices e.config ++ [.timeout command, .moved .timer .response])
      (some (silenceResult command))
  | resends {t w : Ticket} {outcome : Option (Except DownloadError Unit)} :
    e.session.timer.purpose = .resendWait → e.Draws e' w → Unhindered W outcome →
    Reacts e e' command id (.expired t) (e.session.lapsed.sending w)
      [.sent e.session.frame.bytes, .moved .send .recv, .moved .timer .send] outcome

variable {e : Engine W} {command : Command} {id : TimerId} {signal : Signal}

theorem handle_ignored (h : ¬ e.session.Awaits signal) : e.handle signal = e := by
  cases signal <;> exact if_neg h

theorem handle_written_reacts (h : e.session.Waiting command id) {ticket : Ticket}
    (result : Except LinkError Unit) (ha : e.session.Awaits (.written ticket result)) :
    ∃ s ns outcome,
      e.Reacts (e.handle (.written ticket result)) command id (.written ticket result)
        s ns outcome ∧
      e.Turns s ns command outcome (e.handle (.written ticket result)) := by
  have hp := (Passes.refl e).withSession e.session.frameOut
  have hu : e.session.frameOut.Underway command id :=
    ⟨h.busy, h.command, h.awaited, h.timer, h.fresh⟩
  rw [handle_written ha.1 ha.2]
  cases result with
  | error err => exact ⟨_, _, _, .writeFailed, hp.conclude hu.command hu.awaited _⟩
  | ok =>
    rcases hp.onWritten hu ha.1 with ⟨err, hf, hc⟩ | ⟨t, r, ht, hr, hg⟩
    · exact ⟨_, _, _, .timerRefused hf, hc⟩
    · obtain ⟨outcome, ho, hg⟩ := hg.turns
      exact ⟨_, _, _, .listens ht hr ho, hg⟩

theorem handle_received_reacts (h : e.session.Waiting command id) {ticket : Ticket}
    (result : Except LinkError Bytes) (ha : e.session.Awaits (.received ticket result)) :
    ∃ s ns outcome,
      e.Reacts (e.handle (.received ticket result)) command id (.received ticket result)
        s ns outcome ∧
      e.Turns s ns command outcome (e.handle (.received ticket result)) := by
  cases result with
  | error err =>
    have hp := ((Passes.refl e).withSession { e.session with readTicket := none }).haltTimer.enter
      .response
    have hn := Session.moveNotices_of_phase (s := { e.session with readTicket := none }.lapsed)
      ha.1 (q := .response) (by decide)
    rw [hn, List.append_nil] at hp
    rw [handle_received ha.1 ha.2]
    exact ⟨_, _, _, .readFailed, hp.conclude h.command h.awaited _⟩
  | ok raw =>
    obtain ⟨e₁, he, hp⟩ := handle_answer ha.1 ha.2 raw
    have hu := h.toUnderway.handleAnswer raw
    have hr := e.session.handleAnswer_phase raw
    rw [he]
    cases hv : (e.session.answering.handleAnswer raw).1 with
    | done => exact ⟨_, _, _, .done hv, hp.follow_done hu⟩
    | failed err => exact ⟨_, _, _, .failed hv, hp.follow_failed hu err⟩
    | proceed =>
      cases hc : { (e.session.answering.handleAnswer raw).2 with phase := .send }.compose with
      | mk r s =>
        have hu' := hu.compose hc
        have hs := Session.compose_phase hc
        have hm := Session.moveNotices_of_phase hr (q := .send) (by decide)
        cases r with
        | error err =>
          have hf := hp.follow_proceed_refused hu hu' hc
          rw [hm] at hf
          exact ⟨_, _, _, .frameRefused hv hc, hf⟩
        | ok =>
          obtain ⟨t, ht, hg⟩ := hp.follow_proceed hu hu' hc
          obtain ⟨outcome, ho, hg⟩ := hg.turns
          rw [hm, Session.moveNotices_of_phase hs (by decide)] at hg
          exact ⟨_, _, _, .proceeds hv hc ht ho, hg⟩
    | resend =>
      have hm := Session.moveNotices_of_phase hr (q := .timer) (by decide)
      rcases hp.awaitMemory hu with ⟨limit, hl, hlt, hc⟩ | ⟨hl, ⟨err, hf, hc⟩ | ⟨t, ht, hp⟩⟩
      · exact ⟨_, _, _, .exhausted hv hl hlt, hc⟩
      · exact ⟨_, _, _, .waitRefused hv hf, hc⟩
      · rw [hm] at hp
        exact ⟨_, _, _, .holds hv hl ht, hp⟩

theorem onExpired_eq (e : Engine W) : e.onExpired =
    match e.session.timer.purpose with
    | .response => (e.withSession e.session.lapsed).onSilence
    | .resendWait => (e.withSession e.session.lapsed).sendAgain :=
  rfl

theorem handle_expired_reacts (h : e.session.Waiting command id) {ticket : Ticket}
    (ha : e.session.Awaits (.expired ticket)) :
    ∃ s ns outcome,
      e.Reacts (e.handle (.expired ticket)) command id (.expired ticket) s ns outcome ∧
      e.Turns s ns command outcome (e.handle (.expired ticket)) := by
  have hp := (Passes.refl e).withSession e.session.lapsed
  have hu : e.session.lapsed.Underway command id :=
    ⟨h.busy, h.command, h.awaited, h.timer, h.fresh⟩
  rw [handle_expired ha.1 ha.2, onExpired_eq]
  cases hpu : e.session.timer.purpose with
  | response =>
    have hc := hp.onSilence hu
    rw [Session.moveNotices_of_phase (s := e.session.lapsed) ha.1 (by decide)] at hc
    exact ⟨_, _, _, .silent hpu, hc⟩
  | resendWait =>
    obtain ⟨t, ht, hg⟩ := hp.sendAgain hu
    obtain ⟨outcome, ho, hg⟩ := hg.turns
    rw [Session.moveNotices_of_phase (s := e.session.lapsed) ha.1 (by decide)] at hg
    exact ⟨_, _, _, .resends hpu ht ho, hg⟩

/-- Every signal that a session in flight waits for is one of these steps. -/
theorem handle_reacts (h : e.session.Waiting command id) (ha : e.session.Awaits signal) :
    ∃ s ns outcome, e.Reacts (e.handle signal) command id signal s ns outcome ∧
      e.Turns s ns command outcome (e.handle signal) := by
  cases signal with
  | written ticket result => exact handle_written_reacts h result ha
  | received ticket result => exact handle_received_reacts h result ha
  | expired ticket => exact handle_expired_reacts h ha

end Engine

end FirmwareDownload
