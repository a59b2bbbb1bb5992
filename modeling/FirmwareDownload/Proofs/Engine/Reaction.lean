import FirmwareDownload.Proofs.Engine.Ending

/-! What a session does with a signal that it waits for: it goes on to its next wait, or it
ends. Each statement gives the session and the notices that lead there. -/

namespace FirmwareDownload

namespace Session

/-- A session in flight, as it stands between two signals. -/
structure Underway (s : Session) (command : Command) (id : TimerId) : Prop where
  busy : s.busy = true
  command : s.command = some command
  awaited : s.awaited = true
  timer : s.timer.id = some id
  fresh : s.resendLastFrame = false

def frameOut (s : Session) : Session := { s with writeTicket := none }

def listening (s : Session) (timer read : Ticket) : Session :=
  { s with
    readTicket := some read
    timer := s.timer.arm .response timer
    phase := .timer }

def answering (s : Session) : Session :=
  { s with
    readTicket := none
    timer := { s.timer with running := false, ticket := none }
    phase := .response }

def sending (s : Session) (write : Ticket) : Session :=
  { s with resendLastFrame := false, writeTicket := some write, phase := .recv }

def countBusy (s : Session) : Session := { s with resendCount := s.resendCount + 1 }

def holding (s : Session) (timer : Ticket) : Session :=
  { s.countBusy with timer := s.timer.arm .resendWait timer, phase := .timer }

def lapsed (s : Session) : Session :=
  { s with timer := { s.timer with running := false, ticket := none } }

def silenced (s : Session) : Session :=
  { s with timer := { s.timer with timedOut := true }, phase := .response }

def venResetNotices (s : Session) (config : Config) : List Notice :=
  if config.venResetOnTimeout ∧ s.lastStatus = some .signatureError then
    [.modeRequested .download, .modeRequested .normal, .venReset]
  else []

def haltNotices (s : Session) : List Notice :=
  match s.timer.id with
  | none => []
  | some id => if s.timer.running then [.timerStopped id] else []

def statusNotices (s : Session) (raw : Bytes) : List Notice :=
  if s.command = some .raw then []
  else
    match Frame.decode raw with
    | .ok answer => [.answered answer.status]
    | .error _ => []

def progressNotices (s : Session) : List Notice :=
  match s.command, s.request with
  | some command, .write =>
    [.progress command s.transfer.offset (s.userData.getD #[]).size]
  | some command, .read _ => [.progress command s.transfer.bytesRead s.response.capacity]
  | _, _ => []

/-- What is noted about an answer, newest first. -/
def answerNotices (s : Session) (raw : Bytes) : List Notice :=
  (s.answering.handleAnswer raw).2.progressNotices ++ (s.answering.statusNotices raw ++
    (.received raw :: (s.moveNotices .response ++ s.haltNotices)))

end Session

namespace Engine

variable {W : Type} [Host W] {e e₁ : Engine W} {s : Session} {ns : List Notice}

/-- The session goes on as `s`, unless the host failed the last call on it. -/
def GoesOn (e : Engine W) (s : Session) (ns : List Notice) (command : Command)
    (e' : Engine W) : Prop :=
  e.Passes s ns e' ∨ ∃ err, HostFault W err ∧ e.Concludes s ns command (.error err) e'

theorem Passes.concludeOnError {r : Except DownloadError Unit} {command : Command}
    (h : e.Passes s ns e₁) (hr : ∀ err, r = .error err → HostFault W err)
    (hc : s.command = some command) (ha : s.awaited = true) :
    e.GoesOn s ns command (Engine.concludeOnError (r, e₁)) := by
  cases r with
  | ok => exact .inl h
  | error err => exact .inr ⟨err, hr err rfl, h.conclude hc ha (.error err)⟩

theorem lastTicket_concludeOnError (r : Except DownloadError Unit) (e : Engine W) :
    e.lastTicket ≤ (Engine.concludeOnError (r, e)).lastTicket := by
  cases r with
  | ok => exact Nat.le_refl _
  | error err => exact lastTicket_conclude e _

theorem Passes.haltTimer (h : e.Passes s ns e₁) :
    e.Passes s.lapsed (s.haltNotices ++ ns) e₁.haltTimer := by
  obtain rfl := h.session
  unfold Engine.haltTimer Session.haltNotices
  cases hid : e₁.session.timer.id with
  | none => exact h.update Session.lapsed
  | some id => exact (h.stopIfRunning id).update Session.lapsed

/-! ## Sending -/

theorem Passes.sendNext_resend (h : e.Passes s ns e₁) (hs : s.resendLastFrame = true) :
    ∃ r t e₂, e₁.sendNext = (r, e₂) ∧ (∀ err, r = .error err → HostFault W err) ∧
      e₁.Draws e₂ t ∧
      e.Passes (s.sending t) (.sent s.frame.bytes :: (s.moveNotices .recv ++ ns)) e₂ := by
  unfold Engine.sendNext
  rw [h.session, if_pos hs]
  exact (h.withSession { s with resendLastFrame := false }).writeFrame

theorem sendNext_refused (hs : e.session.resendLastFrame = false) {err : DownloadError}
    {s : Session} (hc : e.session.compose = (.error err, s)) :
    e.sendNext = (.error err, e.withSession s) := by
  unfold Engine.sendNext
  rw [hs, hc]
  rfl

theorem Passes.sendNext {s' : Session} (h : e.Passes s ns e₁) (hs : s.resendLastFrame = false)
    (hs' : s'.resendLastFrame = false) (hc : s.compose = (.ok (), s')) :
    ∃ r t e₂, e₁.sendNext = (r, e₂) ∧ (∀ err, r = .error err → HostFault W err) ∧
      e₁.Draws e₂ t ∧
      e.Passes (s'.sending t) (.sent s'.frame.bytes :: (s'.moveNotices .recv ++ ns)) e₂ := by
  unfold Engine.sendNext
  rw [h.session, hs, hc]
  obtain ⟨r, t, e₂, he, hr, ht, h₂⟩ := (h.withSession s').writeFrame
  refine ⟨r, t, e₂, he, hr, ht, h₂.congr ?_ rfl⟩
  rw [Session.sending, ← hs']

/-! ## The frame is written -/

theorem handle_written {ticket : Ticket} (hp : e.session.phase = .recv)
    (hw : e.session.writeTicket = some ticket) (result : Except LinkError Unit) :
    e.handle (.written ticket result) = (e.withSession e.session.frameOut).onWritten result :=
  if_pos ⟨hp, hw⟩

variable {command : Command} {id : TimerId}

theorem Passes.onWritten (h : e.Passes s ns e₁) (hu : s.Underway command id)
    (hp : s.phase = .recv) :
    (∃ err, HostFault W err ∧ e.Concludes s ns command (.error err) (e₁.onWritten (.ok ()))) ∨
    ∃ t r, e.Draws (e₁.onWritten (.ok ())) t ∧ e.Draws (e₁.onWritten (.ok ())) r ∧
      e.GoesOn (s.listening t r)
      (.readRequested Frame.maxLength :: .moved .recv .timer ::
        .timerArmed id e.config.responseTimeout.toNat :: ns) command (e₁.onWritten (.ok ())) := by
  unfold Engine.onWritten
  rw [h.config]
  dsimp only
  rcases h.setTimer .response e.config.responseTimeout.toNat hu.timer with
    ⟨err, e₂, he, hf, h₂⟩ | ⟨t, e₂, he, ht, h₂⟩
  · rw [he]
    exact .inl ⟨err, hf, h₂.conclude hu.command hu.awaited _⟩
  · obtain ⟨r, t', e₃, he', hr, ht', h₃⟩ := (h₂.enter .timer).requestRead
    rw [he]
    dsimp only
    rw [he']
    have hl := lastTicket_concludeOnError r e₃
    have ht'' : e₂.Draws e₃ t' := ⟨lastTicket_enter e₂ .timer ▸ ht'.1, ht'.2⟩
    refine .inr ⟨t, t', (h.draws ht).mono (Nat.le_trans ht''.le hl), (h₂.draws ht'').mono hl,
      (h₃.congr rfl ?_).concludeOnError hr hu.command hu.awaited⟩
    simp [Session.moveNotices, hp]

/-! ## The answer comes -/

theorem handle_received {ticket : Ticket} (hp : e.session.phase = .timer)
    (hr : e.session.readTicket = some ticket) (result : Except LinkError Bytes) :
    e.handle (.received ticket result) =
      (e.withSession { e.session with readTicket := none }).onReceived result :=
  if_pos ⟨hp, hr⟩

omit [Host W] in
theorem Passes.noteStatus (h : e.Passes s ns e₁) (raw : Bytes) :
    e.Passes s (s.statusNotices raw ++ ns) (e₁.noteStatus raw) := by
  unfold Engine.noteStatus Session.statusNotices
  rw [h.session]
  split
  · exact h
  · cases Frame.decode raw with
    | ok answer => exact h.note _
    | error err => exact h

omit [Host W] in
theorem Passes.noteProgress (h : e.Passes s ns e₁) :
    e.Passes s (s.progressNotices ++ ns) e₁.noteProgress := by
  unfold Engine.noteProgress Session.progressNotices
  rw [h.session]
  cases s.command with
  | none => exact h
  | some command =>
    cases s.request with
    | write => exact h.note _
    | read addr => exact h.note _
    | _ => exact h

def follow (e : Engine W) : Verdict → Engine W
  | .done => e.conclude (.ok ())
  | .failed err => e.conclude (.error err)
  | .proceed => Engine.concludeOnError (e.enter .send).sendNext
  | .resend => e.awaitMemory

theorem handle_answer {ticket : Ticket} (hp : e.session.phase = .timer)
    (hr : e.session.readTicket = some ticket) (raw : Bytes) :
    ∃ e₁, e.handle (.received ticket (.ok raw)) =
        e₁.follow (e.session.answering.handleAnswer raw).1 ∧
      e.Passes (e.session.answering.handleAnswer raw).2 (e.session.answerNotices raw) e₁ := by
  have h := (((Passes.refl e).withSession { e.session with readTicket := none }).haltTimer.enter
    .response)
  have h₁ := (h.note (.received raw)).noteStatus raw
  have h₂ := (h₁.withSession (e.session.answering.handleAnswer raw).2).noteProgress
  refine ⟨_, ?_, h₂.congr rfl ?_⟩
  · rw [handle_received hp hr]
    unfold Engine.onReceived Engine.onAnswer
    dsimp only
    rw [h₁.session]
    rfl
  · rw [List.append_nil]
    rfl

variable {command : Command} {id : TimerId}

theorem Passes.follow_done (h : e.Passes s ns e₁) (hu : s.Underway command id) :
    e.Concludes s ns command (.ok ()) (e₁.follow .done) :=
  h.conclude hu.command hu.awaited _

theorem Passes.follow_failed (h : e.Passes s ns e₁) (hu : s.Underway command id)
    (err : DownloadError) : e.Concludes s ns command (.error err) (e₁.follow (.failed err)) :=
  h.conclude hu.command hu.awaited _

theorem Passes.follow_proceed_refused {s' : Session} {err : DownloadError} (h : e.Passes s ns e₁)
    (hu : s.Underway command id) (hu' : s'.Underway command id)
    (hc : { s with phase := .send }.compose = (.error err, s')) :
    e.Concludes s' (s.moveNotices .send ++ ns) command (.error err) (e₁.follow .proceed) := by
  have h₁ := h.enter .send
  have hn := sendNext_refused (e := e₁.enter .send) (by rw [h₁.session]; exact hu.fresh)
    (h₁.session ▸ hc)
  unfold follow
  rw [hn]
  exact (h₁.withSession s').conclude hu'.command hu'.awaited _

theorem Passes.follow_proceed {s' : Session} (h : e.Passes s ns e₁) (hu : s.Underway command id)
    (hu' : s'.Underway command id) (hc : { s with phase := .send }.compose = (.ok (), s')) :
    ∃ t, e.Draws (e₁.follow .proceed) t ∧ e.GoesOn (s'.sending t)
      (.sent s'.frame.bytes :: (s'.moveNotices .recv ++ (s.moveNotices .send ++ ns))) command
      (e₁.follow .proceed) := by
  obtain ⟨r, t, e₂, he, hr, ht, h₂⟩ := (h.enter .send).sendNext hu.fresh hu'.fresh hc
  unfold follow
  rw [he]
  exact ⟨t, ((h.enter .send).draws ht).mono (lastTicket_concludeOnError r e₂),
    h₂.concludeOnError hr hu'.command hu'.awaited⟩

theorem awaitMemory_eq (e : Engine W) : e.awaitMemory =
    match e.config.resendLimit.filter (fun limit => limit < e.session.resendCount + 1) with
    | some limit =>
      (e.withSession e.session.countBusy).conclude (.error (.failed (.resendLimit limit)))
    | none =>
      match ((e.withSession e.session.countBusy).note
        (.resend (e.session.resendCount + 1))).setTimer .resendWait e.config.resendWait.toNat with
      | (.error err, e) => e.conclude (.error err)
      | (.ok (), e) => e.enter .timer :=
  rfl

theorem Passes.awaitMemory (h : e.Passes s ns e₁) (hu : s.Underway command id) :
    (∃ limit, e.config.resendLimit = some limit ∧ limit < s.resendCount + 1 ∧
      e.Concludes s.countBusy ns command (.error (.failed (.resendLimit limit)))
        e₁.awaitMemory) ∨
    ((∀ limit, e.config.resendLimit = some limit → s.resendCount + 1 ≤ limit) ∧
      ((∃ err, HostFault W err ∧ e.Concludes s.countBusy (.resend (s.resendCount + 1) :: ns) command
        (.error err) e₁.awaitMemory) ∨
      ∃ t, e.Draws e₁.awaitMemory t ∧ e.Passes (s.holding t)
        (s.moveNotices .timer ++ .timerArmed id e.config.resendWait.toNat ::
          .resend (s.resendCount + 1) :: ns) e₁.awaitMemory)) := by
  obtain rfl := h.session
  have h₁ := h.update Session.countBusy
  rw [awaitMemory_eq, h.config]
  split
  · rename_i limit hl
    obtain ⟨hl, hlt⟩ := Option.filter_eq_some_iff.1 hl
    exact .inl ⟨limit, hl, of_decide_eq_true hlt, h₁.conclude hu.command hu.awaited _⟩
  · rename_i hl
    refine .inr ⟨fun limit hl' => ?_, ?_⟩
    · have hn := Option.filter_eq_none_iff.1 hl limit hl'
      rw [decide_eq_true_eq] at hn
      exact UInt32.not_lt.1 hn
    · rcases (h₁.note (.resend (e₁.session.resendCount + 1))).setTimer .resendWait
        e.config.resendWait.toNat hu.timer with ⟨err, e₂, he, hf, h₂⟩ | ⟨t, e₂, he, ht, h₂⟩
      · rw [he]
        exact .inl ⟨err, hf, h₂.conclude hu.command hu.awaited _⟩
      · rw [he]
        have hl : e₂.lastTicket ≤ (e₂.enter .timer).lastTicket :=
          Nat.le_of_eq (lastTicket_enter e₂ .timer).symm
        exact .inr ⟨t, (h.draws ht).mono hl, h₂.enter .timer⟩

/-! ## The session timer goes off -/

theorem handle_expired {ticket : Ticket} (hp : e.session.phase = .timer)
    (ht : e.session.timer.ticket = some ticket) : e.handle (.expired ticket) = e.onExpired :=
  if_pos ⟨hp, ht⟩

theorem Passes.toggleController (h : e.Passes s ns e₁) :
    e.Passes s (.modeRequested .download :: .modeRequested .normal :: .venReset :: ns)
      e₁.toggleController :=
  ((h.note .venReset).setHostMode .normal).setHostMode .download

theorem Passes.venReset (h : e.Passes s ns e₁) :
    e.Passes s (s.venResetNotices e.config ++ ns)
      (if e₁.config.venResetOnTimeout ∧ e₁.session.lastStatus = some .signatureError then
        e₁.toggleController else e₁) := by
  rw [Session.venResetNotices, h.config, h.session]
  split
  · exact h.toggleController
  · exact h

/-- Only a reset succeeds without an answer. -/
def silenceResult (command : Command) : Except DownloadError Unit :=
  if command = .reset then .ok () else .error .timeout

theorem Passes.onSilence (h : e.Passes s ns e₁) (hu : s.Underway command id) :
    e.Concludes s.silenced
      (s.venResetNotices e.config ++ .timeout command :: (s.moveNotices .response ++ ns)) command
      (silenceResult command) e₁.onSilence := by
  obtain rfl := h.session
  have h₁ := (h.update (fun s => { s with timer := { s.timer with timedOut := true } })).enter
    .response
  have hc := (congrArg Session.command h₁.session).trans hu.command
  have h₂ := (h₁.note (.timeout command)).venReset.conclude hu.command hu.awaited
    (silenceResult command)
  unfold Engine.onSilence
  dsimp only at hc ⊢
  rw [hc]
  exact h₂

theorem Passes.sendAgain (h : e.Passes s ns e₁) (hu : s.Underway command id) :
    ∃ t, e.Draws e₁.sendAgain t ∧ e.GoesOn (s.sending t)
      (.sent s.frame.bytes :: .moved .send .recv :: (s.moveNotices .send ++ ns)) command
      e₁.sendAgain := by
  obtain ⟨r, t, e₂, he, hr, ht, h₂⟩ :=
    ((h.enter .send).update (fun s => { s with resendLastFrame := true })).sendNext_resend rfl
  have hl := ((h.enter .send).draws ht).mono (lastTicket_concludeOnError r e₂)
  have h₃ := h₂.concludeOnError hr hu.command hu.awaited
  rw [← he] at hl h₃
  exact ⟨t, hl, h₃⟩

end Engine

end FirmwareDownload
