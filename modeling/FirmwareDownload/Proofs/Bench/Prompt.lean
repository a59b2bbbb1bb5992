import FirmwareDownload.Proofs.Bench.Calm
import FirmwareDownload.Proofs.Engine.Following

/-! An engine on a calm bench whose link answers at once. Each frame takes two signals, the end of
its write and its answer, and no timer ever goes off. -/

namespace FirmwareDownload

/-- The link takes the frame and has the answer ready when it is asked for it. -/
def Replies {D : Type} [Link D] (d : D) (frame raw : Bytes) (d' : D) : Prop :=
  ∃ d₁, (∀ t, Link.write d frame t = ⟨.ok (), [.written t (.ok ())], d₁⟩) ∧
    ∀ r, Link.read d₁ r = ⟨.ok (), [.received r (.ok raw)], d'⟩

namespace Engine

variable {D : Type} [Link D] {e e₁ : Engine (Bench D)} {s s' : Session} {queue : List Signal}
  {d d' : D}

/-! ## Operations -/

/-- On the way from `e` to `e'` nothing was delivered, and the bench stayed calm. -/
structure Reaches (e : Engine (Bench D)) (s : Session) (queue : List Signal) (d : D)
    (e' : Engine (Bench D)) : Prop where
  session : e'.session = s
  queue_eq : e'.queue = queue
  calm : e'.world.Calm d
  timer : ∀ id, s.timer.id = some id → e'.world.HasTimer id
  delivered : e'.delivered = e.delivered
  config : e'.config = e.config
  library : e'.library = e.library
  primary : e'.primary = e.primary

omit [Link D] in
theorem Reaches.note (h : e.Reaches s queue d e₁) (n : Notice) :
    e.Reaches s queue d (e₁.note n) :=
  ⟨h.session, h.queue_eq, h.calm, h.timer, h.delivered, h.config, h.library, h.primary⟩

omit [Link D] in
theorem Reaches.update (h : e.Reaches s queue d e₁) (f : Session → Session)
    (ht : ∀ id, (f s).timer.id = some id → s.timer.id = some id) :
    e.Reaches (f s) queue d (e₁.withSession (f e₁.session)) := by
  obtain rfl := h.session
  exact ⟨rfl, h.queue_eq, h.calm, fun id hid => h.timer id (ht id hid), h.delivered, h.config,
    h.library, h.primary⟩

omit [Link D] in
theorem Reaches.enter (h : e.Reaches s queue d e₁) (p : Phase) :
    e.Reaches { s with phase := p } queue d (e₁.enter p) := by
  have h₁ := h.update (fun s => { s with phase := p }) fun _ hid => hid
  unfold Engine.enter
  split
  · exact h₁
  · exact h₁.note _

omit [Link D] in
theorem Reaches.noteStatus (h : e.Reaches s queue d e₁) (raw : Bytes) :
    e.Reaches s queue d (e₁.noteStatus raw) := by
  unfold Engine.noteStatus
  split
  · exact h
  · split
    · exact h.note _
    · exact h

omit [Link D] in
theorem Reaches.noteProgress (h : e.Reaches s queue d e₁) :
    e.Reaches s queue d e₁.noteProgress := by
  unfold Engine.noteProgress
  split
  · exact h.note _
  · exact h.note _
  · exact h

theorem Reaches.stopHostTimer (h : e.Reaches s queue d e₁) (id : TimerId) :
    e.Reaches s queue d (e₁.stopHostTimer id) := by
  obtain ⟨hc, ht⟩ := h.calm.stopTimer id
  exact ⟨h.session, h.queue_eq, hc, fun id' hid => ht id' (h.timer id' hid), h.delivered, h.config,
    h.library, h.primary⟩

theorem Reaches.haltTimer (h : e.Reaches s queue d e₁) : e.Reaches s.lapsed queue d e₁.haltTimer := by
  unfold Engine.haltTimer
  cases e₁.session.timer.id with
  | none => exact h.update Session.lapsed fun _ hid => hid
  | some id =>
    dsimp only
    split
    · exact (h.stopHostTimer id).update Session.lapsed fun _ hid => hid
    · exact h.update Session.lapsed fun _ hid => hid

theorem Reaches.createTimer (h : e.Reaches s queue d e₁) :
    ∃ id e₂, e₁.createTimer = (.ok (), e₂) ∧ e.Reaches (s.timed id) queue d e₂ := by
  obtain ⟨id, b, he, hc, ht⟩ := h.calm.createTimer
  unfold Engine.createTimer
  rw [show Host.createTimer e₁.world = (.ok id, b) from he]
  refine ⟨id, _, rfl, congrArg (Session.timed · id) h.session, h.queue_eq, hc, fun id' hid => ?_,
    h.delivered, h.config, h.library, h.primary⟩
  obtain rfl := Option.some.inj hid
  exact ht

theorem Reaches.setTimer {id : TimerId} (h : e.Reaches s queue d e₁) (hid : s.timer.id = some id)
    (purpose : TimerPurpose) (milliseconds : Nat) :
    ∃ t e₂, e₁.setTimer purpose milliseconds = (.ok (), e₂) ∧
      e.Reaches { s with timer := s.timer.arm purpose t } queue d e₂ := by
  obtain rfl := h.session
  obtain ⟨b, he, hc, ht⟩ := h.calm.startTimer (h.timer id hid) milliseconds (e₁.lastTicket + 1)
  unfold Engine.setTimer
  rw [hid]
  dsimp only [Engine.drawTicket]
  rw [show Host.startTimer e₁.world id milliseconds (e₁.lastTicket + 1) = ⟨.ok (), [], b⟩ from he]
  refine ⟨e₁.lastTicket + 1, _, rfl, rfl, ?_, hc, fun id' hid' => ?_, h.delivered, h.config,
    h.library, h.primary⟩
  · exact (List.append_nil _).trans h.queue_eq
  · obtain rfl := Option.some.inj (hid.symm.trans hid')
    exact ht

omit [Link D] in
theorem Reaches.settle (h : e.Reaches s queue d e₁) (signals : List Signal) {b : Bench D}
    (hc : b.Calm d') (ht : ∀ id, e₁.world.HasTimer id → b.HasTimer id) :
    ∃ e₂, e₁.settle ⟨.ok (), signals, b⟩ = (.ok (), e₂) ∧ e.Reaches s (queue ++ signals) d' e₂ :=
  ⟨_, rfl, h.session, congrArg (· ++ signals) h.queue_eq, hc, fun id hid => ht id (h.timer id hid),
    h.delivered, h.config, h.library, h.primary⟩

theorem Reaches.writeFrame (h : e.Reaches s queue d e₁)
    (hw : ∀ t, Link.write d s.frame.bytes t = ⟨.ok (), [.written t (.ok ())], d'⟩) :
    ∃ t e₂, e₁.writeFrame = (.ok (), e₂) ∧
      e.Reaches { s with writeTicket := some t, phase := .recv }
        (queue ++ [.written t (.ok ())]) d' e₂ := by
  have h₁ : e.Reaches s queue d e₁.drawTicket.2 :=
    ⟨h.session, h.queue_eq, h.calm, h.timer, h.delivered, h.config, h.library, h.primary⟩
  have h₂ : e.Reaches _ queue d e₁.handing :=
    ((h₁.update (fun s => { s with writeTicket := some (e₁.lastTicket + 1) })
      fun _ hid => hid).enter .recv).note (.sent e₁.session.frame.bytes)
  obtain ⟨b, hb, hc, ht⟩ := h₂.calm.write (hw (e₁.lastTicket + 1))
  obtain ⟨e₂, he, h₃⟩ := h₂.settle [.written (e₁.lastTicket + 1) (.ok ())] hc ht
  refine ⟨_, e₂, ?_, h₃⟩
  rw [writeFrame_eq, h.session]
  exact (congrArg e₁.handing.settle hb).trans he

theorem Reaches.requestRead {raw : Bytes} (h : e.Reaches s queue d e₁)
    (hr : ∀ t, Link.read d t = ⟨.ok (), [.received t (.ok raw)], d'⟩) :
    ∃ t e₂, e₁.requestRead = (.ok (), e₂) ∧
      e.Reaches { s with readTicket := some t } (queue ++ [.received t (.ok raw)]) d' e₂ := by
  have h₁ : e.Reaches s queue d e₁.drawTicket.2 :=
    ⟨h.session, h.queue_eq, h.calm, h.timer, h.delivered, h.config, h.library, h.primary⟩
  have h₂ : e.Reaches _ queue d e₁.asking :=
    (h₁.update (fun s => { s with readTicket := some (e₁.lastTicket + 1) })
      fun _ hid => hid).note (.readRequested Frame.maxLength)
  obtain ⟨b, hb, hc, ht⟩ := h₂.calm.read (hr (e₁.lastTicket + 1))
  obtain ⟨e₂, he, h₃⟩ := h₂.settle [.received (e₁.lastTicket + 1) (.ok raw)] hc ht
  refine ⟨_, e₂, ?_, h₃⟩
  rw [requestRead_eq]
  exact (congrArg e₁.asking.settle hb).trans he

theorem Reaches.abortRead (h : e.Reaches s queue d e₁) :
    e.Reaches s queue (Link.abortRead d) e₁.abortRead := by
  have hc : (e₁.abortRead).world.Calm (Link.abortRead d) := h.calm.link ▸ h.calm.withLink _
  exact ⟨h.session, h.queue_eq, hc, h.timer, h.delivered, h.config, h.library, h.primary⟩

theorem Reaches.setHostMode (h : e.Reaches s queue d e₁) (mode : DeviceMode) :
    ∃ e₂, e₁.setHostMode mode = (.ok (), e₂) ∧ e.Reaches s queue (Link.setMode d mode) e₂ := by
  obtain ⟨b, he, hc, ht⟩ := h.calm.setMode mode
  unfold Engine.setHostMode
  rw [show Host.setMode e₁.world mode = (.ok (), b) from he]
  exact ⟨_, rfl, h.session, h.queue_eq, hc, fun id hid => ht id (h.timer id hid), h.delivered,
    h.config, h.library, h.primary⟩

theorem Reaches.releaseTimer (h : e.Reaches s queue d e₁) :
    e.Reaches { s with timer := { s.timer with id := none, running := false } } queue d
      e₁.releaseTimer := by
  unfold Engine.releaseTimer
  rw [h.session]
  cases hid : s.timer.id with
  | none =>
    -- No timer is released, but the session still forgets that one was running.
    have h₁ := h.update (fun s => { s with timer := { s.timer with running := false } })
      fun _ hid => hid
    have hs : { s with timer := { s.timer with id := none, running := false } } =
        { s with timer := { s.timer with running := false } } := by
      rw [← hid]
    rw [hs]
    exact h₁
  | some id =>
    have h₁ := h.update (fun s => { s with timer := { s.timer with id := none } }) nofun
    rw [h.session] at h₁
    dsimp only
    generalize e₁.withSession { s with timer := { s.timer with id := none } } = e₂ at h₁
    have h₂ : e.Reaches { s with timer := { s.timer with id := none } } queue d
        (if e₂.session.timer.running then e₂.stopHostTimer id else e₂) := by
      split
      · exact h₁.stopHostTimer id
      · exact h₁
    generalize (if e₂.session.timer.running then e₂.stopHostTimer id else e₂) = e₃ at h₂
    have h₃ : e.Reaches { s with timer := { s.timer with id := none } } queue d
        (e₃.deleteHostTimer id) :=
      ⟨h₂.session, h₂.queue_eq, h₂.calm.deleteTimer id, nofun, h₂.delivered, h₂.config,
        h₂.library, h₂.primary⟩
    exact h₃.update (fun s => { s with timer := { s.timer with running := false } })
      fun _ hid => hid

theorem Reaches.release (h : e.Reaches s queue d e₁) (hr : s.restoreNormalMode = false) :
    e.Reaches s.released queue (Link.abortRead d) e₁.release := by
  have h₁ := h.abortRead
  have hm : e₁.abortRead.restoreMode = e₁.abortRead := by
    unfold Engine.restoreMode
    rw [h₁.session, hr]
    rfl
  have hs : s.released = { s with timer := { s.timer with id := none, running := false } } := by
    cases s
    cases hr
    rfl
  unfold Engine.release
  rw [hm, hs]
  exact h₁.releaseTimer

/-- A command that was started at `e` is over, and the engine is idle on a calm bench. -/
structure Settles (e : Engine (Bench D)) (command : Command) (result : Except DownloadError Unit)
    (response : Bytes) (d : D) (e' : Engine (Bench D)) : Prop where
  idle : e'.session.Idle
  queue_eq : e'.queue = []
  calm : e'.world.Calm d
  delivered : e'.delivered = ⟨command, result, response⟩ :: e.delivered
  config : e'.config = e.config
  library : e'.library = e.library
  primary : e'.primary = e.primary

theorem Reaches.conclude {command : Command} (h : e.Reaches s [] d e₁)
    (hc : s.command = some command) (ha : s.awaited = true) (hr : s.restoreNormalMode = false)
    (result : Except DownloadError Unit) :
    e.Settles command result (s.response.take s.responseLength) (Link.abortRead d)
      (e₁.conclude result) := by
  have h₁ := h.release hr
  have h₂ := (h₁.update (fun s => s.handOver.2) fun _ hid => hid).enter .init
  have h₃ := (h₂.update Session.reset nofun).note (.finished command (errorOf result))
  have hc₁ : e₁.session.command = some command := h.session ▸ hc
  have hw : ((e₁.release.withSession e₁.release.session.handOver.2).enter .init).session.awaited =
      true := by
    rw [h₂.session]
    exact ha
  rw [conclude_eq hc₁, h₁.session]
  rw [h₁.session] at hw h₃
  unfold Engine.closing
  rw [if_pos hw]
  have hi : Session.Idle s.released.handOver.2.reset := Session.idle_reset _
  exact ⟨h₃.session ▸ hi, h₃.queue_eq, h₃.calm, congrArg (_ :: ·) h₃.delivered, h₃.config,
    h₃.library, h₃.primary⟩

/-! ## Frames and answers -/

/-- The frame of the session was handed over at the end of the way from `e` to `e'`. Its write is
reported, and `raw` is its answer, which leaves the link as `d`. -/
def Poised (e : Engine (Bench D)) (s : Session) (raw : Bytes) (d : D)
    (e' : Engine (Bench D)) : Prop :=
  ∃ t d₁, e.Reaches (s.sending t) [.written t (.ok ())] d₁ e' ∧
    ∀ r, Link.read d₁ r = ⟨.ok (), [.received r (.ok raw)], d⟩

theorem Reaches.sendNext {raw : Bytes} (h : e.Reaches s [] d e₁) (hs : s.resendLastFrame = false)
    (hc : s.compose = (.ok (), s')) (hs' : s'.resendLastFrame = false)
    (ht : s'.timer = s.timer) (hr : Replies d s'.frame.bytes raw d') :
    ∃ e₂, e₁.sendNext = (.ok (), e₂) ∧ e.Poised s' raw d' e₂ := by
  obtain ⟨d₁, hw, hr⟩ := hr
  have h₁ := h.update (fun _ => s') fun _ hid => by rw [← ht]; exact hid
  obtain ⟨t, e₂, he, h₂⟩ := h₁.writeFrame hw
  unfold Engine.sendNext
  rw [h.session, hs, hc]
  refine ⟨e₂, he, t, d₁, ?_, hr⟩
  rw [Session.sending, ← hs']
  exact h₂

theorem runToIdle_step {W : Type} [Host W] {e e' : Engine W} (hb : e.session.busy = true)
    {signal : Signal} {rest : List Signal} (hq : e.queue = signal :: rest)
    (he : (e.popped rest).handle signal = e') (budget limit : Nat) :
    e.runToIdle (budget + 1) limit = e'.runToIdle budget limit := by
  have hn : e.handleNext = some e' := by
    unfold Engine.handleNext
    rw [hq, ← he]
    rfl
  rw [Engine.runToIdle, hb, hn]
  rfl

theorem runToIdle_of_idle {W : Type} [Host W] {e : Engine W} (hi : e.session.Idle)
    (budget limit : Nat) : e.runToIdle budget limit = (true, e) := by
  have hb : e.session.busy = false := by rw [hi]; rfl
  cases budget with
  | zero => rw [Engine.runToIdle, hb]; rfl
  | succ budget => rw [Engine.runToIdle, hb]; rfl

variable {command : Command} {id : TimerId} {raw : Bytes}

omit [Link D] in
theorem Reaches.popped (h : e.Reaches s queue d e₁) (rest : List Signal) :
    e.Reaches s rest d (e₁.popped rest) :=
  ⟨h.session, rfl, h.calm, h.timer, h.delivered, h.config, h.library, h.primary⟩

/-- The end of the write is taken: the session listens, and the answer has come. -/
theorem Poised.written (h : e.Poised s raw d e₁) (hu : s.Underway command id) :
    ∃ s₁ r e₂, (∀ budget limit, e₁.runToIdle (budget + 1) limit = e₂.runToIdle budget limit) ∧
      e.Reaches s₁ [.received r (.ok raw)] d e₂ ∧ s₁.Underway command id ∧ s₁.phase = .timer ∧
      s₁.readTicket = some r ∧ s₁.cargo = s.cargo ∧
      s₁.restoreNormalMode = s.restoreNormalMode := by
  obtain ⟨t, d₁, h, hr⟩ := h
  have hs := h.session
  have hp : (e₁.popped []).session.phase = .recv := congrArg Session.phase hs
  have hw : (e₁.popped []).session.writeTicket = some t := congrArg Session.writeTicket hs
  have h₁ := (h.popped []).update Session.frameOut fun _ hid => hid
  obtain ⟨t₁, e₂, he₂, h₂⟩ := h₁.setTimer hu.timer .response e₁.config.responseTimeout.toNat
  obtain ⟨r, e₃, he₃, h₃⟩ := (h₂.enter .timer).requestRead hr
  have hh : (e₁.popped []).handle (.written t (.ok ())) = e₃ := by
    rw [handle_written hp hw]
    unfold Engine.onWritten
    dsimp only
    rw [show ((e₁.popped []).withSession (e₁.popped []).session.frameOut).config.responseTimeout =
      e₁.config.responseTimeout from rfl, he₂]
    dsimp only
    rw [he₃]
    rfl
  have hb : e₁.session.busy = true := by rw [hs]; exact hu.busy
  exact ⟨_, r, e₃, runToIdle_step hb h.queue_eq hh, h₃,
    ⟨hu.busy, hu.command, hu.awaited, hu.timer, rfl⟩, rfl, rfl, rfl, rfl⟩

theorem Reaches.received {r : Ticket} (h : e.Reaches s [.received r (.ok raw)] d e₁)
    (hu : s.Underway command id) (hp : s.phase = .timer) (hr : s.readTicket = some r) :
    ∃ e₂, (∀ budget limit, e₁.runToIdle (budget + 1) limit =
        (e₂.follow (s.answering.handleAnswer raw).1).runToIdle budget limit) ∧
      e.Reaches (s.answering.handleAnswer raw).2 [] d e₂ := by
  have hs := h.session
  have h₁ := (((h.popped []).update (fun s => { s with readTicket := none }) fun _ hid =>
    hid).haltTimer.enter .response)
  have h₂ := (h₁.note (.received raw)).noteStatus raw
  have h₃ := (h₂.update (fun _ => (s.answering.handleAnswer raw).2) fun id' hid => ?_).noteProgress
  · refine ⟨_, fun budget limit => runToIdle_step (hs ▸ hu.busy) h.queue_eq ?_ budget limit, h₃⟩
    rw [handle_received (e := e₁.popped []) (hs ▸ hp) (hs ▸ hr)]
    unfold Engine.onReceived Engine.onAnswer
    dsimp only
    rw [h₂.session]
    rfl
  · obtain ⟨_, _, _, _, _, he⟩ := s.answering.handleAnswer_eq raw
    rw [he] at hid
    exact hid

/-- Two signals on, the answer was taken by a session that carries the same. -/
theorem Poised.answered (h : e.Poised s raw d e₁) (hu : s.Underway command id) :
    ∃ (s₁ s₂ : Session) (e₂ : Engine (Bench D)) (verdict : Verdict), s₁.cargo = s.cargo ∧
      s₁.command = some command ∧ s₁.handleAnswer raw = (verdict, s₂) ∧ s₂.Underway command id ∧
      s₂.restoreNormalMode = s.restoreNormalMode ∧ e.Reaches s₂ [] d e₂ ∧
      ∀ budget limit, e₁.runToIdle (budget + 2) limit =
        (e₂.follow verdict).runToIdle budget limit := by
  obtain ⟨s₁, r, e₂, hr₁, h₁, hu₁, hp, ht, hc, hm⟩ := h.written hu
  obtain ⟨e₃, hr₂, h₂⟩ := h₁.received hu₁ hp ht
  have hu₂ := hu₁.handleAnswer raw
  have hm₂ : (s₁.answering.handleAnswer raw).2.restoreNormalMode = s₁.restoreNormalMode := by
    obtain ⟨_, _, _, _, _, he⟩ := s₁.answering.handleAnswer_eq raw
    rw [he]
    rfl
  refine ⟨s₁.answering, (s₁.answering.handleAnswer raw).2, e₃,
    (s₁.answering.handleAnswer raw).1, hc, hu₁.command, rfl, hu₂, hm₂.trans hm, h₂, ?_⟩
  intro budget limit
  rw [hr₁, hr₂]

end Engine

end FirmwareDownload
