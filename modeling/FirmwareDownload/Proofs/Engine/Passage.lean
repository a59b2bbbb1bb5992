import FirmwareDownload.Engine.Call

/-! What the operations of an engine do to it on any host: which session they leave,
which notices they take, and that completions, settings and waiting signals are kept. -/

namespace FirmwareDownload

/-- The notice of a phase change; staying in a phase is not noted. -/
def Session.moveNotices (s : Session) (p : Phase) : List Notice :=
  if s.phase = p then [] else [.moved s.phase p]

def SessionTimer.arm (timer : SessionTimer) (purpose : TimerPurpose) (ticket : Ticket) :
    SessionTimer :=
  { timer with purpose := purpose, ticket := some ticket, running := true, timedOut := false }

def Session.timed (s : Session) (id : TimerId) : Session :=
  { s with timer := { s.timer with id := some id } }

namespace Engine

variable {W : Type}

/-- A primary image that was not kept before is the one of the library. -/
def KeepsPrimary (e e' : Engine W) : Prop :=
  e'.primary = e.primary ∨ ∃ image, e.library .primary = .ok image ∧ e'.primary = some image

/-- On the way from `e` to `e'` nothing was delivered, `ns` was noted, newest first, and
the session became `s`. The host may have posted signals and changed its state. -/
structure Passes (e : Engine W) (s : Session) (ns : List Notice) (e' : Engine W) : Prop where
  session : e'.session = s
  journal : e'.journal = ns ++ e.journal
  delivered : e'.delivered = e.delivered
  lastTicket : e.lastTicket ≤ e'.lastTicket
  queue : e.queue <+: e'.queue
  config : e'.config = e.config
  library : e'.library = e.library
  primary : e.KeepsPrimary e'

theorem Passes.refl (e : Engine W) : e.Passes e.session [] e :=
  ⟨rfl, rfl, rfl, Nat.le_refl _, List.prefix_rfl, rfl, rfl, .inl rfl⟩

variable {e e₁ e₂ : Engine W} {s s' : Session} {ns ns' : List Notice}

theorem Passes.congr (h : e.Passes s ns e₁) (hs : s = s') (hn : ns = ns') : e.Passes s' ns' e₁ := by
  rw [← hs, ← hn]
  exact h

def Draws (e e' : Engine W) (ticket : Ticket) : Prop :=
  e.lastTicket < ticket ∧ ticket ≤ e'.lastTicket

theorem Draws.le {ticket : Ticket} (h : e.Draws e₁ ticket) : e.lastTicket ≤ e₁.lastTicket :=
  Nat.le_trans (Nat.le_of_lt h.1) h.2

theorem Draws.mono {ticket : Ticket} (h : e.Draws e₁ ticket) (hl : e₁.lastTicket ≤ e₂.lastTicket) :
    e.Draws e₂ ticket :=
  ⟨h.1, Nat.le_trans h.2 hl⟩

theorem Passes.draws {ticket : Ticket} (h : e.Passes s ns e₁) (hd : e₁.Draws e₂ ticket) :
    e.Draws e₂ ticket :=
  ⟨Nat.lt_of_le_of_lt h.lastTicket hd.1, hd.2⟩

/-! ## Operations that need no host -/

theorem Passes.note (h : e.Passes s ns e₁) (n : Notice) : e.Passes s (n :: ns) (e₁.note n) :=
  ⟨h.session, congrArg (n :: ·) h.journal, h.delivered, h.lastTicket, h.queue, h.config,
    h.library, h.primary⟩

theorem Passes.withSession (h : e.Passes s ns e₁) (s' : Session) :
    e.Passes s' ns (e₁.withSession s') :=
  ⟨rfl, h.journal, h.delivered, h.lastTicket, h.queue, h.config, h.library, h.primary⟩

theorem Passes.update (h : e.Passes s ns e₁) (f : Session → Session) :
    e.Passes (f s) ns (e₁.withSession (f e₁.session)) :=
  h.session ▸ h.withSession (f e₁.session)

theorem Passes.withWorld (h : e.Passes s ns e₁) (w : W) : e.Passes s ns (e₁.withWorld w) :=
  ⟨h.session, h.journal, h.delivered, h.lastTicket, h.queue, h.config, h.library, h.primary⟩

theorem Passes.post (h : e.Passes s ns e₁) (signals : List Signal) :
    e.Passes s ns (e₁.post signals) :=
  ⟨h.session, h.journal, h.delivered, h.lastTicket, h.queue.trans (List.prefix_append _ _),
    h.config, h.library, h.primary⟩

theorem Passes.drawTicket (h : e.Passes s ns e₁) : e.Passes s ns e₁.drawTicket.2 :=
  ⟨h.session, h.journal, h.delivered, Nat.le_succ_of_le h.lastTicket, h.queue, h.config,
    h.library, h.primary⟩

theorem Passes.enter (h : e.Passes s ns e₁) (p : Phase) :
    e.Passes { s with phase := p } (s.moveNotices p ++ ns) (e₁.enter p) := by
  have h₁ := h.update (fun s => { s with phase := p })
  unfold Engine.enter Session.moveNotices
  rw [← h.session] at h₁ ⊢
  split
  · exact h₁
  · exact h₁.note _

/-! ## Calls on the host -/

variable [Host W]

/-- Errors with which a call on the host can fail. -/
inductive HostFault (W : Type) [Host W] : DownloadError → Prop
  | createTimer {w : W} {err : TimerError} :
    (Host.createTimer w).1 = .error err → HostFault W (.failed (.timer err))
  | startTimer {w : W} {id : TimerId} {ms : Nat} {t : Ticket} {err : TimerError} :
    (Host.startTimer w id ms t).outcome = .error err → HostFault W (.failed (.timer err))
  | write {w : W} {frame : Bytes} {t : Ticket} {err : LinkError} :
    (Host.write w frame t).outcome = .error err → HostFault W (.failed (.link err))
  | read {w : W} {limit : Nat} {t : Ticket} {err : LinkError} :
    (Host.read w limit t).outcome = .error err → HostFault W (.failed (.link err))

theorem Passes.setHostMode (h : e.Passes s ns e₁) (mode : DeviceMode) :
    e.Passes s (.modeRequested mode :: ns) (e₁.setHostMode mode).2 :=
  (h.note _).withWorld _

theorem Passes.abortRead (h : e.Passes s ns e₁) : e.Passes s (.readAborted :: ns) e₁.abortRead :=
  (h.note _).withWorld _

theorem Passes.stopHostTimer (h : e.Passes s ns e₁) (id : TimerId) :
    e.Passes s (.timerStopped id :: ns) (e₁.stopHostTimer id) :=
  (h.note _).withWorld _

theorem Passes.deleteHostTimer (h : e.Passes s ns e₁) (id : TimerId) :
    e.Passes s (.timerDeleted id :: ns) (e₁.deleteHostTimer id) :=
  (h.note _).withWorld _

theorem Passes.stopIfRunning (h : e.Passes s ns e₁) (id : TimerId) :
    e.Passes s ((if s.timer.running then [.timerStopped id] else []) ++ ns)
      (if e₁.session.timer.running then e₁.stopHostTimer id else e₁) := by
  rw [h.session]
  split
  · exact h.stopHostTimer id
  · exact h

theorem Passes.createTimer (h : e.Passes s ns e₁) :
    (∃ err e₂, e₁.createTimer = (.error err, e₂) ∧ HostFault W err ∧ e.Passes s ns e₂) ∨
    ∃ id e₂, e₁.createTimer = (.ok (), e₂) ∧
      e.Passes (s.timed id) (.timerCreated id :: ns) e₂ := by
  unfold Engine.createTimer
  split
  · rename_i hw
    exact .inl ⟨_, _, rfl, .createTimer (congrArg Prod.fst hw), h.withWorld _⟩
  · rename_i id w _
    exact .inr ⟨id, _, rfl, ((h.note _).withWorld w).update (fun s => s.timed id)⟩

theorem Passes.setTimer (h : e.Passes s ns e₁) (purpose : TimerPurpose) (ms : Nat) {id : TimerId}
    (hid : s.timer.id = some id) :
    (∃ err e₂, e₁.setTimer purpose ms = (.error err, e₂) ∧ HostFault W err ∧ e.Passes s ns e₂) ∨
    ∃ t e₂, e₁.setTimer purpose ms = (.ok (), e₂) ∧ e₁.Draws e₂ t ∧
      e.Passes { s with timer := s.timer.arm purpose t } (.timerArmed id ms :: ns) e₂ := by
  unfold Engine.setTimer
  rw [h.session, hid]
  dsimp only
  split
  · rename_i hw
    exact .inl ⟨_, _, rfl, .startTimer hw, (h.drawTicket.withWorld _).post _⟩
  · exact .inr ⟨e₁.lastTicket + 1, _, rfl, ⟨Nat.lt_succ_self _, Nat.le_refl _⟩,
      (((h.drawTicket.withWorld _).note _).post _).update
        (fun s => { s with timer := s.timer.arm purpose (e₁.lastTicket + 1) })⟩

def settle (e : Engine W) (answer : Answer LinkError W) : Except DownloadError Unit × Engine W :=
  match answer.outcome with
  | .error err => (.error (.failed (.link err)), (e.withWorld answer.world).post answer.signals)
  | .ok () => (.ok (), (e.withWorld answer.world).post answer.signals)

omit [Host W] in
theorem settle_eq (e : Engine W) (answer : Answer LinkError W) :
    ∃ r, e.settle answer = (r, (e.withWorld answer.world).post answer.signals) ∧
      ∀ err, r = .error err →
        ∃ cause, answer.outcome = .error cause ∧ err = .failed (.link cause) := by
  unfold Engine.settle
  split
  · rename_i cause ho
    refine ⟨_, rfl, ?_⟩
    rintro _ ⟨⟩
    exact ⟨cause, ho, rfl⟩
  · refine ⟨_, rfl, ?_⟩
    rintro _ ⟨⟩

def handing (e : Engine W) : Engine W :=
  ((e.drawTicket.2.withSession { e.session with writeTicket := some (e.lastTicket + 1) }).enter
    .recv).note (.sent e.session.frame.bytes)

theorem writeFrame_eq (e : Engine W) : e.writeFrame =
    e.handing.settle (Host.write e.handing.world e.session.frame.bytes (e.lastTicket + 1)) :=
  rfl

def asking (e : Engine W) : Engine W :=
  (e.drawTicket.2.withSession { e.session with readTicket := some (e.lastTicket + 1) }).note
    (.readRequested Frame.maxLength)

theorem requestRead_eq (e : Engine W) : e.requestRead =
    e.asking.settle (Host.read e.world Frame.maxLength (e.lastTicket + 1)) :=
  rfl

omit [Host W] in
theorem lastTicket_enter (e : Engine W) (p : Phase) : (e.enter p).lastTicket = e.lastTicket := by
  unfold Engine.enter
  split <;> rfl

/-- The frame counts as handed over even if the link refuses it. -/
theorem Passes.writeFrame (h : e.Passes s ns e₁) : ∃ r t e₂, e₁.writeFrame = (r, e₂) ∧
    (∀ err, r = .error err → HostFault W err) ∧ e₁.Draws e₂ t ∧
    e.Passes { s with writeTicket := some t, phase := .recv }
      (.sent s.frame.bytes :: (s.moveNotices .recv ++ ns)) e₂ := by
  obtain rfl := h.session
  have h₁ := ((h.drawTicket.update
    (fun s => { s with writeTicket := some (e₁.lastTicket + 1) })).enter .recv).note
      (.sent e₁.session.frame.bytes)
  have hl : e₁.handing.lastTicket = e₁.lastTicket + 1 := lastTicket_enter _ _
  obtain ⟨r, he, hr⟩ := e₁.handing.settle_eq
    (Host.write e₁.handing.world e₁.session.frame.bytes (e₁.lastTicket + 1))
  refine ⟨r, e₁.lastTicket + 1, _, (writeFrame_eq e₁).trans he, ?_,
    ⟨Nat.lt_succ_self _, Nat.le_of_eq hl.symm⟩, (h₁.withWorld _).post _⟩
  intro err hre
  obtain ⟨cause, ho, rfl⟩ := hr err hre
  exact .write ho

theorem Passes.requestRead (h : e.Passes s ns e₁) : ∃ r t e₂, e₁.requestRead = (r, e₂) ∧
    (∀ err, r = .error err → HostFault W err) ∧ e₁.Draws e₂ t ∧
    e.Passes { s with readTicket := some t } (.readRequested Frame.maxLength :: ns) e₂ := by
  obtain rfl := h.session
  have h₁ := (h.drawTicket.update
    (fun s => { s with readTicket := some (e₁.lastTicket + 1) })).note
      (.readRequested Frame.maxLength)
  obtain ⟨r, he, hr⟩ := e₁.asking.settle_eq
    (Host.read e₁.world Frame.maxLength (e₁.lastTicket + 1))
  refine ⟨r, e₁.lastTicket + 1, _, (requestRead_eq e₁).trans he, ?_,
    ⟨Nat.lt_succ_self _, Nat.le_refl _⟩, (h₁.withWorld _).post _⟩
  intro err hre
  obtain ⟨cause, ho, rfl⟩ := hr err hre
  exact .read ho

end Engine

end FirmwareDownload
