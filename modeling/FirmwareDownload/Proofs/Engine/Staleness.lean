import FirmwareDownload.Proofs.Engine.Invariant

/-! Signals that nothing waits for any more. A request is known by its ticket, tickets are drawn
in order, and so a ticket that was given up is never waited for again. -/

namespace FirmwareDownload

namespace Session

def ticketFor (s : Session) : Signal → Option Ticket
  | .written _ _ => s.writeTicket
  | .received _ _ => s.readTicket
  | .expired _ => s.timer.ticket

theorem Awaits.ticketFor {s : Session} {signal : Signal} (h : s.Awaits signal) :
    s.ticketFor signal = some signal.ticket := by
  cases signal <;> exact h.2

/-- A ticket waited for in `s'` was waited for in `s`, or was drawn on the way from `e` to `e'`. -/
def Renews {W : Type} (e e' : Engine W) (s s' : Session) : Prop :=
  ∀ signal t, s'.ticketFor signal = some t → s.ticketFor signal = some t ∨ e.Draws e' t

variable {W : Type} {e e' : Engine W} {s s' s'' : Session}

theorem Renews.of_tickets (h : s'.tickets = s.tickets) : Renews e e' s s' := by
  obtain ⟨hw, hr, ht⟩ := (Prod.mk.inj h).imp_right Prod.mk.inj
  intro signal t he
  cases signal with
  | written => exact .inl (hw.symm.trans he)
  | received => exact .inl (hr.symm.trans he)
  | expired => exact .inl (ht.symm.trans he)

theorem renews_reset : Renews e e' s s'.reset := by
  intro signal t he
  cases signal <;> cases he

theorem Renews.trans (h : Renews e e' s s') (h' : Renews e e' s' s'') : Renews e e' s s'' := by
  intro signal t he
  rcases h' signal t he with he | hd
  · exact h signal t he
  · exact .inr hd

theorem renews_sending {t : Ticket} (ht : e.Draws e' t) : Renews e e' s (s.sending t) := by
  intro signal t' he
  cases signal with
  | written =>
    cases he
    exact .inr ht
  | received => exact .inl he
  | expired => exact .inl he

theorem renews_listening {t r : Ticket} (ht : e.Draws e' t) (hr : e.Draws e' r) :
    Renews e e' s (s.listening t r) := by
  intro signal t' he
  cases signal with
  | written => exact .inl he
  | received =>
    cases he
    exact .inr hr
  | expired =>
    cases he
    exact .inr ht

theorem renews_holding {t : Ticket} (ht : e.Draws e' t) : Renews e e' s (s.holding t) := by
  intro signal t' he
  cases signal with
  | written => exact .inl he
  | received => exact .inl he
  | expired =>
    cases he
    exact .inr ht

theorem renews_frameOut : Renews e e' s s.frameOut := by
  intro signal t he
  cases signal with
  | written => cases he
  | received => exact .inl he
  | expired => exact .inl he

theorem renews_lapsed : Renews e e' s s.lapsed := by
  intro signal t he
  cases signal with
  | written => exact .inl he
  | received => exact .inl he
  | expired => cases he

theorem renews_handleAnswer (raw : Bytes) :
    Renews e e' s (s.answering.handleAnswer raw).2 := by
  obtain ⟨hw, hr, ht⟩ := (Prod.mk.inj (s.handleAnswer_tickets raw)).imp_right Prod.mk.inj
  intro signal t he
  cases signal with
  | written => exact .inl (hw.symm.trans he)
  | received => cases hr.symm.trans he
  | expired => cases ht.symm.trans he

end Session

namespace Engine

variable {W : Type} {e e' : Engine W} {signal : Signal}

/-- The request of the signal was made, and its end is not waited for. -/
def Stale (e : Engine W) (signal : Signal) : Prop :=
  signal.ticket ≤ e.lastTicket ∧ e.session.ticketFor signal ≠ some signal.ticket

instance (e : Engine W) (signal : Signal) : Decidable (e.Stale signal) :=
  inferInstanceAs (Decidable (_ ∧ _))

theorem Stale.not_awaits (h : e.Stale signal) : ¬ e.session.Awaits signal :=
  fun ha => h.2 ha.ticketFor

theorem stale_of_idle (h : e.session.Idle) (ht : signal.ticket ≤ e.lastTicket) :
    e.Stale signal := by
  refine ⟨ht, ?_⟩
  rw [h]
  cases signal <;> exact fun he => nomatch he

theorem Stale.renews (h : e.Stale signal) (hl : e.lastTicket ≤ e'.lastTicket)
    (hr : Session.Renews e e' e.session e'.session) : e'.Stale signal := by
  refine ⟨Nat.le_trans h.1 hl, fun he => ?_⟩
  rcases hr signal _ he with he | hd
  · exact h.2 he
  · exact absurd h.1 (Nat.not_le.2 hd.1)

/-- What is waited for was asked for. -/
def Asked (e : Engine W) : Prop :=
  ∀ signal t, e.session.ticketFor signal = some t → t ≤ e.lastTicket

theorem Asked.renews (h : e.Asked) (hl : e.lastTicket ≤ e'.lastTicket)
    (hr : Session.Renews e e' e.session e'.session) : e'.Asked := by
  intro signal t he
  rcases hr signal t he with he | hd
  · exact Nat.le_trans (h signal t he) hl
  · exact hd.2

theorem Asked.stale (h : e.Asked) (hl : e.lastTicket ≤ e'.lastTicket)
    (hs : e.session.ticketFor signal = some signal.ticket)
    (hn : e'.session.ticketFor signal ≠ some signal.ticket) : e'.Stale signal :=
  ⟨Nat.le_trans (h signal _ hs) hl, hn⟩

variable [Host W] {command : Command} {id : TimerId} {s : Session} {ns : List Notice}

theorem Reacts.renews (h : e.Reacts e' command id signal s ns none) :
    Session.Renews e e' e.session s := by
  cases h with
  | listens ht hr => exact Session.renews_frameOut.trans (Session.renews_listening ht hr)
  | @proceeds r t raw s _ hv hc ht =>
    have hs : Session.Renews e e' _ s := .of_tickets (Session.compose_tickets hc)
    exact ((Session.renews_handleAnswer raw).trans hs).trans (Session.renews_sending ht)
  | @holds r t raw hv hl ht =>
    exact (Session.renews_handleAnswer raw).trans (Session.renews_holding ht)
  | resends hp hw => exact Session.renews_lapsed.trans (Session.renews_sending hw)

theorem Launches.renews {armed : Session} (h : e.Launches e' armed s ns none) :
    Session.Renews e e' armed s := by
  cases h with
  | sends hc ht =>
    exact (Session.Renews.of_tickets (Session.compose_tickets hc)).trans (Session.renews_sending ht)

omit [Host W] in
theorem Passes.renews (h : e.Passes s ns e') (hr : Session.Renews e e' e.session s) :
    e.lastTicket ≤ e'.lastTicket ∧ Session.Renews e e' e.session e'.session :=
  ⟨h.lastTicket, h.session ▸ hr⟩

theorem Calls.renews {c : Call} {r : Except DownloadError Unit} (h : e.Calls c r e') :
    e.lastTicket ≤ e'.lastTicket ∧ Session.Renews e e' e.session e'.session := by
  cases h with
  | refused _ hp => exact hp.renews (.of_tickets rfl)
  | starts _ hpre hl hp => exact hp.renews (.trans (.of_tickets hpre.tickets) hl.renews)
  | undone _ _ _ hp => exact hp.renews Session.renews_reset

theorem Advances.renews {cs : List Command} (h : e.Advances cs e') :
    e.lastTicket ≤ e'.lastTicket ∧ Session.Renews e e' e.session e'.session := by
  cases h with
  | keeps _ hp => exact hp.renews (.of_tickets rfl)
  | calls hc => exact hc.renews
  | ignores => exact ⟨Nat.le_refl _, .of_tickets rfl⟩
  | @reacts signal rest command id s ns outcome _ hq hw hs hr ht =>
    -- A session that ends waits for nothing; one that goes on waits for what it asked for last.
    cases outcome with
    | none => exact Passes.renews (e := e.popped rest) ht hr.renews
    | some result => exact ⟨ht.lastTicket, ht.session ▸ Session.renews_reset⟩

theorem lastTicket_run (hs : e.Standing) (moves : List (Move W)) :
    e.lastTicket ≤ (e.run moves).lastTicket := by
  induction moves generalizing e with
  | nil => exact Nat.le_refl _
  | cons m moves ih =>
    have ha := hs.move_advances m
    exact Nat.le_trans ha.renews.1 (ih (ha.standing hs))

theorem Stale.advance {cs : List Command} (h : e.Stale signal) (ha : e.Advances cs e') :
    e'.Stale signal :=
  h.renews ha.renews.1 ha.renews.2

/-- A stale signal stays stale, whatever happens. -/
theorem Stale.run (h : e.Stale signal) (hs : e.Standing) (moves : List (Move W)) :
    (e.run moves).Stale signal := by
  induction moves generalizing e with
  | nil => exact h
  | cons m moves ih =>
    have ha := hs.move_advances m
    exact ih (h.advance ha) (ha.standing hs)

theorem Asked.run (h : e.Asked) (hs : e.Standing) (moves : List (Move W)) :
    (e.run moves).Asked := by
  induction moves generalizing e with
  | nil => exact h
  | cons m moves ih =>
    have ha := hs.move_advances m
    exact ih (h.renews ha.renews.1 ha.renews.2) (ha.standing hs)

omit [Host W] in
theorem asked_fresh (config : Config) (library : ImageLibrary) (w : W) :
    (fresh config library w).Asked := by
  intro signal t he
  cases signal <;> cases he

end Engine

end FirmwareDownload
