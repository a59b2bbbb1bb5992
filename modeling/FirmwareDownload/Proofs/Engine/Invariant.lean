import FirmwareDownload.Proofs.Engine.Moves
import FirmwareDownload.Proofs.Engine.Notices

/-! Between two moves an engine is idle, or its session waits for a signal with all that the
next step needs. Each accepted call is completed once, and nothing else is. -/

namespace FirmwareDownload

namespace Session

theorem Underway.sending_waiting {s : Session} {command : Command} {id : TimerId}
    (hu : s.Underway command id) {w : Option Ticket} (ht : s.tickets = (w, none, none))
    (t : Ticket) : (s.sending t).Waiting command id := by
  obtain ⟨-, hr, hm⟩ := (Prod.mk.inj ht).imp_right Prod.mk.inj
  exact ⟨⟨hu.busy, hu.command, hu.awaited, hu.timer, rfl⟩, .inl ⟨rfl, rfl, hr, hm⟩⟩

end Session

namespace Engine

variable {W : Type} [Host W] {e e' : Engine W} {command : Command} {id : TimerId} {signal : Signal}
  {s : Session} {ns : List Notice} {outcome : Option (Except DownloadError Unit)}

/-! ## A session that goes on waits again -/

theorem Reacts.waiting (hw : e.session.Waiting command id) (ha : e.session.Awaits signal)
    (h : e.Reacts e' command id signal s ns outcome) (ho : outcome = none) :
    s.Waiting command id := by
  cases h with
  | listens =>
    exact ⟨⟨hw.busy, hw.command, hw.awaited, hw.timer, hw.fresh⟩,
      .inr ⟨rfl, rfl, rfl, ⟨fun _ => rfl, fun _ => rfl⟩⟩⟩
  | @proceeds r t raw s _ hv hc =>
    have hs := e.session.handleAnswer_tickets raw
    exact ((hw.toUnderway.handleAnswer raw).compose hc).sending_waiting
      ((Session.compose_tickets hc).trans hs) t
  | @holds r t raw hv =>
    have hu := hw.toUnderway.handleAnswer raw
    have hs := e.session.handleAnswer_tickets raw
    rw [(hw.onTimer ha.1).write] at hs
    obtain ⟨hwr, hrd, -⟩ := Prod.mk.inj hs |>.imp_right Prod.mk.inj
    refine ⟨⟨hu.busy, hu.command, hu.awaited, hu.timer, hu.fresh⟩, .inr ⟨rfl, rfl, hwr, ?_⟩⟩
    rw [show ((e.session.answering.handleAnswer raw).2.holding t).readTicket = none from hrd]
    exact ⟨fun h => (Bool.false_ne_true h).elim, fun h => TimerPurpose.noConfusion h⟩
  | @resends t w outcome hp =>
    have ht := hw.onTimer ha.1
    have hrd : e.session.readTicket = none := by
      cases hr : e.session.readTicket with
      | none => rfl
      | some r => cases (ht.read.1 (hr ▸ rfl)).symm.trans hp
    have hu : e.session.lapsed.Underway command id :=
      ⟨hw.busy, hw.command, hw.awaited, hw.timer, hw.fresh⟩
    have hs : e.session.lapsed.tickets = (e.session.writeTicket, e.session.readTicket, none) := rfl
    rw [hrd] at hs
    exact hu.sending_waiting hs w
  | _ => cases ho

theorem Launches.keeps {armed : Session} {failure : Option DownloadError}
    (h : e.Launches e' armed s ns failure) : s.command = armed.command ∧
      s.userData = armed.userData ∧ s.lastStatus = armed.lastStatus := by
  have hk : ∀ {id : TimerId} {r s'}, { armed.timed id with phase := .send }.compose = (r, s') →
      s'.command = armed.command ∧ s'.userData = armed.userData ∧
        s'.lastStatus = armed.lastStatus := by
    intro id r s' hc
    obtain ⟨_, _, he⟩ := Session.composed hc
    rw [he]
    exact ⟨rfl, rfl, rfl⟩
  cases h with
  | noTimer => exact ⟨rfl, rfl, rfl⟩
  | frameRefused hc => exact hk hc
  | sends hc =>
    have hs := hk hc
    exact hs

theorem Launches.waiting {armed : Session} (h : e.Launches e' armed s ns none)
    (hb : armed.busy = true) (hc : armed.command = some command) (ha : armed.awaited = true)
    (hf : armed.resendLastFrame = false) (ht : armed.tickets = (none, none, none)) :
    ∃ id, s.Waiting command id := by
  cases h with
  | @sends id t s _ hc' _ _ =>
    have hu : (armed.timed id).Underway command id := ⟨hb, hc, ha, rfl, hf⟩
    exact ⟨id, (hu.compose hc').sending_waiting ((Session.compose_tickets hc').trans ht) t⟩

theorem Calls.standing {c : Call} {r : Except DownloadError Unit} (h : e.Standing)
    (hc : e.Calls c r e') : e'.Standing := by
  cases hc with
  | refused _ hp =>
    rw [Standing, hp.session]
    exact h
  | @starts s₀ s ns₀ ns request userData capacity _ hi hpre hl hp =>
    have hf : s₀.resendLastFrame = false := hpre.fresh (by rw [hi]; rfl)
    have ht : s₀.tickets = (none, none, none) := by rw [hpre.tickets, hi]; rfl
    obtain ⟨id, hw⟩ := hl.waiting rfl rfl rfl hf ht
    exact .inr ⟨_, id, hp.session ▸ hw⟩
  | undone _ _ _ hp =>
    rw [Standing, hp.session]
    exact .inl (Session.idle_reset _)

theorem Advances.standing {cs : List Command} (h : e.Standing) (ha : e.Advances cs e') :
    e'.Standing := by
  cases ha with
  | keeps _ hp =>
    rw [Standing, hp.session]
    exact h
  | calls hc => exact hc.standing h
  | ignores => exact h
  | @reacts signal rest command id s ns outcome _ hq hw hs hr ht =>
    cases outcome with
    | none =>
      have hw' := Reacts.waiting (e := e.popped rest) hw hs hr rfl
      exact .inr ⟨command, id, ht.session ▸ hw'⟩
    | some result =>
      rw [Standing, ht.session]
      exact .inl (Session.idle_reset _)

theorem Standing.run (h : e.Standing) (moves : List (Move W)) : (e.run moves).Standing := by
  induction moves generalizing e with
  | nil => exact h
  | cons m moves ih => exact ih ((h.move_advances m).standing h)

/-! ## Accounts -/

/-- What has become of the calls accepted so far. -/
structure Accounts (e : Engine W) (accepted : List Command) : Prop where
  settled : e.delivered.reverse.map Completion.command ++ e.session.command.toList = accepted
  noted : ∃ ended : List (Command × Option DownloadError),
    brackets e.notices =
      ended.flatMap (fun c => [.started c.1, .finished c.1 c.2]) ++
        e.session.command.toList.map .started

omit [Host W] in
theorem brackets_notices (h : e'.journal = ns ++ e.journal) :
    brackets e'.notices = brackets e.notices ++ (brackets ns).reverse := by
  rw [Engine.notices, h, List.reverse_append, brackets_append]
  exact congrArg _ (List.filter_reverse ..)

omit [Host W] in
theorem Accounts.goes {accepted : List Command} (h : e.Accounts accepted) (hp : e.Passes s ns e')
    (hc : s.command = e.session.command) (hn : brackets ns = []) : e'.Accounts accepted := by
  have hc' : e'.session.command = e.session.command := hp.session ▸ hc
  obtain ⟨ended, he⟩ := h.noted
  refine ⟨?_, ended, ?_⟩
  · rw [hp.delivered, hc']
    exact h.settled
  · rw [brackets_notices hp.journal, hn, hc', he]
    exact List.append_nil _

omit [Host W] in
theorem Accounts.concludes {accepted : List Command} {result : Except DownloadError Unit}
    (h : e.Accounts accepted) (hp : e.Concludes s ns command result e')
    (hc : e.session.command = some command) (hn : brackets ns = []) : e'.Accounts accepted := by
  have hc' : e'.session.command = none := by rw [hp.session]; rfl
  have hset := h.settled
  obtain ⟨ended, he⟩ := h.noted
  rw [hc] at hset he
  have hb : brackets (.finished command (errorOf result) ::
      (s.moveNotices .init ++ s.releaseNotices ++ ns)) = [.finished command (errorOf result)] := by
    exact congrArg (_ :: ·) ((brackets_behind s.plain_endNotices.brackets_eq_nil).trans hn)
  refine ⟨?_, ended ++ [(command, errorOf result)], ?_⟩
  · rw [hp.delivered, hc', List.reverse_cons, List.map_append]
    exact (List.append_nil _).trans hset
  · rw [brackets_notices hp.journal, hb, hc', he]
    simp

theorem Accounts.starts {accepted : List Command} {c : Call} {s₀ : Session} {ns₀ : List Notice}
    {request : Request} {userData : Option Bytes} {capacity : Nat} (h : e.Accounts accepted)
    (hi : e.session.Idle) (hpre : e.Prepares c s₀ ns₀ request userData capacity)
    (hl : e.Launches e' (s₀.armed c.command request userData capacity) s ns none)
    (hp : e.Passes s (ns ++ .started c.command :: ns₀) e') :
    e'.Accounts (accepted ++ [c.command]) := by
  have hn := hl.brackets_started hpre.brackets_eq_nil c.command
  have hc : e.session.command = none := by rw [hi]; rfl
  have hc' : e'.session.command = some c.command := hp.session ▸ hl.keeps.1
  have hset := h.settled
  obtain ⟨ended, he⟩ := h.noted
  refine ⟨?_, ended, ?_⟩
  · rw [← hset, hp.delivered, hc', hc, Option.toList_none, List.append_nil]
    rfl
  · rw [brackets_notices hp.journal, hn, hc', he, hc]
    simp

theorem Accounts.undone {accepted : List Command} {c : Call} {s₀ : Session} {ns₀ : List Notice}
    {request : Request} {userData : Option Bytes} {capacity : Nat} {err : DownloadError}
    (h : e.Accounts accepted) (hi : e.session.Idle)
    (hpre : e.Prepares c s₀ ns₀ request userData capacity)
    (hl : e.Launches e' (s₀.armed c.command request userData capacity) s ns (some err))
    (hp : e.Passes s.reset
      (.finished c.command (some err) :: (s.releaseNotices ++ (ns ++ .started c.command :: ns₀)))
      e') : e'.Accounts accepted := by
  have hn : brackets (.finished c.command (some err) ::
      (s.releaseNotices ++ (ns ++ .started c.command :: ns₀))) =
      [.finished c.command (some err), .started c.command] := by
    refine congrArg (_ :: ·) ((brackets_behind s.plain_releaseNotices.brackets_eq_nil).trans ?_)
    exact hl.brackets_started hpre.brackets_eq_nil c.command
  have hc : e.session.command = none := by rw [hi]; rfl
  have hc' : e'.session.command = none := by rw [hp.session]; rfl
  obtain ⟨ended, he⟩ := h.noted
  refine ⟨?_, ended ++ [(c.command, some err)], ?_⟩
  · rw [hp.delivered, hc', ← hc]
    exact h.settled
  · rw [brackets_notices hp.journal, hn, hc', he, hc]
    simp

theorem Accounts.calls {accepted : List Command} {c : Call} {r : Except DownloadError Unit}
    (h : e.Accounts accepted) (hc : e.Calls c r e') : e'.Accounts (accepted ++ c.accepted r) := by
  cases hc with
  | @refused err ns _ hns hp =>
    have hn : brackets ns = [] := by rcases hns with rfl | rfl <;> rfl
    rw [Call.accepted, List.append_nil]
    exact h.goes hp rfl hn
  | starts hi hpre hl hp => exact h.starts hi hpre hl hp
  | undone hi hpre hl hp =>
    rw [Call.accepted, List.append_nil]
    exact h.undone hi hpre hl hp

theorem Accounts.advance {accepted cs : List Command} (h : e.Accounts accepted)
    (ha : e.Advances cs e') : e'.Accounts (accepted ++ cs) := by
  cases ha with
  | @keeps ns _ hns hp =>
    have hn : brackets ns = [] := by rcases hns with rfl | ⟨mode, rfl⟩ <;> rfl
    rw [List.append_nil]
    exact h.goes hp rfl hn
  | calls hc => exact h.calls hc
  | ignores hq hn =>
    rw [List.append_nil]
    exact ⟨h.settled, h.noted⟩
  | @reacts signal rest command id s ns outcome _ hq hw hs hr ht =>
    have h' : (e.popped rest).Accounts accepted := ⟨h.settled, h.noted⟩
    rw [List.append_nil]
    cases outcome with
    | none =>
      have hw' := Reacts.waiting (e := e.popped rest) hw hs hr rfl
      exact h'.goes ht (hw'.command.trans hw.command.symm) hr.brackets_eq_nil
    | some result => exact h'.concludes ht hw.command hr.brackets_eq_nil

theorem Accounts.run {accepted : List Command} (h : e.Accounts accepted) (hs : e.Standing)
    (moves : List (Move W)) : (e.run moves).Accounts (accepted ++ e.accepted moves) := by
  induction moves generalizing e accepted with
  | nil =>
    rw [Engine.accepted, List.append_nil]
    exact h
  | cons m moves ih =>
    have ha := hs.move_advances m
    rw [Engine.accepted, ← List.append_assoc]
    exact ih (h.advance ha) (ha.standing hs)

omit [Host W] in
theorem accounts_fresh (config : Config) (library : ImageLibrary) (w : W) :
    (fresh config library w).Accounts [] :=
  ⟨rfl, [], rfl⟩

theorem call_refused {c : Call} {err : DownloadError} (h : e.Standing)
    (hc : e.call c = (.error err, e')) :
    e'.delivered = e.delivered ∧ e'.session.command = e.session.command := by
  have ha := h.call_calls c
  rw [hc] at ha
  cases ha with
  | refused _ hp => exact ⟨hp.delivered, congrArg Session.command hp.session⟩
  | undone hi _ _ hp =>
    refine ⟨hp.delivered, ?_⟩
    rw [hp.session, hi]
    rfl

end Engine

end FirmwareDownload
