import FirmwareDownload.Proofs.Engine.Passage

/-! How a session ends: its timer goes back to the host, the link to the mode it promised,
the session to its reset state, and the completion to whoever waits for it. -/

namespace FirmwareDownload

namespace Session

def released (s : Session) : Session :=
  { s with
    restoreNormalMode := false
    timer := { s.timer with id := none, running := false } }

def timerReleaseNotices (s : Session) : List Notice :=
  match s.timer.id with
  | none => []
  | some id => .timerDeleted id :: if s.timer.running then [.timerStopped id] else []

/-- The calls on the host that release a session, newest first. -/
def releaseNotices (s : Session) : List Notice :=
  s.timerReleaseNotices ++ (if s.restoreNormalMode then [.modeRequested .normal] else []) ++
    [.readAborted]

end Session

def errorOf : Except DownloadError Unit → Option DownloadError
  | .ok () => none
  | .error err => some err

namespace Engine

variable {W : Type} [Host W]

variable {e e₁ : Engine W} {s : Session} {ns : List Notice}

theorem Passes.restoreMode (h : e.Passes s ns e₁) :
    e.Passes { s with restoreNormalMode := false }
      ((if s.restoreNormalMode then [.modeRequested .normal] else []) ++ ns) e₁.restoreMode := by
  unfold Engine.restoreMode
  rw [h.session]
  cases hm : s.restoreNormalMode with
  | true => exact (h.setHostMode .normal).update (fun s => { s with restoreNormalMode := false })
  | false =>
    have hs : { s with restoreNormalMode := false } = s := by rw [← hm]
    rw [hs]
    exact h

theorem Passes.releaseTimer (h : e.Passes s ns e₁) :
    e.Passes { s with timer := { s.timer with id := none, running := false } }
      (s.timerReleaseNotices ++ ns) e₁.releaseTimer := by
  obtain rfl := h.session
  unfold Engine.releaseTimer Session.timerReleaseNotices
  cases hid : e₁.session.timer.id with
  | none =>
    dsimp only
    rw [hid]
    exact h.withSession _
  | some id =>
    exact (((h.update (fun s => { s with timer := { s.timer with id := none } })).stopIfRunning
      id).deleteHostTimer id).update
        (fun s => { s with timer := { s.timer with running := false } })

theorem Passes.release (h : e.Passes s ns e₁) :
    e.Passes s.released (s.releaseNotices ++ ns) e₁.release := by
  have h₁ := h.abortRead.restoreMode.releaseTimer
  refine h₁.congr rfl ?_
  rw [Session.releaseNotices, List.append_assoc, List.append_assoc, List.singleton_append]
  rfl

/-- From `e` a session `s` was reached, after the notices `ns`, and ended with `result`. -/
structure Concludes (e : Engine W) (s : Session) (ns : List Notice) (command : Command)
    (result : Except DownloadError Unit) (e' : Engine W) : Prop where
  session : e'.session = s.reset
  journal : e'.journal =
    .finished command (errorOf result) :: (s.moveNotices .init ++ s.releaseNotices ++ ns) ++
      e.journal
  delivered : e'.delivered = ⟨command, result, s.response.take s.responseLength⟩ :: e.delivered
  lastTicket : e.lastTicket ≤ e'.lastTicket
  queue : e.queue <+: e'.queue
  config : e'.config = e.config
  library : e'.library = e.library
  primary : e.KeepsPrimary e'

def closing (e : Engine W) (completion : Completion) : Engine W :=
  let closed := (e.withSession e.session.reset).note
    (.finished completion.command (errorOf completion.result))
  if e.session.awaited then { closed with delivered := completion :: closed.delivered } else closed

theorem conclude_eq {command : Command} (h : e.session.command = some command)
    (result : Except DownloadError Unit) : e.conclude result =
    ((e.release.withSession e.release.session.handOver.2).enter .init).closing
      ⟨command, result, e.release.session.handOver.1⟩ := by
  unfold Engine.conclude
  rw [h]
  cases result <;> rfl

theorem lastTicket_conclude (e : Engine W) (result : Except DownloadError Unit) :
    e.lastTicket ≤ (e.conclude result).lastTicket := by
  cases hc : e.session.command with
  | none =>
    unfold Engine.conclude
    rewrite [hc]
    exact Nat.le_refl _
  | some command =>
    have h := (((Passes.refl e).release.update (fun s => s.handOver.2)).enter .init).lastTicket
    rw [conclude_eq hc]
    unfold Engine.closing
    split <;> exact h

theorem Passes.conclude {command : Command} (h : e.Passes s ns e₁)
    (hc : s.command = some command) (ha : s.awaited = true) (result : Except DownloadError Unit) :
    e.Concludes s ns command result (e₁.conclude result) := by
  obtain rfl := h.session
  have h₁ := h.release
  have h₂ := (h₁.update (fun s => s.handOver.2)).enter .init
  have h₃ := (h₂.update Session.reset).note (.finished command (errorOf result))
  have hw : ((e₁.release.withSession e₁.release.session.handOver.2).enter .init).session.awaited =
      true := by
    rw [h₂.session]
    exact ha
  have hr : e₁.release.session.handOver.1 =
      e₁.session.response.take e₁.session.responseLength := by
    rw [h₁.session]
    rfl
  have hj : .finished command (errorOf result) ::
      (e₁.session.released.handOver.2.moveNotices .init ++ (e₁.session.releaseNotices ++ ns)) ++
        e.journal =
      .finished command (errorOf result) ::
        (e₁.session.moveNotices .init ++ e₁.session.releaseNotices ++ ns) ++ e.journal := by
    rw [← List.append_assoc]
    rfl
  rw [conclude_eq hc, hr]
  unfold Engine.closing
  rw [if_pos hw]
  exact ⟨h₃.session, h₃.journal.trans hj, congrArg (_ :: ·) h₃.delivered, h₃.lastTicket,
    h₃.queue, h₃.config, h₃.library, h₃.primary⟩

end Engine

end FirmwareDownload
