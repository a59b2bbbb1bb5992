import FirmwareDownload.Proofs.Engine.Moves

/-! Signals that wait ahead of others do not change what an engine does until they are handled:
every operation commutes with putting signals in front of the queue. -/

namespace FirmwareDownload

namespace Engine

variable {W : Type}

/-- The engine with more signals in front of its queue. -/
def behind (q : List Signal) (e : Engine W) : Engine W := { e with queue := q ++ e.queue }

def behindResult {α : Type} (q : List Signal) (r : α × Engine W) : α × Engine W :=
  (r.1, r.2.behind q)

variable (q : List Signal) (e : Engine W)

theorem behind_session : (e.behind q).session = e.session := rfl

theorem behind_config : (e.behind q).config = e.config := rfl

theorem behind_note (n : Notice) : (e.behind q).note n = (e.note n).behind q := rfl

theorem behind_withSession (s : Session) :
    (e.behind q).withSession s = (e.withSession s).behind q :=
  rfl

theorem behind_post (signals : List Signal) :
    (e.behind q).post signals = (e.post signals).behind q := by
  unfold Engine.post Engine.behind
  rw [List.append_assoc]

theorem behind_enter (p : Phase) : (e.behind q).enter p = (e.enter p).behind q := by
  unfold Engine.enter
  by_cases h : e.session.phase = p
  · rw [if_pos h]
    exact if_pos h
  · rw [if_neg h]
    exact if_neg h

variable [Host W]

theorem behind_setHostMode (mode : DeviceMode) :
    (e.behind q).setHostMode mode = behindResult q (e.setHostMode mode) :=
  rfl

theorem behind_createTimer : (e.behind q).createTimer = behindResult q e.createTimer := by
  unfold Engine.createTimer
  rw [show (e.behind q).world = e.world from rfl]
  rcases Host.createTimer e.world with ⟨_ | _, _⟩ <;> rfl

theorem behind_setTimer (purpose : TimerPurpose) (milliseconds : Nat) :
    (e.behind q).setTimer purpose milliseconds =
      behindResult q (e.setTimer purpose milliseconds) := by
  unfold Engine.setTimer
  rw [behind_session]
  cases e.session.timer.id with
  | none => rfl
  | some id =>
    dsimp only [Engine.drawTicket]
    rw [show (e.behind q).world = e.world from rfl,
      show (e.behind q).lastTicket = e.lastTicket from rfl]
    rcases Host.startTimer e.world id milliseconds (e.lastTicket + 1) with ⟨_ | _, signals, w⟩
    · exact congrArg (Prod.mk _) (behind_post q (e.drawTicket.2.withWorld w) signals)
    · have h := behind_post q ((e.drawTicket.2.withWorld w).note (.timerArmed id milliseconds))
        signals
      exact congrArg (fun e' : Engine W => (Except.ok (), e'.withSession { e.session with
        timer := e.session.timer.arm purpose (e.lastTicket + 1) })) h

theorem behind_haltTimer : (e.behind q).haltTimer = e.haltTimer.behind q := by
  unfold Engine.haltTimer
  rw [behind_session]
  cases e.session.timer.id with
  | none => rfl
  | some id =>
    dsimp only
    split <;> rfl

omit [Host W] in
theorem behind_settle (answer : Answer LinkError W) :
    (e.behind q).settle answer = behindResult q (e.settle answer) := by
  have h := behind_post q (e.withWorld answer.world) answer.signals
  unfold Engine.settle
  cases answer.outcome with
  | error err => exact congrArg (Prod.mk _) h
  | ok => exact congrArg (Prod.mk _) h

theorem behind_writeFrame : (e.behind q).writeFrame = behindResult q e.writeFrame := by
  have h : (e.behind q).handing = e.handing.behind q :=
    congrArg (Engine.note · (.sent e.session.frame.bytes)) (behind_enter q
      (e.drawTicket.2.withSession { e.session with writeTicket := some (e.lastTicket + 1) }) .recv)
  rw [writeFrame_eq, writeFrame_eq, h]
  exact behind_settle q _ _

theorem behind_requestRead : (e.behind q).requestRead = behindResult q e.requestRead := by
  rw [requestRead_eq, requestRead_eq]
  exact behind_settle q e.asking _

theorem behind_abortRead : (e.behind q).abortRead = e.abortRead.behind q := rfl

/-! ## The end of a session -/

theorem behind_restoreMode : (e.behind q).restoreMode = e.restoreMode.behind q := by
  unfold Engine.restoreMode
  rw [behind_session]
  split <;> rfl

theorem behind_releaseTimer : (e.behind q).releaseTimer = e.releaseTimer.behind q := by
  unfold Engine.releaseTimer
  rw [behind_session]
  cases e.session.timer.id with
  | none => rfl
  | some id =>
    dsimp only [Engine.withSession]
    split <;> rfl

theorem behind_release : (e.behind q).release = e.release.behind q := by
  unfold Engine.release
  rw [behind_abortRead, behind_restoreMode, behind_releaseTimer]

omit [Host W] in
theorem behind_closing (completion : Completion) :
    (e.behind q).closing completion = (e.closing completion).behind q := by
  unfold Engine.closing
  dsimp only
  rw [behind_session]
  split <;> rfl

theorem behind_conclude (result : Except DownloadError Unit) :
    (e.behind q).conclude result = (e.conclude result).behind q := by
  cases hc : e.session.command with
  | none =>
    unfold Engine.conclude
    rw [behind_session, hc]
  | some command =>
    rw [conclude_eq hc, conclude_eq (e := e.behind q) hc, behind_release, behind_withSession,
      behind_enter, behind_closing]
    rfl

theorem concludeOnError_behind (r : Except DownloadError Unit × Engine W) :
    concludeOnError (behindResult q r) = (concludeOnError r).behind q := by
  obtain ⟨err | _, e⟩ := r
  · exact behind_conclude q e (.error err)
  · rfl

/-! ## Steps -/

theorem behind_sendNext : (e.behind q).sendNext = behindResult q e.sendNext := by
  unfold Engine.sendNext
  rw [behind_session]
  split
  · exact behind_writeFrame q (e.withSession _)
  · split
    · rfl
    · rename_i s _
      exact behind_writeFrame q (e.withSession s)

theorem behind_onWritten (result : Except LinkError Unit) :
    (e.behind q).onWritten result = (e.onWritten result).behind q := by
  unfold Engine.onWritten
  rw [behind_config]
  cases result with
  | error err => exact behind_conclude q e _
  | ok =>
    dsimp only
    rw [behind_setTimer]
    rcases e.setTimer .response e.config.responseTimeout.toNat with ⟨_ | _, e₁⟩
    · exact behind_conclude q e₁ _
    · dsimp only [behindResult]
      rw [behind_enter, behind_requestRead]
      exact concludeOnError_behind q _

theorem behind_awaitMemory : (e.behind q).awaitMemory = e.awaitMemory.behind q := by
  have h : ∀ s n, ((e.behind q).withSession s).note n = ((e.withSession s).note n).behind q :=
    fun _ _ => rfl
  rw [awaitMemory_eq, awaitMemory_eq]
  rw [behind_config, behind_session]
  split
  · exact behind_conclude q (e.withSession _) _
  · rw [h, behind_setTimer]
    rcases ((e.withSession e.session.countBusy).note (.resend (e.session.resendCount + 1))).setTimer
      .resendWait e.config.resendWait.toNat with ⟨_ | _, e₁⟩
    · exact behind_conclude q e₁ _
    · exact behind_enter q e₁ _

omit [Host W] in
theorem behind_noteStatus (raw : Bytes) :
    (e.behind q).noteStatus raw = (e.noteStatus raw).behind q := by
  unfold Engine.noteStatus
  rw [behind_session]
  split
  · rfl
  · split <;> rfl

omit [Host W] in
theorem behind_noteProgress : (e.behind q).noteProgress = e.noteProgress.behind q := by
  unfold Engine.noteProgress
  rw [behind_session]
  split <;> rfl

theorem behind_sendAgain : (e.behind q).sendAgain = e.sendAgain.behind q := by
  unfold Engine.sendAgain
  rw [behind_enter]
  dsimp only
  rw [behind_session, behind_withSession, behind_sendNext]
  exact concludeOnError_behind q _

theorem behind_follow (verdict : Verdict) :
    (e.behind q).follow verdict = (e.follow verdict).behind q := by
  cases verdict with
  | done => exact behind_conclude q e (.ok ())
  | failed err => exact behind_conclude q e (.error err)
  | proceed =>
    unfold Engine.follow
    rw [behind_enter, behind_sendNext]
    exact concludeOnError_behind q _
  | resend => exact behind_awaitMemory q e

theorem behind_venReset :
    (if (e.behind q).config.venResetOnTimeout ∧
        (e.behind q).session.lastStatus = some .signatureError then
      (e.behind q).toggleController else e.behind q) =
    (if e.config.venResetOnTimeout ∧ e.session.lastStatus = some .signatureError then
      e.toggleController else e).behind q := by
  rw [behind_session, behind_config]
  split <;> rfl

theorem behind_onSilence : (e.behind q).onSilence = e.onSilence.behind q := by
  unfold Engine.onSilence
  dsimp only
  rw [behind_session, behind_withSession, behind_enter]
  rw [behind_session]
  split
  · rfl
  · rename_i command _
    rw [behind_note, behind_venReset]
    exact behind_conclude q _ (silenceResult command)

theorem onAnswer_eq (raw : Bytes) : e.onAnswer raw =
    ((((e.note (.received raw)).noteStatus raw).withSession
      (((e.note (.received raw)).noteStatus raw).session.handleAnswer raw).2).noteProgress).follow
        (((e.note (.received raw)).noteStatus raw).session.handleAnswer raw).1 :=
  rfl

theorem behind_onAnswer (raw : Bytes) :
    (e.behind q).onAnswer raw = (e.onAnswer raw).behind q := by
  rw [onAnswer_eq, onAnswer_eq, behind_note, behind_noteStatus, behind_withSession,
    behind_noteProgress, behind_follow]
  rfl

theorem behind_onReceived (result : Except LinkError Bytes) :
    (e.behind q).onReceived result = (e.onReceived result).behind q := by
  unfold Engine.onReceived
  rw [behind_haltTimer, behind_enter]
  cases result with
  | error err => exact behind_conclude q _ (.error (.failed (.link err)))
  | ok raw => exact behind_onAnswer q _ raw

theorem behind_handle (signal : Signal) :
    (e.behind q).handle signal = (e.handle signal).behind q := by
  by_cases ha : e.session.Awaits signal
  · cases signal with
    | written ticket result =>
      rw [handle_written ha.1 ha.2, handle_written (e := e.behind q) ha.1 ha.2]
      exact behind_onWritten q (e.withSession _) result
    | received ticket result =>
      rw [handle_received ha.1 ha.2, handle_received (e := e.behind q) ha.1 ha.2]
      exact behind_onReceived q (e.withSession _) result
    | expired ticket =>
      rw [handle_expired ha.1 ha.2, handle_expired (e := e.behind q) ha.1 ha.2, onExpired_eq,
        onExpired_eq]
      rw [behind_session]
      cases e.session.timer.purpose with
      | response => exact behind_onSilence q (e.withSession _)
      | resendWait => exact behind_sendAgain q (e.withSession _)
  · rw [handle_ignored ha, handle_ignored (e := e.behind q) ha]

/-! ## Calls -/

theorem behind_launch : (e.behind q).launch = behindResult q e.launch := by
  unfold Engine.launch
  rw [behind_createTimer]
  rcases e.createTimer with ⟨_ | _, e₁⟩
  · rfl
  · dsimp only [behindResult]
    rw [behind_enter, behind_sendNext]
    rfl

theorem behind_start (command : Command) (request : Request) (userData : Option Bytes)
    (capacity : Nat) : (e.behind q).start command request userData capacity =
      behindResult q (e.start command request userData capacity) := by
  rw [start_eq, start_eq, behind_withSession, behind_note, behind_launch]
  rw [behind_session]
  rcases ((e.withSession (e.session.armed command request userData capacity)).note
    (.started command)).launch with ⟨_ | _, e₁⟩
  · dsimp only [behindResult]
    rw [behind_release]
    rfl
  · rfl

omit [Host W] in
theorem behind_guarded {p : Prop} [Decidable p] {fault : ParameterFault}
    {r r' : Except DownloadError Unit × Engine W} (h : r' = behindResult q r) :
    (if p then (e.behind q).invalid fault else r') =
      behindResult q (if p then e.invalid fault else r) := by
  rw [h]
  split <;> rfl

omit [Host W] in
theorem behind_chooseImage (recovery : Bool) :
    (e.behind q).chooseImage recovery = behindResult q (e.chooseImage recovery) := by
  unfold Engine.chooseImage
  dsimp only
  rw [behind_session, show (e.behind q).primary = e.primary from rfl,
    show (e.behind q).library = e.library from rfl]
  split
  · rfl
  · split
    · rfl
    · split <;> rfl

theorem behind_callWrite (recovery : Bool) (data : Option Bytes) :
    (e.behind q).callWrite recovery data = behindResult q (e.callWrite recovery data) := by
  unfold Engine.callWrite
  split
  · rfl
  · split
    · rfl
    · exact behind_start q (e.withSession _) _ _ _ _
  · rw [behind_chooseImage]
    rcases e.chooseImage recovery with ⟨_ | image, e₁⟩
    · rfl
    · exact behind_start q (e₁.withSession _) _ _ _ _

theorem behind_callReadPlatform :
    (e.behind q).callReadPlatform = behindResult q e.callReadPlatform := by
  unfold Engine.callReadPlatform
  rw [behind_setHostMode]
  rcases e.setHostMode .download with ⟨_ | _, e₁⟩
  · rfl
  · exact behind_start q (e₁.withSession _) _ _ _ _

theorem behind_call (c : Call) : (e.behind q).call c = behindResult q (e.call c) := by
  unfold Engine.call
  rw [behind_session]
  split
  · rfl
  · cases c with
    | reset => exact behind_start q e _ _ _ _
    | getVersion => exact behind_guarded q e (behind_start q e _ _ _ _)
    | getSessionState => exact behind_guarded q e (behind_start q e _ _ _ _)
    | checkIntegrity => exact behind_guarded q e (behind_start q e _ _ _ _)
    | read => exact behind_guarded q e (behind_start q (e.withSession _) _ _ _ _)
    | readLog => exact behind_guarded q e (behind_start q (e.withSession _) _ _ _ _)
    | readPlatform => exact behind_callReadPlatform q e
    | write recovery data => exact behind_callWrite q e recovery data
    | log => exact behind_guarded q e (behind_start q e _ _ _ _)
    | force => exact behind_start q e _ _ _ _
    | raw => exact behind_guarded q e (behind_guarded q e (behind_start q e _ _ _ _))

theorem behind_setMode (mode : DeviceMode) :
    (e.behind q).setMode mode = behindResult q (e.setMode mode) := by
  unfold Engine.setMode
  rw [behind_session, behind_setHostMode]
  split
  · rfl
  · rcases e.setHostMode mode with ⟨_ | _, e₁⟩ <;> rfl

theorem behind_move {m : Move W} (h : m ≠ .handleNext) :
    (e.behind q).move m = (e.move m).behind q := by
  cases m with
  | call c => exact congrArg Prod.snd (behind_call q e c)
  | setMode mode => exact congrArg Prod.snd (behind_setMode q e mode)
  | loadPrimary =>
    unfold Engine.move Engine.loadPrimary
    rw [show (e.behind q).library = e.library from rfl]
    dsimp only
    split <;> rfl
  | handleNext => exact absurd rfl h
  | arrive signals => exact behind_post q e signals
  | pass w => rfl

end Engine

end FirmwareDownload
