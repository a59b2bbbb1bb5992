import FirmwareDownload.Proofs.Engine.Invariant

/-! The failure that an engine remembers between its sessions. It is the one that ended the last
failed write, unless the memory was busy since: a busy answer is remembered in its place. -/

namespace FirmwareDownload

/-- The status with which the controller reports a failure that an image may mend. -/
def DownloadError.report? : DownloadError → Option Status
  | .writeFailed => some .pllError
  | .rejected => some .signatureError
  | _ => none

def currentCommand : List Notice → Option Command
  | [] => none
  | .started command :: _ => some command
  | _ :: ns => currentCommand ns

def failedWrite : List Notice → Option DownloadError
  | [] => none
  | .finished .write (some err) :: _ => some err
  | _ :: ns => failedWrite ns

/-- Since the last write that failed, a command that waits for the memory found it busy. -/
def busySince : List Notice → Bool
  | [] => false
  | .finished .write (some _) :: _ => false
  | .answered status :: ns =>
    (status = .memBusy && (currentCommand ns).any (fun c => c.shape = .readWrite)) || busySince ns
  | _ :: ns => busySince ns

structure SameFailure (ns ns' : List Notice) : Prop where
  current : currentCommand ns = currentCommand ns'
  failed : failedWrite ns = failedWrite ns'
  busy : busySince ns = busySince ns'

theorem SameFailure.refl (ns : List Notice) : SameFailure ns ns := ⟨rfl, rfl, rfl⟩

theorem SameFailure.trans {ns₁ ns₂ ns₃ : List Notice} (h : SameFailure ns₁ ns₂)
    (h' : SameFailure ns₂ ns₃) : SameFailure ns₁ ns₃ :=
  ⟨h.current.trans h'.current, h.failed.trans h'.failed, h.busy.trans h'.busy⟩

theorem SameFailure.sent {ns ns' : List Notice} (h : SameFailure ns ns') (frame : Bytes) :
    SameFailure (.sent frame :: ns) ns' :=
  ⟨h.current, h.failed, h.busy⟩

theorem SameFailure.received {ns ns' : List Notice} (h : SameFailure ns ns') (raw : Bytes) :
    SameFailure (.received raw :: ns) ns' :=
  ⟨h.current, h.failed, h.busy⟩

theorem SameFailure.answered {ns ns' : List Notice} (h : SameFailure ns ns') (status : Status) :
    SameFailure (.answered status :: ns) (.answered status :: ns') := by
  refine ⟨h.current, h.failed, ?_⟩
  rw [busySince, busySince, h.current, h.busy]

theorem SameFailure.finished {ns ns' : List Notice} (h : SameFailure ns ns') {command : Command}
    {error : Option DownloadError} (hc : command = .write → error = none) :
    SameFailure (.finished command error :: ns) ns' := by
  cases command with
  | write =>
    obtain rfl := hc rfl
    exact ⟨h.current, h.failed, h.busy⟩
  | _ => exact ⟨h.current, h.failed, h.busy⟩

theorem Plain.sameFailure {ns : List Notice} (h : Plain ns) (ns' : List Notice) :
    SameFailure (ns ++ ns') ns' := by
  induction ns with
  | nil => exact .refl ns'
  | cons n ns ih =>
    have ih := ih h.tail
    have hn := h n (List.mem_cons_self ..)
    cases n <;> first | exact ⟨ih.current, ih.failed, ih.busy⟩ | cases hn

namespace Session

theorem sameFailure_answerNotices (s : Session) (raw : Bytes) (ns : List Notice) :
    SameFailure (s.answerNotices raw ++ ns) (s.statusNotices raw ++ ns) := by
  obtain ⟨after, before, hp, hp', he⟩ := s.answerNotices_eq raw
  have hr := (hp'.sameFailure ns).received raw
  rw [he, List.append_assoc, List.append_assoc]
  refine (hp.sameFailure _).trans ?_
  rcases s.statusNotices_cases raw with hs | ⟨status, hs⟩
  · rw [hs]
    exact hr
  · rw [hs]
    exact hr.answered status

/-- What a session remembers fits what `ns` tells. -/
structure Recalls (s : Session) (ns : List Notice) : Prop where
  command : ∀ command, s.command = some command → currentCommand ns = some command
  status : ∀ err status, failedWrite ns = some err → err.report? = some status →
    s.lastStatus = some (if busySince ns then .memBusy else status)

theorem Recalls.congr {s s' : Session} {ns ns' : List Notice} (h : s.Recalls ns)
    (hn : SameFailure ns' ns) (hc : s'.command = s.command) (hs : s'.lastStatus = s.lastStatus) :
    s'.Recalls ns' := by
  refine ⟨fun command he => hn.current.trans (h.command command (hc.symm.trans he)), ?_⟩
  intro err status hf hr
  rw [hs, hn.busy]
  exact h.status err status (hn.failed.symm.trans hf) hr

end Session

/-! ## Errors that no image mends -/

namespace Transfer

variable {t t' : Transfer} {frame : FrameBuffer} {err : DownloadError}

theorem acceptWrite_report {status status' : Status}
    (h : t.acceptWrite status = (.error err, t')) (hr : err.report? = some status') :
    status = status' ∧ status.isRecoverable = true := by
  unfold Transfer.acceptWrite at h
  dsimp only at h
  cases status with
  | pllError =>
    cases h
    cases hr
    exact ⟨rfl, rfl⟩
  | signatureError =>
    cases h
    cases hr
    exact ⟨rfl, rfl⟩
  | ok | firstChunkAck | nextChunkAck =>
    dsimp only at h
    split at h <;> cases h
    cases hr
  | _ =>
    cases h
    cases hr

theorem acceptWrite_ok {status : Status} (h : t.acceptWrite status = (.ok (), t')) :
    status.isRecoverable = false := by
  unfold Transfer.acceptWrite at h
  dsimp only at h
  cases status with
  | ok | firstChunkAck | nextChunkAck => rfl
  | _ => cases h

theorem slice_report {data : Array UInt8} {offset n : Nat} (h : slice data offset n = .error err) :
    err.report? = none := by
  unfold slice at h
  split at h <;> cases h
  rfl

theorem liftFrame_report {r : Except FrameError FrameBuffer} (h : liftFrame r = .error err) :
    err.report? = none := by
  cases r <;> cases h
  rfl

theorem composeFragment_report {data : Array UInt8}
    (h : t.composeFragment data frame = (.error err, t')) : err.report? = none := by
  unfold composeFragment at h
  dsimp only at h
  split at h
  · rename_i he
    cases h
    exact slice_report he
  · split at h
    · rename_i he
      cases h
      exact liftFrame_report he
    · cases h

theorem composeRecord_report {data : Array UInt8}
    (h : t.composeRecord data frame = (.error err, t')) : err.report? = none := by
  unfold composeRecord at h
  split at h
  · rename_i he
    cases h
    exact slice_report he
  · split at h
    · rename_i he
      cases h
      exact liftFrame_report he
    · cases h

theorem readHeader_report {data : Array UInt8} (h : t.readHeader data = .error err) :
    err.report? = none := by
  unfold readHeader at h
  split at h
  · cases h
  · split at h
    · rename_i he
      cases h
      exact slice_report he
    · cases h

theorem composeWrite_report {data : Array UInt8}
    (h : t.composeWrite data frame = (.error err, t')) : err.report? = none := by
  unfold composeWrite at h
  dsimp only at h
  split at h
  · rename_i he
    cases h
    exact readHeader_report he
  · split at h
    · exact composeFragment_report h
    · exact composeRecord_report h

theorem composeRead_report (h : t.composeRead frame = (.error err, t')) : err.report? = none := by
  unfold composeRead at h
  dsimp only at h
  split at h
  · rename_i he
    cases h
    exact liftFrame_report he
  · cases h

end Transfer

namespace Session

theorem setFrame_report {s s' : Session} {r : Except DownloadError FrameBuffer}
    {err : DownloadError} (hr : ∀ err, r = .error err → err.report? = none)
    (h : s.setFrame r = (.error err, s')) : err.report? = none := by
  cases r with
  | ok frame => cases h
  | error err' =>
    cases h
    exact hr _ rfl

theorem compose_report {s s' : Session} {err : DownloadError}
    (h : s.compose = (.error err, s')) : err.report? = none := by
  have hl : ∀ r, ∀ err, Transfer.liftFrame r = .error err → err.report? = none :=
    fun _ _ => Transfer.liftFrame_report
  unfold Session.compose at h
  split at h
  · cases h
    rfl
  · exact setFrame_report (hl _) h
  · exact setFrame_report (hl _) h
  · exact setFrame_report (fun _ he => Transfer.composeRead_report (Prod.ext he rfl)) h
  · exact setFrame_report (hl _) h
  · split at h
    · cases h
      rfl
    · exact setFrame_report (fun _ he => Transfer.composeWrite_report (Prod.ext he rfl)) h
  · split at h
    · cases h
      rfl
    · exact setFrame_report (hl _) h
  · split at h
    · cases h
      rfl
    · exact setFrame_report (hl _) h

end Session

theorem Engine.HostFault.report {W : Type} [Host W] {err : DownloadError}
    (h : Engine.HostFault W err) : err.report? = none := by
  cases h <;> rfl

namespace Session

theorem applyAnswer_lastStatus {s : Session} {command : Command} (hc : command ≠ .write)
    (answer : Frame) : (s.applyAnswer command answer).2.lastStatus = s.lastStatus := by
  unfold Session.applyAnswer
  split
  · exact (hc rfl).elim
  · rfl
  · split
    · obtain ⟨response, length, he⟩ := s.keepAnswer_eq answer.payload
      rw [he]
    · rfl

theorem statusNotices_raw {s : Session} (hc : s.command = some .raw) (raw : Bytes) :
    s.statusNotices raw = [] := by
  unfold Session.statusNotices
  rw [if_pos hc]

theorem statusNotices_framed {s : Session} {command : Command} (hc : s.command = some command)
    (hr : command ≠ .raw) (raw : Bytes) : s.statusNotices raw =
      match Frame.decode raw with
      | .ok answer => [.answered answer.status]
      | .error _ => [] := by
  have hn : s.command ≠ some .raw := by
    rw [hc]
    exact fun he => hr (Option.some.inj he)
  unfold Session.statusNotices
  rewrite [if_neg hn]
  cases Frame.decode raw <;> rfl

theorem handleAnswer_raw_lastStatus {s : Session} (hc : s.command = some .raw) (raw : Bytes) :
    (s.handleAnswer raw).2.lastStatus = s.lastStatus := by
  obtain ⟨response, length, he⟩ := s.keepAnswer_eq raw
  rw [handleAnswer_raw hc]
  split <;> rename_i hs <;> rw [hs] at he <;> rw [he]

theorem sameFailure_answered {ns : List Notice} {command : Command} {status : Status}
    (hc : currentCommand ns = some command)
    (hb : ¬ (status = .memBusy ∧ command.shape = .readWrite)) :
    SameFailure (.answered status :: ns) ns := by
  refine ⟨rfl, rfl, ?_⟩
  rw [busySince, hc]
  by_cases hs : status = .memBusy
  · simp [show command.shape ≠ .readWrite from fun h => hb ⟨hs, h⟩]
  · simp [hs]

theorem handleAnswer_command (s : Session) (raw : Bytes) :
    (s.answering.handleAnswer raw).2.command = s.command := by
  obtain ⟨_, _, _, _, _, he⟩ := s.answering.handleAnswer_eq raw
  rw [he]
  rfl

theorem Recalls.busy {s s' : Session} {ns : List Notice} {command : Command} (h : s.Recalls ns)
    (hc : s.command = some command) (hs : command.shape = .readWrite)
    (hc' : s'.command = s.command) (hl : s'.lastStatus = some .memBusy) :
    s'.Recalls (.answered .memBusy :: ns) := by
  refine ⟨fun c he => h.command c (hc'.symm.trans he), fun err status _ _ => ?_⟩
  rw [busySince, h.command command hc, hl]
  simp [hs]

/-- The status of a slice is remembered only if it fails the write for good. -/
theorem handleAnswer_lastStatus_write {s : Session} {raw : Bytes} {answer : Frame}
    (hc : s.command = some .write) (hd : Frame.decode raw = .ok answer)
    (hb : answer.status ≠ .memBusy) (ho : ∀ err, (s.handleAnswer raw).1 ≠ .failed err) :
    (s.handleAnswer raw).2.lastStatus = s.lastStatus := by
  rw [handleAnswer_write hc, hd] at ho ⊢
  dsimp only at ho ⊢
  rw [if_neg hb] at ho ⊢
  cases hacc : s.transfer.acceptWrite answer.status with
  | mk r t =>
    rw [hacc] at ho
    cases r with
    | error err => exact (ho err rfl).elim
    | ok =>
      dsimp only [Session.taking]
      rw [Transfer.acceptWrite_ok hacc, if_neg Bool.false_ne_true]

theorem handleAnswer_lastStatus_other {s : Session} {command : Command} {raw : Bytes}
    {answer : Frame} (hc : s.command = some command) (hr : command ≠ .raw)
    (hw : command ≠ .write) (hd : Frame.decode raw = .ok answer)
    (hb : ¬ (answer.status = .memBusy ∧ command.shape = .readWrite)) :
    (s.handleAnswer raw).2.lastStatus = s.lastStatus := by
  have hl := applyAnswer_lastStatus (s := { s with resendCount := 0 }) hw answer
  rw [handleAnswer_framed hc hr, hd]
  dsimp only
  rw [if_neg hb]
  generalize ({ s with resendCount := 0 } : Session).applyAnswer command answer = applied at hl
  obtain ⟨r, s'⟩ := applied
  cases r <;> exact hl

theorem Recalls.framed {s : Session} {ns : List Notice} {command : Command} {raw : Bytes}
    {answer : Frame} (h : s.Recalls ns) (hc : s.command = some command) (hr : command ≠ .raw)
    (hd : Frame.decode raw = .ok answer)
    (ho : command = .write → ∀ err, (s.answering.handleAnswer raw).1 ≠ .failed err) :
    (s.answering.handleAnswer raw).2.Recalls (.answered answer.status :: ns) := by
  have hcm := s.handleAnswer_command raw
  have hca : s.answering.command = some command := hc
  by_cases hb : answer.status = .memBusy ∧ command.shape = .readWrite
  · rw [hb.1]
    refine h.busy hc hb.2 hcm ?_
    rw [handleAnswer_framed hca hr, hd]
    dsimp only
    rw [if_pos hb]
  · refine h.congr (sameFailure_answered (h.command command hc) hb) hcm ?_
    by_cases hw : command = .write
    · subst hw
      exact handleAnswer_lastStatus_write hca hd (fun he => hb ⟨he, rfl⟩) (ho rfl)
    · exact handleAnswer_lastStatus_other hca hr hw hd hb

/-- An answer that a session takes, or that fails it but not as a write, is remembered as noted. -/
theorem Recalls.answered {s : Session} {ns : List Notice} {command : Command} (h : s.Recalls ns)
    (hc : s.command = some command) (raw : Bytes)
    (ho : command = .write → ∀ err, (s.answering.handleAnswer raw).1 ≠ .failed err) :
    (s.answering.handleAnswer raw).2.Recalls (s.answerNotices raw ++ ns) := by
  refine Recalls.congr ?_ (s.sameFailure_answerNotices raw ns) rfl rfl
  have hca : s.answering.command = some command := hc
  by_cases hraw : command = .raw
  · subst hraw
    rw [statusNotices_raw hc]
    exact h.congr (.refl ns) (s.handleAnswer_command raw) (handleAnswer_raw_lastStatus hca raw)
  · rw [statusNotices_framed hc hraw]
    cases hd : Frame.decode raw with
    | error e =>
      rw [handleAnswer_framed hca hraw, hd]
      exact h.congr (.refl ns) rfl rfl
    | ok answer => exact h.framed hc hraw hd ho

theorem handleAnswer_report {s : Session} {raw : Bytes} {err : DownloadError} {status : Status}
    (hc : s.command = some .write) (hv : (s.handleAnswer raw).1 = .failed err)
    (hr : err.report? = some status) : (s.handleAnswer raw).2.lastStatus = some status := by
  rw [handleAnswer_write hc] at hv ⊢
  cases hd : Frame.decode raw with
  | error e =>
    rw [hd] at hv
    cases hv
    cases hr
  | ok answer =>
    rw [hd] at hv
    dsimp only at hv ⊢
    by_cases hb : answer.status = .memBusy
    · rw [if_pos hb] at hv
      cases hv
    · rw [if_neg hb] at hv ⊢
      cases hacc : s.transfer.acceptWrite answer.status with
      | mk r t =>
        rw [hacc] at hv
        cases r with
        | ok =>
          dsimp only at hv
          split at hv <;> cases hv
        | error err' =>
          cases hv
          obtain ⟨rfl, hrec⟩ := Transfer.acceptWrite_report hacc hr
          dsimp only [Session.taking]
          rw [if_pos hrec]

/-- A session that took a signal remembers what was noted, or it failed as a write and remembers
with which status. -/
structure Recounts (s : Session) (ns : List Notice) (command : Command)
    (outcome : Option (Except DownloadError Unit)) : Prop where
  recalls : (command = .write → ∀ err, outcome ≠ some (.error err)) → s.Recalls ns
  report : command = .write → ∀ err status, outcome = some (.error err) →
    err.report? = some status → s.lastStatus = some status

theorem Recalls.recounts {s s' : Session} {ns ns' : List Notice} {command : Command}
    {outcome : Option (Except DownloadError Unit)} (h : s.Recalls ns) (hn : SameFailure ns' ns)
    (hc : s'.command = s.command) (hs : s'.lastStatus = s.lastStatus)
    (ho : ∀ err, outcome = some (.error err) → err.report? = none) :
    s'.Recounts ns' command outcome := by
  refine ⟨fun _ => h.congr hn hc hs, fun _ err status he hr => ?_⟩
  cases (ho err he).symm.trans hr

end Session

namespace Engine

variable {W : Type} [Host W] {e e₀ e' : Engine W} {command : Command} {id : TimerId}
  {signal : Signal} {s : Session} {ns ns' : List Notice}
  {outcome : Option (Except DownloadError Unit)}

/-! ## Steps of a session -/

theorem Unhindered.report (h : Unhindered W outcome) :
    ∀ err, outcome = some (.error err) → err.report? = none := by
  intro err he
  cases h with
  | goes => cases he
  | fails hf =>
    cases he
    exact hf.report

theorem compose_recalls {s₁ : Session} {r : Except DownloadError Unit} (h : s₁.Recalls ns)
    (hc : { s₁ with phase := .send }.compose = (r, s)) : s.Recalls ns := by
  obtain ⟨_, _, he⟩ := Session.composed hc
  rw [he]
  exact h.congr (.refl ns) rfl rfl

theorem Reacts.recounts_received {r : Ticket} {result : Except LinkError Bytes}
    (hw : e.session.Waiting command id) (hc : e.session.Recalls ns)
    (h : e.Reacts e' command id (.received r result) s ns' outcome) :
    s.Recounts (ns' ++ ns) command outcome := by
  have ha : ∀ {raw v}, (e.session.answering.handleAnswer raw).1 = v → (∀ err, v ≠ .failed err) →
      (e.session.answering.handleAnswer raw).2.Recalls (e.session.answerNotices raw ++ ns) :=
    fun {raw v} hv hf => hc.answered hw.command raw (fun _ => hv ▸ hf)
  cases h with
  | readFailed =>
    have hp : Plain (.moved .timer .response :: e.session.haltNotices) :=
      e.session.plain_haltNotices.cons rfl
    exact hc.recounts (hp.sameFailure ns) rfl rfl (fun err he => by cases he; rfl)
  | done hv => exact (ha hv nofun).recounts (.refl _) rfl rfl nofun
  | @failed r raw err hv =>
    refine ⟨fun ho => hc.answered hw.command raw fun hwr err' _ => ?_,
      fun hwr err' status he hr => ?_⟩
    · exact (ho hwr err rfl).elim
    · cases he
      exact Session.handleAnswer_report (hwr ▸ hw.command) hv hr
  | frameRefused hv hcm =>
    have hp : Plain [.moved .response .send] := .of_all rfl
    refine (compose_recalls (ha hv nofun) hcm).recounts (hp.sameFailure _) rfl rfl fun err he => ?_
    cases he
    exact Session.compose_report hcm
  | proceeds hv hcm _ ho =>
    have hp : Plain [.moved .send .recv, .moved .response .send] :=
      .of_all rfl
    exact (compose_recalls (ha hv nofun) hcm).recounts ((hp.sameFailure _).sent _) rfl rfl
      ho.report
  | exhausted hv =>
    exact (ha hv nofun).recounts (.refl _) rfl rfl (fun err he => by cases he; rfl)
  | @waitRefused r raw err hv hf =>
    have hp : Plain [.resend ((e.session.answering.handleAnswer raw).2.resendCount + 1)] :=
      .of_all rfl
    refine (ha hv nofun).recounts (hp.sameFailure _) rfl rfl fun err' he => ?_
    cases he
    exact hf.report
  | @holds r t raw hv =>
    have hp : Plain [.moved .response .timer, .timerArmed id e.config.resendWait.toNat,
        .resend ((e.session.answering.handleAnswer raw).2.resendCount + 1)] :=
      .of_all rfl
    exact (ha hv nofun).recounts (hp.sameFailure _) rfl rfl nofun

theorem Reacts.recounts_written {w : Ticket} {result : Except LinkError Unit}
    (hc : e.session.Recalls ns)
    (h : e.Reacts e' command id (.written w result) s ns' outcome) :
    s.Recounts (ns' ++ ns) command outcome := by
  cases h with
  | writeFailed => exact hc.recounts (.refl ns) rfl rfl (fun err he => by cases he; rfl)
  | timerRefused hf =>
    refine hc.recounts (.refl ns) rfl rfl fun err he => ?_
    cases he
    exact hf.report
  | listens _ _ ho =>
    have hp : Plain [.readRequested Frame.maxLength, .moved .recv .timer,
        .timerArmed id e.config.responseTimeout.toNat] :=
      .of_all rfl
    exact hc.recounts (hp.sameFailure ns) rfl rfl ho.report

theorem Reacts.recounts_expired {t : Ticket} (hc : e.session.Recalls ns)
    (h : e.Reacts e' command id (.expired t) s ns' outcome) :
    s.Recounts (ns' ++ ns) command outcome := by
  cases h with
  | silent =>
    have hp : Plain (e.session.venResetNotices e.config ++
        [.timeout command, .moved .timer .response]) :=
      (Session.plain_venResetNotices _ _).append (.of_all rfl)
    refine hc.recounts (hp.sameFailure ns) rfl rfl fun err he => ?_
    unfold silenceResult at he
    split at he <;> cases he
    rfl
  | resends _ _ ho =>
    have hp : Plain [.moved .send .recv, .moved .timer .send] := .of_all rfl
    exact hc.recounts ((hp.sameFailure ns).sent _) rfl rfl ho.report

theorem Reacts.recounts (hw : e.session.Waiting command id) (hc : e.session.Recalls ns)
    (h : e.Reacts e' command id signal s ns' outcome) :
    s.Recounts (ns' ++ ns) command outcome := by
  cases signal with
  | written w result => exact h.recounts_written hc
  | received r result => exact h.recounts_received hw hc
  | expired t => exact h.recounts_expired hc

theorem Concludes.recalls {result : Except DownloadError Unit}
    (h : s.Recounts ns command (some result)) :
    s.reset.Recalls (.finished command (errorOf result) ::
      (s.moveNotices .init ++ s.releaseNotices ++ ns)) := by
  have hp := s.plain_endNotices
  -- With a write that fails the account starts anew; any other end leaves it as it is.
  by_cases hf : command = .write ∧ ∃ err, result = .error err
  · obtain ⟨rfl, err, rfl⟩ := hf
    refine ⟨nofun, fun err' status he hr => ?_⟩
    cases he
    exact h.report rfl err status rfl hr
  · have hr : s.Recalls ns :=
      h.recalls fun hc err he => hf ⟨hc, err, Option.some.inj he⟩
    have hn : command = .write → errorOf result = none := by
      intro hc
      cases result with
      | ok => rfl
      | error err => exact (hf ⟨hc, err, rfl⟩).elim
    refine ⟨nofun, fun err status he hr' => ?_⟩
    have hs := (hp.sameFailure ns).finished hn
    rw [hs.busy]
    exact hr.status err status (hs.failed.symm.trans he) hr'

/-! ## Calls -/

theorem Launches.report {armed : Session} {err : DownloadError}
    (h : e.Launches e' armed s ns (some err)) : err.report? = none := by
  cases h with
  | noTimer hf => exact hf.report
  | frameRefused hc => exact Session.compose_report hc
  | sends _ _ hf => exact (hf err rfl).report

theorem Launches.sameFailure {armed : Session} {failure : Option DownloadError}
    (h : e.Launches e' armed s ns failure) (ns' : List Notice) : SameFailure (ns ++ ns') ns' := by
  cases h with
  | noTimer => exact .refl ns'
  | @frameRefused id =>
    have hp : Plain [.moved .init .send, .timerCreated id] := .of_all rfl
    exact hp.sameFailure ns'
  | @sends id =>
    have hp : Plain [.moved .send .recv, .moved .init .send, .timerCreated id] :=
      .of_all rfl
    exact (hp.sameFailure ns').sent _

omit [Host W] in
theorem Prepares.plain_notices {c : Call} {request : Request} {userData : Option Bytes}
    {capacity : Nat} (h : e.Prepares c s ns request userData capacity) : Plain ns := by
  cases h with
  | readPlatform => exact .of_all rfl
  | _ => exact .of_all rfl

omit [Host W] in
theorem Prepares.lastStatus {c : Call} {request : Request} {userData : Option Bytes}
    {capacity : Nat} (h : e.Prepares c s ns request userData capacity) :
    s.lastStatus = e.session.lastStatus := by
  cases h <;> rfl

/-- Since `e₀` the engine remembers what it noted. -/
def Recollects (e₀ e : Engine W) : Prop :=
  ∃ ns, e.journal = ns ++ e₀.journal ∧ e.session.Recalls ns

omit [Host W] in
theorem Recollects.passes (h : e₀.Recollects e) (hp : e.Passes e.session ns' e')
    (hn : Plain ns') : e₀.Recollects e' := by
  obtain ⟨ns, hj, hr⟩ := h
  refine ⟨ns' ++ ns, ?_, ?_⟩
  · rw [hp.journal, hj, List.append_assoc]
  · rw [hp.session]
    exact hr.congr (hn.sameFailure ns) rfl rfl

theorem Launches.recalls {c : Call} {s₀ : Session} {ns₀ : List Notice} {request : Request}
    {userData : Option Bytes} {capacity : Nat} {failure : Option DownloadError}
    (hpre : e.Prepares c s₀ ns₀ request userData capacity)
    (hl : e.Launches e' (s₀.armed c.command request userData capacity) s ns failure)
    (hr : e.session.Recalls ns') :
    ({ s with command := some c.command } : Session).Recalls
      (ns ++ .started c.command :: (ns₀ ++ ns')) := by
  have h₁ := hl.sameFailure (.started c.command :: (ns₀ ++ ns'))
  have h₂ := hpre.plain_notices.sameFailure ns'
  refine ⟨fun command he => h₁.current.trans he, fun err status hf he => ?_⟩
  have hst : s.lastStatus = e.session.lastStatus := hl.keeps.2.2.trans hpre.lastStatus
  rw [h₁.busy]
  refine hst.trans ((hr.status err status ?_ he).trans ?_)
  · exact h₂.failed.symm.trans (h₁.failed.symm.trans hf)
  · exact congrArg (fun b => some (if b then Status.memBusy else status)) h₂.busy.symm

theorem Recollects.calls {c : Call} {r : Except DownloadError Unit} (h : e₀.Recollects e)
    (hc : e.Calls c r e') : e₀.Recollects e' := by
  cases hc with
  | @refused err ns _ hns hp =>
    refine h.passes hp ?_
    rcases hns with rfl | rfl
    · exact .of_all rfl
    · exact .of_all rfl
  | @starts s₀ s ns₀ ns request userData capacity _ hi hpre hl hp =>
    obtain ⟨ns', hj, hr⟩ := h
    have hk := Launches.recalls hpre hl hr
    refine ⟨ns ++ .started c.command :: (ns₀ ++ ns'), ?_, ?_⟩
    · rw [hp.journal, hj]
      simp only [List.append_assoc, List.cons_append]
    · rw [hp.session]
      exact hk.congr (.refl _) hl.keeps.1 rfl
  | @undone s₀ s ns₀ ns request userData capacity err _ hi hpre hl hp =>
    obtain ⟨ns', hj, hr⟩ := h
    have hk := Launches.recalls hpre hl hr
    refine ⟨.finished c.command (some err) :: (s.releaseNotices ++
      (ns ++ .started c.command :: (ns₀ ++ ns'))), ?_, ?_⟩
    · rw [hp.journal, hj]
      simp only [List.append_assoc, List.cons_append]
    · rw [hp.session]
      refine ⟨nofun, fun err' status hf he => ?_⟩
      by_cases hw : c.command = .write
      · rw [hw] at hf
        cases hf
        cases hl.report.symm.trans he
      · have hs : SameFailure (.finished c.command (some err) :: (s.releaseNotices ++
            (ns ++ .started c.command :: (ns₀ ++ ns')))) _ :=
          (s.plain_releaseNotices.sameFailure _).finished (fun h => (hw h).elim)
        rw [hs.busy]
        exact hk.status err' status (hs.failed.symm.trans hf) he

/-- A move of an engine that stands keeps what it remembers in step with what it notes. -/
theorem Recollects.advance {cs : List Command} (h : e₀.Recollects e) (ha : e.Advances cs e') :
    e₀.Recollects e' := by
  cases ha with
  | @keeps ns _ hns hp =>
    refine h.passes hp ?_
    rcases hns with rfl | ⟨mode, rfl⟩
    · exact .of_all rfl
    · exact .of_all rfl
  | calls hc => exact h.calls hc
  | ignores => exact h
  | @reacts signal rest command id s ns outcome _ hq hw hs hr ht =>
    obtain ⟨ns', hj, hrc⟩ := h
    have hn := Reacts.recounts (e := e.popped rest) hw hrc hr
    cases outcome with
    | none =>
      refine ⟨ns ++ ns', ?_, ?_⟩
      · rw [ht.journal, List.append_assoc, ← hj]
        rfl
      · rw [ht.session]
        exact hn.recalls (fun _ => nofun)
    | some result =>
      refine ⟨_, ?_, ht.session ▸ Concludes.recalls hn⟩
      rw [ht.journal, show (e.popped rest).journal = ns' ++ e₀.journal from hj]
      simp only [List.cons_append, List.append_assoc]

theorem Recollects.run (h : e₀.Recollects e) (hs : e.Standing) (moves : List (Move W)) :
    e₀.Recollects (e.run moves) := by
  induction moves generalizing e with
  | nil => exact h
  | cons m moves ih =>
    have ha := hs.move_advances m
    exact ih (h.advance ha) (ha.standing hs)

omit [Host W] in
theorem recollects_idle (h : e.session.Idle) : e.Recollects e := by
  refine ⟨[], rfl, fun command he => ?_, nofun⟩
  rw [h] at he
  cases he

end Engine

end FirmwareDownload
