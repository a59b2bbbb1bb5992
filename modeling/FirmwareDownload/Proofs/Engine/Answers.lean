import Mathlib.Tactic.SplitIfs
import FirmwareDownload.Proofs.Engine.LastFailure

/-! How commands come to their end. None but a write ends with a failure that an image may mend,
and a command that asks something of the controller ends well only on its answer. -/

namespace FirmwareDownload

/-- The command ends well on one answer of status ok, whose payload is what was asked for. -/
def Command.asks : Command → Bool
  | .getVersion | .getSessionState | .checkIntegrity | .log | .force => true
  | _ => false

theorem ResponseBuffer.capacity_store? {b c : ResponseBuffer} {offset : Nat} {data : Bytes}
    (h : b.store? offset data = some c) : c.capacity = b.capacity := by
  unfold ResponseBuffer.store? at h
  split at h <;> cases h
  rfl

namespace Transfer

variable {t : Transfer} {answer : Frame} {response : ResponseBuffer}

theorem acceptRead_capacity (t : Transfer) (answer : Frame) (response : ResponseBuffer) :
    (t.acceptRead answer response).2.2.capacity = response.capacity := by
  unfold Transfer.acceptRead
  dsimp only
  split_ifs
  · rfl
  · rfl
  · rfl
  · split
    · rfl
    · rename_i hs
      exact ResponseBuffer.capacity_store? hs

theorem acceptRead_report {err : DownloadError}
    (h : (t.acceptRead answer response).1 = .error err) : err.report? = none := by
  unfold Transfer.acceptRead at h
  dsimp only at h
  split_ifs at h
  · cases h
    rfl
  · cases h
    rfl
  · cases h
    rfl
  · split at h <;> cases h
    rfl

end Transfer

namespace Session

variable {s : Session} {command : Command} {raw data : Bytes} {err : DownloadError}

theorem keepAnswer_capacity (s : Session) (data : Bytes) :
    (s.keepAnswer data).2.response.capacity = s.response.capacity := by
  unfold Session.keepAnswer
  split
  · rfl
  · split
    · rfl
    · rename_i hs
      exact ResponseBuffer.capacity_store? hs

theorem keepAnswer_report (h : (s.keepAnswer data).1 = .error err) : err.report? = none := by
  unfold Session.keepAnswer at h
  split at h
  · cases h
  · split at h <;> cases h
    rfl

/-- What a buffer keeps of an answer is the whole of it. -/
theorem keepAnswer_kept (h : (s.keepAnswer data).1 = .ok ()) (hc : s.response.capacity ≠ 0) :
    (s.keepAnswer data).2.response.take (s.keepAnswer data).2.responseLength = data := by
  unfold Session.keepAnswer at h ⊢
  rw [if_neg hc] at h ⊢
  split at h
  · cases h
  · rename_i hs
    dsimp only
    rw [ResponseBuffer.take_eq, ResponseBuffer.bytes_store? hs]
    simp [Bytes.overwrite]

theorem applyAnswer_capacity (s : Session) (command : Command) (answer : Frame) :
    (s.applyAnswer command answer).2.response.capacity = s.response.capacity := by
  unfold Session.applyAnswer
  split
  · rfl
  · exact Transfer.acceptRead_capacity _ _ _
  · split
    · exact s.keepAnswer_capacity _
    · rfl

theorem applyAnswer_report {answer : Frame} (hw : command ≠ .write)
    (h : (s.applyAnswer command answer).1 = .error err) : err.report? = none := by
  unfold Session.applyAnswer at h
  split at h
  · exact (hw rfl).elim
  · exact Transfer.acceptRead_report h
  · split at h
    · exact keepAnswer_report h
    · cases h
      rfl

theorem applyAnswer_asks {answer : Frame} (ha : command.asks = true) :
    s.applyAnswer command answer =
      if answer.status = .ok then s.keepAnswer answer.payload
      else (.error (.failed (.unexpectedStatus answer.status)), s) :=
  applyAnswer_other (by rintro rfl; cases ha) (by rintro rfl; cases ha)

theorem handleAnswer_capacity (s : Session) (raw : Bytes) :
    (s.handleAnswer raw).2.response.capacity = s.response.capacity := by
  unfold Session.handleAnswer
  split
  · rfl
  · have hk := s.keepAnswer_capacity raw
    split <;> rename_i he <;> rw [he] at hk <;> exact hk
  · rename_i command _ _
    split
    · rfl
    · rename_i answer _
      split
      · rfl
      · have ha := applyAnswer_capacity { s with resendCount := 0 } command answer
        split <;> rename_i he <;> rw [he] at ha
        · exact ha
        · split <;> exact ha

theorem handleAnswer_report_other (hc : s.command = some command) (hw : command ≠ .write)
    (h : (s.handleAnswer raw).1 = .failed err) : err.report? = none := by
  by_cases hr : command = .raw
  · subst hr
    rw [handleAnswer_raw hc] at h
    split at h
    · cases h
    · rename_i he
      cases h
      exact keepAnswer_report (congrArg Prod.fst he)
  · rw [handleAnswer_framed hc hr] at h
    split at h
    · cases h
      rfl
    · split at h
      · cases h
      · split at h
        · rename_i he
          cases h
          exact applyAnswer_report hw (congrArg Prod.fst he)
        · dsimp only at h
          split at h <;> cases h

/-- A command that asks something is done with an answer of status ok, and keeps its payload. -/
theorem handleAnswer_asks (hc : s.command = some command) (ha : command.asks = true)
    (h : (s.handleAnswer raw).1 = .done) :
    ∃ answer, Frame.decode raw = .ok answer ∧ answer.status = .ok ∧
      (s.response.capacity ≠ 0 →
        (s.handleAnswer raw).2.response.take (s.handleAnswer raw).2.responseLength =
          answer.payload) := by
  have hr : command ≠ .raw := by
    rintro rfl
    cases ha
  rw [handleAnswer_framed hc hr] at h ⊢
  split at h
  · cases h
  · rename_i answer hd
    by_cases hb : answer.status = .memBusy ∧ command.shape = .readWrite
    · rw [if_pos hb] at h
      cases h
    · rw [if_neg hb] at h ⊢
      rw [applyAnswer_asks ha] at h ⊢
      by_cases hs : answer.status = .ok
      · rw [if_pos hs] at h ⊢
        refine ⟨answer, hd, hs, fun hcap => ?_⟩
        cases he : ({ s with resendCount := 0 } : Session).keepAnswer answer.payload with
        | mk r s' =>
          rw [he] at h
          cases r with
          | ok =>
            have hk := keepAnswer_kept (congrArg Prod.fst he) hcap
            rw [he] at hk
            exact hk
          | error err => cases h
      · rw [if_neg hs] at h
        cases h

theorem compose_response (s : Session) : s.compose.2.response = s.response := by
  obtain ⟨_, _, he⟩ := compose_eq s
  rw [he]

end Session

namespace Engine

variable {W : Type} [Host W] {e e' : Engine W} {command : Command} {id : TimerId}
  {signal : Signal} {s : Session} {ns : List Notice}
  {outcome : Option (Except DownloadError Unit)}

theorem Reacts.report (hw : e.session.Waiting command id) (hc : command ≠ .write)
    (h : e.Reacts e' command id signal s ns outcome) :
    ∀ err, outcome = some (.error err) → err.report? = none := by
  intro err ho
  cases h with
  | writeFailed => cases ho; rfl
  | timerRefused hf => cases ho; exact hf.report
  | listens _ _ hu => exact hu.report err ho
  | readFailed => cases ho; rfl
  | done => cases ho
  | failed hv =>
    cases ho
    exact Session.handleAnswer_report_other (s := e.session.answering) hw.command hc hv
  | frameRefused _ hcm => cases ho; exact Session.compose_report hcm
  | proceeds _ _ _ hu => exact hu.report err ho
  | exhausted => cases ho; rfl
  | waitRefused _ hf => cases ho; exact hf.report
  | holds => cases ho
  | silent =>
    unfold silenceResult at ho
    split at ho <;> cases ho
    rfl
  | resends _ _ hu => exact hu.report err ho

/-- A session has as much room for its answer as before. -/
theorem Reacts.capacity (h : e.Reacts e' command id signal s ns outcome) :
    s.response.capacity = e.session.response.capacity := by
  have ha := Session.handleAnswer_capacity e.session.answering
  have hcompose : ∀ {s₁ s₂ : Session} {r : Except DownloadError Unit}, s₁.compose = (r, s₂) →
      s₂.response = s₁.response := by
    intro s₁ s₂ r hc
    have hr := s₁.compose_response
    rw [hc] at hr
    exact hr
  cases h with
  | done => exact ha _
  | failed => exact ha _
  | frameRefused _ hc => exact (congrArg _ (hcompose hc)).trans (ha _)
  | proceeds _ hc => exact (congrArg _ (hcompose hc)).trans (ha _)
  | exhausted => exact ha _
  | waitRefused => exact ha _
  | holds => exact ha _
  | _ => rfl

/-- A command that asks something ends well on an answer that was received. -/
theorem Reacts.answer (hw : e.session.Waiting command id) (ha : command.asks = true)
    (h : e.Reacts e' command id signal s ns (some (.ok ()))) :
    ∃ raw answer, .received raw ∈ ns ∧ Frame.decode raw = .ok answer ∧ answer.status = .ok ∧
      (e.session.response.capacity ≠ 0 → s.response.take s.responseLength = answer.payload) := by
  generalize ho : some (Except.ok ()) = outcome at h
  cases h with
  | @done r raw hv =>
    obtain ⟨answer, hd, hst, hp⟩ :=
      Session.handleAnswer_asks (s := e.session.answering) hw.command ha hv
    obtain ⟨after, before, -, -, hn⟩ := e.session.answerNotices_eq raw
    exact ⟨raw, answer, by rw [hn]; simp, hd, hst, hp⟩
  | listens _ _ hu => cases hu <;> cases ho
  | proceeds _ _ _ hu => cases hu <;> cases ho
  | silent =>
    unfold silenceResult at ho
    split at ho
    · rename_i hr
      rw [hr] at ha
      cases ha
    · cases ho
  | resends _ _ hu => cases hu <;> cases ho
  | _ => cases ho

end Engine

end FirmwareDownload
