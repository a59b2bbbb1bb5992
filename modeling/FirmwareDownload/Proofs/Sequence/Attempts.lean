import FirmwareDownload.Proofs.Engine.Pursuit
import FirmwareDownload.Proofs.Sequence.Laps

/-! What becomes of the commands of a sequence: an engine refuses one, it is not over when its time
is, or it ends. Only a write fails in a way that an image may mend. -/

namespace FirmwareDownload

theorem DownloadError.isRecoverable_of_report {err : DownloadError} (h : err.report? = none) :
    err.isRecoverable = false := by
  cases err <;> first | rfl | cases h

namespace Sequencer

variable {W : Type} [Host W] {s s₁ s' : Sequencer W} {c : Call} {attempt : Attempt}
  {err : DownloadError}

theorem Moves.standing (h : s.Moves s') (hs : s.engine.Standing) : s'.engine.Standing := by
  obtain ⟨moves, he⟩ := h
  exact he ▸ hs.run moves

inductive Fares (s : Sequencer W) (c : Call) : Attempt → Engine W → Prop
  | refused {err : DownloadError} {e : Engine W} : s.engine.call c = (.error err, e) →
    err.report? = none → e.session.busy = s.engine.session.busy → Fares s c (.refused err) e
  | cutOff {e : Engine W} : s.engine.session.busy = false → e.session.busy = true →
    Fares s c (.ended (.error .timeout)) e
  | ends {ns : List Notice} {result : Except DownloadError Unit} {response : Bytes}
      {e : Engine W} : s.engine.session.busy = false → e.session.busy = false →
    e.journal = ns ++ s.engine.journal → Accords c.command c.capacity ns result response →
    Fares s c (.ended (result.map fun _ => response)) e

theorem attempt_fares (hs : s.engine.Standing) (c : Call) :
    s.Fares c (s.attempt c).1 (s.attempt c).2.engine := by
  unfold Sequencer.attempt
  dsimp only
  split
  · rename_i err e he
    have hr := (Engine.grants_call s.engine c).report err (congrArg Prod.fst he)
    exact .refused he hr (Engine.call_refused_busy hs he)
  · rename_i e he
    have hb : s.engine.session.busy = false := by
      cases hb : s.engine.session.busy with
      | false => rfl
      | true =>
        rw [Engine.call_busy hb] at he
        cases he
    have hp := (Engine.Calls.pursues hs he).served
      (Engine.served_runToIdle s.options.patience s.options.stepLimit e)
    have hd := Engine.runToIdle_idle s.options.patience s.options.stepLimit e
    split <;> rename_i e₁ hr <;> rw [hr] at hp hd
    · exact .cutOff hb (by simpa using hd)
    · have hb₁ : e₁.session.busy = false := by simpa using hd
      cases hp with
      | underway _ _ hw => cases hb₁.symm.trans hw.busy
      | @ended _ result response hj _ hde ha =>
        have hsince : completionSince e₁ s.engine.delivered.length =
            some ⟨c.command, result, response⟩ := by
          rw [completionSince, hde]
          simp
        rw [hsince]
        exact .ends hb hb₁ hj ha

/-! ## When the engine stays busy -/

theorem setMode_session (s : Sequencer W) (mode : DeviceMode) :
    (s.setMode mode).2.engine.session = s.engine.session := by
  have hp := ((Engine.Passes.refl s.engine).setHostMode mode).session
  unfold Sequencer.setMode Engine.setMode
  dsimp only
  split
  · rfl
  · split <;> rename_i he <;> rw [he] at hp <;> exact hp

theorem setMode_busy (h : s.engine.session.busy = true) (mode : DeviceMode) :
    (s.setMode mode).2.engine = s.engine ∧ (s.setMode mode).1 = .error .busy := by
  unfold Sequencer.setMode Engine.setMode
  rw [if_pos h]
  exact ⟨rfl, rfl⟩

theorem attempt_busy (h : s.engine.session.busy = true) (c : Call) :
    (s.attempt c).2.engine = s.engine := by
  unfold Sequencer.attempt
  rw [Engine.call_busy h]

/-- A busy engine is left alone. -/
theorem Does.stays {o : Option (Call × Attempt)} (h : s.Does o s')
    (hb : s.engine.session.busy = true) : s'.engine = s.engine := by
  induction h with
  | nothing ha => exact ha.engine
  | command c _ ha ih => rw [ha.engine, attempt_busy (by rw [ih]; exact hb), ih]
  | mode mode _ ha ih => rw [ha.engine, (setMode_busy (by rw [ih]; exact hb) mode).1, ih]

/-- Only a command that is not over when its time is leaves the engine busy. -/
theorem Does.cutOff {o : Option (Call × Attempt)} (h : s.Does o s') (hs : s.engine.Standing)
    (hb : s.engine.session.busy = false) (hb' : s'.engine.session.busy = true) :
    ∃ c, o = some (c, .ended (.error .timeout)) := by
  induction h with
  | nothing ha =>
    rw [ha.engine, hb] at hb'
    cases hb'
  | @command s₁ s' c h ha ih =>
    have hs₁ : s₁.engine.Standing := h.acts.moves.standing hs
    have hf := attempt_fares hs₁ c
    rw [ha.engine] at hb'
    generalize (s₁.attempt c).1 = a at hf ⊢
    cases hf with
    | refused _ _ hr =>
      obtain ⟨_, he⟩ := ih (hr.symm.trans hb')
      cases he
    | cutOff => exact ⟨c, rfl⟩
    | ends _ hb₁ => cases hb₁.symm.trans hb'
  | mode mode _ ha ih =>
    rw [ha.engine, setMode_session] at hb'
    exact ih hb'

/-! ## Failures that no image mends -/

theorem Fares.unrecoverable {e : Engine W} (h : s.Fares c attempt e) (hc : c.command ≠ .write)
    (he : attempt.result = .error err) : err.isRecoverable = false := by
  refine DownloadError.isRecoverable_of_report ?_
  cases h with
  | refused _ hr => cases he; exact hr
  | cutOff => cases he; rfl
  | @ends _ result _ _ _ _ _ ha =>
    cases result with
    | ok => cases he
    | error err' =>
      cases he
      exact ha.report hc _ rfl

theorem performThen_fares (hs : s.engine.Standing) (hc : c.command ≠ .write)
    (take : Sequencer W → Bytes → Except DownloadError Unit × Sequencer W) :
    (∃ err, err.isRecoverable = false ∧ s.performThen c take = (.error err, (s.attempt c).2)) ∨
    ∃ answer, (s.attempt c).1 = .ended (.ok answer) ∧
      s.performThen c take = take (s.attempt c).2 answer := by
  rcases s.performThen_cases c take with ⟨err, ha, he⟩ | ⟨answer, ha, he⟩
  · exact .inl ⟨err, (attempt_fares hs c).unrecoverable hc ha, he⟩
  · exact .inr ⟨answer, ha, he⟩

end Sequencer

namespace Visit

variable {W : Type} [Host W] {v : Visit W} {c : Call}
  {take : Sequencer W → Bytes → Except DownloadError Unit × Sequencer W}

theorem command?_eq {attempt : Attempt} {history : List SequenceEntry}
    (h : v.after.history = .command c attempt :: history) : v.command? = some (c, attempt) := by
  rw [command?, h]

theorem command?_noted (h : v.after = v.noted) : v.command? = none := by
  rw [command?, h]
  rfl

/-- A step that gives a command and takes note of its answer. -/
theorem performs (he : v.before.takeStep v.step = v.noted.performThen c take)
    (ht : ∀ s answer, Sequencer.Alike s (take s answer).2) :
    v.command? = some (c, (v.before.attempt c).1) ∧
    v.after.engine = (v.before.attempt c).2.engine ∧
    ((∃ err, (v.before.attempt c).1.result = .error err ∧ v.result = .error err ∧
        v.after = (v.noted.attempt c).2) ∨
      ∃ answer, (v.before.attempt c).1 = .ended (.ok answer) ∧
        (v.result, v.after) = take (v.noted.attempt c).2 answer) := by
  rcases v.noted.performThen_cases c take with ⟨err, ha, hp⟩ | ⟨answer, ha, hp⟩ <;>
    rw [← he] at hp
  · have hv : v.after = (v.noted.attempt c).2 := congrArg Prod.snd hp
    refine ⟨command?_eq (by rw [hv, Sequencer.attempt_history]; rfl), by rw [hv]; rfl, .inl ?_⟩
    exact ⟨err, ha, congrArg Prod.fst hp, hv⟩
  · have hv : v.after = (take (v.noted.attempt c).2 answer).2 := congrArg Prod.snd hp
    have hal := ht (v.noted.attempt c).2 answer
    have hh : v.after.history = .command c (v.before.attempt c).1 :: v.noted.history := by
      rw [hv, hal.history, Sequencer.attempt_history]
      rfl
    exact ⟨command?_eq hh, by rw [hv, hal.engine]; rfl, .inr ⟨answer, ha, hp⟩⟩

end Visit

end FirmwareDownload
