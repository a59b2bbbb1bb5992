import FirmwareDownload.Proofs.Engine.WriteFrames
import FirmwareDownload.Proofs.Sequence.Settling

/-! The steps that write: those that give the engine a write which it accepts. As long as there was
none, nothing calls for a recovery or for another try. -/

namespace FirmwareDownload

variable {W : Type} [Host W]

/-- The step gave a write that the engine accepted. -/
def Visit.Writes (v : Visit W) : Prop :=
  ∃ c r, v.command? = some (c, .ended r) ∧ c.command = .write

namespace Sequencer

variable {s s' : Sequencer W} {c : Call} {o : Option (Call × Attempt)}

theorem Moves.isSuffix (h : s.Moves s') (hs : s.engine.Standing) :
    s.engine.journal <:+ s'.engine.journal := by
  obtain ⟨moves, he⟩ := h
  obtain ⟨ns, hj⟩ := hs.run_journal moves
  exact ⟨ns, by rw [he, hj]⟩

/-! ## Commands -/

theorem attempt_unwritten (hs : s.engine.Standing) (hc : c.command ≠ .write) :
    s.engine.Unwritten (s.attempt c).2.engine := by
  have hca := hs.call_calls c
  rcases s.attempt_cases c with ⟨err, he⟩ | ⟨e, he, hserved⟩ <;> rw [he] at hca <;>
    obtain ⟨ns, hj, hn, hcurrent⟩ := hca.unwritten hc
  · exact ⟨ns, hj, hn⟩
  · obtain ⟨ns', hj', hn'⟩ := (hca.standing hs).served_startless hserved
    refine ⟨ns' ++ ns, by rw [hj', hj, List.append_assoc], fun ns₀ => ?_⟩
    rw [List.append_assoc, hn'.writeFrames, hn]
    rw [hcurrent rfl]
    exact fun he => hc (Option.some.inj he)

theorem attempt_wrote (hs : s.engine.Standing) (hc : c.command = .write)
    {r : Except DownloadError Bytes} (ha : (s.attempt c).1 = .ended r) :
    s.engine.Wrote (s.attempt c).2.engine := by
  have hca := hs.call_calls c
  rcases s.attempt_cases c with ⟨err, he⟩ | ⟨e, he, hserved⟩
  · unfold Sequencer.attempt at ha
    rw [he] at ha
    cases ha
  · rw [he] at hca
    obtain ⟨ns, hj, -⟩ := (hca.standing hs).served_startless hserved
    exact (hca.wrote hc).later ⟨ns, hj.symm⟩

theorem setMode_unwritten (s : Sequencer W) (mode : DeviceMode) :
    s.engine.Unwritten (s.setMode mode).2.engine := by
  have hp := (Engine.Passes.refl s.engine).setHostMode mode
  unfold Sequencer.setMode Engine.setMode
  dsimp only
  split
  · exact .of_eq rfl
  · split <;> rename_i he <;> rw [he] at hp <;> exact ⟨_, hp.journal, fun _ => rfl⟩

theorem Does.unwritten (h : s.Does o s') (hs : s.engine.Standing)
    (hn : ∀ c a, o = some (c, a) → c.command ≠ .write) : s.engine.Unwritten s'.engine := by
  induction h with
  | nothing ha => exact .of_eq (by rw [ha.engine])
  | @command s₁ _ c h ha ih =>
    have hu : s.engine.Unwritten s₁.engine := ih fun _ _ he => nomatch he
    rw [ha.engine]
    exact hu.trans (attempt_unwritten (h.acts.moves.standing hs) (hn _ _ rfl))
  | @mode s₁ _ _ mode h ha ih =>
    rw [ha.engine]
    exact (ih hn).trans (s₁.setMode_unwritten mode)

theorem Does.wrote (h : s.Does o s') (hs : s.engine.Standing) {r : Except DownloadError Bytes}
    (ho : o = some (c, .ended r)) (hc : c.command = .write) : s.engine.Wrote s'.engine := by
  induction h with
  | nothing => cases ho
  | @command s₁ _ c' h ha =>
    obtain ⟨rfl, hr⟩ := Prod.mk.inj (Option.some.inj ho)
    rw [ha.engine]
    exact (attempt_wrote (h.acts.moves.standing hs) hc hr).earlier (h.acts.moves.isSuffix hs)
  | @mode s₁ _ _ mode h ha ih =>
    rw [ha.engine]
    exact (ih ho).later (s₁.setMode_unwritten mode).isSuffix

end Sequencer

namespace Visit

variable {v : Visit W}

theorem unwritten (hs : v.before.engine.Standing)
    (hn : ∀ c a, v.command? = some (c, a) → c.command ≠ .write) :
    v.before.engine.Unwritten v.after.engine :=
  v.does.1.unwritten (s := v.noted) hs hn

theorem Writes.wrote (h : v.Writes) (hs : v.before.engine.Standing) :
    v.before.engine.Wrote v.after.engine := by
  obtain ⟨c, r, ho, hc⟩ := h
  exact v.does.1.wrote (s := v.noted) hs ho hc

theorem moves (v : Visit W) : v.before.Moves v.after := (Sequencer.takeStep_acts ..).moves

end Visit

namespace Sequencer

variable {s s₁ s' : Sequencer W} {v w : Visit W} {steps : List Step} {lap : Lap W}
  {laps : List (Lap W)} {status : Except DownloadError Unit} {retry : Bool}

theorem takeSteps_unwritten (hs : s.engine.Standing)
    (hn : ∀ step ∈ steps, step.command ≠ .write) :
    s.engine.Unwritten (s.takeSteps steps).2.engine := by
  have ha := takeSteps_induction
    (P := fun _ s' => s'.engine.Standing ∧ s.engine.Unwritten s'.engine) steps ⟨hs, .of_eq rfl⟩ ?_
  · exact ha.2
  · rintro v hv - ⟨hs', hu⟩
    refine ⟨v.moves.standing hs', hu.trans (v.unwritten hs' fun c a hc hw => ?_)⟩
    exact hn v.step (step_mem_of_visits hv) ((v.does.2 c a hc).symm.trans hw)

theorem takeSteps_wrote (hs : s.engine.Standing) (hv : v ∈ s.visits steps) (hw : v.Writes) :
    s.engine.Wrote (s.takeSteps steps).2.engine := by
  have ha := takeSteps_induction
    (P := fun vs s' => s'.engine.Standing ∧ s.engine.journal <:+ s'.engine.journal ∧
      ∀ v ∈ vs, v.Writes → s.engine.Wrote s'.engine)
    steps ⟨hs, List.suffix_rfl, fun _ hv => (List.not_mem_nil hv).elim⟩ ?_
  · exact ha.2.2 v hv hw
  · rintro u - vs ⟨hs', hj, hall⟩
    have hj' := u.moves.isSuffix hs'
    refine ⟨u.moves.standing hs', hj.trans hj', fun v hv hw => ?_⟩
    rcases List.mem_append.1 hv with hv | hv
    · exact (hall v hv hw).later hj'
    · obtain rfl := List.mem_singleton.1 hv
      exact (hw.wrote hs').earlier hj

/-! ## Before the first write -/

/-- Nothing calls for a recovery or for another try. -/
structure Quiet (s : Sequencer W) (status : Except DownloadError Unit) : Prop where
  retry : s.flags.retry = false
  recovery : s.flags.recovery = false
  status : ¬ Mendable status

omit [Host W] in
theorem Quiet.next? (h : s.Quiet status) {t : Table} (hd : (s.react status).next? = some t) :
    t = .log ∧ s.react status = s := by
  rcases s.react_cases status with ⟨-, he⟩ | ⟨hm, -⟩ | ⟨hm, -⟩
  · refine ⟨?_, he⟩
    rw [he] at hd
    unfold Sequencer.next? at hd
    rw [h.recovery, h.retry] at hd
    split at hd <;> cases hd
    rfl
  · exact (h.status hm).elim
  · exact (h.status hm).elim

omit [Host W] in
theorem not_mendable {err : DownloadError} (h : err.isRecoverable = false) :
    ¬ Mendable (.error err) := by
  rintro ⟨_, ⟨⟩, hm⟩
  cases h.symm.trans hm

/-- A write that the engine refuses fails, and no image mends that. -/
theorem writePrimary_refused (hs : s.engine.Standing) :
    ∃ a, s.writePrimary.2.history = .command (.write false none) a :: s.history ∧
      ((∃ r, a = .ended r) ∨ ∃ err, s.writePrimary.1 = .error err ∧ err.isRecoverable = false) := by
  have hh := attempt_history s.writing (.write false none)
  have hfares := attempt_fares (s := s.writing) (s.alike_writing.engine ▸ hs) (.write false none)
  rw [s.alike_writing.history] at hh
  rw [writePrimary_eq]
  generalize s.writing.attempt (.write false none) = r at hh hfares
  obtain ⟨err | r, t⟩ := r
  · refine ⟨_, Eq.trans ?_ hh, .inr ⟨err, rfl, ?_⟩⟩
    · dsimp only
      split_ifs <;> rfl
    · cases hfares with
      | refused _ hr => exact DownloadError.isRecoverable_of_report hr
  · refine ⟨_, Eq.trans ?_ hh, .inl ⟨r, rfl⟩⟩
    rcases r with err | answer <;> dsimp only <;> split_ifs <;> rfl

/-- A write step writes, or it fails beyond mending, or it is passed over. -/
theorem write_visit_cases (hs : w.before.engine.Standing) (hw : w.step = .write) : w.Writes ∨
    (∃ err, w.result = .error err ∧ err.isRecoverable = false) ∨
    w.before.flags.skipRest = true ∧ w.result = .ok () ∧ w.after = w.trying := by
  cases hk : w.before.flags.skipRest && !w.before.flags.sessionOpen with
  | false =>
    have he := Visit.takeStep_write hw hk
    obtain ⟨a, hh, hend⟩ := writePrimary_refused (s := w.trying) hs
    rw [← he] at hh hend
    rcases hend with ⟨r, rfl⟩ | hr
    · exact .inl ⟨_, r, Visit.command?_eq hh, rfl⟩
    · exact .inr (.inl hr)
  | true =>
    rcases Visit.write_cases hw with hc | hc | ⟨⟨hsk, -⟩, hr, ha⟩
    · cases hk.symm.trans (Visit.counted_iff.1 hc).2.2
    · cases hk.symm.trans (Visit.uncounted_iff.1 hc).2.2
    · exact .inr (.inr ⟨hsk, hr, ha⟩)

/-- The first table wrote, or nothing calls for a recovery or for another try. -/
theorem Opening.main_quiet (h : lap.entry.Opening false) (hs : lap.entry.engine.Standing)
    (ht : lap.table = .main) : (∃ w ∈ lap.visits, w.Writes) ∨ lap.exit.Quiet lap.result := by
  rcases h.main_cases hs ht with ⟨err, hr, hrec, ho⟩ | ⟨w, hw, hb, hrow, hvis, hout⟩
  · rw [hr]
    exact .inr ⟨ho.not_retry, ho.healthy, not_mendable hrec⟩
  · have hsw : w.before.engine.Standing := by
      have hm := takeSteps_moves lap.entry lap.opening
      rw [hrow] at hm
      exact hm.standing hs
    obtain ⟨hretry, -, hrecovery⟩ := hb.write_calls hw
    rcases write_visit_cases hsw hw with hwr | ⟨err, hr, hrec⟩ | ⟨hk, hr, ha⟩
    · exact .inl ⟨w, hvis ▸ List.mem_append_right _ (List.mem_cons_self ..), hwr⟩
    · rw [Visit.outcome_error hr] at hout
      obtain ⟨hres, hex⟩ := Prod.mk.inj hout
      rw [hres, hex]
      refine .inr ⟨hretry, Bool.eq_false_iff.2 fun hre => ?_, not_mendable hrec⟩
      cases (hrecovery hre).symm.trans hr
      cases hrec
    · have hf : w.after.flags = { w.before.flags with retry := false } := by
        rw [ha]
        rfl
      rw [Visit.outcome_ok hr] at hout
      obtain ⟨hok, hfl⟩ : (w.after.takeSteps closingSteps).1 = .ok () ∧
          (w.after.takeSteps closingSteps).2.flags = w.after.flags :=
        takeSteps_over (by rw [hf]; exact hk) (by rw [hf]; exact hb.logged) fun _ hm => hm
      rw [← hout] at hok hfl
      refine .inr ⟨?_, ?_, ?_⟩
      · rw [hfl, hf]
      · rw [hfl, hf]
        exact hb.healthy
      · rw [show lap.result = .ok () from hok]
        exact fun ⟨_, he, _⟩ => nomatch he

/-- All along a sequence: something was written, or nothing calls for a recovery or for another
try. -/
theorem Completes.quiet (hs : s.engine.Standing) (hf : s.flags = {})
    (h : s.Completes laps status s₁) : s.engine.Wrote s₁.engine ∨ s₁.Quiet status := by
  induction h with
  | refused hb =>
    rcases s.start_cases with ⟨s₁, hb', -⟩ | ⟨err, s₁, he, hr, hf', -⟩
    · exact (hb s₁ hb').elim
    · rw [he]
      exact .inr ⟨by rw [hf', hf], by rw [hf', hf], not_mendable hr⟩
  | @opens s₁ hb =>
    have hc : s.Completes [⟨.main, s₁.entered .main⟩] _ _ := .opens hb
    have hm := hc.entry_moves (List.mem_cons_self ..)
    rcases (hc.first_lap hf).2.2.1.main_quiet (hm.standing hs) rfl with ⟨w, hw, hwr⟩ | hq
    · exact .inl ((takeSteps_wrote (hm.standing hs) hw hwr).earlier (hm.isSuffix hs))
    · exact .inr hq
  | @next laps status s₁ t hc hn ih =>
    have hs₁ := hc.moves.standing hs
    have hm := (s₁.lapAfter_moves status t).trans (lap_moves (s₁.lapAfter status t))
    rcases ih with hw | hq
    · exact .inl (hw.later (hm.isSuffix hs₁))
    · obtain ⟨rfl, he⟩ := hq.next? hn
      have hu : s₁.flags.unlogged = true := next?_log (he ▸ hn)
      obtain ⟨-, -, hretry, hrec⟩ := s₁.log_settles status
      have hflags : (s₁.lapAfter status .log).entry.flags = { s₁.flags with unlogged := false } :=
        congrArg (fun s => { s.flags with unlogged := false }) he
      rw [hflags] at hretry hrec
      refine .inr ⟨hretry.trans hq.retry, hrec.trans hq.recovery, ?_⟩
      cases status with
      | ok => cases (hc.last_table rfl).1.symm.trans hu
      | error err => exact hq.status

end Sequencer

end FirmwareDownload
