import FirmwareDownload.Proofs.Sequence.Attempts
import FirmwareDownload.Proofs.Sequence.Opening
import FirmwareDownload.Proofs.Sequence.Recovery

/-! The end of a sequence in normal mode. The switch is the last thing done, unless a command was
cut off: an engine that is busy refuses it. -/

namespace FirmwareDownload

variable {W : Type} [Host W]

/-- The engine is still busy with the command of the step. -/
def Visit.CutOff (v : Visit W) : Prop :=
  v.before.engine.session.busy = false ∧ v.after.engine.session.busy = true

namespace Sequencer

variable {s s₁ s' : Sequencer W} {status : Except DownloadError Unit} {lap : Lap W}
  {laps : List (Lap W)} {v : Visit W} {vs : List (Visit W)}

/-- A busy engine was left so by a step of `vs`, and nothing was done to it since. -/
structure Settled (vs : List (Visit W)) (s : Sequencer W) : Prop where
  idle : (∀ v ∈ vs, ¬ v.CutOff) → s.engine.session.busy = false
  stays : ∀ v ∈ vs, v.CutOff → s.engine = v.after.engine

theorem Settled.congr (h : Settled vs s) (he : s₁.engine = s.engine) : Settled vs s₁ :=
  ⟨fun hn => he ▸ h.idle hn, fun v hv hc => he.trans (h.stays v hv hc)⟩

theorem Settled.visit (h : Settled vs v.before) : Settled (vs ++ [v]) v.after := by
  have hmem : ∀ u, u ∈ vs ++ [v] ↔ u ∈ vs ∨ u = v := by simp
  cases hb : v.before.engine.session.busy with
  | true =>
    -- A busy engine takes neither a command nor a switch of the mode.
    have he : v.after.engine = v.before.engine := v.does.1.stays hb
    refine ⟨fun hn => ?_, fun u hu hc => ?_⟩
    · cases hb.symm.trans (h.idle fun u hu => hn u ((hmem u).2 (.inl hu)))
    · rcases (hmem u).1 hu with hu | rfl
      · exact he.trans (h.stays u hu hc)
      · rfl
  | false =>
    refine ⟨fun hn => ?_, fun u hu hc => ?_⟩
    · exact Bool.eq_false_iff.2 fun hb' => hn v ((hmem v).2 (.inr rfl)) ⟨hb, hb'⟩
    · rcases (hmem u).1 hu with hu | rfl
      · rw [h.stays u hu hc, hc.2] at hb
        cases hb
      · rfl

omit [Host W] in
theorem loadPrimary_journal (e : Engine W) : e.loadPrimary.2.session = e.session ∧
    e.loadPrimary.2.journal = e.journal := by
  unfold Engine.loadPrimary
  split <;> exact ⟨rfl, rfl⟩

theorem opened_session (s : Sequencer W) : s.opened.engine.session = s.engine.session := by
  unfold opened
  rw [setMode_session]
  exact (loadPrimary_journal s.engine).1

theorem start_refused (h : ∀ s₁, ¬ s.Begins s₁) :
    s.start.2.engine.session = s.engine.session ∧ (s.engine.session.busy = true →
      s.start.2.engine.journal = s.engine.journal ∧ ∃ err, s.start.1 = .error err) := by
  have hl := loadPrimary_journal s.engine
  unfold Sequencer.start
  rcases hr : s.engine.loadPrimary with ⟨err | version, e⟩ <;> rw [hr] at hl <;> dsimp only
  · exact ⟨hl.1, fun _ => ⟨hl.2, err, rfl⟩⟩
  · split
    · rename_i err s₁ hm
      have hs := setMode_session { s with engine := e, imageVersion := version } .download
      rw [hm] at hs
      refine ⟨hs.trans hl.1, fun hb => ?_⟩
      obtain ⟨he, -⟩ := setMode_busy (s := { s with engine := e, imageVersion := version })
        (by rw [hl.1]; exact hb) .download
      rw [hm] at he
      exact ⟨(congrArg Engine.journal he).trans hl.2, err, rfl⟩
    · rename_i s₁ hm
      exact (h s₁ ⟨version, e, hr, hm⟩).elim

/-- At the end of a sequence on an idle engine, the engine is busy only if a step was cut off. -/
theorem Completes.settled (hf : s.flags = {}) (hb : s.engine.session.busy = false)
    (h : s.Completes laps status s₁) : Settled (trail laps) s₁ := by
  cases laps with
  | nil =>
    cases h with
    | refused hn =>
      refine ⟨fun _ => ?_, fun v hv => (List.not_mem_nil hv).elim⟩
      rw [(start_refused hn).1]
      exact hb
  | cons lap laps =>
    refine (h.along (P := Settled) hf (fun s₁ hbegins => ?_)
      (fun vs s status t _ hs => hs.congr ?_) fun _ _ _ _ v vs _ _ hs => hs.visit).2.1
    · obtain rfl := hbegins.eq_opened
      refine ⟨fun _ => ?_, fun v hv => (List.not_mem_nil hv).elim⟩
      rw [show (s.opened.entered .main).engine = s.opened.engine from rfl, opened_session]
      exact hb
    · exact (prepared_engine _ t).trans (s.react_engine status)

theorem Completes.nil_of_busy (hf : s.flags = {}) (hb : s.engine.session.busy = true)
    (h : s.Completes laps status s₁) : laps = [] := by
  induction h with
  | refused => rfl
  | opens hbegins => cases hb.symm.trans hbegins.moves.2
  | next h hd ih =>
    subst ih
    rw [h.not_due hf] at hd
    cases hd

/-! ## The switch to normal mode -/

theorem leave_idle (hb : s.engine.session.busy = false) (status : Except DownloadError Unit) :
    (s.leave status).2.engine.journal = .modeRequested .normal :: s.engine.journal := by
  rw [leave_snd]
  unfold Sequencer.setMode Engine.setMode
  rw [hb, if_neg Bool.false_ne_true]
  have hj := ((Engine.Passes.refl s.engine).setHostMode .normal).journal
  rcases hr : s.engine.setHostMode .normal with ⟨err | _, e⟩ <;> rw [hr] at hj <;> exact hj

theorem leave_busy (hb : s.engine.session.busy = true) (status : Except DownloadError Unit) :
    (s.leave status).2.engine = s.engine ∧ ∃ err, (s.leave status).1 = .error err := by
  obtain ⟨he, hr⟩ := setMode_busy hb .normal
  refine ⟨by rw [leave_snd, he], ?_⟩
  unfold Sequencer.leave
  rcases hm : s.setMode .normal with ⟨r, s₁⟩
  rw [hm] at hr
  obtain rfl : r = .error .busy := hr
  cases status with
  | ok => exact ⟨_, rfl⟩
  | error err => exact ⟨_, rfl⟩

/-- The last thing that a sequence does is to request normal mode. It does not if one of its
commands was cut off, or on an engine that was busy before: then it ends with an error. -/
theorem ends_in_normal_mode_unless_cut_off (config : Config) (library : ImageLibrary) (w : W)
    (moves : List (Move W)) (options : SequenceOptions) :
    let s : Sequencer W :=
      { engine := (Engine.fresh config library w).run moves, options := options }
    ∀ budget report s', s.run budget = some (report, s') →
      ∃ laps status s₁, s.Completes laps status s₁ ∧ (s₁.react status).next? = none ∧
        s'.history = s₁.history ∧
        (s.engine.session.busy = false → (∀ v ∈ trail laps, ¬ v.CutOff) →
          s'.engine.journal = .modeRequested .normal :: s₁.engine.journal) ∧
        (∀ v ∈ trail laps, v.CutOff → s'.engine = v.after.engine ∧
          (∃ c, v.command? = some (c, .ended (.error .timeout))) ∧
          ∃ err, report.result = .error err) ∧
        (s.engine.session.busy = true → laps = [] ∧ s'.engine.journal = s.engine.journal ∧
          ∃ err, report.result = .error err) := by
  intro s budget report s' hr
  have hs : s.engine.Standing := (Engine.standing_fresh config library w).run moves
  obtain ⟨laps, status, s₁, h, hn, hh, hl⟩ := run_completes hr
  obtain rfl : ((s₁.react status).leave status).2 = s' := congrArg Prod.snd hl
  have hres : ((s₁.react status).leave status).1 = report.result := congrArg Prod.fst hl
  have he := s₁.react_engine status
  refine ⟨laps, status, s₁, h, hn, hh, fun hb hnone => ?_, fun v hv hc => ?_, fun hb => ?_⟩
  · rw [leave_idle, he]
    rw [he]
    exact (h.settled rfl hb).idle hnone
  · have hb : s.engine.session.busy = false := by
      cases hb : s.engine.session.busy with
      | false => rfl
      | true =>
        rw [h.nil_of_busy rfl hb] at hv
        cases hv
    have hstays := (h.settled rfl hb).stays v hv hc
    obtain ⟨hen, hre⟩ := leave_busy (s := s₁.react status) (by rw [he, hstays]; exact hc.2) status
    obtain ⟨lap, hlap, hvl⟩ := mem_trail.1 hv
    have hs' := (h.visit_moves hlap hvl).standing hs
    exact ⟨by rw [hen, he, hstays], v.does.1.cutOff hs' hc.1 hc.2, hres ▸ hre⟩
  · obtain rfl := h.nil_of_busy rfl hb
    cases h with
    | refused hno =>
      obtain ⟨hsame, hbusy⟩ := start_refused hno
      obtain ⟨hen, hre⟩ := leave_busy (s := s.start.2.react s.start.1)
        (by rw [he, hsame]; exact hb) s.start.1
      exact ⟨rfl, by rw [hen, he, (hbusy hb).1], hres ▸ hre⟩

def lastMode (journal : List Notice) : Option DeviceMode :=
  journal.findSome? fun
    | .modeRequested mode => some mode
    | _ => none

/-- The answer to the first command never comes, and its wait does not time out. -/
def silenced : Sequencer Rehearsal :=
  rehearsed { answers := [(some 0xF2, [.hang])] } { stepLimit := 0 }

theorem silenced_left_in_download_mode : ∃ report s' laps status s₁ v,
    silenced.run 0 = some (report, s') ∧ silenced.Completes laps status s₁ ∧
    v ∈ trail laps ∧ v.CutOff ∧ s'.engine = v.after.engine ∧
    lastMode s'.engine.journal = some .download ∧ ∃ err, report.result = .error err := by
  have hrun : (silenced.run 0).map (fun r => lastMode r.2.engine.journal) =
      some (some .download) := by decide +kernel
  obtain ⟨⟨report, s'⟩, hr, hmode⟩ := Option.map_eq_some_iff.1 hrun
  obtain ⟨laps, status, s₁, h, -, -, hidle, hcut, -⟩ := ends_in_normal_mode_unless_cut_off {}
    threeImages silenced.engine.world [] silenced.options 0 report s' hr
  by_cases hn : ∀ v ∈ trail laps, ¬ v.CutOff
  · have hj : lastMode s'.engine.journal = some .normal :=
      congrArg lastMode (hidle (by decide +kernel) hn)
    cases hj.symm.trans hmode
  · obtain ⟨v, hn⟩ := Classical.not_forall.1 hn
    obtain ⟨hv, hc⟩ := Classical.not_imp.1 hn
    have hc := Classical.not_not.1 hc
    obtain ⟨he, -, herr⟩ := hcut v hv hc
    exact ⟨report, s', laps, status, s₁, v, hr, h, hv, hc, he, hmode, herr⟩

end Sequencer

end FirmwareDownload
