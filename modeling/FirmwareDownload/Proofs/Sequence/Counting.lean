import FirmwareDownload.Proofs.Sequence.Opening

/-! The writes of a sequence, counted and not: what becomes of one, and what it leaves in the
record. The log step sends that record. -/

namespace FirmwareDownload

variable {W : Type} [Host W]

namespace Sequencer

variable {s : Sequencer W}

/-- After a loop failure the rest of the table is passed over, and recovery is due. -/
def failing (s : Sequencer W) (err : DownloadError) : Sequencer W :=
  if err = .writeFailed then s.withFlags { s.flags with skipRest := true, recovery := true } else s

omit [Host W] in
theorem failing_history (s : Sequencer W) (err : DownloadError) :
    (s.failing err).history = s.history := by
  unfold failing
  split <;> rfl

omit [Host W] in
theorem failing_statistics (s : Sequencer W) (err : DownloadError) :
    (s.failing err).statistics = s.statistics := by
  unfold failing
  split <;> rfl

omit [Host W] in
theorem failing_flags (s : Sequencer W) (err : DownloadError) :
    (s.failing err).flags = { s.flags with
      skipRest := s.flags.skipRest || err = .writeFailed
      recovery := s.flags.recovery || err = .writeFailed } := by
  unfold failing
  split <;> rename_i h
  · simp [withFlags, h]
  · simp [h]

theorem writePrimary_counted (hf : s.flags.forced = false) : s.writePrimary =
    match s.countWrite.attempt (.write false none) with
    | (.refused err, t) => (.error err, { t with statistics := t.statistics.countFailure })
    | (.ended (.ok _), t) => (.ok (), { t with statistics := t.statistics.countSuccess })
    | (.ended (.error err), t) =>
      (.error err, failing { t with statistics := t.statistics.countFailure } err) := by
  have hw : s.writing = s.countWrite := by
    unfold writing
    rw [hf]
    rfl
  have hu : (s.countWrite.attempt (.write false none)).2.flags.unlogged = true := rfl
  rw [writePrimary_eq, hw, hf]
  generalize s.countWrite.attempt (.write false none) = r at hu ⊢
  obtain ⟨err | ⟨err | answer⟩, t⟩ := r
  · rfl
  · dsimp only at hu ⊢
    simp only [failing, hu, if_true]
  · dsimp only at hu ⊢
    rw [if_pos hu]

theorem writePrimary_leaves (hs : s.engine.Standing) (hf : s.flags.forced = false) :
    (∃ a, s.writePrimary.2.history = .command (.write false none) a :: s.history) ∧
    (s.writePrimary.1 = .ok () ∧ s.writePrimary.2.flags = { s.flags with unlogged := true } ∧
        s.writePrimary.2.statistics = s.statistics.countTrigger.countSuccess ∨
      ∃ err, s.writePrimary.1 = .error err ∧ s.writePrimary.2.flags = { s.flags with
          unlogged := true
          skipRest := s.flags.skipRest || err = .writeFailed
          recovery := s.flags.recovery || err = .writeFailed } ∧
        s.writePrimary.2.statistics = s.statistics.countTrigger.countFailure) := by
  have hfares := attempt_fares (s := s.countWrite) hs (.write false none)
  have hh := attempt_history s.countWrite (.write false none)
  have hfl : (s.countWrite.attempt (.write false none)).2.flags =
    { s.flags with unlogged := true } := rfl
  have hst : (s.countWrite.attempt (.write false none)).2.statistics =
    s.statistics.countTrigger := rfl
  rw [writePrimary_counted hf]
  generalize s.countWrite.attempt (.write false none) = r at hfares hh hfl hst ⊢
  obtain ⟨err | ⟨err | answer⟩, t⟩ := r <;> dsimp only at hfares hh hfl hst ⊢
  · have hw : err ≠ .writeFailed := by
      rintro rfl
      cases hfares with
      | refused _ hr => cases hr
    refine ⟨⟨_, hh⟩, .inr ⟨err, rfl, ?_, by rw [hst]⟩⟩
    simp [hfl, hw]
  · rw [failing_history, failing_flags, failing_statistics]
    exact ⟨⟨_, hh⟩, .inr ⟨err, rfl, by rw [hfl], by rw [hst]⟩⟩
  · exact ⟨⟨_, hh⟩, .inl ⟨rfl, hfl, by rw [hst]⟩⟩

theorem writePrimary_forced (hf : s.flags.forced = true) (hu : s.flags.unlogged = false) :
    s.writePrimary.2.statistics = s.statistics ∧ s.writePrimary.2.flags.forced = true ∧
      s.writePrimary.2.flags.unlogged = false := by
  have hw : s.writing = s := by
    unfold writing
    rw [hf]
    rfl
  have hfl := s.attempt_flags (.write false none)
  have hst := s.attempt_statistics (.write false none)
  rw [writePrimary_eq, hw, hf]
  generalize s.attempt (.write false none) = r at hfl hst
  have hf' : r.2.flags.forced = true := hfl ▸ hf
  have hu' : r.2.flags.unlogged = false := hfl ▸ hu
  obtain ⟨err | ⟨err | answer⟩, t⟩ := r <;> dsimp only at hst hf' hu' ⊢
  · exact ⟨hst, hf', hu'⟩
  · rw [if_neg (Bool.eq_false_iff.1 hu')]
    split_ifs <;> exact ⟨hst, hf', hu'⟩
  · rw [if_neg (Bool.eq_false_iff.1 hu')]
    exact ⟨hst, hf', hu'⟩

end Sequencer

namespace Visit

variable {v : Visit W}

/-- The step writes the primary image, and the write is entered in the record. -/
def counted (v : Visit W) : Bool :=
  v.step = .write && !v.before.flags.forced &&
    !(v.before.flags.skipRest && !v.before.flags.sessionOpen)

/-- The step writes an image whose version the chip runs already, and that is not counted. -/
def uncounted (v : Visit W) : Bool :=
  v.step = .write && v.before.flags.forced &&
    !(v.before.flags.skipRest && !v.before.flags.sessionOpen)

omit [Host W] in
theorem counted_iff : v.counted = true ↔ v.step = .write ∧ v.before.flags.forced = false ∧
    (v.before.flags.skipRest && !v.before.flags.sessionOpen) = false := by
  simp only [counted, Bool.and_eq_true, decide_eq_true_eq, Bool.not_eq_true', and_assoc]

omit [Host W] in
theorem uncounted_iff : v.uncounted = true ↔ v.step = .write ∧ v.before.flags.forced = true ∧
    (v.before.flags.skipRest && !v.before.flags.sessionOpen) = false := by
  simp only [uncounted, Bool.and_eq_true, decide_eq_true_eq, Bool.not_eq_true', and_assoc]

omit [Host W] in
theorem counted_onward {retry : Bool} (hb : v.before.Opening retry) (hc : v.counted = true) :
    v.before.flags.skipRest = false := by
  obtain ⟨-, -, hk⟩ := counted_iff.1 hc
  refine Bool.eq_false_iff.2 fun hs => ?_
  rw [hs, hb.closed hs] at hk
  cases hk

def trying (v : Visit W) : Sequencer W :=
  v.noted.withFlags { v.before.flags with retry := false }

theorem takeStep_write (hw : v.step = .write)
    (hs : (v.before.flags.skipRest && !v.before.flags.sessionOpen) = false) :
    v.before.takeStep v.step = v.trying.writePrimary := by
  have hf : ¬ (v.trying.flags.skipRest && !v.trying.flags.sessionOpen) = true :=
    Bool.eq_false_iff.1 hs
  have he : v.noted.write = v.trying.writePrimary := by
    unfold Sequencer.write
    exact if_neg hf
  rw [← he, v.takeStep_eq, hw]

theorem counted_cases (hs : v.before.engine.Standing) (hc : v.counted = true) :
    (∃ a, v.command? = some (.write false none, a)) ∧
    (v.result = .ok () ∧
        v.after.flags = { v.before.flags with retry := false, unlogged := true } ∧
        v.after.statistics = v.before.statistics.countTrigger.countSuccess ∨
      ∃ err, v.result = .error err ∧
        v.after.flags = { v.before.flags with
          retry := false
          unlogged := true
          skipRest := v.before.flags.skipRest || err = .writeFailed
          recovery := v.before.flags.recovery || err = .writeFailed } ∧
        v.after.statistics = v.before.statistics.countTrigger.countFailure) := by
  obtain ⟨hw, hf, hk⟩ := counted_iff.1 hc
  have he := takeStep_write hw hk
  obtain ⟨⟨a, hh⟩, hl⟩ := Sequencer.writePrimary_leaves (s := v.trying) hs hf
  rw [← he] at hh hl
  exact ⟨⟨a, command?_eq hh⟩, hl⟩

theorem write_cases (h : v.step = .write) : v.counted = true ∨ v.uncounted = true ∨
    (v.before.flags.skipRest = true ∧ v.before.flags.sessionOpen = false) ∧
      v.result = .ok () ∧ v.after = v.trying := by
  unfold counted uncounted
  cases hs : (v.before.flags.skipRest && !v.before.flags.sessionOpen) with
  | false => cases v.before.flags.forced <;> simp [h]
  | true =>
    have he : v.before.takeStep v.step = v.noted.write := by rw [v.takeStep_eq, h]
    have hp : v.noted.write = (.ok (), v.trying) := by
      unfold Sequencer.write
      exact if_pos hs
    rw [hp] at he
    refine .inr (.inr ⟨by simpa using hs, congrArg Prod.fst he, congrArg Prod.snd he⟩)

theorem uncounted_leaves (hc : v.uncounted = true) (hu : v.before.flags.unlogged = false) :
    v.after.statistics = v.before.statistics ∧ v.after.flags.forced = true ∧
      v.after.flags.unlogged = false := by
  obtain ⟨hw, hf, hk⟩ := uncounted_iff.1 hc
  have hp := Sequencer.writePrimary_forced (s := v.trying) hf hu
  rw [← takeStep_write hw hk] at hp
  exact hp

/-- A log step sends the record. It does not if the table is passed over and nothing is
unlogged. -/
theorem log_cases (h : v.step = .log) :
    (((v.before.flags.skipRest || v.before.flags.forced) && !v.before.flags.unlogged) = true ∧
      v.after = v.noted) ∨
    ((v.before.flags.skipRest || v.before.flags.forced) && !v.before.flags.unlogged) = false ∧
      v.before.takeStep v.step = v.noted.performThen (.log v.before.statistics.toBytes)
        (fun s _ => (.ok (), s.withFlags { s.flags with unlogged := false })) := by
  have he : v.before.takeStep v.step = v.noted.writeLog := by rw [v.takeStep_eq, h]
  rw [Sequencer.writeLog] at he
  split at he
  · rename_i hk
    exact .inl ⟨hk, congrArg Prod.snd he⟩
  · rename_i hk
    exact .inr ⟨Bool.eq_false_iff.2 hk, he⟩

end Visit

end FirmwareDownload
