import FirmwareDownload.Proofs.Sequence.Counting

/-! The attempts of a sequence: a counted write, a recovery write, and in a recovery a force of the
clock. Each of them gives the engine its command, and nothing else is counted. -/

namespace FirmwareDownload

variable {W : Type} [Host W]

namespace Sequencer

variable {s s₁ s₂ : Sequencer W} {n n' : Nat}

/-- From `s` to `s'` so many attempts were counted. -/
structure Spends (s : Sequencer W) (n : Nat) (s' : Sequencer W) : Prop where
  attempts : s'.attempts = s.attempts + UInt8.ofNat n
  recoveries : s'.recoveries = s.recoveries
  upToDate : s'.upToDate = s.upToDate

omit [Host W] in
theorem Spends.nothing (ha : s₁.attempts = s.attempts) (hr : s₁.recoveries = s.recoveries)
    (hu : s₁.upToDate = s.upToDate) : s.Spends 0 s₁ :=
  ⟨ha.trans (UInt8.add_zero _).symm, hr, hu⟩

omit [Host W] in
theorem Spends.refl (s : Sequencer W) : s.Spends 0 s := .nothing rfl rfl rfl

omit [Host W] in
theorem Spends.trans (h : s.Spends n s₁) (h' : s₁.Spends n' s₂) : s.Spends (n + n') s₂ :=
  ⟨by rw [h'.attempts, h.attempts, UInt8.ofNat_add, UInt8.add_assoc],
    h'.recoveries.trans h.recoveries, h'.upToDate.trans h.upToDate⟩

omit [Host W] in
theorem Spends.idly (h : s.Spends n s₁) (h' : s₁.Spends 0 s₂) : s.Spends n s₂ := h.trans h'

theorem spends_attempt (s : Sequencer W) (c : Call) : s.Spends 0 (s.attempt c).2 := .nothing rfl rfl rfl

theorem spends_performThen (c : Call)
    {take : Sequencer W → Bytes → Except DownloadError Unit × Sequencer W}
    (ht : ∀ s answer, Spends s 0 (take s answer).2) : s.Spends 0 (s.performThen c take).2 := by
  have ha := s.spends_attempt c
  rcases s.performThen_cases c take with ⟨err, -, he⟩ | ⟨answer, -, he⟩ <;> rw [he]
  · exact ha
  · exact ha.idly (ht _ answer)

omit [Host W] in
theorem spends_takeSessionState (s : Sequencer W) (report : Bytes) :
    s.Spends 0 (s.takeSessionState report).2 := by
  rcases s.takeSessionState_cases report with
    ⟨err, he, -⟩ | ⟨isOpen, -, -, -, ⟨-, -, err, he, -⟩ | ⟨-, he⟩⟩ <;> rw [he] <;>
    exact .nothing rfl rfl rfl

/-- The note that the chip is up to date aside. -/
theorem getVersion_spends (s : Sequencer W) :
    s.Spends 0 { s.getVersion.2 with upToDate := s.upToDate } := by
  unfold Sequencer.getVersion
  split_ifs
  · exact .refl s
  · rcases s.performThen_cases (.getVersion 11) takeVersion with
      ⟨err, -, he⟩ | ⟨report, -, he⟩ <;> rw [he]
    · exact .nothing rfl rfl rfl
    · rcases takeVersion_cases (s.attempt (.getVersion 11)).2 report with
        ⟨err, chip, he, -⟩ | ⟨hardware, expected, -, -, ⟨-, he⟩ | ⟨-, he⟩⟩ <;> rw [he]
      · exact .nothing rfl rfl rfl
      · exact .nothing rfl rfl rfl
      · split
        · unfold Sequencer.checkAfter
          split_ifs <;> exact .nothing rfl rfl rfl
        · unfold Sequencer.checkBefore
          split_ifs <;> exact .nothing rfl rfl rfl

omit [Host W] in
theorem spends_takeStatistics (s : Sequencer W) (data : Bytes) :
    s.Spends 0 (s.takeStatistics data).2 := by
  unfold Sequencer.takeStatistics
  cases Statistics.ofBytes? data <;> exact .nothing rfl rfl rfl

omit [Host W] in
theorem spends_takeIntegrity (s : Sequencer W) (report : Bytes) :
    s.Spends 0 (s.takeIntegrity report).2 := by
  unfold Sequencer.takeIntegrity
  cases RegionFlags.ofReport? report <;> dsimp only <;> split_ifs <;> exact .nothing rfl rfl rfl

theorem getSessionState_spends (s : Sequencer W) : s.Spends 0 s.getSessionState.2 := by
  unfold Sequencer.getSessionState
  split_ifs
  · exact .refl s
  · exact spends_performThen _ spends_takeSessionState

theorem logRead_spends (s : Sequencer W) : s.Spends 0 s.logRead.2 := by
  unfold Sequencer.logRead
  dsimp only
  split_ifs
  · exact .refl s
  · exact spends_performThen _ spends_takeStatistics

theorem writeLog_spends (s : Sequencer W) : s.Spends 0 s.writeLog.2 := by
  unfold Sequencer.writeLog
  split_ifs
  · exact .refl s
  · exact spends_performThen _ fun s _ => .nothing rfl rfl rfl

theorem checkIntegrity_spends (s : Sequencer W) : s.Spends 0 s.checkIntegrity.2 := by
  unfold Sequencer.checkIntegrity
  split_ifs
  · exact .refl s
  · exact spends_performThen _ spends_takeIntegrity

theorem reset_spends (s : Sequencer W) : s.Spends 0 s.reset.2 := by
  unfold Sequencer.reset
  split_ifs
  · exact .nothing rfl rfl rfl
  · exact .refl s
  · exact spends_performThen _ fun s _ => .refl s

theorem forceClock_spends (s : Sequencer W) :
    s.Spends s.flags.recovery.toNat s.forceClock.2 := by
  have hf : s.Spends s.flags.recovery.toNat s.forcing := by
    unfold forcing
    cases s.flags.recovery with
    | false => exact .refl s
    | true => exact ⟨rfl, rfl, rfl⟩
  have ha := hf.idly (s.forcing.spends_attempt (.force s.forcing.options.clock))
  rcases s.forceClock_cases with ⟨err, -, he⟩ | ⟨accepted, he⟩ <;> rw [he]
  · exact ha.idly (.nothing rfl rfl rfl)
  · exact ha

/-- A force that is not passed over. -/
theorem spends_force {r : Sequencer W} (hk : s.flags.skipForce = true → r = s)
    (hf : s.flags.skipForce = false → s.forceClock.2.Spends 0 r) :
    s.Spends (s.flags.recovery && !s.flags.skipForce).toNat r := by
  cases h : s.flags.skipForce with
  | true =>
    rw [hk h, Bool.not_true, Bool.and_false]
    exact .refl s
  | false =>
    rw [Bool.not_false, Bool.and_true]
    exact s.forceClock_spends.idly (hf h)

theorem normal_spends (s : Sequencer W) :
    s.Spends (s.flags.recovery && !s.flags.skipForce).toNat s.normal.2 := by
  unfold Sequencer.normal
  refine spends_force (fun hk => by rw [if_pos hk]) fun hk => ?_
  rw [if_neg (Bool.eq_false_iff.1 hk)]
  exact .refl _

theorem force_spends (s : Sequencer W) :
    s.Spends (s.flags.recovery && !s.flags.skipForce).toNat s.force.2 := by
  unfold Sequencer.force
  refine spends_force (fun hk => by rw [if_pos hk]) fun hk => ?_
  rw [if_neg (Bool.eq_false_iff.1 hk)]
  rcases s.forceClock with ⟨err | _ | _, s₁⟩ <;> exact .nothing rfl rfl rfl

theorem writePrimary_spends (s : Sequencer W) :
    s.Spends (!s.flags.forced).toNat s.writePrimary.2 := by
  have hw : s.Spends (!s.flags.forced).toNat s.writing := by
    unfold writing
    cases s.flags.forced with
    | false => exact ⟨rfl, rfl, rfl⟩
    | true => exact .refl s
  have ha := hw.idly (s.writing.spends_attempt (.write false none))
  rw [writePrimary_eq]
  generalize s.writing.attempt (.write false none) = r at ha
  rcases r with ⟨err | ⟨err | answer⟩, s₁⟩ <;> dsimp only at ha ⊢ <;> refine ha.idly ?_ <;>
    split_ifs <;> exact .nothing rfl rfl rfl

theorem write_spends (s : Sequencer W) : s.Spends (!s.flags.forced &&
    !(s.flags.skipRest && !s.flags.sessionOpen)).toNat s.write.2 := by
  let t := s.withFlags { s.flags with retry := false }
  have he : s.write =
      if s.flags.skipRest && !s.flags.sessionOpen then (.ok (), t) else t.writePrimary := rfl
  have ht : s.Spends 0 t := .nothing rfl rfl rfl
  rw [he]
  cases s.flags.skipRest && !s.flags.sessionOpen with
  | true =>
    rw [Bool.not_true, Bool.and_false]
    exact ht
  | false =>
    have hw := t.writePrimary_spends
    rw [Bool.not_false, Bool.and_true]
    exact ⟨hw.attempts, hw.recoveries, hw.upToDate⟩

theorem recover_spends (s : Sequencer W) : s.Spends s.flags.recovery.toNat s.recover.2 := by
  rw [recover_eq]
  cases hr : s.flags.recovery with
  | false => exact .refl s
  | true =>
    have hw : s.Spends 1 s.recovering := ⟨rfl, rfl, rfl⟩
    have ha := hw.idly (s.recovering.spends_attempt (.write true none))
    rw [Bool.not_true, if_neg Bool.false_ne_true]
    generalize s.recovering.attempt (.write true none) = r at ha
    rcases r with ⟨err | ⟨err | answer⟩, s₁⟩ <;> exact ha.idly (.nothing rfl rfl rfl)

theorem forceClock_history (s : Sequencer W) :
    ∃ a, s.forceClock.2.history = .command (.force s.options.clock) a :: s.history := by
  have hf := s.alike_forcing
  have ha := attempt_history s.forcing (.force s.forcing.options.clock)
  rw [hf.options, hf.history] at ha
  rcases s.forceClock_cases with ⟨err, -, he⟩ | ⟨accepted, he⟩ <;> rw [he, hf.options] <;>
    exact ⟨_, ha⟩

theorem normal_history (h : s.flags.skipForce = false) :
    ∃ a, s.normal.2.history = .command (.force s.options.clock) a :: s.history := by
  unfold Sequencer.normal
  rw [if_neg (Bool.eq_false_iff.1 h)]
  exact s.forceClock_history

theorem force_history (h : s.flags.skipForce = false) :
    ∃ a, s.force.2.history = .command (.force s.options.clock) a :: s.history := by
  obtain ⟨a, ha⟩ := s.forceClock_history
  unfold Sequencer.force
  rw [if_neg (Bool.eq_false_iff.1 h)]
  rcases hr : s.forceClock with ⟨err | _ | _, s₁⟩ <;> rw [hr] at ha <;> exact ⟨a, ha⟩

theorem writePrimary_history (s : Sequencer W) :
    ∃ a, s.writePrimary.2.history = .command (.write false none) a :: s.history := by
  have ha := attempt_history s.writing (.write false none)
  rw [s.alike_writing.history] at ha
  rw [writePrimary_eq]
  generalize s.writing.attempt (.write false none) = r at ha
  rcases r with ⟨err | ⟨err | answer⟩, s₁⟩ <;> refine ⟨_, Eq.trans ?_ ha⟩ <;> dsimp only <;>
    split_ifs <;> rfl

theorem recover_history (h : s.flags.recovery = true) :
    ∃ a, s.recover.2.history = .command (.write true none) a :: s.history := by
  have ha := attempt_history s.recovering (.write true none)
  rw [recover_eq, h, Bool.not_true, if_neg Bool.false_ne_true]
  generalize s.recovering.attempt (.write true none) = r at ha
  rcases r with ⟨err | ⟨err | answer⟩, s₁⟩ <;> exact ⟨_, ha⟩

theorem resetCore_spends (s : Sequencer W) : s.Spends 0 s.resetCore.2 := by
  have hm : ∀ (s : Sequencer W) mode, s.Spends 0 (s.setMode mode).2 := fun _ _ => .nothing rfl rfl rfl
  have hd : ∀ s : Sequencer W, s.Spends 0 s.reenterDownload.2 := by
    intro s
    have h := hm s .download
    unfold Sequencer.reenterDownload
    rcases hr : s.setMode .download with ⟨err | _, s₁⟩ <;> rw [hr] at h <;>
      exact h.idly (.nothing rfl rfl rfl)
  have h := hm (s.withFlags { s.flags with coreReset := false }) .normal
  unfold Sequencer.resetCore
  split_ifs
  · exact .refl s
  · rcases hr : (s.withFlags { s.flags with coreReset := false }).setMode .normal with
      ⟨err | _, s₁⟩ <;> rw [hr] at h
    · exact ⟨h.attempts, h.recoveries, h.upToDate⟩
    · have h₁ : s.Spends 0 s₁ := ⟨h.attempts, h.recoveries, h.upToDate⟩
      exact h₁.idly (spends_performThen _ fun s₂ _ => hd s₂)

end Sequencer

namespace Visit

variable {v : Visit W}

/-- The step counts as an attempt. -/
def tried (v : Visit W) : Bool :=
  match v.step with
  | .normal | .force => v.before.flags.recovery && !v.before.flags.skipForce
  | .write => v.counted
  | .recover => v.before.flags.recovery
  | _ => false

theorem spends_tried (v : Visit W) (hn : v.step ≠ .getVersion) :
    v.noted.Spends v.tried.toNat v.after := by
  obtain ⟨step, s⟩ := v
  cases step with
  | normal => exact Sequencer.normal_spends _
  | getSessionState => exact Sequencer.getSessionState_spends _
  | getVersion => exact (hn rfl).elim
  | logRead => exact Sequencer.logRead_spends _
  | write => exact Sequencer.write_spends _
  | log => exact Sequencer.writeLog_spends _
  | checkIntegrity => exact Sequencer.checkIntegrity_spends _
  | reset => exact Sequencer.reset_spends _
  | force => exact Sequencer.force_spends _
  | recover => exact Sequencer.recover_spends _
  | coreReset => exact Sequencer.resetCore_spends _

theorem spends (v : Visit W) :
    v.after.attempts = v.before.attempts + UInt8.ofNat v.tried.toNat ∧
    v.after.recoveries = v.before.recoveries := by
  by_cases hn : v.step = .getVersion
  · obtain ⟨step, s⟩ := v
    obtain rfl : step = .getVersion := hn
    have h := (Visit.mk .getVersion s).noted.getVersion_spends
    exact ⟨h.attempts, h.recoveries⟩
  · have h := v.spends_tried hn
    exact ⟨h.attempts, h.recoveries⟩

/-- Each attempt is a write or a force that is given to the engine. -/
theorem tried_gives (h : v.tried = true) : ∃ c attempt, v.command? = some (c, attempt) ∧
    (c.command = .write ∨ c.command = .force) := by
  have hg : ∀ c, (∃ a, v.after.history = .command c a :: v.noted.history) →
      (c.command = .write ∨ c.command = .force) → ∃ c attempt, v.command? = some (c, attempt) ∧
        (c.command = .write ∨ c.command = .force) :=
    fun c ⟨a, ha⟩ hc => ⟨c, a, command?_eq ha, hc⟩
  obtain ⟨step, s⟩ := v
  cases step with
  | normal =>
    obtain ⟨-, hk⟩ := Bool.and_eq_true_iff.1 h
    exact hg (.force s.options.clock) (Sequencer.normal_history (Bool.not_eq_true' _ ▸ hk))
      (.inr rfl)
  | force =>
    obtain ⟨-, hk⟩ := Bool.and_eq_true_iff.1 h
    exact hg (.force s.options.clock) (Sequencer.force_history (Bool.not_eq_true' _ ▸ hk))
      (.inr rfl)
  | write =>
    obtain ⟨hw, hf, hk⟩ := counted_iff.1 h
    have he := takeStep_write hw hk
    refine hg (.write false none) ?_ (.inl rfl)
    rw [show (Visit.mk .write s).after = _ from congrArg Prod.snd he]
    exact Sequencer.writePrimary_history _
  | recover =>
    exact hg (.write true none) (Sequencer.recover_history h) (.inl rfl)
  | _ => cases h

end Visit

end FirmwareDownload
