import FirmwareDownload.Proofs.Sequence.Record
import FirmwareDownload.Proofs.Sequence.Success
import FirmwareDownload.Proofs.Sequence.Trials

/-! What each table may add to the attempts, and what it calls for next: a log of its write, a
recovery or another try. -/

namespace FirmwareDownload

/-- An image may mend the failure. -/
def Mendable (status : Except DownloadError Unit) : Prop :=
  ∃ err, status = .error err ∧ err.isRecoverable = true

variable {W : Type} [Host W]

namespace Sequencer

variable {s : Sequencer W} {status : Except DownloadError Unit} {lap : Lap W} {v w : Visit W}
  {retry counted : Bool}

def limit (s : Sequencer W) : Nat := s.options.maxAttempts.toNat

omit [Host W] in
theorem mayTry_iff : s.mayTry = true ↔ s.attempts.toNat < s.limit :=
  decide_eq_true_iff.trans UInt8.lt_iff_toNat_lt

/-! ## The reaction to a failure -/

omit [Host W] in
theorem react_cases (s : Sequencer W) (status : Except DownloadError Unit) :
    ¬ Mendable status ∧ s.react status = s ∨
    Mendable status ∧ s.mayTry = false ∧
      s.react status = s.withFlags { s.flags with recovery := false, retry := false } ∨
    Mendable status ∧ s.mayTry = true ∧ ∃ skip,
      s.react status = s.withFlags { s.flags with recovery := true, skipForce := skip } := by
  cases status with
  | ok => exact .inl ⟨fun ⟨_, he, _⟩ => (nomatch he), rfl⟩
  | error err =>
    unfold Sequencer.react
    by_cases hr : err.isRecoverable = true
    · have hm : Mendable (.error err) := ⟨err, rfl, hr⟩
      dsimp only
      rw [hr, Bool.not_true, if_neg Bool.false_ne_true]
      cases ht : s.mayTry with
      | false => exact .inr (.inl ⟨hm, rfl, rfl⟩)
      | true => exact .inr (.inr ⟨hm, rfl, _, rfl⟩)
    · refine .inl ⟨?_, if_pos (by simpa using hr)⟩
      rintro ⟨_, ⟨⟩, h⟩
      exact hr h

omit [Host W] in
theorem react_calls (s : Sequencer W) (status : Except DownloadError Unit) :
    s.Spends 0 (s.react status) ∧
    ((s.react status).flags.retry = true → s.flags.retry = true) ∧
    ((s.react status).flags.recovery = true →
      s.attempts.toNat < s.limit ∨ ¬ Mendable status ∧ s.flags.recovery = true) := by
  rcases s.react_cases status with ⟨hm, he⟩ | ⟨-, -, he⟩ | ⟨-, ht, skip, he⟩ <;> rw [he]
  · exact ⟨.refl s, id, fun h => .inr ⟨hm, h⟩⟩
  · exact ⟨.nothing rfl rfl rfl, nofun, nofun⟩
  · exact ⟨.nothing rfl rfl rfl, id, fun _ => .inl (mayTry_iff.1 ht)⟩

omit [Host W] in
theorem lapAfter_counts (s : Sequencer W) (status : Except DownloadError Unit) (t : Table) :
    (s.lapAfter status t).entry.attempts = s.attempts ∧
    (s.lapAfter status t).entry.recoveries =
      s.recoveries + (if t = .recovery then 1 else 0) ∧
    (s.lapAfter status t).entry.options = s.options := by
  obtain ⟨hs, -⟩ := s.react_calls status
  rw [← show _ = s.attempts from hs.attempts.trans (UInt8.add_zero _), ← hs.recoveries,
    ← (s.react_alike status).options]
  cases t with
  | recovery => exact ⟨rfl, rfl, rfl⟩
  | log | main => exact ⟨rfl, (UInt8.add_zero _).symm, rfl⟩

/-! ## Steps in a row -/

omit [Host W] in
theorem countP_tried_cons (v : Visit W) (vs : List (Visit W)) :
    (v :: vs).countP Visit.tried = vs.countP Visit.tried + v.tried.toNat := by
  rw [List.countP_cons]
  cases v.tried <;> rfl

theorem takeSteps_counts (s : Sequencer W) (steps : List Step) :
    (s.takeSteps steps).2.attempts =
      s.attempts + UInt8.ofNat ((s.visits steps).countP Visit.tried) ∧
    (s.takeSteps steps).2.recoveries = s.recoveries ∧
    (s.takeSteps steps).2.options = s.options := by
  refine takeSteps_induction (P := fun vs s' =>
    s'.attempts = s.attempts + UInt8.ofNat (vs.countP Visit.tried) ∧
    s'.recoveries = s.recoveries ∧ s'.options = s.options) steps
    ⟨(UInt8.add_zero _).symm, rfl, rfl⟩ ?_
  rintro v - vs ⟨h, hr, ho⟩
  obtain ⟨hv, hvr⟩ := v.spends
  refine ⟨?_, hvr.trans hr, v.does.1.keeps.1.trans ho⟩
  rw [hv, h, List.countP_append, List.countP_singleton, UInt8.ofNat_add, UInt8.add_assoc]
  cases v.tried <;> rfl

/-- If a measure makes up for what each step counts, but for some that may add one more, then it
makes up for the row, but for the number of those. -/
theorem takeSteps_le {f : Sequencer W → Nat} {raises : Step → Bool} {steps : List Step}
    (hk : ∀ s step, step ∈ steps → (Visit.mk step s).tried.toNat + f (Visit.mk step s).after ≤
      f s + if raises step then 1 else 0) :
    (s.visits steps).countP Visit.tried + f (s.takeSteps steps).2 ≤
      f s + steps.countP raises := by
  induction steps generalizing s with
  | nil => exact Nat.le_of_eq (Nat.zero_add _)
  | cons step steps ih =>
    have h₁ := hk s step (List.mem_cons_self ..)
    rw [visits_cons, takeSteps_cons, countP_tried_cons, List.countP_cons]
    cases hr : (Visit.mk step s).result with
    | error err =>
      rw [Visit.outcome_error hr, Visit.onward_error hr, List.countP_nil]
      dsimp only
      omega
    | ok =>
      rw [Visit.outcome_ok hr, Visit.onward_ok hr]
      have h₂ := ih (s := (Visit.mk step s).after) fun s step hm =>
        hk s step (List.mem_cons_of_mem _ hm)
      omega

/-! ## Main tables -/

omit [Host W] in
theorem Opening.untried (h : v.before.Opening retry) (hw : v.step ≠ .write) : v.tried = false := by
  unfold Visit.tried
  rw [h.healthy]
  split <;> first | rfl | exact (hw ‹_›).elim

theorem Opening.row_untried (h : s.Opening retry) (hs : s.engine.Standing) (chip : ChipFamily) :
    ∀ v ∈ s.visits (openingSteps chip), v.tried = false := by
  have hk := keeps_takeSteps (P := fun s => s.Opening retry ∧ s.engine.Standing)
    (openingSteps chip) ⟨h, hs⟩ fun s step hm ⟨ho, hs⟩ =>
      ⟨(ho.takeStep hs hm).1, Moves.standing (takeStep_acts s step).moves hs⟩
  intro v hv
  obtain ⟨hm, ho, -⟩ := hk.2 v hv
  refine ho.untried fun hw => ?_
  rw [hw] at hm
  cases chip <;> simp [openingSteps] at hm

theorem closing_untried {steps : List Step} (hm : ∀ step ∈ steps, step ∈ closingSteps) :
    ∀ v ∈ s.visits steps, v.tried = false := by
  intro v hv
  have hst := hm v.step (step_mem_of_visits hv)
  unfold Visit.tried
  simp only [closingSteps, List.mem_cons, List.not_mem_nil, or_false] at hst
  rcases hst with h | h | h | h <;> rw [h]

/-- After a write: nothing is unlogged and no other try is called for unless the write was counted,
and for another try attempts have to be left. -/
structure Closing (s : Sequencer W) (counted : Bool) : Prop where
  healthy : s.flags.recovery = false
  unlogged : s.flags.unlogged = true → counted = true
  retry : s.flags.retry = true → counted = true ∧ s.mayTry = true

theorem Closing.attempt (h : s.Closing counted) (c : Call) : (s.attempt c).2.Closing counted :=
  ⟨h.healthy, h.unlogged, h.retry⟩

theorem Closing.performThen (h : s.Closing counted) (c : Call)
    {take : Sequencer W → Bytes → Except DownloadError Unit × Sequencer W}
    (ht : ∀ s answer, s.Closing counted → (take s answer).2.Closing counted) :
    (s.performThen c take).2.Closing counted := by
  have ha := h.attempt c
  rcases s.performThen_cases c take with ⟨err, -, he⟩ | ⟨answer, -, he⟩ <;> rw [he]
  · exact ha
  · exact ht _ answer ha

omit [Host W] in
theorem Closing.takeSessionState (h : s.Closing counted) (report : Bytes) :
    (s.takeSessionState report).2.Closing counted := by
  rcases s.takeSessionState_cases report with
    ⟨err, he, -⟩ | ⟨isOpen, -, -, -, ⟨-, hu, err, he, -⟩ | ⟨-, he⟩⟩ <;> rw [he]
  · exact h
  · exact ⟨h.healthy, h.unlogged, fun hr => ⟨h.unlogged hu, hr⟩⟩
  · exact ⟨h.healthy, h.unlogged, h.retry⟩

omit [Host W] in
theorem Closing.takeVersion (h : s.Closing counted) (report : Bytes) :
    (s.takeVersion report).2.Closing counted := by
  have hr : ∀ revision, (s.revised revision).Closing counted := fun _ =>
    ⟨h.healthy, h.unlogged, h.retry⟩
  rcases s.takeVersion_cases report with
    ⟨err, chip, he, -⟩ | ⟨hardware, expected, -, -, ⟨-, he⟩ | ⟨-, he⟩⟩ <;> rw [he]
  · exact ⟨h.healthy, h.unlogged, h.retry⟩
  · exact hr _
  · split
    · unfold Sequencer.checkAfter
      split_ifs
      · exact hr _
      · exact ⟨h.healthy, h.unlogged, h.retry⟩
    · unfold Sequencer.checkBefore
      split_ifs <;> exact ⟨h.healthy, h.unlogged, h.retry⟩

omit [Host W] in
theorem Closing.takeIntegrity (h : s.Closing counted) (report : Bytes) :
    (s.takeIntegrity report).2.Closing counted := by
  unfold Sequencer.takeIntegrity
  cases RegionFlags.ofReport? report <;> dsimp only <;> split_ifs <;>
    exact ⟨h.healthy, h.unlogged, h.retry⟩

theorem Closing.takeStep (h : s.Closing counted) {step : Step} (hm : step ∈ closingSteps) :
    (s.takeStep step).2.Closing counted := by
  have hn : Closing { s with history := .step step :: s.history } counted :=
    ⟨h.healthy, h.unlogged, h.retry⟩
  simp only [closingSteps, List.mem_cons, List.not_mem_nil, or_false] at hm
  unfold Sequencer.takeStep
  rcases hm with rfl | rfl | rfl | rfl <;> dsimp only
  · unfold Sequencer.getSessionState
    split_ifs
    · exact hn
    · exact hn.performThen _ fun _ report h => h.takeSessionState report
  · unfold Sequencer.getVersion
    split_ifs
    · exact hn
    · exact hn.performThen _ fun _ report h => h.takeVersion report
  · unfold Sequencer.writeLog
    split_ifs
    · exact hn
    · exact hn.performThen _ fun _ _ h =>
        ⟨h.healthy, fun he => (Bool.false_ne_true he).elim, h.retry⟩
  · unfold Sequencer.checkIntegrity
    split_ifs
    · exact hn
    · exact hn.performThen _ fun _ report h => h.takeIntegrity report

theorem writePrimary_calls (s : Sequencer W) :
    s.writePrimary.2.flags.retry = s.flags.retry ∧
    (s.writePrimary.2.flags.unlogged = true → s.flags.unlogged = true ∨ s.flags.forced = false) ∧
    (s.writePrimary.2.flags.recovery = true →
      s.flags.recovery = true ∨ s.writePrimary.1 = .error .writeFailed) := by
  have hw : s.writing.flags.retry = s.flags.retry ∧
      (s.writing.flags.unlogged = true → s.flags.unlogged = true ∨ s.flags.forced = false) ∧
      s.writing.flags.recovery = s.flags.recovery := by
    unfold writing
    split_ifs with hf
    · exact ⟨rfl, fun _ => .inr (by simpa using hf), rfl⟩
    · exact ⟨rfl, .inl, rfl⟩
  have hfl := s.writing.attempt_flags (.write false none)
  rw [writePrimary_eq]
  generalize s.writing.attempt (.write false none) = r at hfl
  rw [← hfl] at hw
  obtain ⟨hr, hu, hrec⟩ := hw
  rcases r with ⟨err | ⟨err | answer⟩, t⟩ <;> dsimp only at hr hu hrec ⊢
  · split_ifs <;> exact ⟨hr, hu, fun h => .inl (hrec ▸ h)⟩
  · by_cases hf : err = .writeFailed
    · rw [if_pos hf]
      split_ifs <;> exact ⟨hr, hu, fun _ => .inr (by rw [hf])⟩
    · rw [if_neg hf]
      split_ifs <;> exact ⟨hr, hu, fun h => .inl (hrec ▸ h)⟩
  · split_ifs <;> exact ⟨hr, hu, fun h => .inl (hrec ▸ h)⟩

/-- After a write the table goes on, or it ends with a failure of the write. -/
theorem Opening.write_calls (h : w.before.Opening retry) (hw : w.step = .write) :
    w.after.flags.retry = false ∧ (w.after.flags.unlogged = true → w.counted = true) ∧
    (w.after.flags.recovery = true → w.result = .error .writeFailed) := by
  cases hk : w.before.flags.skipRest && !w.before.flags.sessionOpen with
  | false =>
    have he := Visit.takeStep_write hw hk
    obtain ⟨hr, hu, hrec⟩ := w.trying.writePrimary_calls
    rw [← he] at hr hu hrec
    refine ⟨hr, fun hun => ?_, fun hre => ?_⟩
    · rcases hu hun with hun | hf
      · cases hun.symm.trans h.logged
      · exact Visit.counted_iff.2 ⟨hw, hf, hk⟩
    · rcases hrec hre with hre | hre
      · cases hre.symm.trans h.healthy
      · exact hre
  | true =>
    rcases Visit.write_cases hw with hc | hc | ⟨-, -, ha⟩
    · cases hk.symm.trans (Visit.counted_iff.1 hc).2.2
    · cases hk.symm.trans (Visit.uncounted_iff.1 hc).2.2
    · have hun : w.after.flags.unlogged = false := by rw [ha]; exact h.logged
      have hre : w.after.flags.recovery = false := by rw [ha]; exact h.healthy
      rw [hun, hre, ha]
      exact ⟨rfl, nofun, nofun⟩

/-- A main table that came to its write, counted or not, and what it calls for. -/
structure Settles (lap : Lap W) (counted : Bool) : Prop where
  tried : lap.visits.countP Visit.tried = counted.toNat
  unlogged : lap.exit.flags.unlogged = true → counted = true
  retry : lap.exit.flags.retry = true → counted = true ∧ lap.exit.mayTry = true
  recovery : lap.exit.flags.recovery = true → Mendable lap.result

theorem visits_without_write (ht : lap.table = .main) (hn : ∀ w ∈ lap.visits, w.step ≠ .write) :
    lap.visits = lap.entry.visits lap.opening := by
  have hvis := visits_append lap.entry lap.opening (.write :: closingSteps)
  rw [← Lap.steps_main ht] at hvis
  rcases hrow : lap.entry.takeSteps lap.opening with ⟨err | _, b⟩ <;> rw [hrow] at hvis
  · exact hvis.trans (List.append_nil _)
  · refine (hn ⟨.write, b⟩ ?_ rfl).elim
    unfold Lap.visits
    rw [hvis]
    dsimp only
    rw [visits_cons]
    simp

omit [Host W] in
theorem countP_untried {vs : List (Visit W)} (h : ∀ v ∈ vs, v.tried = false) :
    vs.countP Visit.tried = 0 :=
  List.countP_eq_zero.2 fun v hv => Bool.eq_false_iff.1 (h v hv)

theorem Opening.write_settles (h : w.before.Opening retry) (hw : w.step = .write)
    (hvis : lap.visits.countP Visit.tried = w.counted.toNat)
    (hout : (lap.result, lap.exit) = w.outcome closingSteps) : Settles lap w.counted := by
  obtain ⟨hr, hu, hrec⟩ := h.write_calls hw
  cases hres : w.result with
  | error err =>
    rw [Visit.outcome_error hres] at hout
    obtain ⟨hresult, hexit⟩ := Prod.mk.inj hout
    refine ⟨hvis, fun hun => hu (hexit ▸ hun), fun hre => ?_, fun hre => ?_⟩
    · rw [hexit, hr] at hre
      cases hre
    · have he := hrec (hexit ▸ hre)
      rw [hres] at he
      rw [hresult, he]
      exact ⟨_, rfl, rfl⟩
  | ok =>
    rw [Visit.outcome_ok hres] at hout
    have hc : w.after.Closing w.counted := by
      refine ⟨Bool.eq_false_iff.2 fun hre => ?_, hu, fun hre => ?_⟩
      · cases (hrec hre).symm.trans hres
      · cases hre.symm.trans hr
    have hk : lap.exit.Closing w.counted := by
      rw [(Prod.mk.inj hout).2]
      exact (keeps_takeSteps (P := fun s => s.Closing w.counted) closingSteps hc
        fun s step hm hs => hs.takeStep hm).1
    refine ⟨hvis, hk.unlogged, hk.retry, fun hre => ?_⟩
    cases hre.symm.trans hk.healthy

/-- A main table fails before its write, or it comes to it and counts it at most. -/
theorem Opening.main_settles (h : lap.entry.Opening retry) (hs : lap.entry.engine.Standing)
    (ht : lap.table = .main) :
    ((∀ w ∈ lap.visits, w.step ≠ .write) ∧ ¬ Mendable lap.result ∧ lap.exit.Opening retry ∧
      lap.visits.countP Visit.tried = 0) ∨
    ∃ w ∈ lap.visits, w.step = .write ∧ Settles lap w.counted := by
  have hopening := countP_untried (h.row_untried hs lap.entry.engine.config.chip)
  by_cases hn : ∀ w ∈ lap.visits, w.step ≠ .write
  · rcases h.main_cases hs ht with ⟨err, hr, hrec, ho⟩ | ⟨w, hw, -, -, hvis, -⟩
    · refine .inl ⟨hn, ?_, ho, ?_⟩
      · rw [hr]
        rintro ⟨_, ⟨⟩, hm⟩
        cases hrec.symm.trans hm
      · rw [visits_without_write ht hn]
        exact hopening
    · exact (hn w (hvis ▸ List.mem_append_right _ (List.mem_cons_self ..)) hw).elim
  · obtain ⟨w, hn⟩ := Classical.not_forall.1 hn
    obtain ⟨hv, hw⟩ := Classical.not_imp.1 hn
    have hw := Decidable.not_not.1 hw
    obtain ⟨-, hrow, hvis, hout⟩ := write_visit hv hw
    have hb : Opens retry (lap.entry.takeSteps lap.opening) := h.takeSteps hs fun _ hm => hm
    rw [hrow] at hb
    have hclosing : (w.onward closingSteps).countP Visit.tried = 0 := by
      cases hr : w.result with
      | ok =>
        rw [Visit.onward_ok hr]
        exact countP_untried (closing_untried fun _ hm => hm)
      | error err =>
        rw [Visit.onward_error hr]
        rfl
    refine .inr ⟨w, hv, hw, hb.1.write_settles hw ?_ hout⟩
    have hwc : w.tried = w.counted := by
      unfold Visit.tried
      rw [hw]
    rw [hvis, List.countP_append, countP_tried_cons, hclosing, Lap.opening, hopening, hwc,
      Nat.zero_add, Nat.zero_add]

/-! ## Recovery tables and log tables -/

theorem force_recovery (h : s.force.2.flags.recovery = true) : s.flags.recovery = true := by
  have hf : s.forcing.flags = s.flags := by
    unfold forcing
    split_ifs <;> rfl
  have hc : s.forceClock.2.flags.recovery = s.flags.recovery := by
    rw [← hf]
    rcases s.forceClock_cases with ⟨err, -, he⟩ | ⟨accepted, he⟩ <;> rw [he] <;> rfl
  unfold Sequencer.force at h
  split_ifs at h
  · exact h
  · rcases hr : s.forceClock with ⟨err | _ | _, s₁⟩ <;> rw [hr] at h hc
    · exact hc ▸ h
    · exact hc ▸ h
    · cases h

theorem recover_recovery (s : Sequencer W) : s.recover.2.flags.recovery = false := by
  rw [recover_eq]
  cases hr : s.flags.recovery with
  | false => exact hr
  | true =>
    have hf := s.recovering.attempt_flags (.write true none)
    rw [Bool.not_true, if_neg Bool.false_ne_true]
    generalize s.recovering.attempt (.write true none) = r at hf
    have hn : r.2.flags.recovery = false := by rw [hf]; rfl
    rcases r with ⟨err | ⟨err | answer⟩, t⟩
    · exact hn
    · exact hn
    · unfold withFlags
      dsimp only
      split_ifs <;> exact hn

theorem resetCore_recovery (s : Sequencer W) :
    s.resetCore.2.flags.recovery = s.flags.recovery := by
  have hd : ∀ s : Sequencer W, s.reenterDownload.2.flags.recovery = s.flags.recovery := by
    intro s
    have hf := s.setMode_flags .download
    unfold Sequencer.reenterDownload
    rcases hr : s.setMode .download with ⟨err | _, s₁⟩ <;> rw [hr] at hf
    · exact (congrArg SequenceFlags.recovery hf).trans rfl
    · exact (congrArg SequenceFlags.recovery hf).trans rfl
  have hf := (s.withFlags { s.flags with coreReset := false }).setMode_flags .normal
  unfold Sequencer.resetCore
  split_ifs
  · rfl
  · rcases hr : (s.withFlags { s.flags with coreReset := false }).setMode .normal with ⟨r, s₁⟩
    rw [hr] at hf
    have hs₁ : s₁.flags.recovery = s.flags.recovery :=
      (congrArg SequenceFlags.recovery hf).trans rfl
    cases r with
    | error err => exact hs₁
    | ok =>
      dsimp only
      rcases s₁.performThen_cases (.raw coreResetFrame 6) (fun s _ => s.reenterDownload) with
        ⟨err, -, he⟩ | ⟨answer, -, he⟩ <;> rw [he]
      · exact hs₁
      · exact (hd _).trans hs₁

/-- A recovery write is committed since recovery was called for, so only a force adds to it. -/
theorem recoveryStep_commits {step : Step}
    (hm : step ∈ [Step.reset, .force, .recover, .coreReset]) :
    (Visit.mk step s).tried.toNat + (Visit.mk step s).after.flags.recovery.toNat ≤
      s.flags.recovery.toNat + if decide (step = .force) then 1 else 0 := by
  show _ + (s.takeStep step).2.flags.recovery.toNat ≤ _
  simp only [List.mem_cons, List.not_mem_nil, or_false] at hm
  rcases hm with rfl | rfl | rfl | rfl
  · have hr : (s.takeStep .reset).2.flags.recovery = s.flags.recovery := reset_recovery _
    rw [hr]
    exact Nat.le_of_eq (Nat.zero_add _)
  · have hr : (s.takeStep .force).2.flags.recovery = true → s.flags.recovery = true :=
      fun h => force_recovery (s := { s with history := .step .force :: s.history }) h
    have ht := Bool.toNat_le (Visit.mk .force s).tried
    cases h : (s.takeStep .force).2.flags.recovery with
    | false =>
      rw [if_pos (decide_eq_true rfl), Bool.toNat_false]
      omega
    | true =>
      rw [hr h, if_pos (decide_eq_true rfl), Bool.toNat_true]
      omega
  · have hr : (s.takeStep .recover).2.flags.recovery = false := recover_recovery _
    rw [hr]
    exact Nat.le_refl _
  · have hr : (s.takeStep .coreReset).2.flags.recovery = s.flags.recovery := resetCore_recovery _
    rw [hr]
    exact Nat.le_of_eq (Nat.zero_add _)

/-- What a recovery table calls for, and what it may add to the attempts. -/
theorem recovery_settles (hu : (s.react status).flags.unlogged = false) :
    let lap := s.lapAfter status .recovery
    lap.visits.countP Visit.tried + lap.exit.flags.recovery.toNat ≤
      lap.entry.flags.recovery.toNat + 1 ∧ lap.exit.flags.unlogged = false := by
  intro lap
  have hforce : [Step.reset, .force, .recover, .coreReset].countP (fun step => step = .force) = 1 :=
    rfl
  have hc := takeSteps_le (s := lap.entry) (f := fun s => s.flags.recovery.toNat)
    fun _ _ hm => recoveryStep_commits hm
  have hu : lap.entry.flags.unlogged = false := hu
  refine ⟨hforce ▸ hc, (keeps_takeSteps (P := fun s => s.flags.unlogged = false)
    [.reset, .force, .recover, .coreReset] hu fun s step hm hu => ?_).1⟩
  have hwrite : step ≠ .write := by rintro rfl; simp at hm
  have hread : step ≠ .logRead := by rintro rfl; simp at hm
  have hst := s.takeStep_steady hwrite hread
  exact Bool.eq_false_iff.2 fun hu' => Bool.eq_false_iff.1 hu (hst.unlogged hu')

theorem log_settles (s : Sequencer W) (status : Except DownloadError Unit) :
    let lap := s.lapAfter status .log
    lap.visits.countP Visit.tried = 0 ∧ lap.exit.flags.unlogged = false ∧
      lap.exit.flags.retry = lap.entry.flags.retry ∧
      lap.exit.flags.recovery = lap.entry.flags.recovery := by
  intro lap
  refine ⟨?_, ?_⟩
  · exact countP_untried (closing_untried (s := lap.entry) (show ∀ step ∈ [Step.log], _ by
      simp [closingSteps]))
  · refine (keeps_takeSteps (P := fun s => s.flags.unlogged = false ∧
      s.flags.retry = lap.entry.flags.retry ∧ s.flags.recovery = lap.entry.flags.recovery)
      [.log] ⟨rfl, rfl, rfl⟩ ?_).1
    rintro s step hm ⟨hu, hr, hrec⟩
    obtain rfl := List.mem_singleton.1 hm
    show (Sequencer.writeLog _).2.flags.unlogged = false ∧ _
    unfold Sequencer.takeStep Sequencer.writeLog
    dsimp only
    split_ifs
    · exact ⟨hu, hr, hrec⟩
    · rcases performThen_cases { s with history := .step .log :: s.history }
        (.log s.statistics.toBytes)
        (fun s _ => (.ok (), s.withFlags { s.flags with unlogged := false })) with
        ⟨err, -, he⟩ | ⟨answer, -, he⟩ <;> rw [he]
      · exact ⟨hu, hr, hrec⟩
      · exact ⟨rfl, hr, hrec⟩

end Sequencer

end FirmwareDownload
