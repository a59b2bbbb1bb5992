import FirmwareDownload.Proofs.Sequence.Attempts
import FirmwareDownload.Proofs.Sequence.Reports

/-! The main table up to its write. Nothing is unlogged there and no recovery is due, and whatever
fails before the write is not mended by an image. -/

namespace FirmwareDownload

def openingSteps (chip : ChipFamily) : List Step :=
  (match chip with
    | .pn548ad => []
    | .pn547c2 => [.normal, .normal]) ++ [.getSessionState, .getVersion, .logRead]

def closingSteps : List Step := [.getSessionState, .getVersion, .log, .checkIntegrity]

theorem primarySteps_eq (chip : ChipFamily) :
    primarySteps chip = openingSteps chip ++ .write :: closingSteps := by
  cases chip <;> rfl

/-- The steps that a main table takes before its write. -/
def Lap.opening {W : Type} (lap : Lap W) : List Step := openingSteps lap.entry.engine.config.chip

theorem Lap.steps_main {W : Type} [Host W] {lap : Lap W} (ht : lap.table = .main) :
    lap.steps = lap.opening ++ .write :: closingSteps := by
  rw [Lap.steps, ht]
  exact primarySteps_eq _

namespace Sequencer

variable {W : Type} [Host W] {s s₁ s' : Sequencer W} {retry : Bool}

/-- Before its write a table has nothing to log and nothing to recover from. With a session open
the rest of the table is not passed over. -/
structure Opening (s : Sequencer W) (retry : Bool) : Prop where
  logged : s.flags.unlogged = false
  healthy : s.flags.recovery = false
  retries : s.flags.retry = true → retry = true
  closed : s.flags.skipRest = true → s.flags.sessionOpen = false
  forced : s.flags.forced = true → s.options.forceDownload = true

/-- The step leaves the table as it was before the write, and no image mends its failure. -/
def Opens (retry : Bool) (r : Except DownloadError Unit × Sequencer W) : Prop :=
  r.2.Opening retry ∧ ∀ err, r.1 = .error err → err.isRecoverable = false

omit [Host W] in
theorem opens_ok (h : s.Opening retry) : Opens retry (.ok (), s) := ⟨h, nofun⟩

omit [Host W] in
theorem opens_error {err : DownloadError} (h : s.Opening retry) (hr : err.isRecoverable = false) :
    Opens retry (.error err, s) :=
  ⟨h, by rintro _ ⟨⟩; exact hr⟩

theorem Opening.attempt (h : s.Opening retry) (c : Call) : (s.attempt c).2.Opening retry :=
  ⟨h.logged, h.healthy, h.retries, h.closed, h.forced⟩

theorem forceClock_cases (s : Sequencer W) :
    (∃ err, (s.forcing.attempt (.force s.forcing.options.clock)).1 = .refused err ∧
      s.forceClock = (.error err, (s.forcing.attempt (.force s.forcing.options.clock)).2.withFlags
        { s.forcing.flags with skipForce := false, retry := false })) ∨
    ∃ accepted, s.forceClock =
      (.ok accepted, (s.forcing.attempt (.force s.forcing.options.clock)).2) := by
  rw [forceClock_eq]
  rcases hr : s.forcing.attempt (.force s.forcing.options.clock) with ⟨err | ⟨err | answer⟩, s₁⟩
  · have hf : s₁.flags = s.forcing.flags := congrArg (fun r => r.2.flags) hr.symm
    exact .inl ⟨err, rfl, by rw [← hf]⟩
  · exact .inr ⟨false, rfl⟩
  · exact .inr ⟨true, rfl⟩

theorem Opening.normal (h : s.Opening retry) (hs : s.engine.Standing) : Opens retry s.normal := by
  -- With no recovery due, the force is not counted as an attempt at one.
  have hf : s.forcing = s := by
    unfold forcing
    rw [h.healthy, if_neg Bool.false_ne_true]
  unfold Sequencer.normal
  split_ifs
  · exact opens_ok h
  · rcases s.forceClock_cases with ⟨err, ha, he⟩ | ⟨accepted, he⟩ <;> rw [hf] at he <;> rw [he]
    · rw [hf] at ha
      have hr := (attempt_fares hs (.force s.options.clock)).unrecoverable Command.noConfusion
        (congrArg Attempt.result ha)
      exact opens_error ⟨h.logged, h.healthy, nofun, h.closed, h.forced⟩ hr
    · exact opens_ok (h.attempt _)

theorem Opening.getSessionState (h : s.Opening retry) (hs : s.engine.Standing) :
    Opens retry s.getSessionState := by
  have ha := h.attempt (.getSessionState 3)
  unfold Sequencer.getSessionState
  split_ifs with hk
  · exact opens_ok h
  · rcases performThen_fares hs (c := .getSessionState 3) Command.noConfusion takeSessionState with
      ⟨err, hr, he⟩ | ⟨report, -, he⟩ <;> rw [he]
    · exact opens_error ha hr
    · rcases takeSessionState_cases _ report with ⟨err, he, hr⟩ |
        ⟨isOpen, -, -, -, ⟨-, hu, -⟩ | ⟨-, he⟩⟩
      · rw [he]
        exact opens_error ha hr
      · cases hu.symm.trans ha.logged
      · rw [he]
        exact opens_ok ⟨ha.logged, ha.healthy, ha.retries, fun hk' => (hk hk').elim, ha.forced⟩

theorem Opening.getVersion (h : s.Opening retry) (hs : s.engine.Standing) :
    Opens retry s.getVersion := by
  have ha := h.attempt (.getVersion 11)
  have hm : ∀ chip, Opening { (s.attempt (.getVersion 11)).2 with chipVersion := chip } retry :=
    fun _ => ⟨ha.logged, ha.healthy, ha.retries, ha.closed, ha.forced⟩
  unfold Sequencer.getVersion
  split_ifs with hk
  · exact opens_ok h
  · have hopen := (Bool.or_eq_false_iff.1 (Bool.eq_false_iff.2 hk)).2
    rcases performThen_fares hs (c := .getVersion 11) Command.noConfusion takeVersion with
      ⟨err, hr, he⟩ | ⟨report, -, he⟩ <;> rw [he]
    · exact opens_error ha hr
    · rcases takeVersion_cases _ report with ⟨err, chip, he, hr⟩ |
        ⟨hardware, expected, -, -, ⟨-, he⟩ | ⟨-, he⟩⟩ <;> rw [he]
      · exact opens_error (hm chip) hr
      · exact opens_ok (hm _)
      · have hc := hm (some (hardware &&& 0x0F))
        rw [if_neg (by rw [ha.logged]; exact Bool.false_ne_true)]
        rcases checkBefore_cases ((s.attempt (.getVersion 11)).2.revised (hardware &&& 0x0F)) _
          (reportedVersion report) with ⟨err, he, hr⟩ | he | ⟨hf, he⟩ | he <;> rw [he]
        · exact opens_error hc hr
        · exact opens_ok hc
        · exact opens_ok ⟨hc.logged, hc.healthy, hc.retries, hc.closed, fun _ => hf⟩
        · exact opens_ok ⟨hc.logged, hc.healthy, hc.retries, fun _ => hopen, hc.forced⟩

theorem Opening.logRead (h : s.Opening retry) (hs : s.engine.Standing) :
    Opens retry s.logRead := by
  have ha := h.attempt (.readLog Statistics.size)
  unfold Sequencer.logRead
  dsimp only
  split_ifs with hk
  · exact opens_ok h
  · rcases performThen_fares hs (c := .readLog Statistics.size) Command.noConfusion
      takeStatistics with ⟨err, hr, he⟩ | ⟨data, -, he⟩ <;> rw [he]
    · exact opens_error ha hr
    · unfold Sequencer.takeStatistics
      cases Statistics.ofBytes? data with
      | none => exact opens_error ha rfl
      | some record =>
        exact opens_ok ⟨ha.logged, ha.healthy, ha.retries, ha.closed, ha.forced⟩

theorem Opening.takeStep (h : s.Opening retry) (hs : s.engine.Standing) {step : Step}
    {chip : ChipFamily} (hm : step ∈ openingSteps chip) : Opens retry (s.takeStep step) := by
  have hn : Opening { s with history := .step step :: s.history } retry :=
    ⟨h.logged, h.healthy, h.retries, h.closed, h.forced⟩
  have hm : step = .normal ∨ step = .getSessionState ∨ step = .getVersion ∨ step = .logRead := by
    cases chip <;> simp [openingSteps] at hm <;> simp [hm]
  unfold Sequencer.takeStep
  rcases hm with rfl | rfl | rfl | rfl
  · exact hn.normal hs
  · exact hn.getSessionState hs
  · exact hn.getVersion hs
  · exact hn.logRead hs

theorem Opening.takeSteps (h : s.Opening retry) (hs : s.engine.Standing) {steps : List Step}
    {chip : ChipFamily} (hm : ∀ step ∈ steps, step ∈ openingSteps chip) :
    Opens retry (s.takeSteps steps) := by
  induction steps generalizing s with
  | nil => exact opens_ok h
  | cons step steps ih =>
    obtain ⟨ho, hr⟩ := h.takeStep hs (hm step (List.mem_cons_self ..))
    rw [takeSteps_cons]
    cases hres : (Visit.mk step s).result with
    | error err =>
      rw [Visit.outcome_error hres]
      exact opens_error ho (hr err hres)
    | ok =>
      have hs₁ : (s.takeStep step).2.engine.Standing := Moves.standing (takeStep_acts ..).moves hs
      rw [Visit.outcome_ok hres]
      exact ih ho hs₁ fun step hmem => hm step (List.mem_cons_of_mem _ hmem)

/-! ## Tables with a write -/

variable {lap : Lap W} {laps : List (Lap W)} {status : Except DownloadError Unit} {v : Visit W}

theorem Completes.opening (h : s.Completes (lap :: laps) status s₁) (hf : s.flags = {})
    (hm : lap.table = .main) : ∃ retry, lap.entry.Opening retry ∧ (laps = [] → retry = false) := by
  cases h with
  | @opens s₁ hb =>
    have he : (s₁.entered .main).flags = {} := hb.kept.1.trans hf
    exact ⟨false, ⟨by rw [he], by rw [he], by rw [he]; exact id, by rw [he]; exact nofun,
      by rw [he]; exact nofun⟩, fun _ => rfl⟩
  | @next _ _ s₁ t hc hn =>
    obtain rfl : t = .main := hm
    refine ⟨true, ⟨rfl, rfl, fun _ => rfl, nofun, nofun⟩, ?_⟩
    rintro rfl
    rw [hc.not_due hf] at hn
    cases hn

/-- A main table fails before its write, or comes to it. -/
theorem Opening.main_cases (h : lap.entry.Opening retry) (hs : lap.entry.engine.Standing)
    (ht : lap.table = .main) :
    (∃ err, lap.result = .error err ∧ err.isRecoverable = false ∧ lap.exit.Opening retry) ∨
    ∃ w, w.step = .write ∧ w.before.Opening retry ∧
      lap.entry.takeSteps lap.opening = (.ok (), w.before) ∧
      lap.visits = lap.entry.visits lap.opening ++ w :: w.onward closingSteps ∧
      (lap.result, lap.exit) = w.outcome closingSteps := by
  have ho : Opens retry (lap.entry.takeSteps lap.opening) := h.takeSteps hs fun _ hm => hm
  have hexit : (lap.result, lap.exit) = lap.entry.takeSteps lap.steps := rfl
  rw [Lap.steps_main ht, takeSteps_append] at hexit
  unfold Lap.visits
  rw [Lap.steps_main ht, visits_append]
  rcases hrow : lap.entry.takeSteps lap.opening with ⟨err | _, b⟩ <;>
    rw [hrow] at ho hexit <;> dsimp only at hexit ⊢
  · obtain ⟨hres, hex⟩ := Prod.mk.inj hexit
    rw [hres, hex]
    exact .inl ⟨err, rfl, ho.2 err rfl, ho.1⟩
  · refine .inr ⟨⟨.write, b⟩, rfl, ho.1, rfl, ?_, ?_⟩
    · rw [visits_cons]
    · rw [hexit, takeSteps_cons]

theorem write_visit (hv : v ∈ lap.visits) (hw : v.step = .write) : lap.table = .main ∧
    lap.entry.takeSteps lap.opening = (.ok (), v.before) ∧
    lap.visits = lap.entry.visits lap.opening ++ v :: v.onward closingSteps ∧
    (lap.result, lap.exit) = v.outcome closingSteps := by
  have hm : v.step ∈ lap.steps := step_mem_of_visits hv
  have ht : lap.table = .main := by
    rw [hw] at hm
    unfold Lap.steps at hm
    cases ht : lap.table with
    | main => rfl
    | recovery => rw [ht] at hm; simp [Table.steps] at hm
    | log => rw [ht] at hm; simp [Table.steps] at hm
  have hsteps : lap.steps = lap.opening ++ v.step :: closingSteps := by
    rw [hw]
    exact Lap.steps_main ht
  have hn : v.step ∉ lap.opening := by
    unfold Lap.opening
    rw [hw]
    cases lap.entry.engine.config.chip <;> decide
  have hn' : v.step ∉ closingSteps := by
    rw [hw]
    decide
  unfold Lap.visits at hv ⊢
  unfold Lap.result Lap.exit
  rw [hsteps] at hv ⊢
  obtain ⟨ho, hvis, hout⟩ := visits_at hn hn' hv
  exact ⟨ht, ho, hvis, hout⟩

theorem Completes.write_opening (hs : s.engine.Standing) (hf : s.flags = {})
    (h : s.Completes (lap :: laps) status s₁) (hv : v ∈ lap.visits) (hw : v.step = .write) :
    ∃ retry, v.before.Opening retry ∧ (laps = [] → retry = false) := by
  obtain ⟨hm, hrow, -⟩ := write_visit hv hw
  obtain ⟨retry, ho, hn⟩ := h.opening hf hm
  have hs' := (h.entry_moves (List.mem_cons_self ..)).standing hs
  have hr : Opens retry (lap.entry.takeSteps lap.opening) := ho.takeSteps hs' fun _ hmem => hmem
  rw [hrow] at hr
  exact ⟨retry, hr.1, hn⟩

end Sequencer

end FirmwareDownload
