import FirmwareDownload.Proofs.Sequence.Limits
import FirmwareDownload.Proofs.Sequence.Verification
import FirmwareDownload.Proofs.Sequence.Writes

/-! The note that the chip is up to date. It is taken before the write of a main table, and that
table is then the last one and writes nothing. But it need not be the first. -/

namespace FirmwareDownload

variable {W : Type} [Host W]

/-- The controller reports that the chip runs the version, and no download is forced. -/
structure Visit.Finds (v : Visit W) (version : FirmwareVersion) : Prop where
  step : v.step = .getVersion
  report : ∃ report hardware, v.Hears (.getVersion 11) report ∧ report.head? = some hardware ∧
    reportLength? (hardware &&& 0x0F) = some report.length ∧ reportedVersion report = version
  unforced : v.before.options.forceDownload = false

namespace Sequencer

variable {s : Sequencer W} {report : Bytes} {image current : FirmwareVersion}

omit [Host W] in
theorem checkBefore_upToDate (hn : s.upToDate = false)
    (h : (s.checkBefore image current).2.upToDate = true) :
    image = current ∧ s.options.forceDownload = false ∧
      (s.checkBefore image current).1 = .ok () ∧
      (s.checkBefore image current).2.flags = { s.flags with skipRest := true } := by
  unfold Sequencer.checkBefore at h ⊢
  split_ifs at h ⊢ with _ hi hf
  · cases hn.symm.trans h
  · cases hn.symm.trans h
  · exact ⟨hi, Bool.eq_false_iff.2 hf, rfl, rfl⟩
  · cases hn.symm.trans h

omit [Host W] in
theorem takeVersion_upToDate (hn : s.upToDate = false)
    (h : (s.takeVersion report).2.upToDate = true) :
    (∃ hardware, report.head? = some hardware ∧
      reportLength? (hardware &&& 0x0F) = some report.length) ∧
    reportedVersion report = s.imageVersion.getD ⟨0, 0⟩ ∧ s.options.forceDownload = false ∧
      s.flags.unlogged = false ∧ (s.takeVersion report).1 = .ok () ∧
      (s.takeVersion report).2.flags = { s.flags with skipRest := true } := by
  rcases s.takeVersion_cases report with
    ⟨err, chip, he, -⟩ | ⟨hardware, expected, hh, hl, ⟨-, he⟩ | ⟨rfl, he⟩⟩ <;> rw [he] at h ⊢
  · cases hn.symm.trans h
  · cases hn.symm.trans h
  · cases hu : s.flags.unlogged with
    | true =>
      rw [hu, if_pos rfl] at h
      rcases (s.revised (hardware &&& 0x0F)).checkAfter_cases (s.imageVersion.getD ⟨0, 0⟩)
        (reportedVersion report) with ⟨err, hc, -⟩ | ⟨-, hc⟩ <;> rw [hc] at h <;>
        cases hn.symm.trans h
    | false =>
      rw [hu, if_neg Bool.false_ne_true] at h
      rw [if_neg Bool.false_ne_true]
      obtain ⟨hi, hf, hok, hfl⟩ := checkBefore_upToDate (s := s.revised (hardware &&& 0x0F)) hn h
      exact ⟨⟨hardware, hh, hl⟩, hi.symm, hf, rfl, hok, hfl⟩

end Sequencer

namespace Visit

variable {v : Visit W} {steps : List Step}

theorem upToDate (hn : v.step ≠ .getVersion) : v.after.upToDate = v.before.upToDate :=
  (v.spends_tried hn).upToDate

/-- The note that the chip is up to date is taken on a version report, with nothing to log, and the
rest of the table is passed over. -/
theorem finds (hs : v.before.engine.Standing) (hn : v.before.upToDate = false)
    (hu : v.after.upToDate = true) :
    v.Finds (v.before.imageVersion.getD ⟨0, 0⟩) ∧ v.before.flags.unlogged = false ∧
      v.before.flags.skipRest = false ∧ v.before.flags.sessionOpen = false ∧ v.result = .ok () ∧
      v.after.flags = { v.before.flags with skipRest := true } := by
  have hv : v.step = .getVersion := Decidable.byContradiction fun hv => by
    cases hn.symm.trans ((upToDate hv).symm.trans hu)
  have he : v.before.takeStep v.step = v.noted.getVersion := by rw [v.takeStep_eq, hv]
  unfold Sequencer.getVersion at he
  split at he
  · have ha : v.after = v.noted := congrArg Prod.snd he
    rw [ha] at hu
    cases hn.symm.trans hu
  · rename_i hk
    obtain ⟨hsk, hopen⟩ := Bool.or_eq_false_iff.1 (Bool.eq_false_iff.2 hk)
    have hr : v.result = .ok () := by
      obtain ⟨-, -, ⟨err, -, -, ha⟩ | ⟨answer, -, ht⟩⟩ := performs he Sequencer.alike_takeVersion
      · rw [ha] at hu
        cases hn.symm.trans hu
      · obtain ⟨hr, ha⟩ := Prod.mk.inj ht
        obtain ⟨-, -, -, -, hok, -⟩ := Sequencer.takeVersion_upToDate
          (s := (v.noted.attempt (.getVersion 11)).2) hn (ha ▸ hu)
        exact hr.trans hok
    obtain ⟨report, hears, ht⟩ := hears hs rfl he Sequencer.alike_takeVersion hr
    have ha : v.after = _ := (congrArg Prod.snd ht).symm
    rw [ha] at hu ⊢
    obtain ⟨⟨hardware, hh, hl⟩, hver, hforce, hlog, -, hfl⟩ := Sequencer.takeVersion_upToDate
      (s := (v.noted.attempt (.getVersion 11)).2) hn hu
    exact ⟨⟨hv, ⟨report, hardware, hears, hh, hl, hver⟩, hforce⟩, hlog, hsk, hopen, hr, hfl⟩

theorem outcome_upToDate (ha : v.after.upToDate = false)
    (hk : v.result = .ok () → (v.after.takeSteps steps).2.upToDate = false) :
    (v.outcome steps).2.upToDate = false := by
  cases hr : v.result with
  | error err =>
    rw [outcome_error hr]
    exact ha
  | ok =>
    rw [outcome_ok hr]
    exact hk hr

end Visit

namespace Sequencer

variable {s s₁ s' : Sequencer W} {v w : Visit W} {steps : List Step} {lap : Lap W}
  {laps : List (Lap W)} {status : Except DownloadError Unit} {retry : Bool}

theorem takeSteps_upToDate (hn : Step.getVersion ∉ steps) :
    (s.takeSteps steps).2.upToDate = s.upToDate := by
  refine (keeps_takeSteps (P := fun s' => s'.upToDate = s.upToDate) steps rfl
    fun s' step hm hs => ?_).1
  have hv : (Visit.mk step s').after.upToDate = s'.upToDate :=
    Visit.upToDate (v := ⟨step, s'⟩) fun he => hn (he ▸ hm)
  exact hv.trans hs

/-! ## After a write -/

/-- The version is not compared to find the chip up to date: it is checked against a counted write,
or a download is forced, or it is not asked for. -/
def Past (s : Sequencer W) : Prop :=
  s.flags.unlogged = true ∨ s.options.forceDownload = true ∨ s.flags.skipRest = true

theorem Opening.past (h : w.before.Opening retry) (hs : w.before.engine.Standing)
    (hw : w.step = .write) (hr : w.result = .ok ()) : w.after.Past := by
  rcases Visit.write_cases hw with hc | hc | ⟨⟨hk, -⟩, -, ha⟩
  · obtain ⟨-, ⟨-, hf, -⟩ | ⟨err, he, -⟩⟩ := Visit.counted_cases hs hc
    · exact .inl (by rw [hf])
    · cases hr.symm.trans he
  · have hf := h.forced (Visit.uncounted_iff.1 hc).2.1
    exact .inr (.inl (by rw [w.does.1.keeps.1]; exact hf))
  · exact .inr (.inr (by rw [ha]; exact hk))

theorem getSessionState_keeps (s : Sequencer W) :
    s.getSessionState.2.flags.unlogged = s.flags.unlogged ∧
      s.getSessionState.2.flags.skipRest = s.flags.skipRest ∧
      s.getSessionState.2.options = s.options := by
  unfold Sequencer.getSessionState
  split_ifs
  · exact ⟨rfl, rfl, rfl⟩
  · rcases s.performThen_cases (.getSessionState 3) takeSessionState with
      ⟨err, -, he⟩ | ⟨report, -, he⟩ <;> rw [he]
    · exact ⟨rfl, rfl, rfl⟩
    · rcases takeSessionState_cases (s.attempt (.getSessionState 3)).2 report with
        ⟨err, he, -⟩ | ⟨isOpen, -, -, -, ⟨-, -, err, he, -⟩ | ⟨-, he⟩⟩ <;> rw [he] <;>
        exact ⟨rfl, rfl, rfl⟩

theorem Past.closing (h : s.Past) (hs : s.engine.Standing) (hn : s.upToDate = false) :
    (s.takeSteps closingSteps).2.upToDate = false := by
  let g : Visit W := ⟨.getSessionState, s⟩
  let v : Visit W := ⟨.getVersion, g.after⟩
  have hg : g.after.Past := by
    obtain ⟨hu, hk, ho⟩ := getSessionState_keeps g.noted
    have hu : g.after.flags.unlogged = s.flags.unlogged := hu
    have hk : g.after.flags.skipRest = s.flags.skipRest := hk
    have ho : g.after.options = s.options := ho
    unfold Past
    rw [hu, hk, ho]
    exact h
  have hgn : g.after.upToDate = false := (Visit.upToDate Step.noConfusion).trans hn
  have hv : v.after.upToDate = false := Bool.eq_false_iff.2 fun hu => by
    obtain ⟨hf, hlog, hk, -⟩ := Visit.finds (v := v) (g.moves.standing hs) hgn hu
    rcases hg with h | h | h
    · cases h.symm.trans hlog
    · cases h.symm.trans hf.unforced
    · cases h.symm.trans hk
  rw [closingSteps, takeSteps_cons]
  refine Visit.outcome_upToDate hgn fun _ => ?_
  rw [takeSteps_cons]
  exact Visit.outcome_upToDate hv fun _ => (takeSteps_upToDate (by decide)).trans hv

/-! ## Main tables -/

def leadingSteps (chip : ChipFamily) : List Step :=
  (match chip with
    | .pn548ad => []
    | .pn547c2 => [.normal, .normal]) ++ [.getSessionState]

theorem openingSteps_eq (chip : ChipFamily) :
    openingSteps chip = leadingSteps chip ++ [.getVersion, .logRead] := by
  cases chip <;> rfl

/-- From a chip that is not known to be up to date the rest of a main table leads to none. -/
theorem Opening.not_upToDate (h : s.Opening retry) (hs : s.engine.Standing)
    (hn : s.upToDate = false) :
    (s.takeSteps (.logRead :: .write :: closingSteps)).2.upToDate = false := by
  let l : Visit W := ⟨.logRead, s⟩
  let w : Visit W := ⟨.write, l.after⟩
  have hl : l.after.upToDate = false := (Visit.upToDate Step.noConfusion).trans hn
  have hw : w.after.upToDate = false := (Visit.upToDate Step.noConfusion).trans hl
  have hsl := l.moves.standing hs
  have ho : l.after.Opening retry :=
    (h.takeStep hs (show .logRead ∈ openingSteps .pn548ad by decide)).1
  rw [takeSteps_cons]
  refine Visit.outcome_upToDate hl fun _ => ?_
  rw [takeSteps_cons]
  exact Visit.outcome_upToDate hw fun hr =>
    (Opening.past (w := w) ho hsl rfl hr).closing (w.moves.standing hsl) hw

/-- With the chip up to date, the rest of a main table does nothing. -/
theorem takeSteps_passed (hs : s.engine.Standing) (hk : s.flags.skipRest = true)
    (ho : s.flags.sessionOpen = false) (hu : s.flags.unlogged = false) :
    (s.takeSteps (.logRead :: .write :: closingSteps)).1 = .ok () ∧
      (s.takeSteps (.logRead :: .write :: closingSteps)).2.flags =
        { s.flags with retry := false } ∧
      s.engine.Unwritten (s.takeSteps (.logRead :: .write :: closingSteps)).2.engine := by
  let l : Visit W := ⟨.logRead, s⟩
  let w : Visit W := ⟨.write, l.noted⟩
  have hl : s.takeStep .logRead = (.ok (), l.noted) := by
    have he : s.takeStep .logRead = l.noted.logRead := rfl
    rw [he]
    unfold Sequencer.logRead
    exact if_pos (by simp [show l.noted.flags = s.flags from rfl, hk, ho])
  have hw : l.noted.takeStep .write = (.ok (), w.trying) := by
    have he : l.noted.takeStep .write = w.noted.write := rfl
    rw [he]
    unfold Sequencer.write
    refine if_pos ?_
    simp [show w.noted.flags = s.flags from rfl, withFlags, hk, ho]
  have hrow : s.takeSteps (.logRead :: .write :: closingSteps) =
      w.trying.takeSteps closingSteps := by
    rw [Sequencer.takeSteps, hl]
    dsimp only
    rw [Sequencer.takeSteps, hw]
  obtain ⟨hok, hf⟩ : (w.trying.takeSteps closingSteps).1 = .ok () ∧
      (w.trying.takeSteps closingSteps).2.flags = w.trying.flags :=
    takeSteps_over hk hu fun _ hm => hm
  have hun : w.trying.engine.Unwritten (w.trying.takeSteps closingSteps).2.engine :=
    takeSteps_unwritten hs (by decide)
  rw [hrow]
  exact ⟨hok, hf, hun⟩

/-- A main table comes to its version check, or its end tells nothing of the version. -/
theorem Opening.main_version (h : lap.entry.Opening retry) (hs : lap.entry.engine.Standing)
    (ht : lap.table = .main) : lap.exit.upToDate = lap.entry.upToDate ∨
    ∃ v ∈ lap.visits, v.step = .getVersion ∧ v.before.Opening retry ∧
      v.before.engine.Standing ∧ v.before.upToDate = lap.entry.upToDate ∧
      lap.entry.engine.Unwritten v.before.engine ∧
      (lap.result, lap.exit) = v.outcome (.logRead :: .write :: closingSteps) := by
  let leading := leadingSteps lap.entry.engine.config.chip
  have hsteps : lap.steps = leading ++ .getVersion :: .logRead :: .write :: closingSteps := by
    rw [Lap.steps_main ht, Lap.opening, openingSteps_eq, List.append_assoc]
    rfl
  obtain ⟨hversion, hplain, hmem⟩ : Step.getVersion ∉ leading ∧
      (∀ step ∈ leading, step.command ≠ .write) ∧
      ∀ step ∈ leading, step ∈ openingSteps lap.entry.engine.config.chip := by
    unfold leading
    cases lap.entry.engine.config.chip <;> decide
  have hb : Opens retry (lap.entry.takeSteps leading) := h.takeSteps hs hmem
  have hm := takeSteps_moves lap.entry leading
  have hn := takeSteps_upToDate (s := lap.entry) hversion
  have hw := takeSteps_unwritten hs hplain
  have hexit : (lap.result, lap.exit) = lap.entry.takeSteps lap.steps := rfl
  unfold Lap.visits
  rw [hsteps, takeSteps_append] at hexit
  rw [hsteps, visits_append]
  rcases hrow : lap.entry.takeSteps leading with ⟨err | _, b⟩ <;>
    rw [hrow] at hb hm hn hw hexit <;> dsimp only at hexit ⊢
  · rw [(Prod.mk.inj hexit).2]
    exact .inl hn
  · rw [takeSteps_cons] at hexit
    refine .inr ⟨⟨.getVersion, b⟩, ?_, rfl, hb.1, hm.standing hs, hn, hw, hexit⟩
    rw [visits_cons]
    exact List.mem_append_right _ (List.mem_cons_self ..)

/-- A main table that finds the chip up to date writes nothing and calls for nothing more. -/
theorem Opening.lap_upToDate (h : lap.entry.Opening retry) (hs : lap.entry.engine.Standing)
    (ht : lap.table = .main) (hn : lap.entry.upToDate = false) (hu : lap.exit.upToDate = true) :
    lap.result = .ok () ∧ lap.exit.next? = none ∧ lap.entry.engine.Unwritten lap.exit.engine ∧
      ∃ v ∈ lap.visits, v.Finds (lap.entry.imageVersion.getD ⟨0, 0⟩) := by
  rcases h.main_version hs ht with he | ⟨v, hmem, hv, hb, hsb, hbn, hbw, hexit⟩
  · cases hn.symm.trans (he.symm.trans hu)
  · have hbn := hbn.trans hn
    have hsv := v.moves.standing hsb
    cases ha : v.after.upToDate with
    | false =>
      have ho : v.after.Opening retry :=
        (hb.takeStep hsb (show v.step ∈ openingSteps .pn548ad by rw [hv]; decide)).1
      have hstays := Visit.outcome_upToDate ha fun _ => ho.not_upToDate hsv ha
      rw [← hexit] at hstays
      cases hstays.symm.trans hu
    | true =>
      obtain ⟨hfinds, hlog, -, hopen, hr, hf⟩ := Visit.finds hsb hbn ha
      rw [Visit.outcome_ok hr] at hexit
      obtain ⟨hok, hfl, hun⟩ := takeSteps_passed hsv (by rw [hf]) (by rw [hf]; exact hopen)
        (by rw [hf]; exact hlog)
      rw [← hexit] at hok hfl hun
      refine ⟨hok, ?_, (hbw.trans (v.unwritten hsb fun c a hc hw => ?_)).trans hun, v, hmem, ?_⟩
      · unfold Sequencer.next?
        rw [show lap.exit.flags = _ from hfl, hf]
        dsimp only
        rw [hlog, hb.healthy]
        rfl
      · rw [v.does.2 c a hc, hv] at hw
        cases hw
      · rw [← (takeSteps_keeps lap.entry lap.steps v hmem).2]
        exact hfinds

theorem lap_upToDate_of_ne (ht : lap.table ≠ .main) :
    lap.exit.upToDate = lap.entry.upToDate := by
  refine takeSteps_upToDate ?_
  unfold Lap.steps
  cases h : lap.table with
  | main => exact (ht h).elim
  | recovery => simp [Table.steps]
  | log => simp [Table.steps]

/-! ## The whole sequence -/

theorem Completes.options (hf : s.flags = {}) (h : s.Completes (lap :: laps) status s₁) :
    lap.entry.options = s.options :=
  (h.along (P := fun _ s₁ => s₁.options = s.options) hf (fun _ hb => hb.kept.2.1)
    (fun _ s₁ status t _ ho => (s₁.lapAfter_counts status t).2.2.trans ho)
    (fun _ _ _ _ v _ _ _ ho => v.does.1.keeps.1.trans ho)).1

omit [Host W] in
theorem lapAfter_upToDate (s : Sequencer W) (status : Except DownloadError Unit) (t : Table) :
    (s.lapAfter status t).entry.upToDate = s.upToDate := by
  rw [← show _ = s.upToDate from (s.react_calls status).1.upToDate]
  cases t <;> rfl

/-- No table follows on one that found the chip up to date. -/
theorem Completes.upToDate (hs : s.engine.Standing) (hf : s.flags = {}) (hn : s.upToDate = false)
    (h : s.Completes laps status s₁) (hu : s₁.upToDate = true) :
    (s₁.react status).next? = none ∧ ∃ lap earlier, laps = lap :: earlier ∧ lap.table = .main ∧
      lap.entry.engine.Unwritten s₁.engine ∧
      ∃ v ∈ lap.visits, v.Finds (lap.entry.imageVersion.getD ⟨0, 0⟩) := by
  induction h with
  | refused hb =>
    cases hn.symm.trans ((start_spends hb).1.upToDate.symm.trans hu)
  | @opens s₁ hb =>
    have hc : s.Completes [⟨.main, s₁.entered .main⟩] _ _ := .opens hb
    have hs₁ := (hc.entry_moves (List.mem_cons_self ..)).standing hs
    have hn₁ : (s₁.entered .main).upToDate = false := by
      obtain rfl := hb.eq_opened
      exact hn
    obtain ⟨hok, hnext, hw, hv⟩ := (hc.first_lap hf).2.2.1.lap_upToDate hs₁ rfl hn₁ hu
    rw [hok]
    exact ⟨hnext, _, [], rfl, rfl, hw, hv⟩
  | @next laps status s₁ t hc hd ih =>
    have hn₁ : s₁.upToDate = false := Bool.eq_false_iff.2 fun hu₁ => by
      cases hd.symm.trans (ih hu₁).1
    have hne : (s₁.lapAfter status t).entry.upToDate = false :=
      (s₁.lapAfter_upToDate status t).trans hn₁
    have hc' := hc.next hd
    cases t with
    | main =>
      obtain ⟨retry, ho, -⟩ := hc'.opening hf rfl
      have hs₁ := (hc'.entry_moves (List.mem_cons_self ..)).standing hs
      obtain ⟨hok, hnext, hw, hv⟩ := ho.lap_upToDate hs₁ rfl hne hu
      have hst : statusAfter status .main (s₁.lapAfter status .main).result = .ok () := hok
      rw [hst]
      exact ⟨hnext, _, laps, rfl, rfl, hw, hv⟩
    | recovery => cases hne.symm.trans ((lap_upToDate_of_ne Table.noConfusion).symm.trans hu)
    | log => cases hne.symm.trans ((lap_upToDate_of_ne Table.noConfusion).symm.trans hu)

theorem Begins.unwritten (h : s.Begins s₁) : s.engine.Unwritten s₁.engine := by
  obtain ⟨version, e, hl, hm⟩ := h
  have hp := Engine.Passes.loadPrimary s.engine
  rw [hl] at hp
  obtain rfl := congrArg Prod.snd hm
  exact (Engine.Unwritten.of_eq hp.journal).trans (setMode_unwritten _ .download)

theorem Completes.entry_unwritten (hf : s.flags = {}) (h : s.Completes [lap] status s₁) :
    s.engine.Unwritten lap.entry.engine := by
  cases h with
  | opens hb => exact hb.unwritten
  | next h hd => cases hd.symm.trans (h.not_due hf)

theorem Completes.retried_wrote (hs : s.engine.Standing) (hf : s.flags = {})
    (h : s.Completes (lap :: laps) status s₁) (ht : lap.table = .main) (hl : laps ≠ []) :
    s.engine.Wrote lap.entry.engine := by
  obtain ⟨prev, earlier, rfl⟩ := List.exists_cons_of_ne_nil hl
  obtain ⟨status', t, hc, hd, rfl⟩ := h.follows
  obtain rfl : t = .main := ht
  have hm := prev.exit.lapAfter_moves status' .main
  rcases hc.quiet hs hf with hw | hq
  · exact hw.later (hm.isSuffix (hc.moves.standing hs))
  · cases (hq.next? hd).1

/-- The chip is reported up to date only by the last table, a main table in which the controller
reported the version of the image, and that wrote nothing. Nothing at all was written if and only if
it was the first table. -/
theorem up_to_date_unwritten_unless_retried (config : Config) (library : ImageLibrary) (w : W)
    (moves : List (Move W)) (options : SequenceOptions) :
    let s : Sequencer W :=
      { engine := (Engine.fresh config library w).run moves, options := options }
    ∀ budget report s', s.run budget = some (report, s') → report.upToDate = true →
      ∃ lap laps status s₁ image ns ns', s.Completes (lap :: laps) status s₁ ∧
        (s₁.react status).next? = none ∧ s'.history = s₁.history ∧ lap.table = .main ∧
        options.forceDownload = false ∧ library .primary = .ok image ∧
        (∃ v ∈ lap.visits, v.Finds (image.version?.getD ⟨0, 0⟩)) ∧
        lap.entry.engine.journal = ns ++ s.engine.journal ∧
        s'.engine.journal = ns' ++ lap.entry.engine.journal ∧
        writeFrames (ns' ++ ns) = writeFrames ns ∧ (writeFrames (ns' ++ ns) = [] ↔ laps = []) := by
  intro s budget report s' hr hu
  have hs : s.engine.Standing := (Engine.standing_fresh config library w).run moves
  have hlib : s.engine.library = library := ((Engine.stocked_fresh config library w).run
    (Engine.standing_fresh config library w) moves).source
  obtain ⟨laps, status, s₁, hc, hn, hh, hsp, -, hreport, hleft⟩ := run_counts hr
  have hu₁ : s₁.upToDate = true := hsp.upToDate.symm.trans (hreport.symm.trans hu)
  obtain ⟨-, lap, laps, rfl, ht, hw, v, hv, hfinds⟩ := hc.upToDate hs rfl rfl hu₁
  obtain ⟨image, hi, hversion⟩ := hc.image rfl
  rw [hversion] at hfinds
  obtain ⟨ns', hj', hlast⟩ : lap.entry.engine.Unwritten s'.engine := by
    rw [hleft]
    exact hw.trans (s₁.setMode_unwritten .normal)
  obtain ⟨ns, hj⟩ := (hc.entry_moves (List.mem_cons_self ..)).isSuffix hs
  refine ⟨lap, laps, status, s₁, image, ns, ns', hc, hn, hh, ht, ?_, hlib ▸ hi, ⟨v, hv, hfinds⟩,
    hj.symm, hj', hlast ns, ?_⟩
  · have ho := hfinds.unforced
    rw [(takeSteps_keeps lap.entry lap.steps v hv).1, hc.options rfl] at ho
    exact ho
  · rw [hlast]
    constructor
    · intro he
      refine Decidable.byContradiction fun hl => ?_
      obtain ⟨ns₁, hj₁, hne⟩ := hc.retried_wrote hs rfl ht hl
      obtain rfl := List.append_cancel_right (hj.trans hj₁)
      exact hne [] (by rw [List.append_nil, he])
    · rintro rfl
      obtain ⟨ns₁, hj₁, he⟩ := hc.entry_unwritten rfl
      obtain rfl := List.append_cancel_right (hj.trans hj₁)
      rw [← List.append_nil ns, he]
      rfl

/-- After the write the controller reports an open session once, and then the new version. -/
def openOnce : Script where
  answers := [
    (some 0xF2, [.status 0x00 [0x00, 0x00, 0x11], .status 0x00 [0x01, 0x00, 0x11],
      .status 0x00 [0x00, 0x00, 0x11]]),
    (some 0xF1, [.status 0x00 [0x08, 0x10, 0x00, 0x00, 0x00, 0x00, 0x00, 0x19, 0x08],
      .status 0x00 [0x08, 0x10, 0x00, 0x00, 0x00, 0x00, 0x00, 0x1A, 0x08]]),
    (some 0xA2, [.status 0x00 ([0x00, 0x0D, 0x00, 0x00] ++ List.replicate 12 0)]),
    (some 0xC0, [.status 0x00 []]),
    (some 0xA7, [.status 0x00 []])]

def reopened : Sequencer Rehearsal := rehearsed openOnce { maxAttempts := 2, stepLimit := 0 }

/-- The primary image is written, and the chip is reported to have been up to date. -/
theorem written_up_to_date : ∃ report s' lap laps status s₁ ns, reopened.run 2 = some (report, s') ∧
    report.upToDate = true ∧ reopened.Completes (lap :: laps) status s₁ ∧ laps ≠ [] ∧
    s'.engine.journal = ns ++ reopened.engine.journal ∧
    (writeFrames ns).map some = [firstFrame .primary] := by
  have h : (reopened.run 2).map (fun r =>
      (r.1.upToDate, (writeFrames r.2.engine.journal).map some)) =
      some (true, [firstFrame .primary]) := by decide +kernel
  obtain ⟨⟨report, s'⟩, hr, he⟩ := Option.map_eq_some_iff.1 h
  obtain ⟨hu, hw⟩ := Prod.mk.inj he
  obtain ⟨lap, laps, status, s₁, image, ns, ns', hc, -, -, -, -, -, -, hj, hj', -, hiff⟩ :=
    up_to_date_unwritten_unless_retried {} threeImages reopened.engine.world [] reopened.options
      2 report s' hr hu
  have hj' : s'.engine.journal = (ns' ++ ns) ++ reopened.engine.journal := by
    rw [hj', hj, List.append_assoc]
    rfl
  have hframes : (writeFrames (ns' ++ ns)).map some = [firstFrame .primary] := by
    rw [hj', show reopened.engine.journal = [] from rfl, List.append_nil] at hw
    exact hw
  refine ⟨report, s', lap, laps, status, s₁, _, hr, hu, hc, fun hl => ?_, hj', hframes⟩
  rw [hiff.2 hl] at hframes
  cases hframes

end Sequencer

end FirmwareDownload
