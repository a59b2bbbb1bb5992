import FirmwareDownload.Proofs.Sequence.Recovery
import FirmwareDownload.Proofs.Sequence.Tally

/-! The records that a sequence sends. Each counts from one that was read in the sequence, unless
the first table wrote by force: then nothing may have been read. -/

namespace FirmwareDownload

variable {W : Type} [Host W]

namespace Visit

variable {v : Visit W}

theorem step_of_log {bytes : Bytes} {attempt : Attempt}
    (h : v.command? = some (.log bytes, attempt)) : v.step = .log := by
  have hc := v.does.2 _ _ h
  cases hst : v.step <;> rw [hst] at hc <;> first | rfl | cases hc

theorem log_bytes {bytes : Bytes} {attempt : Attempt}
    (h : v.command? = some (.log bytes, attempt)) : bytes = v.before.statistics.toBytes ∧
      ((v.before.flags.skipRest || v.before.flags.forced) && !v.before.flags.unlogged) = false := by
  rcases log_cases (step_of_log h) with ⟨-, hn⟩ | ⟨hk, he⟩
  · cases (command?_noted hn).symm.trans h
  · obtain ⟨hc, -⟩ := performs he fun s _ => Sequencer.alike_withFlags s _
    cases hc.symm.trans h
    exact ⟨rfl, hk⟩

end Visit

namespace Sequencer

variable {s s₁ s' b : Sequencer W} {status : Except DownloadError Unit} {lap : Lap W}
  {laps later : List (Lap W)} {v w : Visit W} {chip : ChipFamily}

/-! ## The first table without a read -/

theorem openingSteps_unread (h : s.takeSteps (openingSteps chip) = (.ok (), b))
    (hn : ∀ u ∈ s.visits (openingSteps chip), u.read? = none) :
    ((b.flags.skipRest || b.flags.forced) && !b.flags.sessionOpen ||
      b.flags.sessionOpen && b.flags.retry) = true := by
  -- The read is the last of these steps, so what passed it over still stands at their end.
  unfold openingSteps at h hn
  rw [show [Step.getSessionState, .getVersion, .logRead] =
    [.getSessionState, .getVersion] ++ [.logRead] from rfl, ← List.append_assoc] at h hn
  obtain ⟨a, -, hl, hvis⟩ := takeSteps_append_ok h
  obtain ⟨hr, hb, hl⟩ := takeSteps_cons_ok hl
  have hb : (Visit.mk .logRead a).after = b := congrArg Prod.snd hb
  rw [hvis, hl] at hn
  have hu := hn ⟨.logRead, a⟩ (List.mem_append_right _ (List.mem_cons_self ..))
  rcases Visit.read?_cases (v := ⟨.logRead, a⟩) rfl with he | ⟨-, -, hk⟩
  · cases hu.symm.trans he
  · obtain ⟨hk, hf⟩ := hk hr
    rw [← hb, hf]
    exact hk

omit [Host W] in
theorem Opening.not_retry (h : s.Opening false) : s.flags.retry = false :=
  Bool.eq_false_iff.2 fun hr => Bool.false_ne_true (h.retries hr)

omit [Host W] in
theorem Opening.next? (h : s.Opening false) : s.next? = none := by
  unfold Sequencer.next?
  rw [h.logged, h.healthy, h.not_retry]
  rfl

theorem Opening.unread (h : b.Opening false) (hb : s.takeSteps (openingSteps chip) = (.ok (), b))
    (hn : ∀ u ∈ s.visits (openingSteps chip), u.read? = none) :
    b.flags.skipRest = true ∨ b.flags.forced = true := by
  have hk := openingSteps_unread hb hn
  rw [h.not_retry, Bool.and_false, Bool.or_false] at hk
  simpa using (Bool.and_eq_true_iff.1 hk).1

theorem Opening.not_counted (h : w.before.Opening false)
    (hb : s.takeSteps (openingSteps chip) = (.ok (), w.before))
    (hn : ∀ u ∈ s.visits (openingSteps chip), u.read? = none) : w.counted = false := by
  refine Bool.eq_false_iff.2 fun hc => ?_
  rcases h.unread hb hn with hk | hk
  · cases hk.symm.trans (Visit.counted_onward h hc)
  · cases hk.symm.trans (Visit.counted_iff.1 hc).2.1

/-- With the rest of the table passed over, the steps after a write do nothing. -/
theorem takeSteps_over {steps : List Step} (hk : s.flags.skipRest = true)
    (hu : s.flags.unlogged = false) (hm : ∀ step ∈ steps, step ∈ closingSteps) :
    (s.takeSteps steps).1 = .ok () ∧ (s.takeSteps steps).2.flags = s.flags := by
  induction steps generalizing s with
  | nil => exact ⟨rfl, rfl⟩
  | cons step steps ih =>
    have hn : s.takeStep step = (.ok (), { s with history := .step step :: s.history }) := by
      have hst := hm step (List.mem_cons_self ..)
      simp only [closingSteps, List.mem_cons, List.not_mem_nil, or_false] at hst
      unfold Sequencer.takeStep
      rcases hst with rfl | rfl | rfl | rfl
      · exact if_pos hk
      · exact if_pos (by rw [hk]; rfl)
      · exact if_pos (by rw [hk, hu]; rfl)
      · exact if_pos (by rw [hk, Bool.or_true])
    unfold Sequencer.takeSteps
    rw [hn]
    exact ih hk hu fun step hs => hm step (List.mem_cons_of_mem _ hs)

theorem Opening.passed_over (h : w.before.Opening false) (hk : w.before.flags.skipRest = true)
    (ha : w.after = w.trying) :
    ((w.after.takeSteps closingSteps).2.react (w.after.takeSteps closingSteps).1).next? = none := by
  have hf : w.after.flags = { w.before.flags with retry := false } := by
    rw [ha]
    rfl
  have hover : (w.after.takeSteps closingSteps).1 = .ok () ∧
      (w.after.takeSteps closingSteps).2.flags = w.after.flags :=
    takeSteps_over (by rw [hf]; exact hk) (by rw [hf]; exact h.logged) fun _ hmem => hmem
  obtain ⟨hres, hfl⟩ := hover
  rw [hres]
  unfold Sequencer.react Sequencer.next?
  rw [hfl, hf]
  dsimp only
  rw [h.logged, h.healthy]
  rfl

theorem Completes.first_lap (hf : s.flags = {}) (h : s.Completes [lap] status s₁) :
    lap.table = .main ∧ status = lap.result ∧ lap.entry.Opening false ∧
      lap.entry.options = s.options := by
  have ht : lap.table = .main ∧ status = lap.result ∧ lap.entry.options = s.options := by
    cases h with
    | opens hb => exact ⟨rfl, rfl, hb.kept.2.1⟩
    | next h hd =>
      rw [h.not_due hf] at hd
      cases hd
  obtain ⟨retry, ho, hretry⟩ := h.opening hf ht.1
  rw [hretry rfl] at ho
  exact ⟨ht.1, ht.2.1, ho, ht.2.2⟩

/-- If nothing was read in the first table and another follows, then the first wrote by force. -/
theorem Completes.forced_first (hs : s.engine.Standing) (hf : s.flags = {})
    (h : s.Completes [lap] status lap.exit) (hnext : (lap.exit.react status).next? ≠ none)
    (hn : ∀ u ∈ lap.visits, u.read? = none) :
    s.options.forceDownload = true ∧ ∃ u ∈ lap.visits, u.uncounted = true := by
  obtain ⟨hm, rfl, hentry, hopt⟩ := h.first_lap hf
  have hs' := (h.entry_moves (List.mem_cons_self ..)).standing hs
  rcases hentry.main_cases hs' hm with ⟨err, hr, hrec, hb⟩ | ⟨w, hw, hb, hrow, hvis, hout⟩
  · -- What fails before the write is not mended, so no table follows on it.
    rw [hr, react_unrecoverable _ hrec, hb.next?] at hnext
    exact (hnext rfl).elim
  · have hopen : ∀ u ∈ lap.entry.visits lap.opening, u.read? = none := fun u hu =>
      hn u (hvis ▸ List.mem_append_left _ hu)
    rcases Visit.write_cases hw with hc | hc | ⟨⟨hk, -⟩, hr, ha⟩
    · rw [hb.not_counted hrow hopen] at hc
      cases hc
    · have hwl : w ∈ lap.visits := hvis ▸ List.mem_append_right _ (List.mem_cons_self ..)
      have hforce := hb.forced (Visit.uncounted_iff.1 hc).2.1
      rw [(takeSteps_keeps lap.entry lap.steps w hwl).1, hopt] at hforce
      exact ⟨hforce, w, hwl, hc⟩
    · rw [Visit.outcome_ok hr] at hout
      have hover := hb.passed_over hk ha
      rw [← hout] at hover
      exact (hnext hover).elim

/-! ## The record that is sent -/

theorem log_visit_main (ht : lap.table = .main) (hv : v ∈ lap.visits) (hl : v.step = .log) :
    ∃ w, w.step = .write ∧ w.result = .ok () ∧
      lap.entry.takeSteps lap.opening = (.ok (), w.before) ∧
      w.after.takeSteps [.getSessionState, .getVersion] = (.ok (), v.before) ∧
      ∃ post, lap.visits = (lap.entry.visits lap.opening ++
        w :: w.after.visits [.getSessionState, .getVersion]) ++ v :: post := by
  have hsteps : lap.steps = (lap.opening ++ .write :: [.getSessionState, .getVersion]) ++
      v.step :: [.checkIntegrity] := by
    rw [hl, List.append_assoc]
    exact Lap.steps_main ht
  have hn : v.step ∉ lap.opening ++ .write :: [.getSessionState, .getVersion] := by
    unfold Lap.opening
    rw [hl]
    cases lap.entry.engine.config.chip <;> decide
  have hn' : v.step ∉ [Step.checkIntegrity] := by
    rw [hl]
    decide
  unfold Lap.visits at hv ⊢
  rw [hsteps] at hv ⊢
  obtain ⟨hrow, hvis, -⟩ := visits_at hn hn' hv
  obtain ⟨b, hb, hw, hvis'⟩ := takeSteps_append_ok hrow
  obtain ⟨hr, hmid, hvis''⟩ := takeSteps_cons_ok hw
  exact ⟨⟨.write, b⟩, rfl, hr, hb, hmid, _, by rw [hvis, hvis', hvis'']⟩

/-- A main table sends the record only after a counted write. -/
theorem counted_of_logged (hw : w.step = .write)
    (hu : w.before.flags.unlogged = false)
    (hmid : w.after.takeSteps [.getSessionState, .getVersion] = (.ok (), b))
    (hk : ((b.flags.skipRest || b.flags.forced) && !b.flags.unlogged) = false) :
    w.counted = true := by
  -- A write that is forced or passed over leaves nothing to log, and the two steps in between do not
  -- change that.
  have hsteady : w.after.Steady b := by
    obtain ⟨-, hv, -⟩ := takeSteps_cons_ok hmid
    obtain ⟨-, hb, -⟩ := takeSteps_cons_ok hv
    obtain rfl := congrArg Prod.snd hb
    exact (takeStep_steady _ Step.noConfusion Step.noConfusion).trans
      (takeStep_steady _ Step.noConfusion Step.noConfusion)
  have hpass : w.after.flags.unlogged = false →
      (w.after.flags.skipRest || w.after.flags.forced) = true → w.counted = true := by
    intro hn hp
    have hb : b.flags.unlogged = false := by
      cases hbu : b.flags.unlogged with
      | false => rfl
      | true => exact (hn.symm.trans (hsteady.unlogged hbu)).symm
    rw [hsteady.passes hp, hb] at hk
    cases hk
  rcases Visit.write_cases hw with hc | hc | ⟨⟨hsk, -⟩, -, hafter⟩
  · exact hc
  · obtain ⟨-, hfo, hun⟩ := Visit.uncounted_leaves hc hu
    exact hpass hun (by rw [hfo, Bool.or_true])
  · rw [hafter] at hpass
    exact hpass hu (by rw [show w.trying.flags.skipRest = true from hsk]; rfl)

theorem Completes.read_before_log (hs : s.engine.Standing) (hf : s.flags = {})
    (h : s.Completes [lap] status s₁) (hv : v ∈ lap.visits) {bytes : Bytes} {attempt : Attempt}
    (hc : v.command? = some (.log bytes, attempt)) :
    ∃ pre post, lap.visits = pre ++ v :: post ∧ ∃ u ∈ pre, u.read? ≠ none := by
  have ht := (h.first_lap hf).1
  obtain ⟨w, hw, -, hopen, hmid, post, hvis⟩ := log_visit_main ht hv (Visit.step_of_log hc)
  refine ⟨_, post, hvis, ?_⟩
  have hwl : w ∈ lap.visits := by
    rw [hvis]
    exact List.mem_append_left _ (List.mem_append_right _ (List.mem_cons_self ..))
  obtain ⟨retry, hb, hretry⟩ := h.write_opening hs hf hwl hw
  rw [hretry rfl] at hb
  have hcounted := counted_of_logged hw hb.logged hmid (Visit.log_bytes hc).2
  by_cases hn : ∀ u ∈ lap.entry.visits lap.opening, u.read? = none
  · rw [hb.not_counted hopen hn] at hcounted
    cases hcounted
  · obtain ⟨u, hn⟩ := Classical.not_forall.1 hn
    obtain ⟨hu, hr⟩ := Classical.not_imp.1 hn
    exact ⟨u, List.mem_append_left _ hu, hr⟩

theorem Completes.forced_before (hs : s.engine.Standing) (hf : s.flags = {})
    (h : s.Completes (lap :: laps) status s₁) (hl : laps ≠ [])
    (hn : ∀ u ∈ trail laps, u.read? = none) :
    s.options.forceDownload = true ∧ ∃ u ∈ trail laps, u.uncounted = true := by
  obtain ⟨first, rest, rfl⟩ : ∃ first rest, laps = rest ++ [first] :=
    ⟨_, _, (List.dropLast_concat_getLast hl).symm⟩
  obtain ⟨second, later, he⟩ : ∃ second later, lap :: rest = later ++ [second] :=
    ⟨_, _, (List.dropLast_concat_getLast (List.cons_ne_nil lap rest)).symm⟩
  have hall : s.Completes (later ++ second :: [first]) status s₁ := by
    rw [List.append_cons, ← he]
    exact h
  obtain ⟨status', htwo⟩ := hall.upto
  obtain ⟨status'', t, hone, hdue, -⟩ := htwo.follows
  have hmem : ∀ u ∈ first.visits, u ∈ trail (rest ++ [first]) := fun u hu =>
    mem_trail.2 ⟨first, List.mem_append_right _ (List.mem_cons_self ..), hu⟩
  obtain ⟨hforce, u, hu, hc⟩ := hone.forced_first hs hf (by rw [hdue]; exact nofun)
    fun u hu => hn u (hmem u hu)
  exact ⟨hforce, u, hmem u hu, hc⟩

/-- A record that is sent counts the writes since the last read. Only if the first table wrote by
force may there be none; then the record counts from zero. -/
theorem sent_record_counts_unless_forced (config : Config) (library : ImageLibrary) (w : W)
    (moves : List (Move W)) (options : SequenceOptions) :
    let s : Sequencer W :=
      { engine := (Engine.fresh config library w).run moves, options := options }
    (∀ budget report s', s.run budget = some (report, s') →
      ∃ laps status s₁, s.Completes laps status s₁ ∧ (s₁.react status).next? = none ∧
        ∀ bytes attempt, .command (.log bytes) attempt ∈ s'.history →
          ∃ v ∈ trail laps, v.command? = some (.log bytes, attempt)) ∧
    ∀ lap laps status s₁ v bytes attempt, s.Completes (lap :: laps) status s₁ → v ∈ lap.visits →
      v.command? = some (.log bytes, attempt) →
      ∃ pre post record, lap.visits = pre ++ v :: post ∧ bytes.length = Statistics.size ∧
        Statistics.ofBytes? bytes = some record ∧
        ((∃ before r since base, trail laps ++ pre = before ++ r :: since ∧
            r.read? = some base ∧ (∀ u ∈ since, u.read? = none) ∧ Tallies base record since) ∨
          (∀ u ∈ trail laps ++ pre, u.read? = none) ∧ options.forceDownload = true ∧
            (∃ u ∈ trail laps, u.uncounted = true) ∧ Tallies {} record (trail laps ++ pre)) := by
  intro s
  have hs : s.engine.Standing := (Engine.standing_fresh config library w).run moves
  refine ⟨fun budget report s' hr => ?_, fun lap laps status s₁ v bytes attempt h hv hc => ?_⟩
  · obtain ⟨laps, status, s₁, h, hn, hh, -⟩ := run_completes hr
    refine ⟨laps, status, s₁, h, hn, fun bytes attempt hc => ?_⟩
    exact (h.commands rfl (hh ▸ hc)).resolve_left List.not_mem_nil
  · obtain ⟨rfl, -⟩ := Visit.log_bytes hc
    have hk := h.reckons hs rfl rfl
    have hof := v.before.statistics.ofBytes?_toBytes
    by_cases hl : laps = []
    · subst hl
      obtain ⟨pre, post, hvis, u, hu, hr⟩ := h.read_before_log hs rfl hv hc
      refine ⟨pre, post, _, hvis, rfl, hof, (hk pre v post hvis).imp_right fun hn => ?_⟩
      exact (hr (hn.1 u (List.mem_append_right _ hu))).elim
    · obtain ⟨pre, post, hvis⟩ := List.append_of_mem hv
      refine ⟨pre, post, _, hvis, rfl, hof, (hk pre v post hvis).imp_right fun ⟨hn, ht⟩ => ?_⟩
      obtain ⟨hforce, hu⟩ := h.forced_before hs rfl hl fun u hu =>
        hn u (List.mem_append_left _ hu)
      exact ⟨hn, hforce, hu, ht⟩

/-- The chip runs the version of the image. The first write leads to a loop failure, and then the
controller reports an open session once. -/
def forcedThenOpen : Script where
  answers := [
    (some 0xF2, [.status 0x00 [0x00, 0x00, 0x11], .status 0x00 [0x01, 0x00, 0x11],
      .status 0x00 [0x00, 0x00, 0x11]]),
    (some 0xF1, [.status 0x00 [0x08, 0x10, 0x00, 0x00, 0x00, 0x00, 0x00, 0x1A, 0x08]]),
    (some 0xC0, [.status 0x0D [], .status 0x00 []]),
    (some 0xA7, [.status 0x00 []]),
    (some 0xE0, [.status 0x00 (0x7F :: List.replicate 30 0)])]

def insistent : Sequencer Rehearsal :=
  rehearsed forcedThenOpen { forceDownload := true, stepLimit := 0 }

def triggersSent (v : Visit W) : Option UInt16 :=
  match v.command? with
  | some (.log bytes, _) => (Statistics.ofBytes? bytes).map Statistics.triggered
  | _ => none

/-- After a forced write that failed, the next one is counted. Its record is sent, though none was
read in the sequence. -/
theorem unread_record_sent : ∃ lap laps status s₁ v bytes attempt record,
    insistent.Completes (lap :: laps) status s₁ ∧ (s₁.react status).next? = none ∧
    v ∈ lap.visits ∧ v.command? = some (.log bytes, attempt) ∧
    Statistics.ofBytes? bytes = some record ∧ record.triggered = 1 ∧
    (∀ u ∈ trail (lap :: laps), u.read? = none) ∧ ∃ u ∈ trail laps, u.uncounted = true := by
  let first := insistent.firstLap
  let recovery := first.exit.lapAfter first.result .recovery
  let retried := recovery.exit.lapAfter recovery.result .main
  obtain ⟨hstart, hdue, hdue', hend, hsent, hread⟩ :
      insistent.start.2.history.length ≠ insistent.history.length ∧
      (first.exit.react first.result).next? = some .recovery ∧
      (recovery.exit.react recovery.result).next? = some .main ∧
      (retried.exit.react retried.result).next? = none ∧
      (retried.visits.any fun v => triggersSent v = some 1) = true ∧
      ((trail [retried, recovery, first]).all fun u => u.read?.isNone) = true := by decide +kernel
  have hall : insistent.Completes [retried, recovery, first] retried.result retried.exit :=
    ((completes_firstLap hstart).next hdue).next hdue'
  have hnone : ∀ u ∈ trail [retried, recovery, first], u.read? = none := fun u hu =>
    Option.isNone_iff_eq_none.1 (List.all_eq_true.1 hread u hu)
  obtain ⟨v, hv, ht⟩ := List.any_eq_true.1 hsent
  have ht := of_decide_eq_true ht
  unfold triggersSent at ht
  split at ht
  · rename_i bytes attempt hc
    obtain ⟨pre, post, record, hvis, -, hof, hreckons⟩ :=
      (sent_record_counts_unless_forced {} threeImages insistent.engine.world []
        insistent.options).2 _ _ _ _ v bytes attempt hall hv hc
    rw [hof] at ht
    refine ⟨retried, _, _, _, v, bytes, attempt, record, hall, hend, hv, hc, hof,
      Option.some.inj ht, hnone, ?_⟩
    rcases hreckons with ⟨before, r, since, base, he, hr, -⟩ | ⟨-, -, hu, -⟩
    · have hmem : r ∈ trail [retried, recovery, first] := by
        rw [trail_cons, hvis, ← List.append_assoc, he]
        simp
      cases hr.symm.trans (hnone r hmem)
    · exact hu
  · cases ht

end Sequencer

end FirmwareDownload
