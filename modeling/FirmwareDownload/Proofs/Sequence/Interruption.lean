import FirmwareDownload.Proofs.Sequence.Counting
import FirmwareDownload.Proofs.Sequence.Recovery

/-! The log of an interrupted write. It comes before any other table, and it sends the record with
that failure, unless it was a loop failure: then nothing is sent. -/

namespace FirmwareDownload

namespace Sequencer

variable {W : Type} [Host W] {s s₁ : Sequencer W} {status : Except DownloadError Unit}
  {lap : Lap W} {laps : List (Lap W)} {v : Visit W} {err : DownloadError}

theorem attempt_log_started (hs : s.engine.Standing) (hb : s.engine.session.busy = false)
    (record : Statistics) :
    ∃ ns, (s.attempt (.log record.toBytes)).2.engine.journal = ns ++ s.engine.journal ∧
      .started .log ∈ ns := by
  have hne : record.toBytes ≠ [] := List.cons_ne_nil _ _
  have hl : record.toBytes.length ≤ logAreaSize := by
    rw [record.length_toBytes]
    decide
  obtain ⟨ns, hj, hn⟩ := Engine.call_log_started (hs.idle_of_not_busy hb) hne hl
  rcases s.attempt_cases (.log record.toBytes) with ⟨err, he⟩ | ⟨e, he, moves, -, hm⟩
  · rw [he] at hj
    exact ⟨ns, hj, hn⟩
  · have hc := hs.call_calls (.log record.toBytes)
    rw [he] at hj hc
    obtain ⟨ns', hj'⟩ := (hc.standing hs).run_journal moves
    refine ⟨ns' ++ ns, ?_, List.mem_append_right _ hn⟩
    rw [hm, hj', hj, List.append_assoc]

/-- A log table is one step: it gives the record, unless the rest of the sequence is passed over. -/
theorem log_visit (s : Sequencer W) (status : Except DownloadError Unit)
    (hf : s.flags.forced = false) :
    ∃ l, (s.lapAfter status .log).visits = [l] ∧ l.before.engine = s.engine ∧
      (s.flags.skipRest = false →
        (∃ a, l.command? = some (.log s.statistics.toBytes, a)) ∧
        l.after.engine = (l.before.attempt (.log s.statistics.toBytes)).2.engine) ∧
      (s.flags.skipRest = true → l.command? = none ∧ l.after.engine = s.engine) := by
  obtain ⟨-, hsk, hfo, hst⟩ := s.react_keeps status
  let l : Visit W := ⟨.log, (s.lapAfter status .log).entry⟩
  have hv : (s.lapAfter status .log).visits = [l] :=
    (visits_cons l.before .log []).trans (congrArg (l :: ·) l.onward_nil)
  have he : l.before.engine = s.engine := s.react_engine status
  have hst' : l.before.statistics = s.statistics := hst
  -- Nothing counts as unlogged any more once the table starts, so `skipRest` alone decides.
  have hk : ((l.before.flags.skipRest || l.before.flags.forced) && !l.before.flags.unlogged) =
      s.flags.skipRest := by
    rw [show l.before.flags.skipRest = s.flags.skipRest from hsk,
      show l.before.flags.forced = false from hfo.trans hf,
      show l.before.flags.unlogged = false from rfl]
    simp
  have hcases := Visit.log_cases (v := l) rfl
  rw [hk, hst'] at hcases
  refine ⟨l, hv, he, fun hn => ?_, fun hy => ?_⟩
  · rcases hcases with ⟨hy, -⟩ | ⟨-, hp⟩
    · cases hn.symm.trans hy
    · obtain ⟨hc, hen, -⟩ := Visit.performs hp fun s _ => alike_withFlags s _
      exact ⟨⟨_, hc⟩, hen⟩
  · rcases hcases with ⟨-, ha⟩ | ⟨hn, -⟩
    · exact ⟨Visit.command?_noted ha, by rw [ha]; exact he⟩
    · cases hn.symm.trans hy

theorem counted_failure (hs : s.engine.Standing) (hf : s.flags = {})
    (h : s.Completes (lap :: laps) status s₁) (hv : v ∈ lap.visits) (hc : v.counted = true)
    (hr : v.result = .error err) :
    (∃ visits, lap.visits = visits ++ [v]) ∧ status = .error err ∧ s₁ = v.after ∧
      v.after.flags.unlogged = true ∧ v.after.flags.forced = false ∧
      (v.after.flags.skipRest = true ↔ err = .writeFailed) ∧
      v.after.statistics = v.before.statistics.countTrigger.countFailure := by
  obtain ⟨hw, hforced, -⟩ := Visit.counted_iff.1 hc
  obtain ⟨hm, -, hvis, hout⟩ := write_visit hv hw
  obtain ⟨retry, hb, -⟩ := h.write_opening hs hf hv hw
  have hs' := (h.visit_moves (List.mem_cons_self ..) hv).standing hs
  obtain ⟨-, ⟨hok, -⟩ | ⟨err', hr', hfl, hst⟩⟩ := Visit.counted_cases hs' hc
  · cases hr.symm.trans hok
  · obtain rfl := Except.error.inj (hr.symm.trans hr')
    rw [Visit.outcome_error hr] at hout
    obtain ⟨hres, hexit⟩ := Prod.mk.inj hout
    obtain ⟨rfl, hst'⟩ := h.eq_exit
    refine ⟨⟨_, by rw [hvis, Visit.onward_error hr]⟩, ?_, hexit, ?_, ?_, ?_, hst⟩
    · exact (hst' (by rw [hm]; decide)).trans hres
    · rw [hfl]
    · rw [hfl]
      exact hforced
    · rw [hfl]
      simp [Visit.counted_onward hb hc]

/-- A counted write that fails ends its table, and the log is what comes next. It carries the record
with that failure, unless that was a loop failure: then the log sends nothing. -/
theorem interrupted_write_logged_unless_loop_failed (config : Config) (library : ImageLibrary)
    (w : W) (moves : List (Move W)) (options : SequenceOptions) :
    let s : Sequencer W :=
      { engine := (Engine.fresh config library w).run moves, options := options }
    (∀ budget report s', s.run budget = some (report, s') →
      ∃ laps status s₁, s.Completes laps status s₁ ∧ (s₁.react status).next? = none ∧
        s'.history = s₁.history) ∧
    ∀ lap laps status s₁ v err, s.Completes (lap :: laps) status s₁ → v ∈ lap.visits →
      v.counted = true → v.result = .error err →
      (∃ visits, lap.visits = visits ++ [v]) ∧ (s₁.react status).next? = some .log ∧
      ∀ later next status' s₂, s.Completes (later ++ next :: lap :: laps) status' s₂ →
        next.table = .log ∧ ∃ l, next.visits = [l] ∧ l.before.engine = v.after.engine ∧
          (err ≠ .writeFailed →
            (let record := v.before.statistics
            ∃ a, l.command? = some (.log (Statistics.spelled { record with
              triggered := record.triggered + 1
              failed := record.failed + 1
              consecutive := record.consecutive + 1
              pending := false }), a)) ∧
            (v.after.engine.session.busy = false →
              ∃ ns, l.after.engine.journal = ns ++ l.before.engine.journal ∧
                .started .log ∈ ns)) ∧
          (err = .writeFailed → l.command? = none ∧ l.after.engine = l.before.engine) := by
  intro s
  have hs : s.engine.Standing := (Engine.standing_fresh config library w).run moves
  refine ⟨fun budget report s' hr => ?_, fun lap laps status s₁ v err h hv hc hr => ?_⟩
  · obtain ⟨laps, status, s₁, hc, hn, hh, -⟩ := run_completes hr
    exact ⟨laps, status, s₁, hc, hn, hh⟩
  · obtain ⟨hlast, rfl, rfl, hu, hfo, hsk, hst⟩ := counted_failure hs rfl h hv hc hr
    have hdue : (v.after.react (.error err)).next? = some .log := by
      unfold Sequencer.next?
      rw [(v.after.react_keeps _).1, hu]
      rfl
    refine ⟨hlast, hdue, fun later next status' s₂ hn => ?_⟩
    obtain ⟨status₁, hnext⟩ := hn.upto
    obtain ⟨status₂, t, hlap, hdue', rfl⟩ := hnext.follows
    obtain ⟨-, rfl, he, -⟩ := counted_failure hs rfl hlap hv hc hr
    rw [he] at hdue' ⊢
    obtain rfl := Option.some.inj (hdue.symm.trans hdue')
    obtain ⟨l, hl, hb, hsend, hskip⟩ := log_visit v.after (.error err) hfo
    refine ⟨rfl, l, hl, hb, fun hne => ?_, fun heq => ?_⟩
    · obtain ⟨hcmd, hen⟩ := hsend (Bool.eq_false_iff.2 fun hy => hne (hsk.1 hy))
      rw [hst] at hcmd hen
      rw [Statistics.toBytes_eq_spelled] at hcmd
      refine ⟨hcmd, fun hbusy => ?_⟩
      rw [hen]
      have hs' : l.before.engine.Standing := hb ▸ h.moves.standing hs
      exact attempt_log_started hs' (by rw [hb]; exact hbusy) _
    · rw [hb]
      exact hskip (hsk.2 heq)

def loopFailing : Script where
  answers := [
    (some 0xF2, [.status 0x00 [0x00, 0x00, 0x11]]),
    (some 0xF1, [.status 0x00 [0x08, 0x10, 0x00, 0x00, 0x00, 0x00, 0x00, 0x19, 0x08]]),
    (some 0xA2, [.status 0x00 ([0x00, 0x0D, 0x00, 0x00] ++ List.replicate 12 0)]),
    (some 0xC0, [.status 0x0D []]),
    (some 0xA7, [.status 0x00 []]),
    (some 0xF0, [.status 0x00 []])]

def unlucky : Sequencer Rehearsal := rehearsed loopFailing { maxAttempts := 1, stepLimit := 0 }

/-- A loop failure that leaves the engine idle, and a sequence that ends without a log command. -/
theorem loop_failure_never_logged : ∃ lap log status s₁ v,
    unlucky.Completes [log, lap] status s₁ ∧ (s₁.react status).next? = none ∧
    v ∈ lap.visits ∧ v.counted = true ∧ v.result = .error .writeFailed ∧
    v.after.engine.session.busy = false ∧
    log.table = .log ∧ ∀ l ∈ log.visits, l.command? = none := by
  let lap := unlucky.firstLap
  let log := lap.exit.lapAfter lap.result .log
  obtain ⟨hstart, hdue, hend, hfail⟩ : unlucky.start.2.history.length ≠ unlucky.history.length ∧
      (lap.exit.react lap.result).next? = some .log ∧
      (log.exit.react (statusAfter lap.result .log log.result)).next? = none ∧
      (lap.visits.any fun v => v.counted && decide (errorOf v.result = some .writeFailed) &&
        !v.after.engine.session.busy) = true := by decide +kernel
  obtain ⟨v, hv, hf⟩ := List.any_eq_true.1 hfail
  simp only [Bool.and_eq_true, decide_eq_true_eq, Bool.not_eq_true'] at hf
  obtain ⟨⟨hc, he⟩, hb⟩ := hf
  have hr : v.result = .error .writeFailed := by
    cases hres : v.result with
    | ok => rw [hres] at he; cases he
    | error err => rw [hres] at he; exact congrArg _ (Option.some.inj he)
  have hfirst := completes_firstLap hstart
  have hall : unlucky.Completes [log, lap] _ log.exit := hfirst.next hdue
  obtain ⟨-, -, hnext⟩ := (interrupted_write_logged_unless_loop_failed {} threeImages
    unlucky.engine.world [] unlucky.options).2 lap [] _ _ v _ hfirst hv hc hr
  obtain ⟨ht, l, hl, -, -, hskip⟩ := hnext [] log _ _ hall
  refine ⟨lap, log, _, _, v, hall, hend, hv, hc, hr, hb, ht, fun l' hl' => ?_⟩
  rw [hl] at hl'
  obtain rfl := List.mem_singleton.1 hl'
  exact (hskip rfl).1

end Sequencer

end FirmwareDownload
