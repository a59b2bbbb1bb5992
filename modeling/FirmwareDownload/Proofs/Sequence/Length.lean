import FirmwareDownload.Proofs.Sequence.Limits

/-! How many tables a sequence runs. A retried main table may fail before its write and be due
again, without end. If none does, then each table after the first uses up something: a log that was
due, a recovery, or a try with the attempt that it counts. -/

namespace FirmwareDownload

def SequenceEntry.table? : SequenceEntry → Option Table
  | .table t => some t
  | _ => none

variable {W : Type} [Host W]

namespace Sequencer

variable {s s₁ s₂ s' : Sequencer W} {status : Except DownloadError Unit} {lap next : Lap W}
  {laps : List (Lap W)} {v : Visit W}

/-- The tables that were run, newest first. -/
def tables (s : Sequencer W) : List Table := s.history.filterMap SequenceEntry.table?

theorem takeSteps_tables (s : Sequencer W) (steps : List Step) :
    (s.takeSteps steps).2.tables = s.tables := by
  refine (keeps_takeSteps (P := fun s' => s'.tables = s.tables) steps rfl
    fun s' step _ hs => ?_).1
  have hh := (Visit.mk step s').history
  have hh : (s'.takeStep step).2.history =
    ((Visit.mk step s').command?.toList.map fun p => .command p.1 p.2) ++
      .step step :: s'.history := hh
  rw [← hs, tables, hh]
  cases (Visit.mk step s').command? <;> rfl

theorem Completes.tables (h : s.Completes laps status s₁) :
    s₁.tables = laps.map Lap.table ++ s.tables := by
  induction h with
  | refused hb =>
    rcases s.start_cases with ⟨s₁, hb', -⟩ | ⟨err, s₁, he, -, -, hh, -⟩
    · exact (hb s₁ hb').elim
    · rw [he, Sequencer.tables, hh]
      rfl
  | @opens s₁ hb =>
    have ht := takeSteps_tables (s₁.entered .main) (Lap.mk .main (s₁.entered .main)).steps
    refine ht.trans ?_
    rw [Sequencer.tables, show (s₁.entered .main).history = .table .main :: s₁.history from rfl,
      hb.kept.2.2.2]
    rfl
  | @next laps status s₁ t _ _ ih =>
    have ht := takeSteps_tables (s₁.lapAfter status t).entry (s₁.lapAfter status t).steps
    refine ht.trans ?_
    rw [Sequencer.tables, (s₁.lapAfter_keeps status t).2.2]
    exact congrArg (t :: ·) ih

/-! ## What each table uses up -/

variable {tried n : Nat}

/-- What the sequence may still run after so many attempts and recoveries, tables and all. -/
def potential (s : Sequencer W) (tried n : Nat) : Nat :=
  2 * s.flags.retry.toNat + s.flags.unlogged.toNat + 3 * (s.limit - n) + 2 * (s.limit - tried)

theorem Settles.potential_le {counted : Bool} (h : Settles lap counted)
    (ha : lap.exit.attempts.toNat = tried + lap.visits.countP Visit.tried) :
    lap.exit.potential (tried + lap.visits.countP Visit.tried) n ≤
      3 * (lap.exit.limit - n) + 2 * (lap.exit.limit - tried) + 1 := by
  have hcount := h.tried
  unfold potential
  cases counted with
  | false =>
    have hu : lap.exit.flags.unlogged = false := Bool.eq_false_iff.2 fun hu => nomatch h.unlogged hu
    have hr : lap.exit.flags.retry = false :=
      Bool.eq_false_iff.2 fun hr => nomatch (h.retry hr).1
    rw [hu, hr, Bool.toNat_false]
    omega
  | true =>
    have hu := Bool.toNat_le lap.exit.flags.unlogged
    rw [Bool.toNat_true] at hcount
    cases hr : lap.exit.flags.retry with
    | false =>
      rw [Bool.toNat_false]
      omega
    | true =>
      have hleft := mayTry_iff.1 (h.retry hr).2
      rw [Bool.toNat_true]
      omega

theorem log_lowers (hd : (s.react status).next? = some .log) :
    (s.lapAfter status .log).exit.potential tried n < s.potential tried n := by
  obtain ⟨-, -, hl⟩ := s.lapAfter_exit status .log
  obtain ⟨-, hu, hretry, -⟩ := s.log_settles status
  have hlogged : s.flags.unlogged = true := (s.react_keeps status).1 ▸ next?_log hd
  have hle : (s.lapAfter status .log).exit.flags.retry.toNat ≤ s.flags.retry.toNat := by
    have hy := (s.react_calls status).2.1
    rw [← show _ = (s.react status).flags.retry from hretry] at hy
    cases h : (s.lapAfter status .log).exit.flags.retry with
    | false => exact Nat.zero_le _
    | true => exact Nat.le_of_eq (by rw [hy h])
  unfold potential
  rw [hl, hu, hlogged, Bool.toNat_false, Bool.toNat_true]
  omega

theorem recovery_lowers (hd : (s.react status).next? = some .recovery) (hlt : n < s.limit)
    {k : Nat} : (s.lapAfter status .recovery).exit.potential (tried + k) (n + 1) <
      s.potential tried n := by
  obtain ⟨-, -, hl⟩ := s.lapAfter_exit status .recovery
  obtain ⟨ht, -⟩ | ⟨-, hu, -⟩ | ⟨ht, -⟩ := next?_cases hd
  · cases ht
  · obtain ⟨-, hu'⟩ := recovery_settles hu
    have hone := Bool.toNat_le (s.lapAfter status .recovery).exit.flags.retry
    unfold potential
    rw [hl, hu', Bool.toNat_false]
    omega
  · cases ht

theorem main_lowers (hd : (s.react status).next? = some .main) {retry : Bool}
    (ho : (s.lapAfter status .main).entry.Opening retry)
    (hs : (s.lapAfter status .main).entry.engine.Standing)
    (ha : (s.lapAfter status .main).exit.attempts.toNat =
      tried + (s.lapAfter status .main).visits.countP Visit.tried)
    (hw : ∃ v ∈ (s.lapAfter status .main).visits, v.step = .write) :
    (s.lapAfter status .main).exit.potential
      (tried + (s.lapAfter status .main).visits.countP Visit.tried) n < s.potential tried n := by
  obtain ⟨-, -, hl⟩ := s.lapAfter_exit status .main
  obtain ⟨ht, -⟩ | ⟨ht, -⟩ | ⟨-, hu, -, hy⟩ := next?_cases hd
  · cases ht
  · cases ht
  · have hretry := (s.react_calls status).2.1 hy
    rcases ho.main_settles hs rfl with ⟨hn, -⟩ | ⟨w, -, -, hsettle⟩
    · obtain ⟨v, hv, hst⟩ := hw
      exact (hn v hv hst).elim
    · have hle := hsettle.potential_le (n := n) ha
      rw [hl] at hle
      refine Nat.lt_of_le_of_lt hle ?_
      unfold potential
      rw [hretry, Bool.toNat_true]
      omega

theorem Completes.lowers (hs : s.engine.Standing) (hf : s.flags = {}) (ha : s.attempts = 0)
    (hr : s.recoveries = 0) (hm : s.limit ≤ 127)
    (h : s.Completes (next :: lap :: laps) status s₁)
    (hw : next.table = .main → ∃ v ∈ next.visits, v.step = .write) :
    next.exit.potential (tries (next :: lap :: laps)) (recovered (next :: lap :: laps)) <
      lap.exit.potential (tries (lap :: laps)) (recovered (lap :: laps)) := by
  have hwithin := h.within hs hf ha hr (.inl hm)
  have hexact := (hwithin.exact (.inl (h.counts.2.2 ▸ hm))).1
  obtain rfl := h.eq_exit.1
  obtain ⟨status', t, hc, hn, rfl⟩ := h.follows
  rw [tries_cons] at hexact ⊢
  have hl := (lap.exit.lapAfter_exit status' t).2.2
  have hle := hwithin.recoveries_le
  rw [recovered_cons, hl] at hle
  rw [recovered_cons]
  cases t with
  | log =>
    rw [(lap.exit.log_settles status').1]
    exact log_lowers hn
  | recovery => exact recovery_lowers hn hle
  | main =>
    obtain ⟨retry, ho, -⟩ := h.opening hf rfl
    exact main_lowers hn ho ((h.entry_moves (List.mem_cons_self ..)).standing hs) hexact (hw rfl)

theorem Completes.first_potential (hs : s.engine.Standing) (hf : s.flags = {}) (ha : s.attempts = 0)
    (hr : s.recoveries = 0) (hm : s.limit ≤ 127) (h : s.Completes [lap] status s₁) :
    lap.exit.potential (tries [lap]) (recovered [lap]) ≤ 5 * s.limit + 1 := by
  obtain ⟨ht, -, ho, -⟩ := h.first_lap hf
  have hs' := (h.entry_moves (List.mem_cons_self ..)).standing hs
  have hl := h.counts.2.2
  have hexact := ((h.within hs hf ha hr (.inl hm)).exact (.inl (hl ▸ hm))).1
  obtain rfl := h.eq_exit.1
  rw [tries_cons] at hexact ⊢
  rcases ho.main_settles hs' ht with ⟨-, -, hb, -⟩ | ⟨w, -, -, hw⟩
  · unfold potential
    rw [hl, hb.not_retry, hb.logged, Bool.toNat_false]
    omega
  · have hle := hw.potential_le (n := recovered [lap]) hexact
    rw [hl] at hle
    omega

/-- If every main table that is tried again comes to its write, each table lowers the potential. -/
theorem Completes.length_potential (hs : s.engine.Standing) (hf : s.flags = {})
    (ha : s.attempts = 0) (hr : s.recoveries = 0) (hm : s.limit ≤ 127)
    (hw : ∀ lap laps status s₁, s.Completes (lap :: laps) status s₁ → laps ≠ [] →
      lap.table = .main → ∃ v ∈ lap.visits, v.step = .write)
    (h : s.Completes (lap :: laps) status s₁) :
    laps.length + lap.exit.potential (tries (lap :: laps)) (recovered (lap :: laps)) ≤
      5 * s.limit + 1 := by
  induction laps generalizing lap status s₁ with
  | nil => simpa using h.first_potential hs hf ha hr hm
  | cons prev laps ih =>
    obtain ⟨status', t, hc, -⟩ := h.follows
    have hlt := h.lowers hs hf ha hr hm (hw _ _ _ _ h (List.cons_ne_nil _ _))
    have hle := ih hc
    rw [List.length_cons]
    omega

/-! ## Runs that come to no end -/

theorem runTables_exhausted {s₀ : Sequencer W} {budget : Nat} (h : s₀.Completes laps status s)
    (hr : s.runTables budget status = none) :
    ∃ laps' status' s', s₀.Completes laps' status' s' ∧
      laps'.length = laps.length + budget + 1 := by
  induction budget generalizing laps status s with
  | zero =>
    unfold Sequencer.runTables at hr
    dsimp only at hr
    split at hr
    · cases hr
    · rename_i hn
      exact ⟨_, _, _, h.next hn, rfl⟩
    · rename_i he _
      cases he
  | succ budget ih =>
    unfold Sequencer.runTables at hr
    dsimp only at hr
    split at hr
    · cases hr
    · rename_i he _
      cases he
    · rename_i budget' t he hn
      cases he
      rw [runNext_eq_lap] at hr
      obtain ⟨laps', status', s', hc, hl⟩ := ih (h.next hn) hr
      refine ⟨laps', status', s', hc, ?_⟩
      rw [hl, List.length_cons]
      omega

theorem run_exhausted {budget : Nat} (hf : s.flags = {}) (hr : s.run budget = none) :
    ∃ lap laps status s₁, s.Completes (lap :: laps) status s₁ ∧ budget + 1 ≤ laps.length := by
  obtain ⟨laps, hc⟩ := s.start_completes
  have ht : s.start.2.runTables budget s.start.1 = none := by
    unfold Sequencer.run at hr
    dsimp only at hr
    split at hr
    · assumption
    · cases hr
  cases laps with
  | nil =>
    unfold Sequencer.runTables at ht
    dsimp only at ht
    rw [hc.not_due hf] at ht
    cases ht
  | cons first rest =>
    obtain ⟨laps', status', s', hc', hl⟩ := runTables_exhausted hc ht
    rw [List.length_cons] at hl
    cases laps' with
    | nil => cases hl
    | cons lap laps' =>
      rw [List.length_cons] at hl
      exact ⟨lap, laps', status', s', hc', by omega⟩

/-- At each step the counters hold the attempts so far and no more recoveries than are allowed. -/
theorem Completes.visit_counts {pre post : List (Visit W)} (hf : s.flags = {})
    (ha : s.attempts = 0) (hr : s.recoveries = 0) (h : s.Completes (lap :: laps) status s₁)
    (hvis : lap.visits = pre ++ v :: post) :
    v.before.attempts = UInt8.ofNat ((trail laps ++ pre).countP Visit.tried) ∧
      v.before.recoveries.toNat ≤ s.limit ∧ v.before.options = s.options := by
  refine (h.along (P := fun vs s₁ => s₁.attempts = UInt8.ofNat (vs.countP Visit.tried) ∧
    s₁.recoveries.toNat ≤ s.limit ∧ s₁.options = s.options) hf ?_ ?_ ?_).2.2 pre v post hvis
  · intro s₁ hb
    obtain rfl := hb.eq_opened
    exact ⟨ha, hr ▸ Nat.zero_le _, rfl⟩
  · rintro vs s₁ status t hn ⟨hcount, hrec, ho⟩
    obtain ⟨ha', hr', ho'⟩ := s₁.lapAfter_counts status t
    refine ⟨ha'.trans hcount, ?_, ho'.trans ho⟩
    rw [hr']
    obtain ⟨rfl, -⟩ | ⟨rfl, -, -, hle⟩ | ⟨rfl, -⟩ := next?_cases hn
    · exact (UInt8.add_zero s₁.recoveries).symm ▸ hrec
    · -- The test that lets a recovery in is of the number that it will be.
      rw [(s₁.react_calls status).1.recoveries, limit, (s₁.react_alike status).options, ho] at hle
      exact hle
    · exact (UInt8.add_zero s₁.recoveries).symm ▸ hrec
  · rintro - - - - v vs - - ⟨hcount, hrec, ho⟩
    obtain ⟨ha', hr'⟩ := v.spends
    refine ⟨?_, hr' ▸ hrec, v.does.1.keeps.1.trans ho⟩
    rw [ha', hcount, List.countP_append, List.countP_singleton, UInt8.ofNat_add]
    cases v.tried <;> rfl

/-- No step of a sequence takes a count beyond what its limit allows. -/
theorem Completes.visit_within (hs : s.engine.Standing) (hf : s.flags = {}) (ha : s.attempts = 0)
    (hr : s.recoveries = 0) (hm : s.limit ≤ 127) (h : s.Completes laps status s₁)
    (hv : v ∈ trail laps) : v.before.attempts.toNat + v.tried.toNat ≤ 2 * s.limit + 1 ∧
      v.after.recoveries.toNat ≤ s.limit := by
  obtain ⟨lap, hl, hvl⟩ := mem_trail.1 hv
  obtain ⟨later, earlier, rfl⟩ := List.append_of_mem hl
  obtain ⟨status', hc⟩ := h.upto
  obtain ⟨pre, post, hvis⟩ := List.append_of_mem hvl
  obtain ⟨hcount, hrec, -⟩ := hc.visit_counts hf ha hr hvis
  have hw := hc.within hs hf ha hr (.inl hm)
  have hle := hw.recoveries_le
  have hmost := hw.tried_le
  rw [hc.counts.2.2] at hle hmost
  have hall : (trail earlier ++ pre).countP Visit.tried + v.tried.toNat ≤
      tries (lap :: earlier) := by
    rw [tries_cons, hvis, tries, List.countP_append, List.countP_append, countP_tried_cons]
    omega
  have hround : v.before.attempts.toNat ≤ (trail earlier ++ pre).countP Visit.tried := by
    rw [hcount, UInt8.toNat_ofNat']
    exact Nat.mod_le _ _
  refine ⟨?_, v.spends.2 ▸ hrec⟩
  unfold ceiling at hmost
  split_ifs at hmost <;> omega

/-- With a limit that its counters can hold, a sequence whose retried main tables all come to their
write runs at most so many tables, and reports. -/
theorem tables_bounded (config : Config) (library : ImageLibrary) (w : W) (moves : List (Move W))
    (options : SequenceOptions) (hm : options.maxAttempts.toNat ≤ 60) :
    let s : Sequencer W :=
      { engine := (Engine.fresh config library w).run moves, options := options }
    (∀ lap laps status s₁, s.Completes (lap :: laps) status s₁ → laps ≠ [] → lap.table = .main →
      ∃ v ∈ lap.visits, v.step = .write) →
    ∀ budget, 5 * options.maxAttempts.toNat + 1 ≤ budget →
      ∃ report s', s.run budget = some (report, s') ∧
        s'.tables.length ≤ 5 * options.maxAttempts.toNat + 2 ∧
        ∃ laps status s₁, s.Completes laps status s₁ ∧ (s₁.react status).next? = none ∧
          s'.tables = laps.map Lap.table ∧ s'.history = s₁.history ∧
          (∀ v ∈ trail laps, v.before.attempts.toNat + v.tried.toNat < UInt8.size ∧
            v.after.recoveries.toNat + 1 < UInt8.size) ∧
          report.attempts.toNat = (trail laps).countP Visit.tried ∧
          s'.recoveries.toNat = laps.countP fun lap => lap.table = .recovery := by
  intro s hw budget hb
  have hs : s.engine.Standing := (Engine.standing_fresh config library w).run moves
  have hlimit : s.limit = options.maxAttempts.toNat := rfl
  have hm' : s.limit ≤ 127 := by omega
  cases hr : s.run budget with
  | none =>
    obtain ⟨lap, laps, status, s₁, hc, hl⟩ := run_exhausted rfl hr
    have hle := hc.length_potential hs rfl rfl rfl hm' hw
    omega
  | some r =>
    obtain ⟨report, s'⟩ := r
    obtain ⟨laps, status, s₁, hc, hn, hh, hsp, ha, -⟩ := run_counts hr
    have ht : s'.tables = laps.map Lap.table := by
      rw [Sequencer.tables, hh]
      exact hc.tables.trans (List.append_nil _)
    have hwithin := hc.within hs rfl rfl rfl (.inl hm')
    obtain ⟨htries, hrec⟩ := hwithin.exact (.inl (hc.counts.2.2 ▸ hm'))
    have ha : report.attempts = s₁.attempts := ha.trans (hsp.attempts.trans (UInt8.add_zero _))
    refine ⟨report, s', rfl, ?_, laps, status, s₁, hc, hn, ht, hh, fun v hv => ?_, ha ▸ htries,
      hsp.recoveries ▸ hrec⟩
    · rw [ht, List.length_map]
      cases laps with
      | nil => exact Nat.zero_le _
      | cons lap laps =>
        have hle := hc.length_potential hs rfl rfl rfl hm' hw
        rw [List.length_cons]
        omega
    · obtain ⟨ha, hrec⟩ := hc.visit_within hs rfl rfl rfl hm' hv
      rw [show UInt8.size = 256 from rfl]
      omega

/-- Fewer tables of a sequence are the first of more. -/
theorem Completes.isSuffix {laps' : List (Lap W)} {status' : Except DownloadError Unit}
    (h : s.Completes laps status s₁) (h' : s.Completes laps' status' s₂)
    (hl : laps'.length ≤ laps.length) : laps' <:+ laps := by
  induction laps generalizing status s₁ with
  | nil =>
    obtain rfl := List.length_eq_zero_iff.1 (Nat.le_zero.1 hl)
    exact List.suffix_rfl
  | cons lap laps ih =>
    rcases Nat.lt_or_eq_of_le hl with hlt | he
    · have hl := Nat.le_of_lt_succ hlt
      cases laps with
      | nil =>
        obtain rfl := List.length_eq_zero_iff.1 (Nat.le_zero.1 hl)
        exact List.nil_suffix
      | cons prev laps =>
        obtain ⟨status'', t, hc, -⟩ := h.follows
        exact (ih hc hl).trans (List.suffix_cons ..)
    · obtain ⟨rfl, -⟩ := h'.unique h he
      exact List.suffix_rfl

/-- The sequence whose clock is not forced: the main table, a log, a recovery, and the main table
again. -/
theorem retried_tables_bounded : thriceWritten.options.maxAttempts.toNat ≤ 60 ∧
    (∀ lap laps status s₁, thriceWritten.Completes (lap :: laps) status s₁ → laps ≠ [] →
      lap.table = .main → ∃ v ∈ lap.visits, v.step = .write) ∧
    ∃ report s', thriceWritten.run 11 = some (report, s') ∧ s'.tables.length ≤ 12 ∧
      s'.tables = [.main, .recovery, .log, .main] := by
  let first := thriceWritten.firstLap
  let log := first.exit.lapAfter first.result .log
  let logged := statusAfter first.result .log log.result
  let recovery := log.exit.lapAfter logged .recovery
  let retried := recovery.exit.lapAfter recovery.result .main
  obtain ⟨hstart, hlog, hrecovery, hmain, hend, hwrite, hrun⟩ :
      thriceWritten.start.2.history.length ≠ thriceWritten.history.length ∧
      (first.exit.react first.result).next? = some .log ∧
      (log.exit.react logged).next? = some .recovery ∧
      (recovery.exit.react recovery.result).next? = some .main ∧
      (retried.exit.react retried.result).next? = none ∧
      (retried.visits.any fun v => v.step = .write) = true ∧
      (thriceWritten.run 11).map (fun r => r.2.tables) = some [.main, .recovery, .log, .main] := by
    decide +kernel
  have hall : thriceWritten.Completes [retried, recovery, log, first] retried.result retried.exit :=
    (((completes_firstLap hstart).next hlog).next hrecovery).next hmain
  have hm : thriceWritten.options.maxAttempts.toNat ≤ 60 := by decide
  have hw : ∀ lap laps status s₁, thriceWritten.Completes (lap :: laps) status s₁ → laps ≠ [] →
      lap.table = .main → ∃ v ∈ lap.visits, v.step = .write := by
    intro lap laps status s₁ h hne ht
    rcases List.suffix_cons_iff.1 (hall.isSuffix h (hall.length_le hend h)) with he | hs
    · obtain rfl := (List.cons.inj he).1
      obtain ⟨v, hv, hst⟩ := List.any_eq_true.1 hwrite
      exact ⟨v, hv, of_decide_eq_true hst⟩
    · -- Below the last table stand two of another kind and the first.
      rcases List.suffix_cons_iff.1 hs with he | hs
      · obtain rfl := (List.cons.inj he).1
        cases ht
      · rcases List.suffix_cons_iff.1 hs with he | hs
        · obtain rfl := (List.cons.inj he).1
          cases ht
        · have hlen := hs.length_le
          exact (hne (List.length_eq_zero_iff.1 (Nat.le_zero.1 (Nat.le_of_succ_le_succ hlen)))).elim
  refine ⟨hm, hw, ?_⟩
  obtain ⟨report, s', hr, hl, -⟩ := tables_bounded {} threeImages thriceWritten.engine.world []
    thriceWritten.options hm hw 11 (by decide)
  have hr : thriceWritten.run 11 = some (report, s') := hr
  rw [hr] at hrun
  exact ⟨report, s', hr, hl, Option.some.inj hrun⟩

end Sequencer

end FirmwareDownload
