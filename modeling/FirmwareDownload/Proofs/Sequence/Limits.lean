import FirmwareDownload.Proofs.Sequence.Settling

/-! How far a sequence can go. The attempts are checked when recovery is called for and when a
session stays open after a write, but not where a recovery ends well. -/

namespace FirmwareDownload

variable {W : Type} [Host W]

namespace Sequencer

variable {s s₁ s' : Sequencer W} {status : Except DownloadError Unit} {lap next : Lap W}
  {laps : List (Lap W)} {t : Table}

/-! ## The table that is due -/

omit [Host W] in
theorem next?_cases (h : s.next? = some t) :
    t = .log ∧ s.flags.unlogged = true ∨
    t = .recovery ∧ s.flags.unlogged = false ∧ s.flags.recovery = true ∧
      (s.recoveries + 1).toNat ≤ s.limit ∨
    t = .main ∧ s.flags.unlogged = false ∧ s.flags.recovery = false ∧ s.flags.retry = true := by
  unfold Sequencer.next? at h
  split_ifs at h with hu hrec hr hy <;> cases h
  · exact .inl ⟨rfl, hu⟩
  · exact .inr (.inl ⟨rfl, Bool.eq_false_iff.2 hu, hrec, UInt8.le_iff_toNat_le.1 hr⟩)
  · exact .inr (.inr ⟨rfl, Bool.eq_false_iff.2 hu, Bool.eq_false_iff.2 hrec, hy⟩)

theorem lapAfter_exit (s : Sequencer W) (status : Except DownloadError Unit) (t : Table) :
    (s.lapAfter status t).exit.attempts =
      s.attempts + UInt8.ofNat ((s.lapAfter status t).visits.countP Visit.tried) ∧
    (s.lapAfter status t).exit.recoveries = s.recoveries + (if t = .recovery then 1 else 0) ∧
    (s.lapAfter status t).exit.limit = s.limit := by
  obtain ⟨ha, hr, ho⟩ := s.lapAfter_counts status t
  obtain ⟨ha', hr', ho'⟩ := takeSteps_counts (s.lapAfter status t).entry (s.lapAfter status t).steps
  rw [ha] at ha'
  exact ⟨ha', hr'.trans hr, congrArg (fun o => o.maxAttempts.toNat) (ho'.trans ho)⟩

theorem start_spends (hb : ∀ s₁, ¬ s.Begins s₁) : s.Spends 0 s.start.2 ∧
    s.start.2.options = s.options := by
  unfold Sequencer.start
  split
  · exact ⟨.nothing rfl rfl rfl, rfl⟩
  · rename_i version e he
    split
    · rename_i err s₁ hm
      obtain rfl : _ = s₁ := congrArg Prod.snd hm
      exact ⟨.nothing rfl rfl rfl, rfl⟩
    · rename_i s₁ hm
      exact (hb s₁ ⟨version, e, he, hm⟩).elim

/-- The steps of these tables that count as attempts. -/
def tries (laps : List (Lap W)) : Nat := (trail laps).countP Visit.tried

def recovered (laps : List (Lap W)) : Nat := laps.countP fun lap => lap.table = .recovery

theorem tries_cons (lap : Lap W) (laps : List (Lap W)) :
    tries (lap :: laps) = tries laps + lap.visits.countP Visit.tried := by
  rw [tries, trail_cons, List.countP_append]
  rfl

omit [Host W] in
theorem recovered_cons (lap : Lap W) (laps : List (Lap W)) :
    recovered (lap :: laps) = recovered laps + if lap.table = .recovery then 1 else 0 := by
  rw [recovered, List.countP_cons]
  simp [recovered]

/-- The counters hold the attempts and the recoveries, but for what goes beyond eight bits. -/
theorem Completes.counts (h : s.Completes laps status s₁) :
    s₁.attempts = s.attempts + UInt8.ofNat (tries laps) ∧
    s₁.recoveries = s.recoveries + UInt8.ofNat (recovered laps) ∧
    s₁.limit = s.limit := by
  induction h with
  | refused hb =>
    obtain ⟨hs, ho⟩ := start_spends hb
    exact ⟨hs.attempts, hs.recoveries.trans (UInt8.add_zero _).symm,
      congrArg (fun o => o.maxAttempts.toNat) ho⟩
  | @opens s₁ hb =>
    obtain rfl := hb.eq_opened
    obtain ⟨ha, hr, ho⟩ := takeSteps_counts (s.opened.entered .main)
      (Lap.mk .main (s.opened.entered .main)).steps
    refine ⟨?_, hr.trans (UInt8.add_zero _).symm, congrArg (fun o => o.maxAttempts.toNat) ho⟩
    rw [tries_cons, show tries ([] : List (Lap W)) = 0 from rfl, Nat.zero_add]
    exact ha
  | @next laps status s₁ t _ _ ih =>
    obtain ⟨ih, ihr, ihl⟩ := ih
    obtain ⟨ha, hr, hl⟩ := s₁.lapAfter_exit status t
    refine ⟨?_, ?_, hl.trans ihl⟩
    · rw [ha, ih, tries_cons, UInt8.ofNat_add, UInt8.add_assoc]
    · rw [hr, ihr, recovered_cons, UInt8.ofNat_add, UInt8.add_assoc]
      cases t <;> rfl

/-! ## The limit of the attempts -/

/-- The attempts that are possible after so many recoveries. -/
def ceiling (limit recoveries : Nat) : Nat :=
  if recoveries = 0 then max limit 1 else limit + recoveries + 1

/-- The counters have room for the attempts that are possible. -/
def Room (limit recoveries : Nat) : Prop := limit ≤ 127 ∨ ceiling limit recoveries < UInt8.size

theorem le_ceiling (limit recoveries : Nat) : limit ≤ ceiling limit recoveries := by
  unfold ceiling
  split_ifs <;> omega

theorem ceiling_succ (limit n : Nat) : ceiling limit (n + 1) = limit + (n + 1) + 1 :=
  if_neg (Nat.succ_ne_zero n)

theorem Room.mono {limit n n' : Nat} (h : Room limit n') (hn : n ≤ n') : Room limit n := by
  unfold Room ceiling at *
  split_ifs at h ⊢ <;> omega

omit [Host W] in
theorem limit_lt (s : Sequencer W) : s.limit < UInt8.size := s.options.maxAttempts.toNat_lt

/-- So many attempts and recoveries were counted, and what is called for leaves room for more. -/
structure Within (s : Sequencer W) (status : Except DownloadError Unit) (tried n : Nat) :
    Prop where
  attempts : s.attempts = UInt8.ofNat tried
  recoveries : s.recoveries = UInt8.ofNat n
  recoveries_le : n ≤ s.limit
  tried_le : tried ≤ ceiling s.limit n
  retry : s.flags.retry = true → tried < ceiling s.limit n
  recovery : s.flags.recovery = true → ¬ Mendable status → tried < s.limit + n

variable {tried n : Nat}

theorem Room.lt_size {limit : Nat} (h : Room limit n) (hl : limit < UInt8.size)
    (hr : n ≤ limit) (ht : tried ≤ ceiling limit n) : tried < UInt8.size := by
  have hsize : UInt8.size = 256 := rfl
  unfold Room ceiling at *
  split_ifs at h ht <;> omega

omit [Host W] in
/-- Where there is room the counters hold just these numbers. -/
theorem Within.exact (h : s.Within status tried n) (hroom : Room s.limit n) :
    s.attempts.toNat = tried ∧ s.recoveries.toNat = n := by
  have hn := Nat.lt_of_le_of_lt h.recoveries_le s.limit_lt
  rw [h.attempts, h.recoveries]
  exact ⟨UInt8.toNat_ofNat_of_lt' (hroom.lt_size s.limit_lt h.recoveries_le h.tried_le),
    UInt8.toNat_ofNat_of_lt' hn⟩

omit [Host W] in
/-- Where recovery is due, attempts were left when it was called for, or a recovery was cut short
before. -/
theorem Within.recovery_due (h : s.Within status tried n) (hroom : Room s.limit n)
    (hd : (s.react status).flags.recovery = true) : tried < s.limit + n := by
  rcases (s.react_calls status).2.2 hd with hl | ⟨hm, hr⟩
  · rw [(h.exact hroom).1] at hl
    omega
  · exact h.recovery hr hm

theorem Within.log (h : s.Within status tried n) (hroom : Room s.limit n) :
    (s.lapAfter status .log).exit.Within
      (statusAfter status .log (s.lapAfter status .log).result) tried n := by
  obtain ⟨ha, hr, hl⟩ := s.lapAfter_exit status .log
  obtain ⟨hnone, -, hretry, hrec⟩ := s.log_settles status
  obtain ⟨-, hretry', -⟩ := s.react_calls status
  rw [hnone] at ha
  refine ⟨?_, ?_, ?_, ?_, fun hy => ?_, fun hre _ => ?_⟩
  · rw [ha, h.attempts]
    exact UInt8.add_zero _
  · rw [hr, h.recoveries]
    exact UInt8.add_zero _
  · rw [hl]
    exact h.recoveries_le
  · rw [hl]
    exact h.tried_le
  · rw [hl]
    exact h.retry (hretry' (hretry ▸ hy))
  · rw [hl]
    exact h.recovery_due hroom (hrec ▸ hre)

theorem Within.recovered (h : s.Within status tried n) (hroom : Room s.limit (n + 1))
    (hd : (s.react status).next? = some .recovery) :
    (s.lapAfter status .recovery).exit.Within (s.lapAfter status .recovery).result
      (tried + (s.lapAfter status .recovery).visits.countP Visit.tried) (n + 1) := by
  obtain ⟨ha, hr, hl⟩ := s.lapAfter_exit status .recovery
  obtain ⟨ht, -⟩ | ⟨-, hu, hrec, hle⟩ | ⟨ht, -⟩ := next?_cases hd
  · cases ht
  · have hroom' := hroom.mono (Nat.le_succ n)
    have hdue := h.recovery_due hroom' hrec
    have hone : n + 1 < UInt8.size := by
      have hsize : UInt8.size = 256 := rfl
      have hlimit := s.limit_lt
      have hn := h.recoveries_le
      unfold Room at hroom
      rw [ceiling_succ] at hroom
      omega
    -- The counter did not go round, so the test of the limit holds for the number itself.
    have hle : n + 1 ≤ s.limit := by
      rw [(s.react_calls status).1.recoveries, h.recoveries, limit,
        (s.react_alike status).options] at hle
      rw [show UInt8.ofNat n + 1 = UInt8.ofNat (n + 1) from (UInt8.ofNat_add n 1).symm,
        UInt8.toNat_ofNat_of_lt' hone] at hle
      exact hle
    obtain ⟨hc, -⟩ := recovery_settles hu
    rw [show (s.lapAfter status .recovery).entry.flags.recovery = true from hrec,
      Bool.toNat_true] at hc
    have hceil := ceiling_succ s.limit n
    refine ⟨?_, ?_, ?_, ?_, fun _ => ?_, fun hre _ => ?_⟩
    · rw [ha, h.attempts, UInt8.ofNat_add]
    · rw [hr, h.recoveries, UInt8.ofNat_add]
      rfl
    · omega
    · rw [hl]
      omega
    · rw [hl]
      omega
    · rw [hre, Bool.toNat_true] at hc
      rw [hl]
      omega
  · cases ht

theorem Opening.within {retry : Bool} (h : lap.entry.Opening retry)
    (hs : lap.entry.engine.Standing) (ht : lap.table = .main)
    (ha : lap.entry.attempts = UInt8.ofNat tried) (hr : lap.entry.recoveries = UInt8.ofNat n)
    (hn : n ≤ lap.entry.limit) (hlt : tried < ceiling lap.entry.limit n)
    (hroom : Room lap.entry.limit n) :
    lap.exit.Within lap.result (tried + lap.visits.countP Visit.tried) n := by
  obtain ⟨ha', hr', ho⟩ := takeSteps_counts lap.entry lap.steps
  have ha' : lap.exit.attempts = UInt8.ofNat (tried + lap.visits.countP Visit.tried) := by
    rw [UInt8.ofNat_add, ← ha]
    exact ha'
  have hr' : lap.exit.recoveries = UInt8.ofNat n := Eq.trans hr' hr
  have hl : lap.exit.limit = lap.entry.limit := congrArg (fun o => o.maxAttempts.toNat) ho
  have hle := le_ceiling lap.entry.limit n
  rcases h.main_settles hs ht with ⟨-, -, hb, hnone⟩ | ⟨w, -, -, hw⟩
  · rw [hnone] at ha' ⊢
    refine ⟨ha', hr', hl ▸ hn, ?_, fun _ => ?_, fun hre => ?_⟩
    · rw [hl]
      omega
    · rw [hl]
      omega
    · cases hre.symm.trans hb.healthy
  · have hcount := hw.tried
    have hone := Bool.toNat_le w.counted
    have htried : tried + lap.visits.countP Visit.tried ≤ ceiling lap.entry.limit n := by omega
    refine ⟨ha', hr', hl ▸ hn, hl ▸ htried, fun hre => ?_,
      fun hre hm => (hm (hw.recovery hre)).elim⟩
    have hleft := mayTry_iff.1 (hw.retry hre).2
    rw [ha', UInt8.toNat_ofNat_of_lt' (hroom.lt_size lap.entry.limit_lt hn htried), hl] at hleft
    rw [hl]
    omega

/-- All along a sequence the attempts stay below what the recoveries so far allow. -/
theorem Completes.within (hs : s.engine.Standing) (hf : s.flags = {}) (ha : s.attempts = 0)
    (hr : s.recoveries = 0) (h : s.Completes laps status s₁)
    (hroom : Room s.limit (Sequencer.recovered laps)) :
    s₁.Within status (tries laps) (Sequencer.recovered laps) := by
  induction h with
  | refused hb =>
    obtain ⟨hsp, ho⟩ := start_spends hb
    have hfl : s.start.2.flags = {} := by
      rcases s.start_cases with ⟨s₁, hb', -⟩ | ⟨err, s₁, he, -, hf', -⟩
      · exact (hb s₁ hb').elim
      · rw [he]
        exact hf'.trans hf
    have ha' : s.start.2.attempts = 0 := hsp.attempts.trans (by rw [ha]; rfl)
    have hr' : s.start.2.recoveries = 0 := hsp.recoveries.trans hr
    refine ⟨ha', hr', Nat.zero_le _, Nat.zero_le _, ?_, ?_⟩ <;> rw [hfl] <;> exact nofun
  | @opens s₁ hb =>
    have hc : s.Completes [⟨.main, s₁.entered .main⟩] _ _ := .opens hb
    obtain ⟨retry, ho, -⟩ := hc.opening hf rfl
    have hs₁ := (hc.entry_moves (List.mem_cons_self ..)).standing hs
    obtain rfl := hb.eq_opened
    rw [tries_cons]
    refine ho.within hs₁ rfl ha hr (Nat.zero_le _) ?_ hroom
    exact Nat.lt_of_lt_of_le Nat.zero_lt_one (Nat.le_max_right _ _)
  | @next laps status s₁ t hc hn ih =>
    rw [tries_cons, recovered_cons] at *
    have ih := ih (hroom.mono (Nat.le_add_right _ _))
    have hlimit := hc.counts.2.2
    rw [← hlimit] at hroom
    cases t with
    | log =>
      rw [(s₁.log_settles status).1]
      exact ih.log hroom
    | recovery => exact ih.recovered hroom hn
    | main =>
      have hc' := hc.next hn
      obtain ⟨retry, ho, -⟩ := hc'.opening hf rfl
      have hs₁ := (hc'.entry_moves (List.mem_cons_self ..)).standing hs
      obtain ⟨hea, her, heo⟩ := s₁.lapAfter_counts status .main
      have hel : (s₁.lapAfter status .main).entry.limit = s₁.limit :=
        congrArg (fun o => o.maxAttempts.toNat) heo
      obtain ⟨ht, -⟩ | ⟨ht, -⟩ | ⟨-, -, -, hy⟩ := next?_cases hn
      · cases ht
      · cases ht
      · refine ho.within hs₁ rfl (hea.trans ih.attempts) ?_ (hel ▸ ih.recoveries_le) ?_
          (hel ▸ hroom)
        · rw [her, ih.recoveries]
          exact UInt8.add_zero _
        · rw [hel]
          exact ih.retry ((s₁.react_calls status).2.1 hy)

theorem run_report {budget : Nat} {report : SequenceReport}
    (h : s.run budget = some (report, s')) : report = s'.report report.result := by
  unfold Sequencer.run at h
  dsimp only at h
  split at h
  · cases h
  · cases h
    rfl

/-- What a sequence reports is what its last table left. -/
theorem run_counts {budget : Nat} {report : SequenceReport}
    (h : s.run budget = some (report, s')) : ∃ laps status s₁, s.Completes laps status s₁ ∧
      (s₁.react status).next? = none ∧ s'.history = s₁.history ∧ s₁.Spends 0 s' ∧
      report.attempts = s'.attempts ∧ report.upToDate = s'.upToDate ∧
      s'.engine = (s₁.setMode .normal).2.engine := by
  obtain ⟨laps, status, s₁, hc, hn, hh, hl⟩ := run_completes h
  have hr := run_report h
  refine ⟨laps, status, s₁, hc, hn, hh, ?_, by rw [hr]; rfl, by rw [hr]; rfl, ?_⟩
  all_goals
    have he := congrArg Prod.snd hl
    rw [leave_snd] at he
    rw [← show _ = s' from he]
  · exact (s₁.react_calls status).1.idly (.nothing rfl rfl rfl)
  · unfold Sequencer.setMode
    rw [s₁.react_engine status]

/-- The attempts are the writes and forces that were given to the engine to be counted. They stay
within the limit unless the sequence recovers: then they exceed it by two at most, and by one more
for each further recovery. The counters hold eight bits, so that is said for as long as there is
room for so many attempts; up to a limit of 127 there always is. -/
theorem attempts_limited_unless_recovered (config : Config) (library : ImageLibrary) (w : W)
    (moves : List (Move W)) (options : SequenceOptions) (hm : 1 ≤ options.maxAttempts.toNat) :
    let s : Sequencer W :=
      { engine := (Engine.fresh config library w).run moves, options := options }
    let limit := options.maxAttempts.toNat
    ∀ budget report s', s.run budget = some (report, s') →
      ∃ laps status s₁, s.Completes laps status s₁ ∧ (s₁.react status).next? = none ∧
        s'.history = s₁.history ∧
        (∀ v ∈ trail laps, v.tried = true → ∃ c attempt, v.command? = some (c, attempt) ∧
          (c.command = .write ∨ c.command = .force)) ∧
        let tries := (trail laps).countP Visit.tried
        let recoveries := laps.countP fun lap => lap.table = .recovery
        let most := if recoveries = 0 then limit else limit + recoveries + 1
        report.attempts = UInt8.ofNat tries ∧ s'.recoveries = UInt8.ofNat recoveries ∧
          (limit ≤ 127 ∨ most < UInt8.size →
            report.attempts.toNat = tries ∧ s'.recoveries.toNat = recoveries ∧
              recoveries ≤ limit ∧ tries ≤ most) := by
  intro s limit budget report s' hr
  have hs : s.engine.Standing := (Engine.standing_fresh config library w).run moves
  obtain ⟨laps, status, s₁, hc, hn, hh, hsp, ha, -⟩ := run_counts hr
  obtain ⟨hcount, hrec, hl⟩ := hc.counts
  have ha' : report.attempts = s₁.attempts :=
    ha.trans (hsp.attempts.trans (UInt8.add_zero _))
  have hr' : s'.recoveries = s₁.recoveries := hsp.recoveries
  have hceil : (if recovered laps = 0 then limit else limit + recovered laps + 1) =
      ceiling s.limit (recovered laps) := by
    have hlimit : s.limit = limit := rfl
    unfold ceiling
    split_ifs <;> omega
  refine ⟨laps, status, s₁, hc, hn, hh, fun v _ hv => Visit.tried_gives hv, ?_, ?_, fun hfits => ?_⟩
  · exact ha'.trans (hcount.trans (UInt8.zero_add _))
  · exact hr'.trans (hrec.trans (UInt8.zero_add _))
  · have hroom : Room s.limit (recovered laps) :=
      hfits.imp_right (Nat.lt_of_le_of_lt (Nat.le_of_eq hceil.symm))
    have hw := hc.within hs rfl rfl rfl hroom
    obtain ⟨htries, hrecovered⟩ := hw.exact (hl ▸ hroom)
    have hle := hw.recoveries_le
    have hmost := hw.tried_le
    rw [hl] at hle hmost
    exact ⟨ha' ▸ htries, hr' ▸ hrecovered, hle, Nat.le_trans hmost (Nat.le_of_eq hceil.symm)⟩

/-- The first write leads to a loop failure, and the controller refuses to force its clock. -/
def clockRefused : Script where
  answers := [
    (some 0xF2, [.status 0x00 [0x00, 0x00, 0x11]]),
    (some 0xF1, [.status 0x00 [0x08, 0x10, 0x00, 0x00, 0x00, 0x00, 0x00, 0x19, 0x08],
      .status 0x00 [0x08, 0x10, 0x00, 0x00, 0x00, 0x00, 0x00, 0x19, 0x08],
      .status 0x00 [0x08, 0x10, 0x00, 0x00, 0x00, 0x00, 0x00, 0x1A, 0x08]]),
    (some 0xA2, [.status 0x00 ([0x00, 0x0D, 0x00, 0x00] ++ List.replicate 12 0)]),
    (some 0xC0, [.status 0x0D [], .status 0x00 []]),
    (some 0xA7, [.status 0x00 []]),
    (some 0xD0, [.status 0x0F []]),
    (some 0xF0, [.status 0x00 []]),
    (some 0xE0, [.status 0x00 (0x7F :: List.replicate 30 0)])]

def thriceWritten : Sequencer Rehearsal :=
  rehearsed clockRefused { maxAttempts := 2, stepLimit := 0 }

/-- Two attempts are allowed, and four are made. -/
theorem recovered_beyond_limit : 1 ≤ thriceWritten.options.maxAttempts.toNat ∧
    ∃ budget report s', thriceWritten.run budget = some (report, s') ∧
      report.attempts.toNat = thriceWritten.options.maxAttempts.toNat + 2 ∧
      s'.recoveries.toNat = 1 ∧
      ∃ laps : List (Lap Rehearsal), report.attempts.toNat = (trail laps).countP Visit.tried := by
  have hm : 1 ≤ thriceWritten.options.maxAttempts.toNat := by decide
  refine ⟨hm, 3, ?_⟩
  have h : (thriceWritten.run 3).map (fun r => (r.1.attempts.toNat, r.2.recoveries.toNat)) =
      some (4, 1) := by
    decide +kernel
  cases hr : thriceWritten.run 3 with
  | none =>
    rw [hr] at h
    cases h
  | some r =>
    obtain ⟨report, s'⟩ := r
    rw [hr] at h
    obtain ⟨ha, hre⟩ := Prod.mk.inj (Option.some.inj h)
    obtain ⟨laps, -, -, -, -, -, -, -, -, hfits⟩ := attempts_limited_unless_recovered {} threeImages
      thriceWritten.engine.world [] thriceWritten.options hm 3 report s' hr
    exact ⟨report, s', rfl, ha, hre, laps, (hfits (.inl (by decide))).1⟩

end Sequencer

end FirmwareDownload
