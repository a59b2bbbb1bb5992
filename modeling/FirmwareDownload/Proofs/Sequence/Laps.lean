import FirmwareDownload.Proofs.Sequence.Visits

/-! A sequence as the list of the tables that it runs. It runs them until none is due, and there
is but one such list. -/

namespace FirmwareDownload

namespace Sequencer

variable {W : Type} [Host W] {s s₁ s₂ s' : Sequencer W} {status : Except DownloadError Unit}
  {t : Table} {lap : Lap W} {laps later : List (Lap W)}

def lapAfter (s : Sequencer W) (status : Except DownloadError Unit) (t : Table) : Lap W :=
  ⟨t, ((s.react status).prepared t).entered t⟩

/-- The log of an interrupted write does not change a failure. -/
def statusAfter (status : Except DownloadError Unit) : Table → Except DownloadError Unit →
    Except DownloadError Unit
  | .log, logged => match status with
    | .ok () => logged
    | .error err => .error err
  | _, result => result

/-- With the tables `laps`, newest first, `s` comes to `s'` with a status. -/
inductive Completes (s : Sequencer W) :
    List (Lap W) → Except DownloadError Unit → Sequencer W → Prop
  | refused : (∀ s₁, ¬ s.Begins s₁) → Completes s [] s.start.1 s.start.2
  | opens {s₁ : Sequencer W} : s.Begins s₁ →
    Completes s [⟨.main, s₁.entered .main⟩] (Lap.mk .main (s₁.entered .main)).result
      (Lap.mk .main (s₁.entered .main)).exit
  | next {laps : List (Lap W)} {status : Except DownloadError Unit} {s₁ : Sequencer W} {t : Table} :
    Completes s laps status s₁ → (s₁.react status).next? = some t →
    Completes s (s₁.lapAfter status t :: laps)
      (statusAfter status t (s₁.lapAfter status t).result) (s₁.lapAfter status t).exit

/-- All steps of the tables, in the order in which they are taken. -/
def trail (laps : List (Lap W)) : List (Visit W) := laps.reverse.flatMap Lap.visits

/-! ## Between the tables -/

omit [Host W] in
theorem react_alike (s : Sequencer W) (status : Except DownloadError Unit) :
    s.Alike (s.react status) := by
  unfold Sequencer.react
  cases status with
  | ok => exact .refl s
  | error err =>
    dsimp only
    split_ifs <;> exact ⟨rfl, rfl, rfl, rfl⟩

omit [Host W] in
theorem react_keeps (s : Sequencer W) (status : Except DownloadError Unit) :
    (s.react status).flags.unlogged = s.flags.unlogged ∧
      (s.react status).flags.skipRest = s.flags.skipRest ∧
      (s.react status).flags.forced = s.flags.forced ∧
      (s.react status).statistics = s.statistics := by
  unfold Sequencer.react
  cases status with
  | ok => exact ⟨rfl, rfl, rfl, rfl⟩
  | error err =>
    dsimp only
    split_ifs <;> exact ⟨rfl, rfl, rfl, rfl⟩

omit [Host W] in
theorem lapAfter_keeps (s : Sequencer W) (status : Except DownloadError Unit) (t : Table) :
    (s.lapAfter status t).entry.statistics = s.statistics ∧
      (s.lapAfter status t).entry.imageVersion = s.imageVersion ∧
      (s.lapAfter status t).entry.history = .table t :: s.history := by
  obtain ⟨-, -, -, hst⟩ := s.react_keeps status
  have ha := s.react_alike status
  rw [← hst, ← ha.imageVersion, ← ha.history]
  cases t <;> exact ⟨rfl, rfl, rfl⟩

theorem leave_snd (s : Sequencer W) (status : Except DownloadError Unit) :
    (s.leave status).2 = (s.setMode .normal).2 := by
  unfold Sequencer.leave
  rcases s.setMode .normal with ⟨_ | _, s₁⟩ <;> cases status <;> rfl

/-! ## Tables in a row -/

theorem runNext_eq_lap (s : Sequencer W) (status : Except DownloadError Unit) (t : Table) :
    (s.react status).runNext status t =
      (statusAfter status t (s.lapAfter status t).result, (s.lapAfter status t).exit) := by
  cases t with
  | log => cases status <;> rfl
  | recovery => rfl
  | main => rfl

theorem runTables_completes {s₀ : Sequencer W} {budget : Nat} (h : s₀.Completes laps status s)
    {status' : Except DownloadError Unit}
    (hr : s.runTables budget status = some (status', s')) :
    ∃ laps s₁, s₀.Completes laps status' s₁ ∧ (s₁.react status').next? = none ∧
      s' = s₁.react status' := by
  -- Each unit of the budget is one more table on those so far.
  induction budget generalizing laps status s with
  | zero =>
    unfold Sequencer.runTables at hr
    dsimp only at hr
    split at hr
    · rename_i hn
      cases hr
      exact ⟨laps, s, h, hn, rfl⟩
    · cases hr
    · rename_i he _
      cases he
  | succ budget ih =>
    unfold Sequencer.runTables at hr
    dsimp only at hr
    split at hr
    · rename_i hn
      cases hr
      exact ⟨laps, s, h, hn, rfl⟩
    · rename_i he _
      cases he
    · rename_i budget' t he hn
      cases he
      rw [runNext_eq_lap] at hr
      exact ih (h.next hn) hr

theorem start_completes (s : Sequencer W) : ∃ laps, s.Completes laps s.start.1 s.start.2 := by
  by_cases hb : ∃ s₁, s.Begins s₁
  · obtain ⟨s₁, hb⟩ := hb
    have he : s.start = s₁.runTable .main := by
      obtain ⟨version, e, hl, hm⟩ := hb
      unfold Sequencer.start
      rw [hl]
      dsimp only
      rw [hm]
    rw [he]
    exact ⟨_, .opens hb⟩
  · exact ⟨[], .refused fun s₁ h => hb ⟨s₁, h⟩⟩

/-- What a sequence opens its first table in, if it gets that far. -/
def opened (s : Sequencer W) : Sequencer W :=
  ({ s with
    engine := s.engine.loadPrimary.2
    imageVersion := s.engine.loadPrimary.1.toOption.join }.setMode .download).2

def firstLap (s : Sequencer W) : Lap W := ⟨.main, s.opened.entered .main⟩

theorem Begins.eq_opened (h : s.Begins s₁) : s₁ = s.opened := by
  obtain ⟨version, e, hl, hm⟩ := h
  unfold opened
  rw [hl]
  exact (congrArg Prod.snd hm).symm

theorem completes_firstLap (h : s.start.2.history.length ≠ s.history.length) :
    s.Completes [s.firstLap] s.firstLap.result s.firstLap.exit := by
  rcases s.start_cases with ⟨s₁, hb, -⟩ | ⟨err, s₁, he, -, -, hh, -⟩
  · obtain rfl := hb.eq_opened
    exact .opens hb
  · rw [he, hh] at h
    exact (h rfl).elim

/-- A sequence that comes to an end has run tables until none was due. -/
theorem run_completes {budget : Nat} {report : SequenceReport}
    (h : s.run budget = some (report, s')) :
    ∃ laps status s₁, s.Completes laps status s₁ ∧ (s₁.react status).next? = none ∧
      s'.history = s₁.history ∧ (s₁.react status).leave status = (report.result, s') := by
  obtain ⟨laps, hc⟩ := s.start_completes
  unfold Sequencer.run at h
  dsimp only at h
  split at h
  · cases h
  · rename_i status s₂ ht
    obtain ⟨laps, s₁, hc, hn, rfl⟩ := runTables_completes hc ht
    cases h
    refine ⟨laps, status, s₁, hc, hn, ?_, rfl⟩
    rw [leave_snd]
    exact (s₁.react_alike status).history

/-! ## The engine on the way -/

theorem lapAfter_moves (s : Sequencer W) (status : Except DownloadError Unit) (t : Table) :
    s.Moves (s.lapAfter status t).entry :=
  Moves.after (.refl (s.lapAfter status t).entry)
    ((prepared_engine _ t).trans (s.react_engine status))

theorem lap_moves (lap : Lap W) : lap.entry.Moves lap.exit :=
  takeSteps_moves lap.entry lap.steps

theorem start_moves (s : Sequencer W) : s.Moves s.start.2 := by
  rcases s.start_cases with ⟨s₁, hb, he⟩ | ⟨err, s₁, he, -, -, -, hm⟩
  · rw [he]
    exact hb.moves.1.trans (s₁.runTable_moves .main)
  · rw [he]
    exact hm

theorem Completes.moves (h : s.Completes laps status s₁) : s.Moves s₁ := by
  induction h with
  | refused => exact s.start_moves
  | opens hb => exact hb.moves.1.trans (lap_moves _)
  | next _ _ ih => exact (ih.trans (lapAfter_moves ..)).trans (lap_moves _)

theorem Completes.entry_moves (h : s.Completes laps status s₁) (hl : lap ∈ laps) :
    s.Moves lap.entry := by
  induction h with
  | refused => cases hl
  | @opens s₁ hb =>
    obtain rfl := List.mem_singleton.1 hl
    exact hb.moves.1
  | @next _ _ s₁ _ h _ ih =>
    rcases List.mem_cons.1 hl with rfl | hl
    · exact h.moves.trans (lapAfter_moves ..)
    · exact ih hl

theorem Completes.visit_moves {v : Visit W} (h : s.Completes laps status s₁) (hl : lap ∈ laps)
    (hv : v ∈ lap.visits) : s.Moves v.before := by
  have hk := keeps_takeSteps (P := lap.entry.Moves) lap.steps (.refl _)
    fun s step _ hm => hm.trans (takeStep_acts s step).moves
  exact (h.entry_moves hl).trans (hk.2 v hv).2

/-! ## The table that follows -/

theorem Begins.kept (h : s.Begins s₁) : s₁.flags = s.flags ∧ s₁.options = s.options ∧
    s₁.statistics = s.statistics ∧ s₁.history = s.history := by
  obtain rfl := h.eq_opened
  exact ⟨rfl, rfl, rfl, rfl⟩

theorem Completes.not_due (h : s.Completes [] status s₁) (hf : s.flags = {}) :
    (s₁.react status).next? = none := by
  cases h with
  | refused hb =>
    rcases s.start_cases with ⟨s₁, h, -⟩ | ⟨err, s₁, he, hr, hf', -, -⟩
    · exact (hb s₁ h).elim
    · rw [he, react_unrecoverable _ hr]
      unfold Sequencer.next?
      rw [hf', hf]
      rfl

theorem Completes.eq_exit (h : s.Completes (lap :: laps) status s₁) :
    s₁ = lap.exit ∧ (lap.table ≠ .log → status = lap.result) := by
  cases h with
  | opens => exact ⟨rfl, fun _ => rfl⟩
  | @next _ _ s₁ t =>
    refine ⟨rfl, fun hn => ?_⟩
    cases t with
    | log => exact (hn rfl).elim
    | recovery => rfl
    | main => rfl

theorem Completes.upto (h : s.Completes (later ++ lap :: laps) status s₁) :
    ∃ status', s.Completes (lap :: laps) status' lap.exit := by
  induction later generalizing status s₁ with
  | nil =>
    obtain rfl := h.eq_exit.1
    exact ⟨status, h⟩
  | cons last later ih =>
    rw [List.cons_append] at h
    generalize hall : later ++ lap :: laps = all at h
    cases h with
    | opens => simp at hall
    | next h => exact ih (hall ▸ h)

theorem Completes.follows {next : Lap W} (h : s.Completes (next :: lap :: laps) status s₁) :
    ∃ status' t, s.Completes (lap :: laps) status' lap.exit ∧
      (lap.exit.react status').next? = some t ∧ next = lap.exit.lapAfter status' t := by
  cases h with
  | @next _ status' _ t h hn =>
    obtain rfl := h.eq_exit.1
    exact ⟨status', t, h, hn, rfl⟩

theorem Completes.not_begins (h : s.Completes [] status s₁) : ¬ s.Begins s₂ := by
  cases h with
  | refused hn => exact hn s₂

theorem Completes.unique {laps' : List (Lap W)} {status' : Except DownloadError Unit}
    (h : s.Completes laps status s₁) (h' : s.Completes laps' status' s₂)
    (hl : laps.length = laps'.length) : laps = laps' ∧ status = status' ∧ s₁ = s₂ := by
  induction h generalizing laps' status' s₂ with
  | refused =>
    cases h' with
    | refused => exact ⟨rfl, rfl, rfl⟩
    | opens => cases hl
    | next => cases hl
  | opens hb =>
    cases h' with
    | refused => cases hl
    | opens hb' =>
      obtain rfl := hb.eq_opened.trans hb'.eq_opened.symm
      exact ⟨rfl, rfl, rfl⟩
    | next h' =>
      obtain rfl := List.length_eq_zero_iff.1 (Nat.succ.inj hl).symm
      exact (h'.not_begins hb).elim
  | next h hn ih =>
    cases h' with
    | refused => cases hl
    | opens hb =>
      obtain rfl := List.length_eq_zero_iff.1 (Nat.succ.inj hl)
      exact (h.not_begins hb).elim
    | next h' hn' =>
      obtain ⟨rfl, rfl, rfl⟩ := ih h' (Nat.succ.inj hl)
      obtain rfl := Option.some.inj (hn.symm.trans hn')
      exact ⟨rfl, rfl, rfl⟩

theorem Completes.length_le {laps' : List (Lap W)} {status' : Except DownloadError Unit}
    (h : s.Completes laps status s₁) (hn : (s₁.react status).next? = none)
    (h' : s.Completes laps' status' s₂) : laps'.length ≤ laps.length := by
  induction h' with
  | refused => exact Nat.zero_le _
  | opens hb =>
    refine List.length_pos_iff.2 ?_
    rintro rfl
    exact h.not_begins hb
  | next h' hd ih =>
    -- As many tables as the sequence that ended lead to where no further one is due.
    refine Nat.lt_of_le_of_ne ih fun he => ?_
    obtain ⟨-, rfl, rfl⟩ := h'.unique h he
    cases hd.symm.trans hn

/-- A sequence ends in one way only. -/
theorem Completes.eq_of_ended {laps' : List (Lap W)} {status' : Except DownloadError Unit}
    (h : s.Completes laps status s₁) (hn : (s₁.react status).next? = none)
    (h' : s.Completes laps' status' s₂) (hn' : (s₂.react status').next? = none) :
    laps = laps' ∧ status = status' ∧ s₁ = s₂ :=
  h.unique h' (Nat.le_antisymm (h'.length_le hn' h) (h.length_le hn h'))

theorem trail_cons (lap : Lap W) (laps : List (Lap W)) :
    trail (lap :: laps) = trail laps ++ lap.visits := by
  simp [trail]

theorem mem_trail {v : Visit W} {laps : List (Lap W)} :
    v ∈ trail laps ↔ ∃ lap ∈ laps, v ∈ lap.visits := by
  simp [trail]

/-- What holds of the steps so far and of the state they lead to, all along a sequence. -/
theorem Completes.along {P : List (Visit W) → Sequencer W → Prop} (hf : s.flags = {})
    (hopens : ∀ s₁, s.Begins s₁ → P [] (s₁.entered .main))
    (hnext : ∀ vs s status t, (s.react status).next? = some t → P vs s →
      P vs (s.lapAfter status t).entry)
    (hstep : ∀ lap laps status s₁ v vs, s.Completes (lap :: laps) status s₁ → v ∈ lap.visits →
      P vs v.before → P (vs ++ [v]) v.after)
    (h : s.Completes (lap :: laps) status s₁) :
    P (trail laps) lap.entry ∧ P (trail (lap :: laps)) s₁ ∧
      ∀ pre v post, lap.visits = pre ++ v :: post → P (trail laps ++ pre) v.before := by
  induction laps generalizing lap status s₁ with
  | nil =>
    have hentry : P [] lap.entry := by
      cases h with
      | opens hb => exact hopens _ hb
      | next h hn =>
        rw [h.not_due hf] at hn
        cases hn
    have ha := along_takeSteps hentry fun v hv vs => hstep lap [] status s₁ v vs h hv
    rw [h.eq_exit.1, trail_cons]
    exact ⟨hentry, ha⟩
  | cons prev laps ih =>
    have hentry : P (trail (prev :: laps)) lap.entry := by
      obtain ⟨status', t, hp, hn, rfl⟩ := h.follows
      exact hnext _ _ _ _ hn (ih hp).2.1
    have ha := along_takeSteps hentry fun v hv vs => hstep lap (prev :: laps) status s₁ v vs h hv
    rw [h.eq_exit.1, trail_cons lap]
    exact ⟨hentry, ha⟩

/-! ## The commands of a sequence -/

variable {c : Call} {attempt : Attempt}

/-- Every command of a sequence is that of one of its steps. -/
theorem Completes.commands (hf : s.flags = {}) (h : s.Completes laps status s₁)
    (hc : .command c attempt ∈ s₁.history) :
    .command c attempt ∈ s.history ∨ ∃ v ∈ trail laps, v.command? = some (c, attempt) := by
  cases laps with
  | nil =>
    cases h with
    | refused hb =>
      rcases s.start_cases with ⟨s₁, h, -⟩ | ⟨err, s₁, he, -, -, hh, -⟩
      · exact (hb s₁ h).elim
      · rw [he, hh] at hc
        exact .inl hc
  | cons lap laps =>
    refine (h.along (P := fun vs s₁ => .command c attempt ∈ s₁.history →
      .command c attempt ∈ s.history ∨ ∃ v ∈ vs, v.command? = some (c, attempt)) hf
      (fun s₁ hb hc => ?_) (fun vs s₂ status t _ ih hc => ?_)
      (fun lap laps status s₂ v vs _ _ ih hc => ?_)).2.1 hc
    · rcases List.mem_cons.1 hc with he | hc
      · cases he
      · rw [hb.kept.2.2.2] at hc
        exact .inl hc
    · rw [(lapAfter_keeps ..).2.2] at hc
      rcases List.mem_cons.1 hc with he | hc
      · cases he
      · exact ih hc
    · rw [v.history] at hc
      rcases List.mem_append.1 hc with hc | hc
      · obtain ⟨p, hp, he⟩ := List.mem_map.1 hc
        cases he
        exact .inr ⟨v, by simp, by simpa using hp⟩
      · rcases List.mem_cons.1 hc with he | hc
        · cases he
        · exact (ih hc).imp_right fun ⟨u, hu, he⟩ => ⟨u, List.mem_append_left _ hu, he⟩

end Sequencer

end FirmwareDownload
