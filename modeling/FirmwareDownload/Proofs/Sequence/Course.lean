import FirmwareDownload.Proofs.Sequence.Deeds

/-! The course of a sequence: the steps that it comes to, one after the other and table after
table. All that the steps do to the engine is to move it. -/

namespace FirmwareDownload

namespace Sequencer

variable {W : Type} [Host W] {s s₁ s₂ s' : Sequencer W}

def Moves (s s' : Sequencer W) : Prop := ∃ moves, s'.engine = s.engine.run moves

theorem Moves.refl (s : Sequencer W) : s.Moves s := ⟨[], rfl⟩

theorem Moves.trans (h : s.Moves s₁) (h' : s₁.Moves s₂) : s.Moves s₂ := by
  obtain ⟨moves, he⟩ := h
  obtain ⟨moves', he'⟩ := h'
  exact ⟨moves ++ moves', by rw [he', he, Engine.run_append]⟩

theorem Moves.after (h : s₁.Moves s₂) (he : s₁.engine = s.engine) : s.Moves s₂ := by
  obtain ⟨moves, hm⟩ := h
  exact ⟨moves, he ▸ hm⟩

/-- From `s` to `s'` the engine was moved, and commands were entered in the history. -/
structure Acts (s s' : Sequencer W) : Prop where
  moves : s.Moves s'
  history : ∃ entries, s'.history = entries ++ s.history ∧
    ∀ entry ∈ entries, ∃ c attempt, entry = .command c attempt

theorem Acts.refl (s : Sequencer W) : s.Acts s :=
  ⟨.refl s, [], rfl, fun _ he => (List.not_mem_nil he).elim⟩

theorem Acts.trans (h : s.Acts s₁) (h' : s₁.Acts s₂) : s.Acts s₂ := by
  obtain ⟨hm, entries, hh, hc⟩ := h
  obtain ⟨hm', entries', hh', hc'⟩ := h'
  refine ⟨hm.trans hm', entries' ++ entries, ?_, ?_⟩
  · rw [hh', hh, List.append_assoc]
  · intro entry he
    rcases List.mem_append.1 he with he | he
    · exact hc' entry he
    · exact hc entry he

theorem Acts.congr (h : s.Acts s₁) (he : s₂.engine = s₁.engine) (hh : s₂.history = s₁.history) :
    s.Acts s₂ :=
  ⟨h.moves.imp fun _ hm => he.trans hm, hh ▸ h.history⟩

theorem Acts.of_eq (he : s₁.engine = s.engine) (hh : s₁.history = s.history) : s.Acts s₁ :=
  (Acts.refl s).congr he hh

/-! ## Commands -/

/-- A command that starts is served until it ends or its time is over. -/
theorem attempt_cases (s : Sequencer W) (c : Call) :
    (∃ err, s.engine.call c = (.error err, (s.attempt c).2.engine)) ∨
    ∃ e, s.engine.call c = (.ok (), e) ∧ e.Served (s.attempt c).2.engine := by
  unfold Sequencer.attempt
  dsimp only
  split
  · rename_i err e he
    exact .inl ⟨err, he⟩
  · rename_i e he
    have hr := Engine.served_runToIdle s.options.patience s.options.stepLimit e
    refine .inr ⟨e, he, ?_⟩
    split <;> rename_i he' <;> rw [he'] at hr
    · exact hr
    · split <;> exact hr

theorem acts_attempt (s : Sequencer W) (c : Call) : s.Acts (s.attempt c).2 := by
  refine ⟨?_, [_], rfl, fun entry he => ⟨c, _, List.mem_singleton.1 he⟩⟩
  rcases s.attempt_cases c with ⟨err, he⟩ | ⟨e, he, moves, -, hm⟩
  · exact ⟨[.call c], (congrArg Prod.snd he).symm⟩
  · refine ⟨.call c :: moves, ?_⟩
    rw [Engine.run_cons, Engine.move, he, hm]

theorem acts_setMode (s : Sequencer W) (mode : DeviceMode) : s.Acts (s.setMode mode).2 :=
  ⟨⟨[.setMode mode], rfl⟩, [], rfl, fun _ he => (List.not_mem_nil he).elim⟩

theorem Does.acts {o : Option (Call × Attempt)} (h : s.Does o s') : s.Acts s' := by
  induction h with
  | nothing ha => exact .of_eq ha.engine ha.history
  | command c _ ha ih => exact (ih.trans (acts_attempt _ c)).congr ha.engine ha.history
  | mode mode _ ha ih => exact (ih.trans (acts_setMode _ mode)).congr ha.engine ha.history

theorem takeStep_acts (s : Sequencer W) (step : Step) :
    Acts { s with history := .step step :: s.history } (s.takeStep step).2 := by
  obtain ⟨o, h, -⟩ := s.takeStep_gives step
  exact h.acts

/-! ## Where a sequence comes by -/

/-- Taking steps in order, `s` comes to `step` as `s'`. -/
inductive Walks : Sequencer W → List Step → Step → Sequencer W → Prop
  | here {s : Sequencer W} {step : Step} {steps : List Step} : Walks s (step :: steps) step s
  | next {s s₁ s' : Sequencer W} {first step : Step} {steps : List Step} :
    s.takeStep first = (.ok (), s₁) → Walks s₁ steps step s' → Walks s (first :: steps) step s'

def entered (s : Sequencer W) (t : Table) : Sequencer W :=
  { s with history := .table t :: s.history }

/-- What a sequencer sets before it runs a table that is due. -/
def prepared (s : Sequencer W) : Table → Sequencer W
  | .log => s.withFlags { s.flags with unlogged := false }
  | .recovery => { s with recoveries := s.recoveries + 1 }
  | .main => s.withFlags { retry := true, skipReset := s.flags.skipReset }

def Enters (s : Sequencer W) (t : Table) (step : Step) (s' : Sequencer W) : Prop :=
  (s.entered t).Walks (t.steps s.engine.config.chip) step s'

/-- Running the tables that follow on `status`, `s` comes to `step` as `s'`. -/
inductive Follows : Sequencer W → Except DownloadError Unit → Step → Sequencer W → Prop
  | here {s s' : Sequencer W} {status : Except DownloadError Unit} {t : Table} {step : Step} :
    (s.react status).next? = some t → ((s.react status).prepared t).Enters t step s' →
    Follows s status step s'
  | next {s s₁ s' : Sequencer W} {status status₁ : Except DownloadError Unit} {t : Table}
      {step : Step} :
    (s.react status).next? = some t → (s.react status).runNext status t = (status₁, s₁) →
    Follows s₁ status₁ step s' → Follows s status step s'

/-- With the primary image loaded and in download mode, `s` is `s₁`. -/
def Begins (s s₁ : Sequencer W) : Prop :=
  ∃ version e, s.engine.loadPrimary = (.ok version, e) ∧
    { s with engine := e, imageVersion := version }.setMode .download = (.ok (), s₁)

/-- Running the whole sequence, `s` comes to `step` as `s'`. -/
inductive Comes (s : Sequencer W) (step : Step) (s' : Sequencer W) : Prop
  | first {s₁ : Sequencer W} : s.Begins s₁ → s₁.Enters .main step s' → Comes s step s'
  | later {status : Except DownloadError Unit} {s₁ : Sequencer W} :
    s.start = (status, s₁) → s₁.Follows status step s' → Comes s step s'

/-! ## The engine on the way -/

theorem takeSteps_moves (s : Sequencer W) (steps : List Step) :
    s.Moves (s.takeSteps steps).2 := by
  induction steps generalizing s with
  | nil => exact .refl s
  | cons step steps ih =>
    have hs : s.Moves (s.takeStep step).2 := (s.takeStep_acts step).moves
    unfold Sequencer.takeSteps
    split <;> rename_i he <;> rw [he] at hs
    · exact hs
    · exact hs.trans (ih _)

theorem Walks.moves {steps : List Step} {step : Step} (h : s.Walks steps step s') :
    s.Moves s' := by
  induction h with
  | here => exact .refl _
  | @next s s₁ s' first step steps he _ ih =>
    have hs : s.Moves (s.takeStep first).2 := (s.takeStep_acts first).moves
    rw [he] at hs
    exact hs.trans ih

theorem runTable_moves (s : Sequencer W) (t : Table) : s.Moves (s.runTable t).2 :=
  takeSteps_moves (s.entered t) (t.steps s.engine.config.chip)

theorem Enters.moves {t : Table} {step : Step} (h : s.Enters t step s') : s.Moves s' := by
  have hm := Walks.moves (s := s.entered t) h
  exact hm

omit [Host W] in
theorem prepared_engine (s : Sequencer W) (t : Table) : (s.prepared t).engine = s.engine := by
  cases t <;> rfl

omit [Host W] in
theorem react_engine (s : Sequencer W) (status : Except DownloadError Unit) :
    (s.react status).engine = s.engine := by
  unfold Sequencer.react
  split
  · rfl
  · split
    · rfl
    · split <;> rfl

theorem runNext_eq (s : Sequencer W) (status : Except DownloadError Unit) (t : Table) :
    (s.runNext status t).2 = ((s.prepared t).runTable t).2 := by
  cases t with
  | log => cases status <;> rfl
  | recovery => rfl
  | main => rfl

theorem Follows.moves {status : Except DownloadError Unit} {step : Step}
    (h : s.Follows status step s') : s.Moves s' := by
  induction h with
  | @here s s' status t step _ he =>
    exact he.moves.after ((prepared_engine _ t).trans (s.react_engine status))
  | @next s s₁ s' status status₁ t step _ hr _ ih =>
    have hs := ((s.react status).prepared t).runTable_moves t
    rw [← runNext_eq (s.react status) status, hr] at hs
    exact (hs.after ((prepared_engine _ t).trans (s.react_engine status))).trans ih

theorem Begins.moves (h : s.Begins s₁) : s.Moves s₁ ∧ s.engine.session.busy = false := by
  obtain ⟨version, e, he, hm⟩ := h
  have hl : s.engine.loadPrimary.2 = e := congrArg Prod.snd he
  have hp := (Engine.Passes.loadPrimary s.engine).session
  rw [hl] at hp
  refine ⟨⟨[.loadPrimary, .setMode .download], ?_⟩, ?_⟩
  · have hs := congrArg (fun r => r.2.engine) hm
    rw [Engine.run_cons, Engine.move, hl]
    exact hs.symm
  · cases hb : s.engine.session.busy with
    | false => rfl
    | true =>
      have hc := congrArg Prod.fst hm
      unfold Sequencer.setMode Engine.setMode at hc
      dsimp only at hc
      rw [hp, hb] at hc
      cases hc

omit [Host W] in
theorem loadPrimary_unrecoverable {e e' : Engine W} {err : DownloadError}
    (h : e.loadPrimary = (.error err, e')) : err.isRecoverable = false := by
  unfold Engine.loadPrimary at h
  split at h <;> cases h
  rfl

theorem setMode_unrecoverable {mode : DeviceMode} {err : DownloadError}
    (h : s.setMode mode = (.error err, s')) : err.isRecoverable = false := by
  unfold Sequencer.setMode Engine.setMode at h
  dsimp only at h
  split at h
  · cases h
    rfl
  · split at h <;> cases h
    rfl

/-- The main table is run first, or the sequence does not get so far. -/
theorem start_cases (s : Sequencer W) :
    (∃ s₁, s.Begins s₁ ∧ s.start = s₁.runTable .main) ∨
    ∃ err s₁, s.start = (.error err, s₁) ∧ err.isRecoverable = false ∧
      s₁.flags = s.flags ∧ s₁.history = s.history ∧ s.Moves s₁ := by
  unfold Sequencer.start
  split
  · rename_i err e he
    have hm : s.Moves { s with engine := e } := ⟨[.loadPrimary], (congrArg Prod.snd he).symm⟩
    exact .inr ⟨err, _, rfl, loadPrimary_unrecoverable he, rfl, rfl, hm⟩
  · rename_i version e he
    have hl : s.Moves { s with engine := e, imageVersion := version } :=
      ⟨[.loadPrimary], (congrArg Prod.snd he).symm⟩
    split
    · rename_i err s₁ hm
      have ha := (acts_setMode { s with engine := e, imageVersion := version } .download).moves
      rw [hm] at ha
      have hf : s₁.flags = s.flags := congrArg (fun r => r.2.flags) hm.symm
      have hh : s₁.history = s.history := congrArg (fun r => r.2.history) hm.symm
      exact .inr ⟨err, s₁, rfl, setMode_unrecoverable hm, hf, hh, hl.trans ha⟩
    · rename_i s₁ hm
      exact .inl ⟨s₁, ⟨version, e, he, hm⟩, rfl⟩

omit [Host W] in
theorem react_unrecoverable {err : DownloadError} (s : Sequencer W)
    (hr : err.isRecoverable = false) : s.react (.error err) = s := by
  unfold Sequencer.react
  exact if_pos (by rw [hr]; rfl)

theorem Follows.due {err : DownloadError} {step : Step} (h : s.Follows (.error err) step s')
    (hr : err.isRecoverable = false) : s.next? ≠ none := by
  have he := s.react_unrecoverable hr
  cases h with
  | here hn =>
    rw [he] at hn
    rw [hn]
    exact Option.some_ne_none _
  | next hn =>
    rw [he] at hn
    rw [hn]
    exact Option.some_ne_none _

/-- A new sequencer comes to a step only with an engine that was idle. -/
theorem Comes.moves {step : Step} (h : s.Comes step s') (hf : s.flags = {}) :
    s.Moves s' ∧ s.engine.session.busy = false := by
  cases h with
  | first hb he => exact ⟨hb.moves.1.trans he.moves, hb.moves.2⟩
  | @later status s₁ hs hl =>
    rcases s.start_cases with ⟨s₀, hb, he⟩ | ⟨err, s₀, he, hr, hf', -⟩
    · have ht := s₀.runTable_moves .main
      rw [← he, hs] at ht
      exact ⟨(hb.moves.1.trans ht).trans hl.moves, hb.moves.2⟩
    · -- A start that fails sets no flag, so no table is due after it.
      obtain ⟨rfl, rfl⟩ := Prod.mk.inj (hs.symm.trans he)
      refine absurd ?_ (hl.due hr)
      unfold Sequencer.next?
      rw [hf', hf]
      rfl

/-! ## The steps that are noted -/

/-- The step stands in the history, on top of `pre`. -/
def Notes (s : Sequencer W) (step : Step) (pre : List SequenceEntry) : Prop :=
  .step step :: pre <:+ s.history

variable {step : Step} {pre : List SequenceEntry}

theorem isSuffix_of_commands {entries old : List SequenceEntry}
    (hc : ∀ entry ∈ entries, ∃ c attempt, entry = .command c attempt)
    (h : .step step :: pre <:+ entries ++ old) : .step step :: pre <:+ old := by
  induction entries with
  | nil => exact h
  | cons entry entries ih =>
    rcases List.suffix_cons_iff.1 h with he | hs
    · obtain ⟨c, attempt, rfl⟩ := hc entry (List.mem_cons_self ..)
      cases (List.cons.inj he).1
    · exact ih (fun entry' he => hc entry' (List.mem_cons_of_mem _ he)) hs

theorem Acts.notes (h : s.Acts s₁) (hn : s₁.Notes step pre) : s.Notes step pre := by
  obtain ⟨-, entries, hh, hc⟩ := h
  rw [Notes, hh] at hn
  exact isSuffix_of_commands hc hn

theorem Begins.notes (h : s.Begins s₁) (hn : s₁.Notes step pre) : s.Notes step pre := by
  obtain ⟨version, e, -, hm⟩ := h
  have hh : s₁.history = s.history := congrArg (fun r => r.2.history) hm.symm
  rwa [Notes, hh] at hn

theorem takeSteps_notes {steps : List Step} (h : (s.takeSteps steps).2.Notes step pre) :
    s.Notes step pre ∨ ∃ s', s.Walks steps step s' ∧ s'.history = pre := by
  induction steps generalizing s with
  | nil => exact .inl h
  | cons first steps ih =>
    have hf : ∀ r s₁, s.takeStep first = (r, s₁) → s₁.Notes step pre →
        s.Notes step pre ∨ ∃ s', s.Walks (first :: steps) step s' ∧ s'.history = pre := by
      intro r s₁ he hn
      have ha := s.takeStep_acts first
      rw [he] at ha
      rcases List.suffix_cons_iff.1 (ha.notes hn) with hs | hs
      · cases hs
        exact .inr ⟨s, .here, rfl⟩
      · exact .inl hs
    unfold Sequencer.takeSteps at h
    split at h
    · rename_i err s₁ he
      exact hf _ _ he h
    · rename_i s₁ he
      rcases ih h with hn | ⟨s', hw, hp⟩
      · exact hf _ _ he hn
      · exact .inr ⟨s', .next he hw, hp⟩

theorem runTable_notes {t : Table} (h : (s.runTable t).2.Notes step pre) :
    s.Notes step pre ∨ ∃ s', s.Enters t step s' ∧ s'.history = pre := by
  rcases takeSteps_notes (s := s.entered t) h with hn | hw
  · rcases List.suffix_cons_iff.1 hn with hs | hs
    · cases hs
    · exact .inl hs
  · exact .inr hw

omit [Host W] in
theorem react_notes {status : Except DownloadError Unit} :
    (s.react status).Notes step pre ↔ s.Notes step pre := by
  unfold Sequencer.react
  split
  · exact Iff.rfl
  · split
    · exact Iff.rfl
    · split <;> exact Iff.rfl

omit [Host W] in
theorem prepared_notes {t : Table} : (s.prepared t).Notes step pre ↔ s.Notes step pre := by
  cases t <;> exact Iff.rfl

theorem runTables_notes {budget : Nat} {status status' : Except DownloadError Unit}
    (h : s.runTables budget status = some (status', s')) (hn : s'.Notes step pre) :
    s.Notes step pre ∨ ∃ s₁, s.Follows status step s₁ ∧ s₁.history = pre := by
  induction budget generalizing s status with
  | zero =>
    unfold Sequencer.runTables at h
    dsimp only at h
    split at h
    · cases h
      exact .inl (react_notes.1 hn)
    · cases h
    · rename_i he _
      cases he
  | succ budget ih =>
    unfold Sequencer.runTables at h
    dsimp only at h
    split at h
    · cases h
      exact .inl (react_notes.1 hn)
    · rename_i he _
      cases he
    · rename_i budget' t he hd
      cases he
      rcases ih h with hs | ⟨s₂, hf, hp⟩
      · rw [runNext_eq] at hs
        rcases runTable_notes hs with hs | ⟨s₂, he, hp⟩
        · exact .inl (react_notes.1 (prepared_notes.1 hs))
        · exact .inr ⟨s₂, .here hd he, hp⟩
      · exact .inr ⟨s₂, .next hd rfl hf, hp⟩

theorem leave_eq (s : Sequencer W) (status : Except DownloadError Unit) :
    (s.leave status).2 = (s.setMode .normal).2 := by
  unfold Sequencer.leave
  rcases s.setMode .normal with ⟨_ | _, s₁⟩
  · cases status <;> rfl
  · rfl

/-- Every step that a whole sequence notes is one that it comes to. -/
theorem run_notes {budget : Nat} {report : SequenceReport}
    (h : s.run budget = some (report, s')) (hn : s'.Notes step pre) :
    s.Notes step pre ∨ ∃ s₁, s.Comes step s₁ ∧ s₁.history = pre := by
  unfold Sequencer.run at h
  dsimp only at h
  split at h
  · cases h
  · rename_i status s₂ ht
    cases h
    rw [leave_eq] at hn
    rcases runTables_notes ht ((s₂.acts_setMode .normal).notes hn) with hs | ⟨s₁, hf, hp⟩
    · rcases s.start_cases with ⟨s₀, hb, he⟩ | ⟨err, s₀, he, -, -, hh, -⟩
      · rw [he] at hs
        rcases runTable_notes hs with hs | ⟨s₁, hen, hp⟩
        · exact .inl (hb.notes hs)
        · exact .inr ⟨s₁, .first hb hen, hp⟩
      · rw [he, Notes, hh] at hs
        exact .inl hs
    · exact .inr ⟨s₁, .later rfl hf, hp⟩

end Sequencer

end FirmwareDownload
