import FirmwareDownload.Proofs.Sequence.Course

/-! The steps that a table comes to, one after the other, each with the state that it is taken
in. What holds along a row of steps is shown here once. -/

namespace FirmwareDownload

/-- A step, with the state it is taken in. -/
structure Visit (W : Type) where
  step : Step
  before : Sequencer W

/-- A table, with the state it is entered in. -/
structure Lap (W : Type) where
  table : Table
  entry : Sequencer W

variable {W : Type} [Host W]

namespace Visit

variable {v : Visit W}

def result (v : Visit W) : Except DownloadError Unit := (v.before.takeStep v.step).1

def after (v : Visit W) : Sequencer W := (v.before.takeStep v.step).2

/-- The command that the step gave, as the history has it. -/
def command? (v : Visit W) : Option (Call × Attempt) :=
  match v.after.history with
  | .command c attempt :: _ => some (c, attempt)
  | _ => none

def noted (v : Visit W) : Sequencer W :=
  { v.before with history := .step v.step :: v.before.history }

end Visit

namespace Sequencer

variable {s s₁ s₂ s' : Sequencer W}

/-- The steps that `s` comes to, one after the other, up to the first that fails. -/
def visits (s : Sequencer W) : List Step → List (Visit W)
  | [] => []
  | step :: steps =>
    ⟨step, s⟩ :: match s.takeStep step with
      | (.ok (), s) => s.visits steps
      | (.error _, _) => []

end Sequencer

namespace Visit

variable {v : Visit W} {steps : List Step}

def onward (v : Visit W) (steps : List Step) : List (Visit W) :=
  match v.result with
  | .ok () => v.after.visits steps
  | .error _ => []

def outcome (v : Visit W) (steps : List Step) : Except DownloadError Unit × Sequencer W :=
  match v.result with
  | .ok () => v.after.takeSteps steps
  | .error err => (.error err, v.after)

theorem onward_ok (h : v.result = .ok ()) : v.onward steps = v.after.visits steps := by
  rw [onward, h]

theorem onward_error {err : DownloadError} (h : v.result = .error err) : v.onward steps = [] := by
  rw [onward, h]

theorem onward_nil (v : Visit W) : v.onward [] = [] := by
  unfold onward
  split <;> rfl

theorem outcome_ok (h : v.result = .ok ()) : v.outcome steps = v.after.takeSteps steps := by
  rw [outcome, h]

theorem outcome_error {err : DownloadError} (h : v.result = .error err) :
    v.outcome steps = (.error err, v.after) := by
  rw [outcome, h]

end Visit

namespace Lap

def steps (lap : Lap W) : List Step := lap.table.steps lap.entry.engine.config.chip

def visits (lap : Lap W) : List (Visit W) := lap.entry.visits lap.steps

def result (lap : Lap W) : Except DownloadError Unit := (lap.entry.takeSteps lap.steps).1

def exit (lap : Lap W) : Sequencer W := (lap.entry.takeSteps lap.steps).2

end Lap

/-! ## Steps in a row -/

namespace Sequencer

variable {s s₁ s' : Sequencer W}

theorem takeSteps_append (s : Sequencer W) (steps steps' : List Step) :
    s.takeSteps (steps ++ steps') = match s.takeSteps steps with
      | (.ok (), s₁) => s₁.takeSteps steps'
      | (.error err, s₁) => (.error err, s₁) := by
  induction steps generalizing s with
  | nil => rfl
  | cons step steps ih =>
    rw [List.cons_append, Sequencer.takeSteps, Sequencer.takeSteps]
    rcases s.takeStep step with ⟨err | _, s₁⟩
    · rfl
    · exact ih s₁

theorem visits_append (s : Sequencer W) (steps steps' : List Step) :
    s.visits (steps ++ steps') = s.visits steps ++ match s.takeSteps steps with
      | (.ok (), s₁) => s₁.visits steps'
      | (.error _, _) => [] := by
  induction steps generalizing s with
  | nil => rfl
  | cons step steps ih =>
    rw [List.cons_append, visits, visits, Sequencer.takeSteps]
    rcases s.takeStep step with ⟨err | _, s₁⟩
    · rfl
    · exact congrArg (_ :: ·) (ih s₁)

theorem visits_cons (s : Sequencer W) (step : Step) (steps : List Step) :
    s.visits (step :: steps) = ⟨step, s⟩ :: (Visit.mk step s).onward steps := by
  rw [visits, Visit.onward, Visit.result, Visit.after]
  rcases s.takeStep step with ⟨_ | _, s₁⟩ <;> rfl

theorem takeSteps_cons (s : Sequencer W) (step : Step) (steps : List Step) :
    s.takeSteps (step :: steps) = (Visit.mk step s).outcome steps := by
  rw [Sequencer.takeSteps, Visit.outcome, Visit.result, Visit.after]
  rcases s.takeStep step with ⟨_ | _, s₁⟩ <;> rfl

theorem takeSteps_cons_ok {step : Step} {steps : List Step}
    (h : s.takeSteps (step :: steps) = (.ok (), s')) :
    (Visit.mk step s).result = .ok () ∧ (Visit.mk step s).after.takeSteps steps = (.ok (), s') ∧
      s.visits (step :: steps) = ⟨step, s⟩ :: (Visit.mk step s).after.visits steps := by
  rw [takeSteps_cons] at h
  cases hr : (Visit.mk step s).result with
  | error err =>
    rw [Visit.outcome_error hr] at h
    cases h
  | ok =>
    rw [Visit.outcome_ok hr] at h
    exact ⟨rfl, h, by rw [visits_cons, Visit.onward_ok hr]⟩

theorem takeSteps_append_ok {steps steps' : List Step}
    (h : s.takeSteps (steps ++ steps') = (.ok (), s')) :
    ∃ s₁, s.takeSteps steps = (.ok (), s₁) ∧ s₁.takeSteps steps' = (.ok (), s') ∧
      s.visits (steps ++ steps') = s.visits steps ++ s₁.visits steps' := by
  rw [takeSteps_append] at h
  rw [visits_append]
  rcases hr : s.takeSteps steps with ⟨err | _, s₁⟩ <;> rw [hr] at h
  · cases h
  · exact ⟨s₁, rfl, h, rfl⟩

/-- What one step keeps, the steps of a row keep. -/
theorem keeps_takeSteps {P : Sequencer W → Prop} (steps : List Step) (h : P s)
    (hk : ∀ s step, step ∈ steps → P s → P (s.takeStep step).2) :
    P (s.takeSteps steps).2 ∧ ∀ v ∈ s.visits steps, v.step ∈ steps ∧ P v.before := by
  induction steps generalizing s with
  | nil =>
    rw [Sequencer.takeSteps, visits]
    exact ⟨h, fun v hv => (List.not_mem_nil hv).elim⟩
  | cons step steps ih =>
    have h₁ : P (Visit.mk step s).after := hk s step (List.mem_cons_self ..) h
    rw [takeSteps_cons, visits_cons]
    cases hr : (Visit.mk step s).result with
    | error err =>
      rw [Visit.outcome_error hr, Visit.onward_error hr]
      refine ⟨h₁, fun v hv => ?_⟩
      obtain rfl := List.mem_singleton.1 hv
      exact ⟨List.mem_cons_self .., h⟩
    | ok =>
      obtain ⟨hf, hb⟩ := ih h₁ fun s step hm => hk s step (List.mem_cons_of_mem _ hm)
      rw [Visit.outcome_ok hr, Visit.onward_ok hr]
      refine ⟨hf, fun v hv => ?_⟩
      rcases List.mem_cons.1 hv with rfl | hv
      · exact ⟨List.mem_cons_self .., h⟩
      · exact (hb v hv).imp_left (List.mem_cons_of_mem _)

/-- What holds of the steps so far and of the state they lead to, all along a row. -/
theorem along_takeSteps {P : List (Visit W) → Sequencer W → Prop} {vs : List (Visit W)}
    {steps : List Step} (h : P vs s)
    (hk : ∀ v ∈ s.visits steps, ∀ vs, P vs v.before → P (vs ++ [v]) v.after) :
    P (vs ++ s.visits steps) (s.takeSteps steps).2 ∧
      ∀ pre v post, s.visits steps = pre ++ v :: post → P (vs ++ pre) v.before := by
  -- On the rest of the row, with what was visited before it in `vs`.
  induction steps generalizing s vs with
  | nil =>
    refine ⟨by rw [visits, List.append_nil]; exact h, fun pre v post he => ?_⟩
    cases pre <;> cases he
  | cons step steps ih =>
    let v := Visit.mk step s
    rw [visits_cons] at hk ⊢
    rw [takeSteps_cons]
    have h₁ : P (vs ++ [v]) v.after := hk v (List.mem_cons_self ..) vs h
    cases hr : v.result with
    | error err =>
      rw [Visit.outcome_error hr, Visit.onward_error hr]
      refine ⟨h₁, fun pre u post he => ?_⟩
      obtain ⟨rfl, rfl⟩ : pre = [] ∧ u = v := by
        cases pre with
        | nil => exact ⟨rfl, (List.cons.inj he).1.symm⟩
        | cons v' pre => exact (List.append_ne_nil_of_right_ne_nil pre (List.cons_ne_nil u post)
            (List.cons.inj he).2.symm).elim
      rw [List.append_nil]
      exact h
    | ok =>
      rw [Visit.onward_ok hr] at hk ⊢
      rw [Visit.outcome_ok hr]
      obtain ⟨hf, hb⟩ := ih h₁ fun u hu => hk u (List.mem_cons_of_mem _ hu)
      refine ⟨List.append_cons vs v _ ▸ hf, fun pre u post he => ?_⟩
      cases pre with
      | nil =>
        obtain rfl := (List.cons.inj he).1
        rw [List.append_nil]
        exact h
      | cons v' pre =>
        have ht := (List.cons.inj he).2
        obtain rfl := (List.cons.inj he).1
        rw [List.append_cons]
        exact hb pre u post ht

/-- The same from the start of a row to its end. -/
theorem takeSteps_induction {P : List (Visit W) → Sequencer W → Prop} (steps : List Step)
    (h : P [] s) (hk : ∀ v ∈ s.visits steps, ∀ vs, P vs v.before → P (vs ++ [v]) v.after) :
    P (s.visits steps) (s.takeSteps steps).2 :=
  (along_takeSteps h hk).1

theorem step_mem_of_visits {steps : List Step} {v : Visit W} (h : v ∈ s.visits steps) :
    v.step ∈ steps :=
  ((keeps_takeSteps (P := fun _ => True) _ trivial fun _ _ _ _ => trivial).2 v h).1

theorem step_mem_of_onward {steps : List Step} {u v : Visit W} (h : u ∈ v.onward steps) :
    u.step ∈ steps := by
  cases hr : v.result with
  | ok => exact step_mem_of_visits (Visit.onward_ok hr ▸ h)
  | error err =>
    rw [Visit.onward_error hr] at h
    cases h

/-- Where a row of steps comes to one that stands in it once. -/
theorem visits_at {steps steps' : List Step} {v : Visit W} (hn : v.step ∉ steps)
    (hn' : v.step ∉ steps') (hv : v ∈ s.visits (steps ++ v.step :: steps')) :
    s.takeSteps steps = (.ok (), v.before) ∧
      s.visits (steps ++ v.step :: steps') = s.visits steps ++ v :: v.onward steps' ∧
      s.takeSteps (steps ++ v.step :: steps') = v.outcome steps' := by
  -- It is not among the visits of `steps`, so these all went well, and it is the next.
  have hb : v ∉ s.visits steps := fun h => hn (step_mem_of_visits h)
  rw [visits_append] at hv ⊢
  rw [takeSteps_append]
  have h := (List.mem_append.1 hv).resolve_left hb
  rcases ht : s.takeSteps steps with ⟨err | _, s₁⟩ <;> rw [ht] at h <;> dsimp only at h ⊢
  · cases h
  · rw [visits_cons] at h ⊢
    have he := (List.mem_cons.1 h).resolve_right fun h => hn' (step_mem_of_onward h)
    obtain rfl : v.before = s₁ := congrArg Visit.before he
    exact ⟨rfl, rfl, takeSteps_cons ..⟩

end Sequencer

/-! ## What a visit does -/

namespace Visit

variable {v : Visit W} {c : Call} {attempt : Attempt}

theorem does (v : Visit W) : v.noted.Does v.command? v.after ∧
    ∀ c attempt, v.command? = some (c, attempt) → c.command = v.step.command := by
  obtain ⟨o, hd, hc⟩ := v.before.takeStep_gives v.step
  have hh := hd.history
  have ho : v.command? = o := by
    rw [command?, after, hh]
    rcases o with _ | ⟨c, attempt⟩ <;> rfl
  rw [ho]
  exact ⟨hd, hc⟩

theorem takeStep_eq (v : Visit W) : v.before.takeStep v.step = match v.step with
    | .normal => v.noted.normal
    | .getSessionState => v.noted.getSessionState
    | .getVersion => v.noted.getVersion
    | .logRead => v.noted.logRead
    | .write => v.noted.write
    | .log => v.noted.writeLog
    | .checkIntegrity => v.noted.checkIntegrity
    | .reset => v.noted.reset
    | .force => v.noted.force
    | .recover => v.noted.recover
    | .coreReset => v.noted.resetCore :=
  rfl

theorem history (v : Visit W) : v.after.history =
    (v.command?.toList.map fun p => .command p.1 p.2) ++ .step v.step :: v.before.history :=
  v.does.1.history

end Visit

namespace Sequencer

theorem takeSteps_keeps (s : Sequencer W) (steps : List Step) :
    ∀ v ∈ s.visits steps, v.before.options = s.options ∧
      v.before.imageVersion = s.imageVersion := by
  have hk := keeps_takeSteps (s := s)
    (P := fun s' => s'.options = s.options ∧ s'.imageVersion = s.imageVersion) steps ⟨rfl, rfl⟩
    fun s' step _ ⟨ho, hi⟩ => by
      obtain ⟨ho', hi'⟩ := (Visit.mk step s').does.1.keeps
      exact ⟨ho'.trans ho, hi'.trans hi⟩
  exact fun v hv => (hk.2 v hv).2

end Sequencer

end FirmwareDownload
