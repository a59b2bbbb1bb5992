import Mathlib.Tactic.SplitIfs
import FirmwareDownload.Proofs.Engine.Moves
import FirmwareDownload.Sequence.Sequencer

/-! What a step does to the engine. It gives one command at most, and all else that it does there
is to switch the mode. -/

namespace FirmwareDownload

namespace Sequencer

variable {W : Type} {s s₁ s₂ s' : Sequencer W} {o : Option (Call × Attempt)}

/-- The two differ at most in what steps leave behind for later ones. -/
structure Alike (s s' : Sequencer W) : Prop where
  engine : s'.engine = s.engine
  history : s'.history = s.history
  options : s'.options = s.options
  imageVersion : s'.imageVersion = s.imageVersion

theorem Alike.refl (s : Sequencer W) : s.Alike s := ⟨rfl, rfl, rfl, rfl⟩

theorem Alike.trans (h : s.Alike s₁) (h' : s₁.Alike s₂) : s.Alike s₂ :=
  ⟨h'.engine.trans h.engine, h'.history.trans h.history, h'.options.trans h.options,
    h'.imageVersion.trans h.imageVersion⟩

theorem alike_withFlags (s : Sequencer W) (flags : SequenceFlags) :
    s.Alike (s.withFlags flags) :=
  ⟨rfl, rfl, rfl, rfl⟩

variable [Host W]

@[simp]
theorem attempt_flags (s : Sequencer W) (c : Call) : (s.attempt c).2.flags = s.flags := rfl

@[simp]
theorem attempt_statistics (s : Sequencer W) (c : Call) :
    (s.attempt c).2.statistics = s.statistics :=
  rfl

theorem attempt_history (s : Sequencer W) (c : Call) :
    (s.attempt c).2.history = .command c (s.attempt c).1 :: s.history :=
  rfl

@[simp]
theorem setMode_flags (s : Sequencer W) (mode : DeviceMode) :
    (s.setMode mode).2.flags = s.flags :=
  rfl

/-- From `s` to `s'` the engine was given the command of `o`, if there is one, and its mode was
switched. -/
inductive Does (s : Sequencer W) : Option (Call × Attempt) → Sequencer W → Prop
  | nothing {s' : Sequencer W} : s.Alike s' → Does s none s'
  | command {s₁ s' : Sequencer W} (c : Call) : Does s none s₁ → (s₁.attempt c).2.Alike s' →
    Does s (some (c, (s₁.attempt c).1)) s'
  | mode {s₁ s' : Sequencer W} {o : Option (Call × Attempt)} (mode : DeviceMode) : Does s o s₁ →
    (s₁.setMode mode).2.Alike s' → Does s o s'

theorem Does.congr (h : s.Does o s₁) (h' : s₁.Alike s₂) : s.Does o s₂ := by
  cases h with
  | nothing ha => exact .nothing (ha.trans h')
  | command c h ha => exact .command c h (ha.trans h')
  | mode mode h ha => exact .mode mode h (ha.trans h')

theorem Does.after (h : s₁.Does o s₂) (h' : s.Alike s₁) : s.Does o s₂ := by
  induction h with
  | nothing ha => exact .nothing (h'.trans ha)
  | command c _ ha ih => exact .command c ih ha
  | mode mode _ ha ih => exact .mode mode ih ha

theorem Does.history (h : s.Does o s') :
    s'.history = (o.toList.map fun p => .command p.1 p.2) ++ s.history := by
  induction h with
  | nothing ha => exact ha.history
  | command c _ ha ih =>
    rw [ha.history, attempt_history]
    exact congrArg (_ :: ·) ih
  | mode mode _ ha ih => exact ha.history.trans ih

theorem Does.keeps (h : s.Does o s') :
    s'.options = s.options ∧ s'.imageVersion = s.imageVersion := by
  induction h with
  | nothing ha => exact ⟨ha.options, ha.imageVersion⟩
  | command c _ ha ih => exact ⟨ha.options.trans ih.1, ha.imageVersion.trans ih.2⟩
  | mode mode _ ha ih => exact ⟨ha.options.trans ih.1, ha.imageVersion.trans ih.2⟩

theorem does_nothing (s : Sequencer W) : s.Does none s := .nothing (.refl s)

theorem performThen_cases (s : Sequencer W) (c : Call)
    (take : Sequencer W → Bytes → Except DownloadError Unit × Sequencer W) :
    (∃ err, (s.attempt c).1.result = .error err ∧
      s.performThen c take = (.error err, (s.attempt c).2)) ∨
    ∃ answer, (s.attempt c).1 = .ended (.ok answer) ∧
      s.performThen c take = take (s.attempt c).2 answer := by
  unfold Sequencer.performThen Sequencer.perform
  rcases s.attempt c with ⟨err | ⟨err | answer⟩, s'⟩
  · exact .inl ⟨err, rfl, rfl⟩
  · exact .inl ⟨err, rfl, rfl⟩
  · exact .inr ⟨answer, rfl, rfl⟩

/-- From `s` to `s'` the engine was given one command at most, and that of the kind `command`. -/
def Gives (s : Sequencer W) (command : Command) (s' : Sequencer W) : Prop :=
  ∃ o, s.Does o s' ∧ ∀ c attempt, o = some (c, attempt) → c.command = command

variable {command : Command}

theorem Gives.congr (h : s.Gives command s₁) (h' : s₁.Alike s₂) : s.Gives command s₂ :=
  h.imp fun _ => .imp_left (Does.congr · h')

theorem Gives.after (h : s₁.Gives command s₂) (h' : s.Alike s₁) : s.Gives command s₂ :=
  h.imp fun _ => .imp_left (Does.after · h')

theorem Does.gives (h : s.Does none s') (command : Command) : s.Gives command s' :=
  ⟨none, h, fun _ _ ho => by cases ho⟩

theorem gives_alike (h : s.Alike s') (command : Command) : s.Gives command s' :=
  Does.gives (.nothing h) command

theorem gives_attempt (h : s.Does none s₁) (c : Call) : s.Gives c.command (s₁.attempt c).2 :=
  ⟨_, .command c h (.refl _), by rintro _ _ ⟨⟩; rfl⟩

theorem gives_performThen (h : s.Does none s₁) (c : Call)
    {take : Sequencer W → Bytes → Except DownloadError Unit × Sequencer W}
    (ht : ∀ s₂ answer, s.Gives c.command s₂ → s.Gives c.command (take s₂ answer).2) :
    s.Gives c.command (s₁.performThen c take).2 := by
  have hc := gives_attempt h c
  rcases s₁.performThen_cases c take with ⟨err, -, he⟩ | ⟨answer, -, he⟩
  · rw [he]
    exact hc
  · rw [he]
    exact ht _ answer hc

/-- A step that gives a command and only takes note of the answer. -/
theorem gives_query (s : Sequencer W) (c : Call)
    {take : Sequencer W → Bytes → Except DownloadError Unit × Sequencer W}
    (ht : ∀ s answer, Alike s (take s answer).2) : s.Gives c.command (s.performThen c take).2 :=
  gives_performThen (does_nothing s) c fun s₂ answer h => h.congr (ht s₂ answer)

/-! ## Answers that are taken note of -/

omit [Host W] in
theorem alike_takeSessionState (s : Sequencer W) (report : Bytes) :
    s.Alike (s.takeSessionState report).2 := by
  unfold Sequencer.takeSessionState
  dsimp only
  split_ifs <;> exact ⟨rfl, rfl, rfl, rfl⟩

omit [Host W] in
theorem alike_checkBefore (s : Sequencer W) (image current : FirmwareVersion) :
    s.Alike (s.checkBefore image current).2 := by
  unfold Sequencer.checkBefore
  split_ifs <;> exact ⟨rfl, rfl, rfl, rfl⟩

omit [Host W] in
theorem alike_checkAfter (s : Sequencer W) (image current : FirmwareVersion) :
    s.Alike (s.checkAfter image current).2 := by
  unfold Sequencer.checkAfter
  split_ifs <;> exact ⟨rfl, rfl, rfl, rfl⟩

omit [Host W] in
theorem alike_takeVersion (s : Sequencer W) (report : Bytes) :
    s.Alike (s.takeVersion report).2 := by
  unfold Sequencer.takeVersion
  cases report with
  | nil => exact .refl s
  | cons hardware rest =>
    dsimp only
    cases reportLength? (hardware &&& 0x0F) with
    | none => exact .refl s
    | some expected =>
      have ha : s.Alike { s with chipVersion := some (hardware &&& 0x0F) } := ⟨rfl, rfl, rfl, rfl⟩
      dsimp only
      split_ifs
      · exact ha
      · exact ha
      · exact ha.trans (alike_checkAfter _ _ _)
      · exact ha.trans (alike_checkBefore _ _ _)

omit [Host W] in
theorem alike_takeStatistics (s : Sequencer W) (data : Bytes) :
    s.Alike (s.takeStatistics data).2 := by
  unfold Sequencer.takeStatistics
  cases Statistics.ofBytes? data <;> exact ⟨rfl, rfl, rfl, rfl⟩

omit [Host W] in
theorem alike_takeIntegrity (s : Sequencer W) (report : Bytes) :
    s.Alike (s.takeIntegrity report).2 := by
  unfold Sequencer.takeIntegrity
  cases RegionFlags.ofReport? report <;> dsimp only <;> split_ifs <;> exact ⟨rfl, rfl, rfl, rfl⟩

/-! ## Steps -/

def forcing (s : Sequencer W) : Sequencer W :=
  if s.flags.recovery then { s with attempts := s.attempts + 1 } else s

theorem forceClock_eq (s : Sequencer W) : s.forceClock =
    match s.forcing.attempt (.force s.forcing.options.clock) with
    | (.refused err, s) =>
      (.error err, s.withFlags { s.flags with skipForce := false, retry := false })
    | (.ended (.ok _), s) => (.ok true, s)
    | (.ended (.error _), s) => (.ok false, s) :=
  rfl

omit [Host W] in
theorem alike_forcing (s : Sequencer W) : s.Alike s.forcing := by
  unfold forcing
  split_ifs <;> exact ⟨rfl, rfl, rfl, rfl⟩

theorem forceClock_gives (s : Sequencer W) : s.Gives .force s.forceClock.2 := by
  have hc := gives_attempt (.nothing s.alike_forcing) (.force s.forcing.options.clock)
  rw [forceClock_eq]
  generalize s.forcing.attempt (.force s.forcing.options.clock) = r at hc
  rcases r with ⟨err | ⟨err | answer⟩, s₁⟩
  · exact hc.congr (alike_withFlags _ _)
  · exact hc
  · exact hc

theorem normal_gives (s : Sequencer W) : s.Gives .force s.normal.2 := by
  unfold Sequencer.normal
  split_ifs
  · exact gives_alike (.refl s) _
  · exact s.forceClock_gives

theorem getSessionState_gives (s : Sequencer W) :
    s.Gives .getSessionState s.getSessionState.2 := by
  unfold Sequencer.getSessionState
  split_ifs
  · exact gives_alike (.refl s) _
  · exact s.gives_query (.getSessionState 3) alike_takeSessionState

theorem getVersion_gives (s : Sequencer W) : s.Gives .getVersion s.getVersion.2 := by
  unfold Sequencer.getVersion
  split_ifs
  · exact gives_alike (.refl s) _
  · exact s.gives_query (.getVersion 11) alike_takeVersion

theorem logRead_gives (s : Sequencer W) : s.Gives .read s.logRead.2 := by
  unfold Sequencer.logRead
  dsimp only
  split_ifs
  · exact gives_alike (.refl s) _
  · exact s.gives_query (.readLog Statistics.size) alike_takeStatistics

/-- A write that is not forced is counted before it is given to the engine. -/
def writing (s : Sequencer W) : Sequencer W := if !s.flags.forced then s.countWrite else s

theorem writePrimary_eq (s : Sequencer W) : s.writePrimary =
    match s.writing.attempt (.write false none) with
    | (.refused err, t) =>
      (.error err,
        if !s.flags.forced then { t with statistics := t.statistics.countFailure } else t)
    | (.ended (.ok _), t) =>
      (.ok (), if t.flags.unlogged then { t with statistics := t.statistics.countSuccess } else t)
    | (.ended (.error err), t) =>
      let t := if t.flags.unlogged then { t with statistics := t.statistics.countFailure } else t
      (.error err, if err = .writeFailed then
        t.withFlags { t.flags with skipRest := true, recovery := true } else t) :=
  rfl

omit [Host W] in
theorem alike_writing (s : Sequencer W) : s.Alike s.writing := by
  unfold writing
  split_ifs <;> exact ⟨rfl, rfl, rfl, rfl⟩

theorem writePrimary_gives (s : Sequencer W) : s.Gives .write s.writePrimary.2 := by
  have hc := gives_attempt (.nothing s.alike_writing) (.write false none)
  rw [writePrimary_eq]
  generalize s.writing.attempt (.write false none) = r at hc
  rcases r with ⟨err | ⟨err | answer⟩, s₁⟩ <;> dsimp only <;>
    refine hc.congr ?_ <;> split_ifs <;> exact ⟨rfl, rfl, rfl, rfl⟩

theorem write_gives (s : Sequencer W) : s.Gives .write s.write.2 := by
  unfold Sequencer.write
  dsimp only
  split_ifs
  · exact gives_alike (alike_withFlags _ _) _
  · exact (writePrimary_gives _).after (alike_withFlags s _)

theorem writeLog_gives (s : Sequencer W) : s.Gives .log s.writeLog.2 := by
  unfold Sequencer.writeLog
  split_ifs
  · exact gives_alike (.refl s) _
  · exact s.gives_query (.log s.statistics.toBytes) fun s _ => alike_withFlags s _

theorem checkIntegrity_gives (s : Sequencer W) : s.Gives .checkIntegrity s.checkIntegrity.2 := by
  unfold Sequencer.checkIntegrity
  split_ifs
  · exact gives_alike (.refl s) _
  · exact s.gives_query (.checkIntegrity (s.chipVersion.getD 0) 31) alike_takeIntegrity

theorem reset_gives (s : Sequencer W) : s.Gives .reset s.reset.2 := by
  unfold Sequencer.reset
  split_ifs
  · exact gives_alike (alike_withFlags _ _) _
  · exact gives_alike (.refl s) _
  · exact s.gives_query .reset fun s _ => .refl s

theorem force_gives (s : Sequencer W) : s.Gives .force s.force.2 := by
  have h := s.forceClock_gives
  unfold Sequencer.force
  split_ifs
  · exact gives_alike (.refl s) _
  · rcases hr : s.forceClock with ⟨err | _ | _, s₁⟩ <;> rw [hr] at h
    · exact h
    · exact h
    · exact h.congr (alike_withFlags _ _)

def recovering (s : Sequencer W) : Sequencer W :=
  { s.withFlags { s.flags with recovery := false } with attempts := s.attempts + 1 }

theorem recover_eq (s : Sequencer W) : s.recover =
    if !s.flags.recovery then (.ok (), s)
    else match s.recovering.attempt (.write true none) with
    | (.refused err, s) =>
      (.error err, s.withFlags { s.flags with skipForce := false, retry := false })
    | (.ended (.error err), s) => (.error err, s.withFlags { s.flags with skipForce := false })
    | (.ended (.ok _), s) =>
      let flags := if s.flags.skipForce then { s.flags with coreReset := true }
        else { s.flags with retry := true }
      (.ok (), s.withFlags { flags with skipForce := false }) :=
  rfl

theorem recover_gives (s : Sequencer W) : s.Gives .write s.recover.2 := by
  have ht : s.Alike s.recovering := ⟨rfl, rfl, rfl, rfl⟩
  have hc := gives_attempt (.nothing ht) (.write true none)
  rw [recover_eq]
  split_ifs
  · exact gives_alike (.refl s) _
  · generalize s.recovering.attempt (.write true none) = r at hc
    rcases r with ⟨err | ⟨err | answer⟩, s₁⟩ <;> exact hc.congr (alike_withFlags _ _)

theorem Does.reenterDownload (h : s.Does o s₁) : s.Does o s₁.reenterDownload.2 := by
  have hm := Does.mode .download h (.refl _)
  unfold Sequencer.reenterDownload
  rcases hr : s₁.setMode .download with ⟨err | _, s₂⟩ <;> rw [hr] at hm <;>
    exact hm.congr (alike_withFlags _ _)

theorem resetCore_gives (s : Sequencer W) : s.Gives .raw s.resetCore.2 := by
  have hm : s.Does none ((s.withFlags { s.flags with coreReset := false }).setMode .normal).2 :=
    .mode .normal (.nothing (alike_withFlags _ _)) (.refl _)
  unfold Sequencer.resetCore
  split_ifs
  · exact gives_alike (.refl s) _
  · rcases hr : (s.withFlags { s.flags with coreReset := false }).setMode .normal with
      ⟨err | _, s₁⟩ <;> rw [hr] at hm
    · exact (hm.congr (alike_withFlags _ _)).gives _
    · exact gives_performThen hm (.raw coreResetFrame 6) fun s₂ answer h =>
        h.imp fun o => .imp_left Does.reenterDownload

end Sequencer

/-- The kind of command that a step may give. -/
def Step.command : Step → Command
  | .normal => .force
  | .getSessionState => .getSessionState
  | .getVersion => .getVersion
  | .logRead => .read
  | .write => .write
  | .log => .log
  | .checkIntegrity => .checkIntegrity
  | .reset => .reset
  | .force => .force
  | .recover => .write
  | .coreReset => .raw

namespace Sequencer

variable {W : Type} [Host W]

theorem takeStep_gives (s : Sequencer W) (step : Step) :
    Gives { s with history := .step step :: s.history } step.command (s.takeStep step).2 := by
  unfold Sequencer.takeStep
  cases step with
  | normal => exact normal_gives _
  | getSessionState => exact getSessionState_gives _
  | getVersion => exact getVersion_gives _
  | logRead => exact logRead_gives _
  | write => exact write_gives _
  | log => exact writeLog_gives _
  | checkIntegrity => exact checkIntegrity_gives _
  | reset => exact reset_gives _
  | force => exact force_gives _
  | recover => exact recover_gives _
  | coreReset => exact resetCore_gives _

end Sequencer

end FirmwareDownload
