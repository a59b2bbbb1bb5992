import FirmwareDownload.Proofs.Sequence.Counting

/-! The counters of the record along a sequence. A read of the log replaces them, a counted write
adds to them, and nothing else changes them. -/

namespace FirmwareDownload

variable {W : Type} [Host W]

namespace Sequencer

variable {s s₁ s₂ : Sequencer W}

/-- From `s` to `s'` no write was counted and no record was read. What passes over the rest of a
table stays. -/
structure Steady (s s' : Sequencer W) : Prop where
  unlogged : s'.flags.unlogged = true → s.flags.unlogged = true
  passes : (s.flags.skipRest || s.flags.forced) = true →
    (s'.flags.skipRest || s'.flags.forced) = true
  triggered : s'.statistics.triggered = s.statistics.triggered
  succeeded : s'.statistics.succeeded = s.statistics.succeeded
  failed : s'.statistics.failed = s.statistics.failed

omit [Host W] in
theorem Steady.of_eq (hu : s₁.flags.unlogged = s.flags.unlogged)
    (hk : s₁.flags.skipRest = s.flags.skipRest) (hf : s₁.flags.forced = s.flags.forced)
    (hst : s₁.statistics = s.statistics) : s.Steady s₁ :=
  ⟨fun h => hu ▸ h, fun h => by rw [hk, hf]; exact h, by rw [hst], by rw [hst], by rw [hst]⟩

omit [Host W] in
theorem Steady.refl (s : Sequencer W) : s.Steady s := .of_eq rfl rfl rfl rfl

omit [Host W] in
theorem Steady.trans (h : s.Steady s₁) (h' : s₁.Steady s₂) : s.Steady s₂ :=
  ⟨fun hu => h.unlogged (h'.unlogged hu), fun hp => h'.passes (h.passes hp),
    h'.triggered.trans h.triggered, h'.succeeded.trans h.succeeded, h'.failed.trans h.failed⟩

theorem steady_attempt (s : Sequencer W) (c : Call) : s.Steady (s.attempt c).2 :=
  .of_eq rfl rfl rfl rfl

theorem steady_performThen (c : Call)
    {take : Sequencer W → Bytes → Except DownloadError Unit × Sequencer W}
    (ht : ∀ s answer, Steady s (take s answer).2) : s.Steady (s.performThen c take).2 := by
  have ha := s.steady_attempt c
  rcases s.performThen_cases c take with ⟨err, -, he⟩ | ⟨answer, -, he⟩ <;> rw [he]
  · exact ha
  · exact ha.trans (ht _ answer)

omit [Host W] in
theorem steady_takeSessionState (s : Sequencer W) (report : Bytes) :
    s.Steady (s.takeSessionState report).2 := by
  rcases s.takeSessionState_cases report with
    ⟨err, he, -⟩ | ⟨isOpen, -, -, -, ⟨-, -, err, he, -⟩ | ⟨-, he⟩⟩ <;> rw [he] <;>
    exact .of_eq rfl rfl rfl rfl

omit [Host W] in
theorem steady_takeVersion (s : Sequencer W) (report : Bytes) :
    s.Steady (s.takeVersion report).2 := by
  rcases s.takeVersion_cases report with
    ⟨err, chip, he, -⟩ | ⟨hardware, expected, -, -, ⟨-, he⟩ | ⟨-, he⟩⟩ <;> rw [he]
  · exact .of_eq rfl rfl rfl rfl
  · exact .of_eq rfl rfl rfl rfl
  · have hr : s.Steady (s.revised (hardware &&& 0x0F)) := .of_eq rfl rfl rfl rfl
    split
    · rcases checkAfter_cases (s.revised (hardware &&& 0x0F)) (s.imageVersion.getD ⟨0, 0⟩)
        (reportedVersion report) with ⟨err, he, -⟩ | ⟨-, he⟩ <;> rw [he]
      · exact hr
      · exact ⟨id, id, rfl, rfl, rfl⟩
    · rcases checkBefore_cases (s.revised (hardware &&& 0x0F)) (s.imageVersion.getD ⟨0, 0⟩)
        (reportedVersion report) with ⟨err, he, -⟩ | he | ⟨-, he⟩ | he <;> rw [he]
      · exact hr
      · exact hr
      · exact ⟨id, fun _ => Bool.or_true _, rfl, rfl, rfl⟩
      · exact ⟨id, fun _ => Bool.true_or _, rfl, rfl, rfl⟩

omit [Host W] in
theorem steady_takeIntegrity (s : Sequencer W) (report : Bytes) :
    s.Steady (s.takeIntegrity report).2 := by
  unfold Sequencer.takeIntegrity
  cases RegionFlags.ofReport? report <;> dsimp only <;> split_ifs <;> exact .of_eq rfl rfl rfl rfl

theorem forceClock_steady (s : Sequencer W) : s.Steady s.forceClock.2 := by
  have hf : s.Steady s.forcing := by
    unfold forcing
    split_ifs <;> exact .of_eq rfl rfl rfl rfl
  have ha := hf.trans (s.forcing.steady_attempt (.force s.forcing.options.clock))
  rcases s.forceClock_cases with ⟨err, -, he⟩ | ⟨accepted, he⟩ <;> rw [he]
  · exact ha.trans (.of_eq rfl rfl rfl rfl)
  · exact ha

theorem normal_steady (s : Sequencer W) : s.Steady s.normal.2 := by
  unfold Sequencer.normal
  split_ifs
  · exact .refl s
  · exact s.forceClock_steady

theorem getSessionState_steady (s : Sequencer W) : s.Steady s.getSessionState.2 := by
  unfold Sequencer.getSessionState
  split_ifs
  · exact .refl s
  · exact steady_performThen _ steady_takeSessionState

theorem getVersion_steady (s : Sequencer W) : s.Steady s.getVersion.2 := by
  unfold Sequencer.getVersion
  split_ifs
  · exact .refl s
  · exact steady_performThen _ steady_takeVersion

theorem writeLog_steady (s : Sequencer W) : s.Steady s.writeLog.2 := by
  unfold Sequencer.writeLog
  split_ifs
  · exact .refl s
  · exact steady_performThen _ fun s _ => ⟨nofun, id, rfl, rfl, rfl⟩

theorem checkIntegrity_steady (s : Sequencer W) : s.Steady s.checkIntegrity.2 := by
  unfold Sequencer.checkIntegrity
  split_ifs
  · exact .refl s
  · exact steady_performThen _ steady_takeIntegrity

theorem reset_steady (s : Sequencer W) : s.Steady s.reset.2 := by
  unfold Sequencer.reset
  split_ifs
  · exact .of_eq rfl rfl rfl rfl
  · exact .refl s
  · exact steady_performThen _ fun s _ => .refl s

theorem force_steady (s : Sequencer W) : s.Steady s.force.2 := by
  have h := s.forceClock_steady
  unfold Sequencer.force
  split_ifs
  · exact .refl s
  · rcases hr : s.forceClock with ⟨err | _ | _, s₁⟩ <;> rw [hr] at h
    · exact h
    · exact h
    · exact h.trans (.of_eq rfl rfl rfl rfl)

theorem recover_steady (s : Sequencer W) : s.Steady s.recover.2 := by
  have hr : s.Steady s.recovering := .of_eq rfl rfl rfl rfl
  have ha := hr.trans (s.recovering.steady_attempt (.write true none))
  rw [recover_eq]
  split_ifs
  · exact .refl s
  · generalize s.recovering.attempt (.write true none) = r at ha
    rcases r with ⟨err | ⟨err | answer⟩, s₁⟩ <;> dsimp only at ha ⊢
    · exact ha.trans (.of_eq rfl rfl rfl rfl)
    · exact ha.trans (.of_eq rfl rfl rfl rfl)
    · refine ha.trans (.of_eq ?_ ?_ ?_ rfl) <;> unfold withFlags <;> dsimp only <;> split <;> rfl

theorem resetCore_steady (s : Sequencer W) : s.Steady s.resetCore.2 := by
  have hm : s.Steady ((s.withFlags { s.flags with coreReset := false }).setMode .normal).2 :=
    .of_eq rfl rfl rfl rfl
  unfold Sequencer.resetCore
  split_ifs
  · exact .refl s
  · rcases hr : (s.withFlags { s.flags with coreReset := false }).setMode .normal with
      ⟨err | _, s₁⟩ <;> rw [hr] at hm
    · exact hm.trans (.of_eq rfl rfl rfl rfl)
    · refine hm.trans (steady_performThen _ fun s₂ _ => ?_)
      have hd : s₂.Steady (s₂.setMode .download).2 := .of_eq rfl rfl rfl rfl
      unfold Sequencer.reenterDownload
      rcases hr : s₂.setMode .download with ⟨err | _, s₃⟩ <;> rw [hr] at hd <;>
        exact hd.trans (.of_eq rfl rfl rfl rfl)

/-- Only a write and a read of the log touch the counters. -/
theorem takeStep_steady (s : Sequencer W) {step : Step} (hw : step ≠ .write)
    (hr : step ≠ .logRead) : s.Steady (s.takeStep step).2 := by
  have hn : s.Steady { s with history := .step step :: s.history } := .of_eq rfl rfl rfl rfl
  refine hn.trans ?_
  unfold Sequencer.takeStep
  cases step with
  | normal => exact normal_steady _
  | getSessionState => exact getSessionState_steady _
  | getVersion => exact getVersion_steady _
  | logRead => exact (hr rfl).elim
  | write => exact (hw rfl).elim
  | log => exact writeLog_steady _
  | checkIntegrity => exact checkIntegrity_steady _
  | reset => exact reset_steady _
  | force => exact force_steady _
  | recover => exact recover_steady _
  | coreReset => exact resetCore_steady _

end Sequencer

/-! ## What the record counts -/

def Visit.read? (v : Visit W) : Option Statistics :=
  match v.command? with
  | some (.readLog _, .ended (.ok data)) => Statistics.ofBytes? data
  | _ => none

/-- Modulo the size of its counters, `record` counts the writes of `vs` from `base` on. -/
structure Tallies (base record : Statistics) (vs : List (Visit W)) : Prop where
  triggered : record.triggered = base.triggered + .ofNat (vs.countP Visit.counted)
  succeeded : record.succeeded = base.succeeded +
    .ofNat (vs.countP fun v => v.counted && v.result.isOk)
  failed : record.failed = base.failed + .ofNat (vs.countP fun v => v.counted && !v.result.isOk)

/-- The record counts the writes from the last read on. Without a read it counts them all. -/
def Reckons (vs : List (Visit W)) (record : Statistics) : Prop :=
  (∃ before r since base, vs = before ++ r :: since ∧ r.read? = some base ∧
    (∀ v ∈ since, v.read? = none) ∧ Tallies base record since) ∨
  (∀ v ∈ vs, v.read? = none) ∧ Tallies {} record vs

namespace Visit

variable {v : Visit W} {vs : List (Visit W)} {base : Statistics}

theorem read?_of_step (h : v.step ≠ .logRead) : v.read? = none := by
  obtain ⟨-, hc⟩ := v.does
  unfold read?
  split
  · rename_i capacity data he
    have hs := hc _ _ he
    cases hst : v.step <;> rw [hst] at hs h <;> first | exact (h rfl).elim | cases hs
  · rfl

/-- A read of the log sets the record, or it leaves it as it is. If it is passed over, the record
is of no use or was read before. -/
theorem read?_cases (h : v.step = .logRead) : v.read? = some v.after.statistics ∨
    v.read? = none ∧ v.after.statistics = v.before.statistics ∧ (v.result = .ok () →
      ((v.before.flags.skipRest || v.before.flags.forced) && !v.before.flags.sessionOpen ||
        v.before.flags.sessionOpen && v.before.flags.retry) = true ∧
      v.after.flags = v.before.flags) := by
  have he : v.before.takeStep v.step = v.noted.logRead := by rw [v.takeStep_eq, h]
  rw [Sequencer.logRead] at he
  split at he
  · rename_i hk
    have hv : v.after = v.noted := congrArg Prod.snd he
    refine .inr ⟨?_, by rw [hv]; rfl, fun _ => ⟨hk, by rw [hv]; rfl⟩⟩
    rw [read?, command?_noted hv]
  · obtain ⟨hc, -, ⟨err, ha, hr, hv⟩ | ⟨data, ha, hv⟩⟩ :=
      performs he Sequencer.alike_takeStatistics
    · refine .inr ⟨?_, by rw [hv]; rfl, fun hok => ?_⟩
      · rw [read?, hc]
        split
        · rename_i he
          rw [(Prod.mk.inj (Option.some.inj he)).2] at ha
          cases ha
        · rfl
      · cases hr.symm.trans hok
    · rw [read?, hc, ha]
      dsimp only
      unfold Sequencer.takeStatistics at hv
      cases hd : Statistics.ofBytes? data <;> rw [hd] at hv <;>
        obtain ⟨hr, hv⟩ := Prod.mk.inj hv
      · exact .inr ⟨rfl, by rw [hv]; rfl, fun hok => by cases hr.symm.trans hok⟩
      · exact .inl (by rw [hv])

end Visit

theorem Tallies.nil (record : Statistics) : Tallies (W := W) record record [] :=
  ⟨by simp, by simp, by simp⟩

omit [Host W] in
theorem ofNat_countP_snoc (p : Visit W → Bool) (vs : List (Visit W)) (v : Visit W) :
    UInt16.ofNat ((vs ++ [v]).countP p) = .ofNat (vs.countP p) + .ofNat (p v).toNat := by
  rw [List.countP_append, UInt16.ofNat_add]
  cases hp : p v <;> simp [hp]

section Snoc

variable {base record record' : Statistics} {v : Visit W} {vs : List (Visit W)}

theorem Tallies.snoc (h : Tallies base record vs)
    (ht : record'.triggered = record.triggered + .ofNat v.counted.toNat)
    (hs : record'.succeeded = record.succeeded + .ofNat (v.counted && v.result.isOk).toNat)
    (hf : record'.failed = record.failed + .ofNat (v.counted && !v.result.isOk).toNat) :
    Tallies base record' (vs ++ [v]) := by
  refine ⟨?_, ?_, ?_⟩
  · rw [ht, h.triggered, ofNat_countP_snoc, UInt16.add_assoc]
  · rw [hs, h.succeeded, ofNat_countP_snoc, UInt16.add_assoc]
  · rw [hf, h.failed, ofNat_countP_snoc, UInt16.add_assoc]

/-- A step that does not read adds to the counters what it writes. -/
theorem Tallies.visit (h : Tallies base v.before.statistics vs) (hs : v.before.engine.Standing)
    (hu : v.step = .write → v.before.flags.unlogged = false) (hr : v.read? = none) :
    Tallies base v.after.statistics (vs ++ [v]) := by
  by_cases hc : v.counted = true
  · obtain ⟨-, ⟨hok, -, hst⟩ | ⟨err, he, -, hst⟩⟩ := Visit.counted_cases hs hc
    · refine h.snoc ?_ ?_ ?_ <;>
        simp [hst, hc, hok, Statistics.countTrigger, Statistics.countSuccess, Except.isOk,
          Except.toBool]
    · refine h.snoc ?_ ?_ ?_ <;>
        simp [hst, hc, he, Statistics.countTrigger, Statistics.countFailure, Except.isOk,
          Except.toBool]
  · -- A write that is not counted is forced or passed over, and neither touches the record.
    rw [Bool.not_eq_true] at hc
    have hk : v.after.statistics.triggered = v.before.statistics.triggered ∧
        v.after.statistics.succeeded = v.before.statistics.succeeded ∧
        v.after.statistics.failed = v.before.statistics.failed := by
      by_cases hw : v.step = .write
      · rcases Visit.write_cases hw with hc' | hn | ⟨-, -, hv⟩
        · rw [hc] at hc'
          cases hc'
        · rw [(Visit.uncounted_leaves hn (hu hw)).1]
          exact ⟨rfl, rfl, rfl⟩
        · rw [hv]
          exact ⟨rfl, rfl, rfl⟩
      · by_cases hl : v.step = .logRead
        · rcases Visit.read?_cases hl with he | ⟨-, he, -⟩
          · rw [hr] at he
            cases he
          · rw [he]
            exact ⟨rfl, rfl, rfl⟩
        · have hst := v.before.takeStep_steady hw hl
          exact ⟨hst.triggered, hst.succeeded, hst.failed⟩
    refine h.snoc ?_ ?_ ?_ <;> rw [hc] <;> simp [hk]

theorem Reckons.visit (h : Reckons vs v.before.statistics) (hs : v.before.engine.Standing)
    (hu : v.step = .write → v.before.flags.unlogged = false) :
    Reckons (vs ++ [v]) v.after.statistics := by
  cases hr : v.read? with
  | some base =>
    have hl : v.step = .logRead := by
      refine Decidable.not_not.1 fun hl => ?_
      rw [Visit.read?_of_step hl] at hr
      cases hr
    have hst : v.after.statistics = base := by
      rcases Visit.read?_cases hl with he | ⟨he, -⟩ <;> rw [hr] at he
      · exact (Option.some.inj he).symm
      · cases he
    rw [hst]
    exact .inl ⟨vs, v, [], base, rfl, hr, List.forall_mem_nil _, .nil base⟩
  | none =>
    have hn : ∀ since : List (Visit W), (∀ u ∈ since, u.read? = none) →
        ∀ u ∈ since ++ [v], u.read? = none := by
      intro since hsince u hu
      rcases List.mem_append.1 hu with hu | hu
      · exact hsince u hu
      · obtain rfl := List.mem_singleton.1 hu
        exact hr
    rcases h with ⟨before, r, since, base, rfl, hb, hsince, ht⟩ | ⟨hall, ht⟩
    · exact .inl ⟨before, r, since ++ [v], base, by simp, hb, hn since hsince,
        ht.visit hs hu hr⟩
    · exact .inr ⟨hn vs hall, ht.visit hs hu hr⟩

end Snoc

namespace Sequencer

variable {s s₁ : Sequencer W} {status : Except DownloadError Unit} {lap : Lap W}
  {laps : List (Lap W)}

/-- All along a sequence the record counts the writes. -/
theorem Completes.reckons (hs : s.engine.Standing) (hf : s.flags = {}) (hst : s.statistics = {})
    (h : s.Completes (lap :: laps) status s₁) :
    ∀ pre v post, lap.visits = pre ++ v :: post →
      Reckons (trail laps ++ pre) v.before.statistics := by
  refine (h.along (P := fun vs s => Reckons vs s.statistics) hf (fun s₁ hb => ?_)
    (fun vs s status t _ hr => ?_) (fun lap laps status s₁ v vs hl hv hr => ?_)).2.2
  · have h₁ : (s₁.entered .main).statistics = {} := hb.kept.2.2.1.trans hst
    rw [h₁]
    exact .inr ⟨List.forall_mem_nil _, .nil {}⟩
  · rw [(lapAfter_keeps s status t).1]
    exact hr
  · refine hr.visit ((hl.visit_moves (List.mem_cons_self ..) hv).standing hs) fun hw => ?_
    obtain ⟨retry, hb, -⟩ := hl.write_opening hs hf hv hw
    exact hb.logged

end Sequencer

end FirmwareDownload
