import FirmwareDownload.Proofs.Sequence.Tally

/-! Tables that go well. A recovery table that does calls for another try, so a sequence that
succeeds ends with a main table, all of whose steps went well. -/

namespace FirmwareDownload

namespace Sequencer

variable {W : Type} [Host W] {s s₁ s' : Sequencer W} {status : Except DownloadError Unit}
  {lap : Lap W} {laps : List (Lap W)}

/-! ## Recovery tables -/

/-- Recovery is due, or another try of the main table. -/
def Mending (s : Sequencer W) : Prop :=
  s.flags.recovery = true ∨ s.flags.recovery = false ∧ s.flags.retry = true

/-- No recovery is due, and another try of the main table, at least after a reset of the core. -/
def Mended (s : Sequencer W) : Prop :=
  s.flags.recovery = false ∧ (s.flags.retry = true ∨ s.flags.coreReset = true)

theorem reset_recovery (s : Sequencer W) : s.reset.2.flags.recovery = s.flags.recovery := by
  unfold Sequencer.reset
  split_ifs
  · rfl
  · rfl
  · rcases s.performThen_cases .reset (fun s _ => (.ok (), s)) with ⟨err, -, he⟩ | ⟨_, -, he⟩ <;>
      rw [he] <;> rfl

theorem forceClock_flags {accepted : Bool} (h : s.forceClock = (.ok accepted, s')) :
    s'.flags = s.flags := by
  have hf : s.forcing.flags = s.flags := by
    unfold forcing
    split_ifs <;> rfl
  rcases s.forceClock_cases with ⟨err, -, he⟩ | ⟨accepted, he⟩ <;> cases h.symm.trans he
  exact hf

theorem force_mending (h : s.flags.recovery = true) (hr : s.force.1 = .ok ()) :
    s.force.2.Mending := by
  unfold Sequencer.force at hr ⊢
  split_ifs at hr ⊢
  · exact .inl h
  · rcases hc : s.forceClock with ⟨err | _ | _, s₁⟩ <;> rw [hc] at hr
    · cases hr
    · exact .inl ((congrArg SequenceFlags.recovery (forceClock_flags hc)).trans h)
    · exact .inr ⟨rfl, rfl⟩

theorem recover_mended (h : s.Mending) (hr : s.recover.1 = .ok ()) : s.recover.2.Mended := by
  rw [recover_eq] at hr ⊢
  split_ifs at hr ⊢ with hn
  · have hn : s.flags.recovery = false := by simpa using hn
    rcases h with h | h
    · cases hn.symm.trans h
    · exact ⟨hn, .inl h.2⟩
  · have hf := s.recovering.attempt_flags (.write true none)
    generalize s.recovering.attempt (.write true none) = r at hr hf ⊢
    obtain ⟨err | ⟨err | answer⟩, t⟩ := r
    · cases hr
    · cases hr
    · have hrec : t.flags.recovery = false := congrArg SequenceFlags.recovery hf
      unfold Mended withFlags
      dsimp only
      split_ifs
      · exact ⟨hrec, .inr rfl⟩
      · exact ⟨hrec, .inl rfl⟩

theorem reenterDownload_ok (hr : s.reenterDownload.1 = .ok ()) :
    s.reenterDownload.2.flags = { s.flags with retry := true } := by
  have hf := s.setMode_flags .download
  unfold Sequencer.reenterDownload at hr ⊢
  rcases hm : s.setMode .download with ⟨err | _, s₁⟩ <;> rw [hm] at hr hf
  · cases hr
  · show { s₁.flags with retry := true } = _
    rw [show s₁.flags = s.flags from hf]

theorem resetCore_retries (h : s.Mended) (hr : s.resetCore.1 = .ok ()) :
    s.resetCore.2.flags.recovery = false ∧ s.resetCore.2.flags.retry = true := by
  have hf := (s.withFlags { s.flags with coreReset := false }).setMode_flags .normal
  unfold Sequencer.resetCore at hr ⊢
  split_ifs at hr ⊢ with hn
  · exact ⟨h.1, h.2.resolve_right (by simpa using hn)⟩
  · rcases hm : (s.withFlags { s.flags with coreReset := false }).setMode .normal with
      ⟨err | _, s₁⟩ <;> rw [hm] at hr hf <;> dsimp only at hr ⊢
    · cases hr
    · rcases s₁.performThen_cases (.raw coreResetFrame 6) (fun s _ => s.reenterDownload) with
        ⟨err, -, he⟩ | ⟨answer, -, he⟩ <;> rw [he] at hr ⊢
      · cases hr
      · have hf₁ : s₁.flags.recovery = false :=
          (congrArg SequenceFlags.recovery hf).trans h.1
        rw [reenterDownload_ok hr]
        exact ⟨hf₁, rfl⟩

theorem recovery_table_retries (hf : s.flags.recovery = true)
    (h : s.takeSteps [.reset, .force, .recover, .coreReset] = (.ok (), s')) :
    s'.flags.recovery = false ∧ s'.flags.retry = true := by
  obtain ⟨-, h, -⟩ := takeSteps_cons_ok h
  obtain ⟨hforce, h, -⟩ := takeSteps_cons_ok h
  obtain ⟨hrecover, h, -⟩ := takeSteps_cons_ok h
  obtain ⟨hreset, h, -⟩ := takeSteps_cons_ok h
  obtain rfl := congrArg Prod.snd h
  exact resetCore_retries (recover_mended (force_mending ((reset_recovery _).trans hf) hforce)
    hrecover) hreset

end Sequencer

/-! ## Main tables -/

namespace Lap

open Sequencer

variable {W : Type} [Host W] {lap : Lap W} {w g v l i : Visit W}

/-- The steps of a main table that went well, from its write on. -/
structure Finishes (lap : Lap W) (w g v l i : Visit W) : Prop where
  opening : lap.entry.takeSteps lap.opening = (.ok (), w.before)
  visits : lap.visits = lap.entry.visits lap.opening ++ [w, g, v, l, i]
  write : w.step = .write ∧ w.result = .ok ()
  session : g.step = .getSessionState ∧ g.before = w.after ∧ g.result = .ok ()
  version : v.step = .getVersion ∧ v.before = g.after ∧ v.result = .ok ()
  log : l.step = .log ∧ l.before = v.after ∧ l.result = .ok ()
  integrity : i.step = .checkIntegrity ∧ i.before = l.after ∧ i.result = .ok ()
  exit : lap.exit = i.after

theorem finishes (ht : lap.table = .main) (hr : lap.result = .ok ()) :
    ∃ w g v l i, lap.Finishes w g v l i := by
  have hrow : lap.entry.takeSteps lap.steps = (.ok (), lap.exit) := by
    rw [← hr]
    rfl
  rw [Lap.steps_main ht] at hrow
  obtain ⟨b, hopening, hrow, hvis⟩ := takeSteps_append_ok hrow
  obtain ⟨hw, hrow, hvis₁⟩ := takeSteps_cons_ok hrow
  obtain ⟨hg, hrow, hvis₂⟩ := takeSteps_cons_ok hrow
  obtain ⟨hv, hrow, hvis₃⟩ := takeSteps_cons_ok hrow
  obtain ⟨hl, hrow, hvis₄⟩ := takeSteps_cons_ok hrow
  obtain ⟨hi, hrow, hvis₅⟩ := takeSteps_cons_ok hrow
  refine ⟨_, _, _, _, _, hopening, ?_, ⟨rfl, hw⟩, ⟨rfl, rfl, hg⟩, ⟨rfl, rfl, hv⟩, ⟨rfl, rfl, hl⟩,
    ⟨rfl, rfl, hi⟩, (congrArg Prod.snd hrow).symm⟩
  unfold Lap.visits
  rw [Lap.steps_main ht, hvis, hvis₁, closingSteps, hvis₂, hvis₃, hvis₄, hvis₅]
  rfl

theorem Finishes.logged (h : lap.Finishes w g v l i) : lap.exit.flags.unlogged = false := by
  have hl : l.after.flags.unlogged = false := by
    rcases Visit.log_cases h.log.1 with ⟨hk, ha⟩ | ⟨-, he⟩
    · rw [ha]
      exact (Bool.not_eq_true' _).mp (Bool.and_eq_true_iff.1 hk).2
    · obtain ⟨-, -, ⟨err, -, hr, -⟩ | ⟨answer, -, hr⟩⟩ :=
        Visit.performs he fun s _ => alike_withFlags s _
      · cases h.log.2.2.symm.trans hr
      · rw [(Prod.mk.inj hr).2]
        rfl
  have hi : l.after.Steady i.after := by
    rw [← h.integrity.2.1]
    exact takeStep_steady _ (by rw [h.integrity.1]; exact Step.noConfusion)
      (by rw [h.integrity.1]; exact Step.noConfusion)
  rw [h.exit]
  exact Bool.eq_false_iff.2 fun hu => Bool.eq_false_iff.1 hl (hi.unlogged hu)

end Lap

namespace Sequencer

variable {W : Type} [Host W] {s s₁ s' : Sequencer W} {status : Except DownloadError Unit}
  {lap : Lap W} {laps : List (Lap W)}

omit [Host W] in
theorem next?_log (h : s.next? = some .log) : s.flags.unlogged = true := by
  unfold Sequencer.next? at h
  cases hu : s.flags.unlogged with
  | true => rfl
  | false =>
    rw [hu, if_neg Bool.false_ne_true] at h
    split_ifs at h <;> cases h

omit [Host W] in
theorem next?_recovery (h : s.next? = some .recovery) :
    s.flags.unlogged = false ∧ s.flags.recovery = true := by
  unfold Sequencer.next? at h
  cases hu : s.flags.unlogged with
  | true =>
    rw [hu, if_pos rfl] at h
    cases h
  | false =>
    rw [hu, if_neg Bool.false_ne_true] at h
    split_ifs at h with hr
    · exact ⟨rfl, hr⟩
    · cases h

/-- After tables that went well nothing is unlogged, and the last of them was a main table or a
main table is due. -/
theorem Completes.last_table (h : s.Completes laps status s₁) (hok : status = .ok ()) :
    s₁.flags.unlogged = false ∧ ∃ lap rest, laps = lap :: rest ∧ lap.result = .ok () ∧
      (lap.table = .main ∨ s₁.next? = some .main) := by
  induction h with
  | refused hn =>
    rcases s.start_cases with ⟨s₁, hb, -⟩ | ⟨err, s₁, he, -⟩
    · exact (hn s₁ hb).elim
    · rw [he] at hok
      cases hok
  | opens hb =>
    obtain ⟨w, g, v, l, i, hf⟩ := Lap.finishes rfl hok
    exact ⟨hf.logged, _, [], rfl, hok, .inl rfl⟩
  | @next laps status s₁ t h hn ih =>
    cases t with
    | main =>
      have hmain : (s₁.lapAfter status .main).table = .main := rfl
      obtain ⟨w, g, v, l, i, hf⟩ := Lap.finishes hmain hok
      exact ⟨hf.logged, _, laps, rfl, hok, .inl rfl⟩
    | log =>
      cases status with
      | error err => cases hok
      | ok =>
        -- With nothing unlogged after a success, no log is due.
        cases (ih rfl).1.symm.trans (next?_log hn)
    | recovery =>
      obtain ⟨hu, hf⟩ := next?_recovery hn
      let entry := (s₁.lapAfter status .recovery).entry
      have hrow : entry.takeSteps [.reset, .force, .recover, .coreReset] =
          (.ok (), (s₁.lapAfter status .recovery).exit) := by
        rw [← show (s₁.lapAfter status .recovery).result = .ok () from hok]
        rfl
      obtain ⟨hrec, hretry⟩ := recovery_table_retries (s := entry) hf hrow
      have hlogged := (keeps_takeSteps (P := fun s => s.flags.unlogged = false) (s := entry)
        [.reset, .force, .recover, .coreReset] hu fun s step hm hu => by
          refine Bool.eq_false_iff.2 fun hu' => Bool.eq_false_iff.1 hu ?_
          exact (s.takeStep_steady (by rintro rfl; simp at hm) (by rintro rfl; simp at hm)).unlogged
            hu').1
      rw [hrow] at hlogged
      refine ⟨hlogged, _, laps, rfl, hok, .inr ?_⟩
      unfold Sequencer.next?
      rw [hlogged, hrec, hretry]
      rfl

end Sequencer

end FirmwareDownload
