import Mathlib.Logic.Function.Iterate
import FirmwareDownload.Proofs.Bench.Talk

/-! A bench that is attended to: the queued signals are handled one after the other, and when there
is none the timer goes off. Each session comes to its end then, since every answer leaves it fewer
frames to send or the controller fewer statuses that were injected. -/

namespace FirmwareDownload

namespace Talk

/-- The session that is under way has at most `n` frames to send. -/
def Loaded : Talk → Nat → Prop
  | idle _, _ => True
  | out s _ _, n | due s _ _, n | held s _, n => s.Loaded n

/-- How often the memory can still be busy, the answer on its way included. -/
def patience : Talk → Nat
  | idle c | held _ c => c.pending
  | out _ raw c | due _ raw c => c.pending + if statusOf raw = some .memBusy then 1 else 0

def stage : Talk → Nat
  | idle _ => 0
  | due _ _ _ => 1
  | out _ _ _ => 2
  | held _ _ => 3

/-- A bound on the steps to the end of the session. -/
def cost (n : Nat) (T : Talk) : Nat := 4 * (n + T.patience) + T.stage

variable {T T' : Talk} {n : Nat} {limit : Option UInt32} {heard : List Notice}
  {done : List Completion} {m : BenchMove}

theorem patience_of_answers {c c' : Controller} {frame raw : Bytes} (hc : c.Serving)
    (ha : c.Answers frame raw c') (s : Session) : (out s raw c').patience ≤ c.pending := by
  obtain ⟨-, -, hp, hb⟩ := hc.of_answers ha
  by_cases h : statusOf raw = some .memBusy
  · rw [patience, if_pos h]
    exact hb h
  · rw [patience, if_neg h]
    exact hp

theorem Goes.cost_lt (h : Goes limit T heard done T') (hc : T.controller.Serving)
    (hn : T.Loaded n) : ∃ n', T'.Loaded n' ∧ T'.cost n' < T.cost n := by
  have hle : ∀ s raw c, c.pending ≤ (due s raw c).patience := fun _ _ _ => Nat.le_add_right _ _
  -- A frame less to send, or a busy memory less, outweighs what the stage can grow by.
  cases h with
  | hears => exact ⟨n, Session.Loaded.congr hn rfl rfl, Nat.lt_succ_self _⟩
  | @ends s s' raw c =>
    have hp := hle s raw c
    refine ⟨0, trivial, ?_⟩
    show 4 * (0 + c.pending) + 0 < 4 * (n + (due s raw c).patience) + 1
    omega
  | @sends s s' raw raw' c c' t hs ha =>
    obtain ⟨n', hlt, hn'⟩ := Session.Loaded.sends hn hs
    have hp : (out (s'.sending t) raw' c').patience ≤ c.pending := patience_of_answers hc ha _
    have hp' := hle s raw c
    refine ⟨n', hn'.congr rfl rfl, ?_⟩
    show 4 * (n' + (out (s'.sending t) raw' c').patience) + 2 <
      4 * (n + (due s raw c).patience) + 1
    omega
  | @holds s s' raw c t hs =>
    obtain ⟨hn', hb⟩ := Session.Loaded.holds hn hs
    have hp : (due s raw c).patience = c.pending + 1 := congrArg (c.pending + ·) (if_pos hb)
    refine ⟨n, hn'.congr rfl rfl, ?_⟩
    show 4 * (n + c.pending) + 3 < 4 * (n + (due s raw c).patience) + 1
    omega
  | @resends s raw c c' t ha =>
    have hp : (out (s.lapsed.sending t) raw c').patience ≤ c.pending := patience_of_answers hc ha _
    refine ⟨n, Session.Loaded.congr hn rfl rfl, ?_⟩
    show 4 * (n + (out (s.lapsed.sending t) raw c').patience) + 2 < 4 * (n + c.pending) + 3
    omega

/-- Every session that is under way was loaded at its start. -/
theorem Step.loaded (h : T.Step limit m heard done T') (hc : T.controller.Serving)
    (hn : ∃ n, T.Loaded n) : ∃ n, T'.Loaded n := by
  cases h with
  | rests => exact hn
  | controls => cases T <;> exact hn
  | switches => exact hn
  | starts _ hl _ => exact ⟨_, hl.congr rfl rfl⟩
  | undone => exact hn
  | goes hg =>
    obtain ⟨n, hn⟩ := hn
    obtain ⟨n', hn', -⟩ := hg.cost_lt hc hn
    exact ⟨n', hn'⟩

end Talk

namespace Engine

variable {e : Engine (Bench Controller)} {T : Talk} {n : Nat}

/-- Who attends to the bench handles the next signal, or lets the timer go off if there is none. -/
def attendance (e : Engine (Bench Controller)) : BenchMove :=
  match e.queue, e.session.timer.ticket with
  | [], some ticket => .expire ticket
  | _, _ => .handleNext

def attend (e : Engine (Bench Controller)) : Engine (Bench Controller) := e.play e.attendance

theorem attendance_cases (e : Engine (Bench Controller)) :
    e.attendance = .handleNext ∨ ∃ ticket, e.attendance = .expire ticket := by
  unfold attendance
  split
  · exact .inr ⟨_, rfl⟩
  · exact .inl rfl

theorem attends_eq_plays (e : Engine (Bench Controller)) (k : Nat) :
    ∃ moves, attend^[k] e = e.plays moves ∧
      ∀ m ∈ moves, m = .handleNext ∨ ∃ ticket, m = .expire ticket := by
  induction k generalizing e with
  | zero => exact ⟨[], rfl, nofun⟩
  | succ k ih =>
    obtain ⟨moves, he, hm⟩ := ih e.attend
    refine ⟨e.attendance :: moves, he, fun m h => ?_⟩
    rcases List.mem_cons.1 h with rfl | h
    · exact e.attendance_cases
    · exact hm m h

theorem attend_handleNext {x : Signal} {rest : List Signal} (hq : e.queue = x :: rest) :
    e.attend = e.move .handleNext := by
  unfold attend attendance
  rw [hq]
  rfl

/-- With nothing queued the memory is waited for, and that wait is over at once. -/
theorem InStep.attend_waiting (h : e.InStep T) (hb : ∀ c, T ≠ .idle c) (hq : e.queue = []) :
    ∃ t, e.attend = e.post [.expired t] ∧ e.attend.InStep T ∧
      e.session.Awaits (.expired t) := by
  cases T with
  | idle c => exact absurd rfl (hb c)
  | out s raw c =>
    obtain ⟨-, t, -, pre, post, he, -⟩ := h.shows
    cases pre <;> cases hq.symm.trans he
  | due s raw c =>
    obtain ⟨-, r, -, pre, post, he, -⟩ := h.shows
    cases pre <;> cases hq.symm.trans he
  | held s c =>
    obtain ⟨he, hp, -⟩ := h.shows
    obtain rfl := he.session
    obtain ⟨command, id, hw⟩ := h.waiting (.inr hp)
    obtain ⟨t, ht⟩ := Option.isSome_iff_exists.1 (hw.onTimer hp).timer
    have hm : e.attendance = .expire t := by rw [attendance, hq, ht]
    have ha : e.attend = e.post [.expired t] := by
      have hle : t ≤ e.lastTicket := h.sound.2 (.expired t) t ht
      rw [attend, hm]
      exact congrArg e.post (if_pos hle)
    obtain ⟨_, _, T', hs, h', -⟩ := h.play (m := .expire t) rfl
    rw [← hm] at h'
    cases hs
    exact ⟨t, ha, h', hp, ht⟩

/-- The signal that the session waits for is handled sooner or later. -/
theorem InStep.exists_goes (h : e.InStep T) (hb : ∀ c, T ≠ .idle c) :
    ∃ k, e.Talks (attend^[k] e) (T.Goes e.config.resendLimit) := by
  -- The signals before it are passed over one by one, so the induction is on the queue.
  generalize hq : e.queue = queue
  induction queue generalizing e with
  | nil =>
    obtain ⟨t, ha, h', hx⟩ := h.attend_waiting hb hq
    rw [ha] at h'
    have hq' : (e.post [.expired t]).queue = [.expired t] := by rw [Engine.post, hq]; rfl
    refine ⟨2, ?_⟩
    rw [Function.iterate_succ_apply, ha, Function.iterate_one, attend_handleNext hq']
    exact h'.awaited hq' hx
  | cons x rest ih =>
    by_cases hx : e.session.Awaits x
    · refine ⟨1, ?_⟩
      rw [Function.iterate_one, attend_handleNext hq]
      exact h.awaited hq hx
    · obtain ⟨hm, h'⟩ := h.ignored hq hx
      obtain ⟨k, hk⟩ := ih h' rfl
      refine ⟨k + 1, ?_⟩
      rw [Function.iterate_succ_apply, attend_handleNext hq, hm]
      exact hk

/-- A session that was started comes to its end. -/
theorem InStep.exists_idle (h : e.InStep T) (hn : T.Loaded n) :
    ∃ k, (attend^[k] e).session.Idle := by
  induction hN : T.cost n using Nat.strongRecOn generalizing e T n with
  | ind N ih =>
    by_cases hi : ∃ c, T = .idle c
    · obtain ⟨c, rfl⟩ := hi
      exact ⟨0, h.shows.1⟩
    · obtain ⟨k, _, _, T', hg, h', -⟩ := h.exists_goes fun c hc => hi ⟨c, hc⟩
      obtain ⟨n', hn', hlt⟩ := hg.cost_lt h.serving hn
      obtain ⟨k', hk'⟩ := ih _ (hN ▸ hlt) h' hn' rfl
      refine ⟨k' + k, ?_⟩
      rw [Function.iterate_add_apply]
      exact hk'

/-- What attending to the bench keeps of a session that was started holds when it has come to its
end, and it does. -/
theorem InStep.attended (Inv : Talk → List Notice → List Completion → Prop) (h : e.InStep T)
    (hn : T.Loaded n) (hi : Inv T (traffic e.notices) e.delivered)
    (hstep : ∀ {T T' heard done heard' done' m}, Inv T heard done → T.controller.Serving →
      (m = .handleNext ∨ ∃ ticket, m = .expire ticket) →
      T.Step e.config.resendLimit m heard' done' T' → Inv T' (heard ++ heard') (done' ++ done))
    {moves : List BenchMove} (hm : ∀ m ∈ moves, m = .handleNext ∨ ∃ ticket, m = .expire ticket) :
    (∃ k, (attend^[k] (e.plays moves)).session.Idle) ∧
      ((e.plays moves).session.Idle → ∃ c, (e.plays moves).InStep (.idle c) ∧
        Inv (.idle c) (traffic (e.plays moves).notices) (e.plays moves).delivered) := by
  have hstays : ∀ m ∈ moves, m.stays = true := by
    intro m hmem
    rcases hm m hmem with rfl | ⟨_, rfl⟩ <;> rfl
  obtain ⟨T', h', ⟨hi', n', hn'⟩, -⟩ := h.plays
    (fun _ heard done T => Inv T heard done ∧ ∃ n, T.Loaded n) hstays ⟨hi, n, hn⟩
    fun ms m _ _ _ _ _ _ hpre hs hinv hst =>
      ⟨hstep hinv.1 hs (hm m (hpre.subset (by simp))) hst, hst.loaded hs hinv.2⟩
  refine ⟨h'.exists_idle hn', fun hidle => ?_⟩
  obtain ⟨c, rfl⟩ := h'.idle_of hidle
  exact ⟨c, h', hi'⟩

end Engine

end FirmwareDownload
