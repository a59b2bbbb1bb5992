import FirmwareDownload.Proofs.Bench.Calm
import FirmwareDownload.Proofs.Engine.Holdings
import FirmwareDownload.Proofs.Engine.HostCalls
import FirmwareDownload.Proofs.Engine.Phases
import FirmwareDownload.Proofs.Image.Grammar

/-! Calls that do not lead to a session. A busy engine refuses any call, an idle one a call whose
arguments are not valid or whose image is not there, and nothing has changed then. A call that
fails later on is undone: only the frame stays behind. -/

namespace FirmwareDownload

/-- No call is made with these arguments. -/
def Call.Invalid : Call → Prop
  | .getVersion capacity => capacity = 0
  | .getSessionState capacity => capacity = 0
  | .checkIntegrity _ capacity => capacity = 0
  | .read _ capacity => capacity = 0
  | .readLog capacity => capacity = 0
  | .write _ (some data) => data = [] ∨ ¬ ∃ bodies, Record.Laid data bodies
  | .log entry => ¬ (1 ≤ entry.length ∧ entry.length ≤ 64)
  | .raw frame capacity => ¬ (1 ≤ frame.length ∧ frame.length ≤ 256) ∨ capacity = 0
  | _ => False

theorem Image.ofBytes_not_laid {data : Bytes} (hd : data ≠ [])
    (h : ¬ ∃ bodies, Record.Laid data bodies) : ∃ err, Image.ofBytes data = .error err := by
  rcases Record.laid_or_malformed 0 data with hl | ⟨bodies, front, rest, err, rfl, hl, hm⟩
  · exact absurd hl h
  · rw [Nat.zero_add] at hm
    exact ⟨err, Image.ofBytes_malformed hl hm⟩

/-! ## Timers of a host -/

/-- A way to tell which timers a host has: only a creation adds one, the one that it hands out, and
a deletion takes one away. -/
structure TellsTimers {W : Type} [Host W] (live : W → TimerId → Prop) : Prop where
  created {w w' : W} {id : TimerId} : Host.createTimer w = (.ok id, w') →
    ∀ id', live w' id' → id' = id ∨ live w id'
  notCreated {w w' : W} {err : TimerError} : Host.createTimer w = (.error err, w') →
    ∀ id, live w' id → live w id
  deleted {w : W} {id : TimerId} : ∀ id', live (Host.deleteTimer w id).2 id' →
    id' ≠ id ∧ live w id'
  others {w : W} {c : HostCall} : c ≠ .createTimer → (∀ id, c ≠ .deleteTimer id) →
    ∀ id, live (c.run w) id → live w id

theorem TimerBank.has_start (b : TimerBank) (id id' : TimerId) (milliseconds : Nat)
    (ticket : Ticket) : (b.start id milliseconds ticket).2.has id' = b.has id' := by
  unfold start
  split
  · rfl
  · dsimp only
    split
    · exact has_setArming _ id id' _
    · rfl

theorem AlarmClock.has_start (c : AlarmClock) (id id' : TimerId) (milliseconds : Nat)
    (ticket : Ticket) : (c.start id milliseconds ticket).2.has id' = c.has id' := by
  by_cases hh : c.has id = true
  · simp [start, hh, has_setAlarm]
  · simp [start, hh]

theorem AlarmClock.has_await (c : AlarmClock) (limit : Nat) (id : TimerId) :
    (c.await limit).2.has id = c.has id := by
  unfold await
  split
  · rename_i id' alarm _
    dsimp only
    split
    · exact c.has_setAlarm id' id none
    · rfl
  · rfl

/-- The timers of a bench are told by what it has, whether they run by themselves or not. -/
theorem Bench.tellsTimers {D : Type} [Link D] :
    TellsTimers (fun (b : Bench D) id => b.HasTimer id) where
  created := by
    rintro ⟨link, bank, clock, _, _, _, _⟩ b' created hc id' ht
    cases clock with
    | some clock =>
      cases hc
      simp only [HasTimer, AlarmClock.has, List.any_append, Bool.or_eq_true] at ht
      exact ht.symm.imp (by simp [eq_comm]) id
    | none =>
      by_cases hf : bank.failCreate = true
      · simp [Host.createTimer, Bench.createTimer, TimerBank.create, hf] at hc
      · simp only [Host.createTimer, Bench.createTimer, TimerBank.create, hf] at hc
        cases hc
        simp only [HasTimer, TimerBank.has, Bool.false_eq_true, if_false, List.any_append,
          Bool.or_eq_true] at ht
        exact ht.symm.imp (by simp [eq_comm]) id
  notCreated := by
    rintro ⟨link, bank, clock, _, _, _, _⟩ b' err hc id ht
    cases clock with
    | some clock => cases hc
    | none =>
      by_cases hf : bank.failCreate = true
      · simp only [Host.createTimer, Bench.createTimer, TimerBank.create, hf] at hc
        cases hc
        exact ht
      · simp [Host.createTimer, Bench.createTimer, TimerBank.create, hf] at hc
  deleted := by
    rintro ⟨link, bank, clock, _, _, _, _⟩ id id' ht
    have hne : ∀ {α : Type} {timers : List (TimerId × α)},
        ¬ timers.any (fun t => t.1 = id) → timers.any (fun t => t.1 = id') → id' ≠ id := by
      rintro α timers hn hs rfl
      exact hn hs
    cases clock with
    | some clock =>
      by_cases hh : clock.has id = true
      · simp_all [Host.deleteTimer, Bench.deleteTimer, HasTimer, AlarmClock.delete, AlarmClock.has]
      · simp only [Host.deleteTimer, Bench.deleteTimer, AlarmClock.delete, hh] at ht
        exact ⟨hne hh ht, ht⟩
    | none =>
      by_cases hh : bank.has id = true
      · simp_all [Host.deleteTimer, Bench.deleteTimer, HasTimer, TimerBank.delete, TimerBank.has]
      · simp only [Host.deleteTimer, Bench.deleteTimer, TimerBank.delete, hh] at ht
        exact ⟨hne hh ht, ht⟩
  others := by
    rintro ⟨link, bank, clock, hold, held, fault, _⟩ c hc hd id ht
    cases c with
    | createTimer => exact absurd rfl hc
    | deleteTimer id => exact absurd rfl (hd id)
    | startTimer id' milliseconds ticket =>
      cases clock with
      | some clock => exact (clock.has_start id' id milliseconds ticket).symm.trans ht
      | none => exact (bank.has_start id' id milliseconds ticket).symm.trans ht
    | stopTimer id' =>
      cases clock with
      | some clock => exact (clock.stop_has id' id).symm.trans ht
      | none => exact (bank.stop_keeps id' id).2.2.symm.trans ht
    | await limit =>
      cases clock with
      | some clock => exact (clock.has_await limit id).symm.trans ht
      | none => exact ht
    | write => cases hold <;> exact ht
    | read => cases fault <;> exact ht
    | abortRead => exact ht
    | setMode mode =>
      simp only [HostCall.run, Host.setMode, Bench.setMode] at ht
      split at ht <;> exact ht

namespace HostCall

variable {W : Type} [Host W] {live : W → TimerId → Prop} {w w₀ : W} {h h' : Holdings}

theorem timer_of_others {c : HostCall} (hc : c ≠ .createTimer) (hd : ∀ id, c ≠ .deleteTimer id)
    (ht : h.after (c.notices w) = some h') : h'.timer = h.timer := by
  cases c with
  | createTimer => exact absurd rfl hc
  | deleteTimer id => exact absurd rfl (hd id)
  | startTimer =>
    simp only [notices] at ht
    split at ht
    · simp only [Holdings.after_cons, Holdings.after_nil, Option.bind_some, Holdings.take,
        Option.ite_none_right_eq_some, Option.some.injEq] at ht
      rw [← ht.2]
    · cases ht
      rfl
  | stopTimer =>
    simp only [notices, Holdings.after_cons, Holdings.after_nil, Option.bind_some, Holdings.take,
      Option.ite_none_right_eq_some, Option.some.injEq] at ht
    rw [← ht.2]
  | _ =>
    cases ht
    rfl

/-- Of the timers that the host did not have before, only the one that is held is there. -/
theorem live_run (hl : TellsTimers live) {c : HostCall}
    (hw : ∀ id, live w id → live w₀ id ∨ h.timer = some id)
    (ht : h.after (c.notices w) = some h') :
    ∀ id, live (c.run w) id → live w₀ id ∨ h'.timer = some id := by
  intro id hid
  by_cases hc : c = .createTimer
  · subst hc
    rcases hc : Host.createTimer w with ⟨_ | id', w'⟩
    · simp only [notices, hc, Holdings.after_nil, Option.some.injEq] at ht
      simp only [run, hc] at hid
      exact ht ▸ hw id (hl.notCreated hc id hid)
    · simp only [notices, hc, Holdings.after_cons, Holdings.after_nil, Option.bind_some,
        Holdings.take, Option.ite_none_right_eq_some, Option.some.injEq] at ht
      simp only [run, hc] at hid
      obtain ⟨hn, rfl⟩ := ht
      rcases hl.created hc id hid with rfl | hid
      · exact .inr rfl
      · have hold := hw id hid
        simp only [hn, reduceCtorEq, or_false] at hold
        exact .inl hold
  · by_cases hd : ∃ id', c = .deleteTimer id'
    · obtain ⟨id', rfl⟩ := hd
      simp only [notices, Holdings.after_cons, Holdings.after_nil, Option.bind_some, Holdings.take,
        Option.ite_none_right_eq_some, Option.some.injEq] at ht
      obtain ⟨hne, hid⟩ := hl.deleted id hid
      refine .inl ((hw id hid).resolve_right fun he => hne ?_)
      exact Option.some.inj (he.symm.trans ht.1)
    · simp only [not_exists] at hd
      rw [timer_of_others hc hd ht]
      exact hw id (hl.others hc hd id hid)

theorem live_runAll (hl : TellsTimers live) {calls : List HostCall}
    (hw : ∀ id, live w id → live w₀ id ∨ h.timer = some id)
    (ht : h.after (record w calls) = some h') :
    ∀ id, live (runAll w calls) id → live w₀ id ∨ h'.timer = some id := by
  induction calls generalizing w h with
  | nil =>
    cases ht
    exact hw
  | cons c calls ih =>
    rw [record, Holdings.after_append] at ht
    obtain ⟨h₁, hc, ht⟩ := Option.bind_eq_some_iff.1 ht
    exact ih (live_run hl hw hc) ht

end HostCall

namespace Engine

variable {W : Type} [Host W] {e e' : Engine W} {ns : List Notice}

/-- Where nothing was held before and nothing is held behind, no timer was added. -/
theorem Acts.live {live : W → TimerId → Prop} (hl : TellsTimers live) (ha : e.Acts e')
    (hj : e'.journal = ns ++ e.journal) (hn : ({} : Holdings).after ns = some {}) :
    ∀ id, live e'.world id → live e.world id := by
  obtain ⟨calls, hw, ⟨ns', hj', hr⟩, -⟩ := ha
  obtain rfl := List.append_cancel_right (hj.symm.trans hj')
  rw [← Holdings.after_filter, hr] at hn
  intro id hid
  rw [hw] at hid
  have hbase : ∀ id, live e.world id → live e.world id ∨ ({} : Holdings).timer = some id :=
    fun _ h => .inl h
  simpa using HostCall.live_runAll hl hbase hn id hid

/-! ## Calls that are refused -/

/-- The image that a write without data takes is not there. -/
def Lacks (e : Engine W) (recovery : Bool) (err : ImageError) : Prop :=
  e.library (.select recovery e.session.lastStatus) = .error err ∧
    (ImageKind.select recovery e.session.lastStatus = .primary → e.primary = none)

theorem call_invalid (hb : e.session.busy = false) {c : Call} (hc : c.Invalid) :
    ∃ fault, e.call c = (.error (.invalidParameter fault), e) := by
  rw [call_idle hb]
  cases c with
  | getVersion | getSessionState | checkIntegrity =>
    exact ⟨_, if_pos hc⟩
  | read | readLog => exact ⟨_, if_pos hc⟩
  | write recovery data =>
    cases data with
    | none => exact hc.elim
    | some data =>
      by_cases hd : data = []
      · subst hd
        exact ⟨_, rfl⟩
      · obtain ⟨err, he⟩ := Image.ofBytes_not_laid hd (hc.resolve_left hd)
        refine ⟨.malformedImage err, ?_⟩
        simp [Engine.callIdle, Engine.callWrite, he, Engine.invalid]
  | log entry =>
    refine ⟨_, if_pos ?_⟩
    simp only [Call.Invalid, ← List.length_eq_zero_iff, logAreaSize] at hc ⊢
    omega
  | raw frame capacity =>
    by_cases hf : frame = [] ∨ Frame.maxLength < frame.length
    · exact ⟨_, if_pos hf⟩
    · have hcap : capacity = 0 := by
        refine hc.resolve_left fun hl => hf ?_
        simp only [← List.length_eq_zero_iff, Frame.maxLength]
        omega
      exact ⟨_, (if_neg hf).trans (if_pos hcap)⟩
  | reset | readPlatform | force => exact hc.elim

theorem call_lacking (hb : e.session.busy = false) {recovery : Bool} {err : ImageError}
    (h : e.Lacks recovery err) :
    e.call (.write recovery none) = (.error (.failed (.image err)), e) := by
  have hchoose : e.chooseImage recovery = (.error (.failed (.image err)), e) := by
    obtain ⟨hl, hp⟩ := h
    unfold Engine.chooseImage
    dsimp only
    split
    · rename_i image hk himage
      cases (hp hk).symm.trans himage
    · rw [hl]
  rw [call_idle hb]
  simp [Engine.callIdle, Engine.callWrite, hchoose]

/-! ## Calls that are undone -/

/-- From `e` a call failed, and `e'` is what it left. -/
structure Restored (e e' : Engine W) : Prop where
  idle : e'.isBusy = false
  session : e'.session = { e.session with frame := e'.session.frame }
  /-- Each timer that was ever created was deleted. -/
  released : ∀ id, e'.journal.count (.timerCreated id) = e'.journal.count (.timerDeleted id)
  /-- The host has no timer that it did not have before. -/
  dead : ∀ live : W → TimerId → Prop, TellsTimers live →
    ∀ id, live e'.world id → live e.world id
  /-- The completions that are still to come are those of calls accepted later. -/
  silent : ∀ moves, ∃ later, (e'.run moves).delivered = later ++ e.delivered ∧
    later.reverse.map Completion.command ++ (e'.run moves).session.command.toList =
      e'.accepted moves

theorem Advances.delivered_suffix {cs : List Command} (h : e.Advances cs e') :
    e.delivered <:+ e'.delivered := by
  cases h with
  | keeps _ hp => simp [hp.delivered]
  | calls hc =>
    cases hc with
    | refused _ hp => simp [hp.delivered]
    | starts _ _ _ hp => simp [hp.delivered]
    | undone _ _ _ hp => simp [hp.delivered]
  | ignores => exact List.suffix_rfl
  | @reacts _ _ _ _ _ _ outcome _ _ _ _ _ ht =>
    cases outcome with
    | none =>
      have hd : e'.delivered = e.delivered := ht.delivered
      simp [hd]
    | some result =>
      have hd : e'.delivered = _ :: e.delivered := ht.delivered
      simp [hd]

theorem Standing.delivered_run (h : e.Standing) (moves : List (Move W)) :
    e.delivered <:+ (e.run moves).delivered := by
  induction moves generalizing e with
  | nil => exact List.suffix_rfl
  | cons m moves ih =>
    have ha := h.move_advances m
    exact ha.delivered_suffix.trans (ih (ha.standing h))

/-- What an idle engine delivers later it accepted later. -/
theorem Accounts.later {accepted : List Command} (h : e.Accounts accepted) (hs : e.Standing)
    (hi : e.session.Idle) (moves : List (Move W)) :
    ∃ later, (e.run moves).delivered = later ++ e.delivered ∧
      later.reverse.map Completion.command ++ (e.run moves).session.command.toList =
        e.accepted moves := by
  obtain ⟨later, hd⟩ := hs.delivered_run moves
  have hset := (h.run hs moves).settled
  have hnone : e.session.command = none := by rw [hi]; rfl
  have hset₀ := h.settled
  rw [hnone, Option.toList_none, List.append_nil] at hset₀
  rw [← hd, List.reverse_append, List.map_append, hset₀, List.append_assoc] at hset
  exact ⟨later, hd.symm, List.append_cancel_left hset⟩

theorem Calls.restored {c : Call} {err : DownloadError} {accepted : List Command}
    (hc : e.Calls c (.error err) e') (ha : e.Acts e') (hs : e.Standing) (hi : e.session.Idle)
    (ho : e.Orderly) (hacc : e.Accounts accepted) : e.Restored e' := by
  have hs' := hc.standing hs
  have ho' := ho.calls hc
  have hacc' := hacc.calls hc
  have hd : e'.delivered = e.delivered := by
    cases hc with
    | refused _ hp => exact hp.delivered
    | undone _ _ _ hp => exact hp.delivered
  obtain ⟨ns, hj, hn, hsession⟩ : ∃ ns, e'.journal = ns ++ e.journal ∧
      ({} : Holdings).after ns = some {} ∧
      e'.session = { e.session with frame := e'.session.frame } := by
    cases hc with
    | refused hns hp =>
      refine ⟨_, hp.journal, ?_, by rw [hp.session]⟩
      rcases hns with rfl | rfl <;> rfl
    | @undone s₀ s ns₀ ns _ _ _ _ _ _ hpre hl hp =>
      have ht : s₀.timer.id = none := by rw [hpre.holdings.1, hi]; rfl
      have hst : s.lastStatus = e.session.lastStatus := by
        rw [hl.keeps.2.2]
        cases hpre <;> rfl
      refine ⟨_, hp.journal, ?_, ?_⟩
      · simp [hpre.holdings.2, hl.holdings ht, s.after_releaseNotices ⟨s.timer.id, false⟩ rfl,
          Holdings.take]
      · rw [hp.session, hi, Session.reset, hst]
        rfl
  have hi' : e'.session.Idle := by
    have hb : e'.session.busy = false := by rw [hsession, hi]; rfl
    exact hs'.idle_of_not_busy hb
  have hheld := ho'.of_idle hi'
  refine ⟨?_, hsession, fun id => ?_, fun live hl => ha.live hl hj hn, fun moves => ?_⟩
  · rw [Engine.isBusy, hi']
    rfl
  · simpa using Holdings.count_created hheld id
  · rw [← hd]
    exact hacc'.later hs' hi' moves

/-- A call that does not lead to a session leaves nothing behind. While a session runs every call
and every switch of the mode is refused as busy; without one a call is refused when its arguments
are not valid, or when the image for it is not there. The engine is the same as before then. A call
that fails on its way leaves its last frame, and no timer and no completion. -/
theorem failed_calls_leave_no_trace (config : Config) (library : ImageLibrary) (w : W)
    (moves : List (Move W)) :
    let e := (fresh config library w).run moves
    (e.isBusy = true → (∀ c, e.call c = (.error .busy, e)) ∧
      ∀ mode, e.setMode mode = (.error .busy, e)) ∧
    (e.isBusy = false → ∀ c,
      (c.Invalid → ∃ fault, e.call c = (.error (.invalidParameter fault), e)) ∧
      (∀ recovery err, c = .write recovery none → e.Lacks recovery err →
        e.call c = (.error (.failed (.image err)), e)) ∧
      ∀ err e', e.call c = (.error err, e') → e.Restored e') := by
  have hs := (standing_fresh config library w).run moves
  have ho := (orderly_fresh config library w).run (standing_fresh config library w) moves
  have ha := (accounts_fresh config library w).run (standing_fresh config library w) moves
  dsimp only
  generalize (fresh config library w).run moves = e at hs ho ha
  refine ⟨fun hb => ⟨call_busy hb, fun mode => if_pos hb⟩, fun hb c => ⟨call_invalid hb, ?_, ?_⟩⟩
  · rintro recovery err rfl hl
    exact call_lacking hb hl
  · intro err e' hc
    have hcalls := hs.call_calls c
    have hacts := acts_call e c
    rw [hc] at hcalls hacts
    exact hcalls.restored hacts hs (hs.idle_of_not_busy hb) ho ha

/-- The link refuses the frame of a first call, for which the controller was switched to download
mode: the bench has no timer any more, and only the frame stayed. -/
theorem refused_frame_leaves_no_timer :
    let e := fresh {} (ImageLibrary.ofList []) refusingBench
    let e' := (e.call .readPlatform).2
    e.Restored e' ∧ (∀ id, ¬ e'.world.HasTimer id) ∧ e'.session.frame ≠ e.session.frame := by
  have h := (failed_calls_leave_no_trace {} (ImageLibrary.ofList []) refusingBench []).2 rfl
    .readPlatform
  have hr := h.2.2 (.failed (.link (.writeFailed "rejected by mock"))) _ rfl
  refine ⟨hr, fun id hid => ?_, by decide +kernel⟩
  cases hr.dead _ Bench.tellsTimers id hid

end Engine

end FirmwareDownload
