import FirmwareDownload.Bench
import FirmwareDownload.Proofs.Engine.HostCalls
import FirmwareDownload.Proofs.Engine.Staleness

/-! Late signals are harmless: they are passed over whenever their turn comes, of an answer and
the end of the wait for it the first one counts, and a queue without the late signals leads to
the same frames and completions. -/

namespace FirmwareDownload

namespace Engine

variable {W : Type} [Host W] {e e' : Engine W} {signal : Signal}

theorem Stale.handle_eq (h : e.Stale signal) : e.handle signal = e := handle_ignored h.not_awaits

/-! ## An answer and the end of the wait for it -/

variable {command : Command} {id : TimerId} {s : Session} {ns : List Notice}
  {outcome : Option (Except DownloadError Unit)}

omit [Host W] in
theorem Standing.onTimer {r : Ticket} (h : e.Standing) (hr : e.session.readTicket = some r) :
    ∃ command id, e.session.Waiting command id ∧ e.session.OnTimer ∧
      e.session.timer.purpose = .response := by
  rcases h with hi | ⟨command, id, hw⟩
  · rw [hi] at hr
    cases hr
  · rcases hw.place with hf | ht
    · cases hf.read.symm.trans hr
    · exact ⟨command, id, hw, ht, ht.read.1 (hr ▸ rfl)⟩

theorem Reacts.ends_wait (ht : e.session.OnTimer) (hp : e.session.timer.purpose = .response)
    (ha : e.session.Awaits signal) (h : e.Reacts e' command id signal s ns outcome) :
    .moved .timer .response ∈ ns ∧
      (outcome = none → s.readTicket = none ∧ ∀ t, s.timer.ticket = some t → e.Draws e' t) := by
  have hm : ∀ raw, .moved .timer .response ∈ e.session.answerNotices raw := by
    intro raw
    rw [Session.answerNotices, Session.moveNotices_of_phase ht.phase (by decide)]
    simp
  have hs : ∀ raw, (e.session.answering.handleAnswer raw).2.readTicket = none ∧
      (e.session.answering.handleAnswer raw).2.timer.ticket = none := fun raw =>
    ((Prod.mk.inj (e.session.handleAnswer_tickets raw)).imp_right Prod.mk.inj).2
  cases h with
  | writeFailed => cases ht.phase.symm.trans ha.1
  | timerRefused => cases ht.phase.symm.trans ha.1
  | listens => cases ht.phase.symm.trans ha.1
  | readFailed => exact ⟨List.mem_cons_self, nofun⟩
  | done => exact ⟨hm _, nofun⟩
  | failed => exact ⟨hm _, nofun⟩
  | frameRefused => exact ⟨List.mem_cons_of_mem _ (hm _), nofun⟩
  | @proceeds r t raw s _ hv hc _ =>
    refine ⟨by simp [hm], fun _ => ?_⟩
    obtain ⟨-, hr, htk⟩ := (Prod.mk.inj (Session.compose_tickets hc)).imp_right Prod.mk.inj
    refine ⟨hr.trans (hs raw).1, fun t he => ?_⟩
    cases (htk.trans (hs raw).2).symm.trans he
  | exhausted => exact ⟨hm _, nofun⟩
  | waitRefused => exact ⟨List.mem_cons_of_mem _ (hm _), nofun⟩
  | @holds r t raw hv hl hd =>
    refine ⟨by simp [hm], fun _ => ⟨(hs raw).1, fun t' he => ?_⟩⟩
    cases he
    exact hd
  | silent => exact ⟨by simp, nofun⟩
  | resends hp' => cases hp.symm.trans hp'

theorem handleNext_popped {rest : List Signal} (hq : e.queue = signal :: rest) :
    e.move .handleNext = (e.popped rest).handle signal := by
  unfold Engine.move Engine.handleNext
  rw [hq]
  rfl

theorem run_unawaited {pre post : List Signal} (hq : e.queue = pre ++ post)
    (hpre : ∀ x ∈ pre, ¬ e.session.Awaits x) :
    e.run (List.replicate pre.length .handleNext) = e.popped post := by
  induction pre generalizing e with
  | nil =>
    rw [popped, ← (show e.queue = post from hq)]
    rfl
  | cons x pre ih =>
    have hx : e.move .handleNext = e.popped (pre ++ post) := by
      rw [handleNext_popped hq]
      exact handle_ignored (e := e.popped (pre ++ post)) (hpre x List.mem_cons_self)
    rw [List.length_cons, List.replicate_succ, run_cons, hx]
    exact ih rfl (fun y hy => hpre y (List.mem_cons_of_mem x hy))

theorem run_first_awaited {pre post : List Signal} (hq : e.queue = pre ++ signal :: post)
    (hpre : ∀ x ∈ pre, ¬ e.session.Awaits x) :
    e.run (List.replicate (pre.length + 1) .handleNext) = (e.popped post).handle signal := by
  rw [List.replicate_succ', run_append, run_unawaited hq hpre]
  exact handleNext_popped (e := e.popped (signal :: post)) rfl

/-- Of an answer and the end of the wait for it the first one in the queue is acted on, and then
both are stale. -/
theorem first_ends_wait {r t : Ticket} {pre post : List Signal} (h : e.Standing) (hk : e.Asked)
    (hr : e.session.readTicket = some r) (ht : e.session.timer.ticket = some t)
    (hq : e.queue = pre ++ signal :: post) (hpre : ∀ x ∈ pre, ¬ e.session.Awaits x)
    (ha : e.session.Awaits signal) :
    let after := e.run (List.replicate (pre.length + 1) .handleNext)
    (∃ ns, after.journal = ns ++ e.journal ∧ .moved .timer .response ∈ ns) ∧
      (∀ result, after.Stale (.received r result)) ∧ after.Stale (.expired t) := by
  obtain ⟨command, id, hw, hot, hp⟩ := h.onTimer hr
  obtain ⟨s, ns, outcome, hre, htu⟩ := handle_reacts (e := e.popped post) hw ha
  obtain ⟨hm, hg⟩ := Reacts.ends_wait (e := e.popped post) hot hp ha hre
  dsimp only
  rw [run_first_awaited hq hpre]
  generalize (e.popped post).handle signal = after at hre htu hg
  cases outcome with
  | none =>
    obtain ⟨hrd, htk⟩ := hg rfl
    have hs : after.session = s := htu.session
    have hl : e.lastTicket ≤ after.lastTicket := htu.lastTicket
    refine ⟨⟨ns, htu.journal, hm⟩, fun result => hk.stale hl hr ?_, hk.stale hl ht ?_⟩
    · rw [hs]
      exact fun he => nomatch hrd.symm.trans he
    · intro he
      rw [hs] at he
      exact absurd (hk (.expired t) t ht) (Nat.not_le.2 (htk t he).1)
  | some result =>
    have hi : after.session.Idle := by rw [htu.session]; exact Session.idle_reset _
    have hl : e.lastTicket ≤ after.lastTicket := htu.lastTicket
    refine ⟨⟨_, htu.journal, ?_⟩,
      fun result => stale_of_idle hi (Nat.le_trans (hk (.received r (.ok [])) r hr) hl),
      stale_of_idle hi (Nat.le_trans (hk (.expired t) t ht) hl)⟩
    exact List.mem_cons_of_mem _ (List.mem_append_right _ hm)

/-! ## Queues without late signals -/

/-- The engine without the stale signals of its queue. -/
def prune (e : Engine W) : Engine W :=
  { e with queue := e.queue.filter (fun signal => ¬ e.Stale signal) }

def Wastes (e : Engine W) : Move W → Prop
  | .handleNext => ∃ signal ∈ e.queue.head?, e.Stale signal
  | _ => False

instance (e : Engine W) (m : Move W) : Decidable (e.Wastes m) := by
  unfold Wastes
  split <;> infer_instance

def needed (e : Engine W) : List (Move W) → List (Move W)
  | [] => []
  | m :: moves =>
    if e.Wastes m then (e.move m).needed moves else m :: (e.move m).needed moves

/-- A run in which stale signals are deleted from the queue as soon as they are stale. -/
def prunedRun (e : Engine W) (moves : List (Move W)) : Engine W :=
  moves.foldl (fun e m => (e.move m).prune) e

omit [Host W] in
theorem prune_behind (q : List Signal) (e : Engine W) : (e.behind q).prune =
    { e with queue := q.filter (fun s => ¬ e.Stale s) ++ e.queue.filter (fun s => ¬ e.Stale s) } :=
  congrArg (fun queue => { e with queue := queue }) (List.filter_append ..)

omit [Host W] in
theorem prune_behind_filter {q : List Signal} {stale : Signal → Prop} [DecidablePred stale]
    (h : ∀ s, stale s → e.Stale s) :
    (e.behind (q.filter (fun s => ¬ stale s))).prune = (e.behind q).prune := by
  have hf : (q.filter (fun s => ¬ stale s)).filter (fun s => ¬ e.Stale s) =
      q.filter (fun s => ¬ e.Stale s) := by
    rw [List.filter_filter]
    refine List.filter_congr fun s _ => ?_
    by_cases hs : e.Stale s
    · simp [hs]
    · simp [hs, mt (h s) hs]
  rw [prune_behind, prune_behind, hf]

omit [Host W] in
theorem popped_behind (e : Engine W) (q : List Signal) : (e.popped []).behind q = e.popped q :=
  congrArg e.popped (List.append_nil q)

omit [Host W] in
theorem prune_eq_popped (e : Engine W) :
    e.prune = e.popped (e.queue.filter (fun s => ¬ e.Stale s)) :=
  rfl

theorem prune_move (hs : e.Standing) {m : Move W} (hm : m ≠ .handleNext) :
    (e.prune.move m).prune = (e.move m).prune := by
  have he : e.move m = ((e.popped []).move m).behind e.queue := by
    rw [← behind_move e.queue (e.popped []) hm, popped_behind]
    rfl
  have hst : ∀ s, e.Stale s → ((e.popped []).move m).Stale s := by
    intro s h
    have h' := h.advance (hs.move_advances m)
    rw [he] at h'
    exact h'
  have hp : e.prune.move m =
      ((e.popped []).move m).behind (e.queue.filter (fun s => ¬ e.Stale s)) := by
    rw [← behind_move _ (e.popped []) hm, popped_behind]
    rfl
  rw [he, hp]
  exact prune_behind_filter hst

theorem prune_handleNext (hs : e.Standing) {rest : List Signal} (hq : e.queue = signal :: rest)
    (hn : ¬ e.Stale signal) : (e.prune.move .handleNext).prune = (e.move .handleNext).prune := by
  -- Handling the signal in front commutes with the queue behind it, pruned or not. What it makes
  -- stale besides is pruned on both sides.
  have he : e.move .handleNext = ((e.popped []).handle signal).behind rest := by
    rw [handleNext_popped hq, ← behind_handle, popped_behind]
  have hst : ∀ s, e.Stale s → ((e.popped []).handle signal).Stale s := by
    intro s h
    have h' := h.advance (hs.move_advances .handleNext)
    rw [he] at h'
    exact h'
  have hpq : e.prune.queue = signal :: rest.filter (fun s => ¬ e.Stale s) := by
    rw [prune_eq_popped, popped, hq, List.filter_cons_of_pos (by simpa using hn)]
  have hp : e.prune.move .handleNext =
      ((e.popped []).handle signal).behind (rest.filter (fun s => ¬ e.Stale s)) := by
    rw [handleNext_popped hpq, ← behind_handle, popped_behind]
    rfl
  rw [he, hp]
  exact prune_behind_filter hst

theorem prune_wasted {m : Move W} (h : e.Wastes m) : (e.move m).prune = e.prune := by
  cases m with
  | handleNext =>
    obtain ⟨signal, hh, hst⟩ := h
    obtain ⟨rest, hq⟩ := List.head?_eq_some_iff.1 hh
    rw [handleNext_popped hq, Stale.handle_eq (e := e.popped rest) hst, prune_eq_popped e, hq,
      List.filter_cons_of_neg (by simpa using hst)]
    rfl
  | _ => exact h.elim

theorem prune_needed (hs : e.Standing) {m : Move W} (h : ¬ e.Wastes m) :
    (e.prune.move m).prune = (e.move m).prune := by
  by_cases hm : m = .handleNext
  · subst hm
    cases hq : e.queue with
    | nil =>
      have hp : e.prune = e := by
        rw [prune_eq_popped, hq, List.filter_nil, ← hq]
        rfl
      rw [hp]
    | cons signal rest =>
      refine prune_handleNext hs hq fun hst => h ⟨signal, ?_, hst⟩
      rw [hq]
      rfl
  · exact prune_move hs hm

/-- Deleting the stale signals changes nothing but the queue. -/
theorem prune_run (hs : e.Standing) (moves : List (Move W)) :
    (e.run moves).prune = e.prune.prunedRun (e.needed moves) := by
  induction moves generalizing e with
  | nil => rfl
  | cons m moves ih =>
    have ih' := ih ((hs.move_advances m).standing hs)
    rw [needed]
    split
    · rename_i hw
      rw [prune_wasted hw] at ih'
      exact ih'
    · rename_i hw
      rw [← prune_needed hs hw] at ih'
      exact ih'

/-- Signals whose request was given up, with its session, by a newer request or by a lost race,
are passed over whenever they come, and the engine does the same without them. The requests carry
the tickets from one on, so it takes 2 ^ 64 of them to draw a ticket that 64 bits do not hold. -/
theorem late_signals_harmless (config : Config) (library : ImageLibrary) (w : W)
    (moves : List (Move W)) :
    let e := (fresh config library w).run moves
    (∀ signal, e.session.Idle → signal.ticket ≤ e.lastTicket → e.Stale signal) ∧
    (∀ signal later, e.session.ticketFor signal = some signal.ticket →
      (e.run later).session.ticketFor signal ≠ some signal.ticket → (e.run later).Stale signal) ∧
    (∀ signal later, e.Stale signal → (e.run later).handle signal = e.run later) ∧
    (∀ r t pre signal post, e.session.readTicket = some r → e.session.timer.ticket = some t →
      e.queue = pre ++ signal :: post → (∀ x ∈ pre, ¬ e.session.Awaits x) →
      e.session.Awaits signal →
      let after := e.run (List.replicate (pre.length + 1) .handleNext)
      (∃ ns, after.journal = ns ++ e.journal ∧ .moved .timer .response ∈ ns) ∧
        (∀ result, after.Stale (.received r result)) ∧ after.Stale (.expired t)) ∧
    (∀ later, e.prune.prunedRun (e.needed later) = (e.run later).prune ∧
      (e.prune.prunedRun (e.needed later)).journal = (e.run later).journal ∧
      (e.prune.prunedRun (e.needed later)).delivered = (e.run later).delivered) ∧
    ∃ calls, (fresh config library w).Asks moves calls ∧
      calls.filterMap HostCall.ticket? = List.range' 1 e.lastTicket := by
  have hs := (standing_fresh config library w).run moves
  have hk := (asked_fresh config library w).run (standing_fresh config library w) moves
  have hn := run_numbered config library w moves
  dsimp only
  generalize (fresh config library w).run moves = e at hs hk hn
  refine ⟨fun signal => stale_of_idle, fun signal later hi => ?_, fun signal later hst => ?_,
    fun r t pre signal post => first_ends_wait hs hk, fun later => ?_, hn⟩
  · exact hk.stale (lastTicket_run hs later) hi
  · exact (hst.run hs later).handle_eq
  · rw [← prune_run hs later]
    exact ⟨rfl, rfl, rfl⟩

/-- A reset is answered, and the wait for the answer ends all the same. -/
def answeredReset : Bench MockLink := { link := { answers := [Frame.wrap [0x00] false] } }

def raceMoves : List (Move (Bench MockLink)) := [.call .reset, .handleNext, .arrive [.expired 2]]

theorem late_signals_harmless_lost_race :
    let e := (fresh {} (ImageLibrary.ofList []) answeredReset).run raceMoves
    let after := e.run [.handleNext]
    e.session.readTicket = some 3 ∧ e.session.timer.ticket = some 2 ∧
      e.queue = [.received 3 (.ok (Frame.wrap [0x00] false)), .expired 2] ∧
      after.Stale (.expired 2) ∧ after.handle (.expired 2) = after := by
  obtain ⟨-, -, -, hrace, -⟩ :=
    late_signals_harmless {} (ImageLibrary.ofList []) answeredReset raceMoves
  obtain ⟨-, -, hlate, -⟩ :=
    late_signals_harmless {} (ImageLibrary.ofList []) answeredReset (raceMoves ++ [.handleNext])
  have hlate := hlate (.expired 2) []
  have hnil : ∀ e : Engine (Bench MockLink), e.run [] = e := fun _ => rfl
  rw [run_append, hnil] at hlate
  intro e after
  have hr : e.session.readTicket = some 3 := rfl
  have ht : e.session.timer.ticket = some 2 := rfl
  have hq : e.queue = [.received 3 (.ok (Frame.wrap [0x00] false)), .expired 2] := rfl
  have ha : e.session.Awaits (.received 3 (.ok (Frame.wrap [0x00] false))) := ⟨rfl, hr⟩
  have hs := hrace 3 2 [] (.received 3 (.ok (Frame.wrap [0x00] false))) [.expired 2]
    hr ht hq (fun _ hx => (List.not_mem_nil hx).elim) ha
  exact ⟨hr, ht, hq, hs.2.2, hlate hs.2.2⟩

end Engine

end FirmwareDownload
