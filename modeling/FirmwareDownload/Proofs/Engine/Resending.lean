import FirmwareDownload.Bench
import FirmwareDownload.Proofs.Engine.BusyMemory
import FirmwareDownload.Proofs.Engine.LastFailure

/-! A frame that meets a busy memory, again and again. Commands that read or write wait and send it
once more, up to the limit; all others fail. -/

namespace FirmwareDownload

namespace Engine

variable {W : Type} [Host W] {e e₀ e' : Engine W} {command : Command} {id : TimerId}
  {signal : Signal} {s : Session} {ns : List Notice}
  {outcome : Option (Except DownloadError Unit)}

/-- Since `e₀`, where a frame was just handed over, the memory was busy, and the session still
tries. All that it sends and gathers is as it was. -/
structure Tries (e₀ e : Engine W) (config : Config) (command : Command) (id : TimerId)
    (stage : BusyStage) (signals : List Signal) (ns : List Notice) : Prop where
  journal : e.journal = ns ++ e₀.journal
  delivered : e.delivered = e₀.delivered
  config_eq : e.config = config
  waiting : e.session.Waiting command id
  place : stage.At e.session
  cargo : e.session.cargo = e₀.session.cargo
  allowed : ∀ limit, config.resendLimit = some limit → e.session.resendCount ≤ limit
  spell : Spell e₀.session.frame.bytes id config stage e.session.resendCount.toNat signals (marks ns)

/-- Since `e₀` the memory was busy once more than the frame may be sent again. -/
structure GivesUp (e₀ e : Engine W) (config : Config) (command : Command) (id : TimerId)
    (limit : UInt32) (signals : List Signal) (ns : List Notice) : Prop where
  journal : e.journal = ns ++ e₀.journal
  limited : config.resendLimit = some limit
  idle : e.session.Idle
  delivered : e.delivered = ⟨command, .error (.failed (.resendLimit limit)),
    e₀.session.response.take e₀.session.responseLength⟩ :: e₀.delivered
  spell : ∃ earlier t raw ms, signals = earlier ++ [.received t (.ok raw)] ∧
    statusOf raw = some .memBusy ∧
    Spell e₀.session.frame.bytes id config .listening limit.toNat earlier ms ∧
    marks ns = ms ++ [.received raw, .finished command (some (.failed (.resendLimit limit)))]

/-- The session tries, it gave up, a call on the host failed, or no answer came. -/
inductive Persists (e₀ : Engine W) (config : Config) (command : Command) (id : TimerId)
    (e : Engine W) (signals : List Signal) : Prop
  | tries {stage : BusyStage} {ns : List Notice} : Tries e₀ e config command id stage signals ns →
    Persists e₀ config command id e signals
  | givesUp {limit : UInt32} {ns : List Notice} :
    GivesUp e₀ e config command id limit signals ns → Persists e₀ config command id e signals
  | cutOff {err : DownloadError} {response : Bytes} : HostFault W err → e.session.Idle →
    e.delivered = ⟨command, .error err, response⟩ :: e₀.delivered →
    Persists e₀ config command id e signals
  | timedOut {ns : List Notice} : e.session.Idle → e.journal = ns ++ e₀.journal →
    .timeout command ∈ ns → Persists e₀ config command id e signals

section

variable {config : Config} {signals : List Signal} {rest : List Signal} {stage : BusyStage}

theorem persists_of_fault {err : DownloadError} (hd : e.delivered = e₀.delivered)
    (hf : HostFault W err) (h : (e.popped rest).Concludes s ns command (.error err) e') :
    e₀.Persists config command id e' signals := by
  have hd' : e'.delivered = ⟨command, .error err, s.response.take s.responseLength⟩ ::
      e₀.delivered := by
    rw [h.delivered, ← hd]
    rfl
  exact .cutOff hf (h.session ▸ Session.idle_reset s) hd'

/-- The session goes on after a signal, unless the host failed a call. -/
theorem Tries.goes {ns' : List Notice} {stage' : BusyStage}
    (h : e₀.Tries e config command id stage signals ns)
    (ho : Unhindered W outcome) (ht : (e.popped rest).Turns s ns' command outcome e')
    (hw : outcome = none → s.Waiting command id) (hs : stage'.At s)
    (hcargo : s.cargo = e.session.cargo)
    (hallowed : ∀ limit, config.resendLimit = some limit → s.resendCount ≤ limit)
    (hspell : Spell e₀.session.frame.bytes id config stage' s.resendCount.toNat
      (signals ++ [signal]) (marks ns ++ marks ns')) :
    e₀.Persists config command id e' (signals ++ [signal]) := by
  cases ho with
  | fails hf => exact persists_of_fault h.delivered hf ht
  | goes =>
    have hj : e'.journal = (ns' ++ ns) ++ e₀.journal := by
      rw [ht.journal, List.append_assoc, ← h.journal]
      rfl
    obtain rfl := ht.session
    exact .tries ⟨hj, ht.delivered.trans h.delivered, ht.config.trans h.config_eq, hw rfl, hs,
      hcargo.trans h.cargo, hallowed, by rw [marks_append]; exact hspell⟩

theorem Tries.takes_written {ns' : List Notice} {t : Ticket}
    (h : e₀.Tries e config command id stage signals ns)
    (ha : e.session.Awaits (.written t (.ok ())))
    (hr : (e.popped rest).Reacts e' command id (.written t (.ok ())) s ns' outcome)
    (ht : (e.popped rest).Turns s ns' command outcome e') :
    e₀.Persists config command id e' (signals ++ [.written t (.ok ())]) := by
  have hw := fun ho => Reacts.waiting (e := e.popped rest) h.waiting ha hr ho
  obtain rfl : stage = .sent := h.place.unique ha.1
  obtain rfl := h.config_eq
  cases hr with
  | timerRefused hf => exact persists_of_fault h.delivered hf ht
  | listens _ _ ho =>
    exact h.goes ho ht hw (show BusyStage.listening.At _ from ⟨rfl, rfl⟩) rfl h.allowed
      h.spell.written

/-- The counter holds the busy answers, this one included, as long as there are fewer than it has
values. -/
theorem Tries.takes_busy {ns' : List Notice} {t : Ticket} {raw : Bytes}
    (h : e₀.Tries e config command id stage signals ns)
    (hrw : command.shape = .readWrite) (hb : statusOf raw = some .memBusy)
    (hfew : (signals ++ [Signal.received t (.ok raw)]).countP Signal.isAnswer < UInt32.size)
    (ha : e.session.Awaits (.received t (.ok raw)))
    (hr : (e.popped rest).Reacts e' command id (.received t (.ok raw)) s ns' outcome)
    (ht : (e.popped rest).Turns s ns' command outcome e') :
    e₀.Persists config command id e' (signals ++ [.received t (.ok raw)]) := by
  have hw := fun ho => Reacts.waiting (e := e.popped rest) h.waiting ha hr ho
  have hp := (h.waiting.onTimer ha.1).read.1 (ha.2 ▸ rfl)
  obtain rfl : stage = .listening := h.place.unique ⟨ha.1, hp⟩
  obtain rfl := h.config_eq
  have hv : (e.popped rest).session.answering.handleAnswer raw =
      (.resend, e.session.meetingBusy) :=
    Session.handleAnswer_memBusy h.waiting.command hrw hb
  have hm : marks ((e.popped rest).session.answerNotices raw) = [.received raw] :=
    Session.marks_answerNotices _ raw
  have hnext : (e.session.resendCount + 1).toNat = e.session.resendCount.toNat + 1 := by
    rw [List.countP_append, h.spell.countP_answers] at hfew
    exact Nat.mod_eq_of_lt hfew
  cases hr with
  | @exhausted _ _ limit _ hl hlt =>
    rw [hv] at hlt ht
    have hcount : e.session.resendCount.toNat = limit.toNat := by
      have hle := UInt32.le_iff_toNat_le.1 (h.allowed limit hl)
      have hlt' := UInt32.lt_iff_toNat_lt.1
        (show limit < e.session.resendCount + 1 from hlt)
      omega
    obtain ⟨hs, hj, hd, -⟩ : (e.popped rest).Concludes _ _ _ _ _ := ht
    have hj' : e'.journal = (_ :: (_ ++ _)) ++ e.journal := hj
    rw [h.journal, ← List.append_assoc] at hj'
    have hd' : e'.delivered = ⟨command, .error (.failed (.resendLimit limit)),
        e.session.response.take e.session.responseLength⟩ :: e.delivered := hd
    rw [Session.response_of_cargo h.cargo, Session.responseLength_of_cargo h.cargo,
      h.delivered] at hd'
    refine .givesUp ⟨hj', hl, hs ▸ Session.idle_reset _, hd', signals, t, raw, _, rfl, hb,
      hcount ▸ h.spell, ?_⟩
    rw [marks_append, marks_cons, marks_append, hm, Session.marks_endNotices]
    rfl
  | waitRefused _ hf => exact persists_of_fault h.delivered hf ht
  | holds _ hl _ =>
    rw [hv] at hl hw ht
    refine h.goes .goes ht hw (show BusyStage.holding.At _ from ⟨rfl, rfl⟩) rfl hl ?_
    rw [marks_holding, hm, show (e.session.meetingBusy.holding _).resendCount.toNat = _ from hnext]
    exact h.spell.busy hb
  | _ => cases (congrArg Prod.fst hv).symm.trans ‹_›

theorem Tries.takes_expired {ns' : List Notice} {t : Ticket}
    (h : e₀.Tries e config command id stage signals ns) (ha : e.session.Awaits (.expired t))
    (hr : (e.popped rest).Reacts e' command id (.expired t) s ns' outcome)
    (ht : (e.popped rest).Turns s ns' command outcome e') :
    e₀.Persists config command id e' (signals ++ [.expired t]) := by
  have hw := fun ho => Reacts.waiting (e := e.popped rest) h.waiting ha hr ho
  obtain rfl := h.config_eq
  cases hr with
  | silent =>
    obtain ⟨hs, hj, -⟩ : (e.popped rest).Concludes _ _ _ _ _ := ht
    have hj' : e'.journal = (_ :: (_ ++ _)) ++ e.journal := hj
    rw [h.journal, ← List.append_assoc] at hj'
    exact .timedOut (hs ▸ Session.idle_reset _) hj' (by simp)
  | resends hp hd ho =>
    obtain rfl : stage = .holding := h.place.unique ⟨ha.1, hp⟩
    have hf := Session.frame_of_cargo h.cargo
    refine h.goes ho ht hw (show BusyStage.sent.At _ from rfl) rfl h.allowed ?_
    have hms := h.spell.again (t := t)
    rw [← hf] at hms ⊢
    exact hms

theorem Persists.standing (h : e₀.Persists config command id e signals) : e.Standing := by
  cases h with
  | tries h => exact .inr ⟨_, _, h.waiting⟩
  | givesUp h => exact .inl h.idle
  | cutOff _ hi => exact .inl hi
  | timedOut hi => exact .inl hi

theorem Persists.move (hrw : command.shape = .readWrite)
    (h : e₀.Persists config command id e signals) {m : Move W} (hm : m.Serves)
    (hb : ∀ signal ∈ e.takes m, signal.SaysBusy)
    (hfew : (signals ++ e.takes m).countP Signal.isAnswer < UInt32.size) :
    e₀.Persists config command id (e.move m) (signals ++ e.takes m) := by
  rcases h.standing.serves_cases hm with
    ⟨ht, queue, w, he⟩ | ⟨signal, rest, command', id', s, ns', outcome, ht, hw, ha, hr, hturn⟩
  · rw [ht, List.append_nil, he]
    cases h with
    | tries h =>
      exact .tries ⟨h.journal, h.delivered, h.config_eq, h.waiting, h.place, h.cargo, h.allowed,
        h.spell⟩
    | givesUp h => exact .givesUp ⟨h.journal, h.limited, h.idle, h.delivered, h.spell⟩
    | cutOff hf hi hd => exact .cutOff hf hi hd
    | timedOut hi hj hn => exact .timedOut hi hj hn
  · rw [ht] at hb hfew ⊢
    have hs := hb signal (List.mem_singleton_self signal)
    have hbusy := hw.busy
    -- Once the session is over none takes a signal.
    have hover : ¬ e.session.Idle := by
      intro hi
      rw [hi] at hbusy
      cases hbusy
    cases h with
    | givesUp h => exact (hover h.idle).elim
    | cutOff _ hi => exact (hover hi).elim
    | timedOut hi => exact (hover hi).elim
    | tries h =>
      obtain rfl := Option.some.inj (h.waiting.command.symm.trans hw.command)
      obtain rfl := Option.some.inj (h.waiting.timer.symm.trans hw.timer)
      cases signal with
      | written t result =>
        cases result with
        | ok => exact h.takes_written ha hr hturn
        | error err => exact hs.elim
      | received t result =>
        cases result with
        | ok raw => exact h.takes_busy hrw hs hfew ha hr hturn
        | error err => exact hs.elim
      | expired t => exact h.takes_expired ha hr hturn

theorem Persists.run (hrw : command.shape = .readWrite)
    (h : e₀.Persists config command id e signals) {moves : List (Move W)}
    (hm : ∀ m ∈ moves, Move.Serves m) (hb : ∀ signal ∈ e.taken moves, signal.SaysBusy)
    (hfew : (signals ++ e.taken moves).countP Signal.isAnswer < UInt32.size) :
    e₀.Persists config command id (e.run moves) (signals ++ e.taken moves) := by
  induction moves generalizing e signals with
  | nil =>
    rw [taken, List.append_nil]
    exact h
  | cons m moves ih =>
    rw [taken] at hb hfew ⊢
    rw [← List.append_assoc] at hfew ⊢
    have hfirst : (signals ++ e.takes m).countP Signal.isAnswer < UInt32.size := by
      rw [List.countP_append] at hfew
      omega
    have h₁ := h.move hrw (hm m List.mem_cons_self)
      (fun x hx => hb x (List.mem_append_left _ hx)) hfirst
    exact ih h₁ (fun m' hm' => hm m' (List.mem_cons_of_mem m hm'))
      (fun x hx => hb x (List.mem_append_right _ hx)) hfew

omit [Host W] in
theorem Tries.spelled (h : e₀.Tries e config command id stage signals ns) :
    Spell e₀.session.frame.bytes id config stage (signals.countP Signal.isAnswer) signals
      (marks ns) := by
  rw [h.spell.countP_answers]
  exact h.spell

omit [Host W] in
theorem Tries.within {limit : UInt32} (h : e₀.Tries e config command id stage signals ns)
    (hl : config.resendLimit = some limit) : signals.countP Signal.isAnswer ≤ limit.toNat := by
  rw [h.spell.countP_answers]
  exact UInt32.le_iff_toNat_le.1 (h.allowed limit hl)

end

/-! ## Commands of one frame -/

end Engine

end FirmwareDownload
