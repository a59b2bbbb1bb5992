import FirmwareDownload.Proofs.Engine.Exchange
import FirmwareDownload.Proofs.Engine.Following
import FirmwareDownload.Proofs.Engine.Lateness

/-! What a busy memory makes of a frame: the signals that a session takes meanwhile, what it does on
them, and where it stands between two of them. Busy answers are counted from a fresh frame on. -/

namespace FirmwareDownload

/-! ## What such a frame leads to -/

/-- The notice of a frame, an answer, an arming of the timer or the end of a command. -/
def Notice.isMark : Notice → Bool
  | .sent _ => true
  | .received _ => true
  | .timerArmed _ _ => true
  | .finished _ _ => true
  | _ => false

/-- The frames, answers, armings and ends, oldest first. -/
def marks (ns : List Notice) : List Notice := (ns.filter Notice.isMark).reverse

def Notice.sent? : Notice → Option Bytes
  | .sent frame => some frame
  | _ => none

/-- All frames that were handed over, oldest first. -/
def sentFrames (ns : List Notice) : List Bytes := (marks ns).filterMap Notice.sent?

theorem mem_marks {n : Notice} {ns : List Notice} : n ∈ marks ns ↔ n ∈ ns ∧ n.isMark := by
  simp [marks]

theorem marks_append (ns ns' : List Notice) : marks (ns ++ ns') = marks ns' ++ marks ns := by
  simp [marks]

theorem marks_cons (n : Notice) (ns : List Notice) : marks (n :: ns) = marks ns ++ marks [n] :=
  marks_append [n] ns

theorem marks_holding (p q : Phase) (id : TimerId) (milliseconds : Nat) (attempt : UInt32)
    (ns : List Notice) :
    marks (.moved p q :: .timerArmed id milliseconds :: .resend attempt :: ns) =
      marks ns ++ [.timerArmed id milliseconds] :=
  marks_append [_, _, _] ns

theorem sentFrames_append (ns ns' : List Notice) :
    sentFrames (ns ++ ns') = sentFrames ns' ++ sentFrames ns := by
  simp [sentFrames, marks_append]

theorem sentFrames_cons (n : Notice) (ns : List Notice) :
    sentFrames (n :: ns) = sentFrames ns ++ sentFrames [n] :=
  sentFrames_append [n] ns

theorem Plain.sentFrames_eq_nil {ns : List Notice} (h : Plain ns) : sentFrames ns = [] := by
  induction ns with
  | nil => rfl
  | cons n ns ih =>
    have hn := h n List.mem_cons_self
    rw [sentFrames_cons, ih h.tail]
    cases n <;> first | rfl | cases hn

/-- The end of a write, a valid answer of a busy memory, or the timer going off. -/
def Signal.SaysBusy : Signal → Prop
  | .written _ (.ok ()) => True
  | .written _ (.error _) => False
  | .received _ (.ok raw) => statusOf raw = some .memBusy
  | .received _ (.error _) => False
  | .expired _ => True

instance (signal : Signal) : Decidable signal.SaysBusy := by
  unfold Signal.SaysBusy
  split <;> infer_instance

def Signal.isAnswer : Signal → Bool
  | .received _ _ => true
  | _ => false

/-- Where a session stands with a frame that was handed over. -/
inductive BusyStage
  | sent
  | listening
  /-- The memory was busy, and the frame is sent again after the wait. -/
  | holding
  deriving DecidableEq

def BusyStage.At : BusyStage → Session → Prop
  | .sent, s => s.phase = .recv
  | .listening, s => s.phase = .timer ∧ s.timer.purpose = .response
  | .holding, s => s.phase = .timer ∧ s.timer.purpose = .resendWait

/-- What a session waits for tells where it stands. -/
theorem BusyStage.At.unique {stage stage' : BusyStage} {s : Session} (h : stage.At s)
    (h' : stage'.At s) : stage = stage' := by
  cases stage <;> cases stage' <;> simp_all [BusyStage.At]

/-- What a session does with a frame that is answered by a busy memory `busy` times: the signals
that it takes, and what it does on them, oldest first. -/
inductive Spell (frame : Bytes) (id : TimerId) (config : Config) :
    BusyStage → Nat → List Signal → List Notice → Prop
  | sent : Spell frame id config .sent 0 [] []
  | written {busy : Nat} {signals : List Signal} {ms : List Notice} {t : Ticket} :
    Spell frame id config .sent busy signals ms →
    Spell frame id config .listening busy (signals ++ [.written t (.ok ())])
      (ms ++ [.timerArmed id config.responseTimeout.toNat])
  | busy {busy : Nat} {signals : List Signal} {ms : List Notice} {t : Ticket} {raw : Bytes} :
    Spell frame id config .listening busy signals ms → statusOf raw = some .memBusy →
    Spell frame id config .holding (busy + 1) (signals ++ [.received t (.ok raw)])
      (ms ++ [.received raw, .timerArmed id config.resendWait.toNat])
  | again {busy : Nat} {signals : List Signal} {ms : List Notice} {t : Ticket} :
    Spell frame id config .holding busy signals ms →
    Spell frame id config .sent busy (signals ++ [.expired t]) (ms ++ [.sent frame])

section

variable {frame raw : Bytes} {id : TimerId} {config : Config} {stage : BusyStage} {busy : Nat}
  {signals : List Signal} {ms : List Notice}

theorem Spell.countP_answers (h : Spell frame id config stage busy signals ms) :
    signals.countP Signal.isAnswer = busy := by
  induction h with
  | sent => rfl
  | written _ ih => simp [ih, Signal.isAnswer]
  | busy _ _ ih => simp [ih, Signal.isAnswer]
  | again _ ih => simp [ih, Signal.isAnswer]

end

/-! ## The session -/

namespace Session

instance (s : Session) (signal : Signal) : Decidable (s.Awaits signal) := by
  cases signal <;> unfold Awaits <;> infer_instance

theorem marks_answerNotices (s : Session) (raw : Bytes) :
    marks (s.answerNotices raw) = [.received raw] := by
  have hprogress : marks (s.answering.handleAnswer raw).2.progressNotices = [] := by
    unfold progressNotices
    split <;> rfl
  have hmoves : marks (s.moveNotices .response ++ s.haltNotices) = [] := by
    unfold moveNotices haltNotices
    split <;> split <;> first | rfl | (split <;> rfl)
  have hstatus : marks (s.answering.statusNotices raw) = [] := by
    rcases s.answering.statusNotices_cases raw with hs | ⟨status, hs⟩ <;> rw [hs] <;> rfl
  rw [answerNotices, marks_append, marks_append, marks_cons, hprogress, hstatus, hmoves]
  rfl

theorem marks_endNotices (s : Session) : marks (s.moveNotices .init ++ s.releaseNotices) = [] := by
  have hmoves : marks (s.moveNotices .init) = [] := by
    unfold moveNotices
    split <;> rfl
  have htimer : marks s.timerReleaseNotices = [] := by
    unfold timerReleaseNotices
    split
    · rfl
    · split <;> rfl
  have hmode : marks (if s.restoreNormalMode then [.modeRequested .normal] else []) = [] := by
    split <;> rfl
  rw [marks_append, hmoves, releaseNotices, marks_append, marks_append, htimer, hmode]
  rfl

variable {s : Session} {command : Command} {raw : Bytes}

def meetingBusy (s : Session) : Session := { s.answering with lastStatus := some .memBusy }

theorem applyAnswer_resendCount (s : Session) (command : Command) (answer : Frame) :
    (s.applyAnswer command answer).2.resendCount = s.resendCount := by
  obtain ⟨_, _, _, _, he⟩ := s.applyAnswer_eq command answer
  rw [he]

/-- A session goes on to its next frame with no busy answer counted, and it sends the last one
again only if the memory was busy. -/
theorem handleAnswer_verdict (s : Session) (raw : Bytes) :
    ((s.handleAnswer raw).1 = .proceed → (s.handleAnswer raw).2.resendCount = 0) ∧
      ((s.handleAnswer raw).1 = .resend → statusOf raw = some .memBusy) := by
  unfold handleAnswer
  split
  · exact ⟨nofun, nofun⟩
  · split <;> exact ⟨nofun, nofun⟩
  · rename_i command _ _
    split
    · exact ⟨nofun, nofun⟩
    · rename_i answer hd
      split
      · rename_i hb
        exact ⟨nofun, fun _ => (statusOf_of_decode hd).trans (congrArg some hb.1)⟩
      · have ha := applyAnswer_resendCount { s with resendCount := 0 } command answer
        split <;> rename_i he <;> rw [he] at ha
        · exact ⟨nofun, nofun⟩
        · split
          · exact ⟨fun _ => ha, nofun⟩
          · exact ⟨nofun, nofun⟩

/-- A command of one frame is over with its answer, and fails if the memory was busy. -/
theorem handleAnswer_plain (hc : s.command = some command) (hs : command.shape = .plain)
    (hr : command ≠ .raw) (raw : Bytes) :
    (s.handleAnswer raw).1 ≠ .proceed ∧ (s.handleAnswer raw).1 ≠ .resend ∧
      (statusOf raw = some .memBusy →
        (s.handleAnswer raw).1 = .failed (.failed (.unexpectedStatus .memBusy)) ∧
          (s.handleAnswer raw).2.responseLength = s.responseLength) := by
  rw [statusOf]
  cases hd : Frame.decode raw with
  | error err =>
    rw [handleAnswer_framed hc hr, hd]
    simp
  | ok answer =>
    rw [handleAnswer_single hc hs hr hd]
    refine ⟨?_, ?_, fun hb => ?_⟩
    · split
      · split <;> exact Verdict.noConfusion
      · exact Verdict.noConfusion
    · split
      · split <;> exact Verdict.noConfusion
      · exact Verdict.noConfusion
    · rw [Option.some.inj hb]
      exact ⟨rfl, rfl⟩

theorem handleAnswer_resend_shape (hc : s.command = some command)
    (h : (s.handleAnswer raw).1 = .resend) : command.shape = .readWrite := by
  by_cases hr : command = .raw
  · subst hr
    rw [handleAnswer_raw hc] at h
    split at h <;> cases h
  · cases hs : command.shape with
    | readWrite => rfl
    | plain => exact absurd h (handleAnswer_plain hc hs hr raw).2.1

/-- The frame in flight was handed over last. Busy answers are counted anew for each fresh one. -/
structure Counts (s : Session) (ns : List Notice) : Prop where
  owes : s.phase = .timer → s.timer.purpose = .resendWait → owesResend ns = true
  handed : ∀ frame ns', ns = .sent frame :: ns' →
    s.phase = .recv ∧ s.frame.bytes = frame ∧ (owesResend ns' = false → s.resendCount = 0)

/-- The frame was sent once, and nothing was received yet. -/
structure AsksOnce (s : Session) (ns : List Notice) : Prop where
  wait : s.phase = .timer → s.timer.purpose = .response
  silent : s.responseLength = 0
  once : ∃ frame, sentFrames ns = [frame]
  unanswered : ∀ raw, .received raw ∉ ns

theorem AsksOnce.plain {ns ns' : List Notice} (h : s.AsksOnce ns) (hp : Plain ns') :
    (∃ frame, sentFrames (ns' ++ ns) = [frame]) ∧ ∀ raw, .received raw ∉ ns' ++ ns := by
  rw [sentFrames_append, hp.sentFrames_eq_nil, List.append_nil]
  refine ⟨h.once, fun raw hm => ?_⟩
  rcases List.mem_append.1 hm with hm | hm
  · cases hp _ hm
  · exact h.unanswered raw hm

end Session

namespace Engine

variable {W : Type} [Host W] {e e₀ e' : Engine W} {command : Command} {id : TimerId}
  {signal : Signal} {s : Session} {ns : List Notice}
  {outcome : Option (Except DownloadError Unit)}

/-! ## Signals that a session takes -/

/-- The signal that a session waited for and takes with the move. -/
def takes (e : Engine W) : Move W → List Signal
  | .handleNext =>
    match e.queue with
    | [] => []
    | signal :: _ => if e.session.Awaits signal then [signal] else []
  | _ => []

/-- The signals that sessions take along the moves, oldest first. -/
def taken (e : Engine W) : List (Move W) → List Signal
  | [] => []
  | m :: moves => e.takes m ++ (e.move m).taken moves

/-- A move of the link and the timers changes only the queue and the host, unless a session takes
a signal. -/
theorem Standing.serves_cases (h : e.Standing) {m : Move W} (hm : m.Serves) :
    (e.takes m = [] ∧ ∃ queue w, e.move m = { e with queue := queue, world := w }) ∨
    ∃ signal rest command id s ns outcome, e.takes m = [signal] ∧
      e.session.Waiting command id ∧ e.session.Awaits signal ∧
      (e.popped rest).Reacts (e.move m) command id signal s ns outcome ∧
      (e.popped rest).Turns s ns command outcome (e.move m) := by
  cases hm with
  | arrive signals => exact .inl ⟨rfl, _, e.world, rfl⟩
  | pass w => exact .inl ⟨rfl, e.queue, w, rfl⟩
  | handleNext =>
    cases hq : e.queue with
    | nil =>
      refine .inl ⟨by simp [takes, hq], e.queue, e.world, ?_⟩
      have hn : e.handleNext = none := by
        unfold Engine.handleNext
        rw [hq]
      rw [Engine.move, hn]
      rfl
    | cons signal rest =>
      rw [handleNext_popped hq]
      by_cases ha : e.session.Awaits signal
      · obtain ⟨command, id, hw⟩ := h.waiting_of_awaits ha
        obtain ⟨s, ns, outcome, hr, ht⟩ := handle_reacts (e := e.popped rest) hw ha
        exact .inr ⟨signal, rest, command, id, s, ns, outcome, by simp [takes, hq, ha], hw, ha,
          hr, ht⟩
      · exact .inl ⟨by simp [takes, hq, ha], rest, e.world,
          handle_ignored (e := e.popped rest) ha⟩

theorem Advances.config_eq {cs : List Command} (h : e.Advances cs e') : e'.config = e.config := by
  cases h with
  | keeps _ hp => exact hp.config
  | calls hc =>
    cases hc with
    | refused _ hp => exact hp.config
    | starts _ _ _ hp => exact hp.config
    | undone _ _ _ hp => exact hp.config
  | ignores => rfl
  | @reacts _ _ _ _ _ _ outcome _ _ _ _ _ ht =>
    cases outcome with
    | none => exact ht.config
    | some result => exact ht.config

theorem counts_sending {frame : Bytes} {t : Ticket} (hf : s.frame.bytes = frame)
    (hr : owesResend ns = false → s.resendCount = 0) :
    (s.sending t).Counts (.sent frame :: ns) := by
  refine ⟨(fun hp => nomatch hp), ?_⟩
  rintro frame' ns' he
  cases he
  exact ⟨rfl, hf, hr⟩

theorem Reacts.counts {ns' : List Notice} (ha : e.session.Awaits signal)
    (hc : e.session.Counts ns) (h : e.Reacts e' command id signal s ns' none) :
    s.Counts (ns' ++ ns) := by
  cases h with
  | listens => exact ⟨(fun _ hp => nomatch hp), fun _ _ he => nomatch he⟩
  | @proceeds r t raw s₁ _ hv hcomp =>
    refine counts_sending rfl fun _ => ?_
    obtain ⟨_, _, he⟩ := Session.composed hcomp
    rw [he]
    exact (Session.handleAnswer_verdict _ raw).1 hv
  | @holds r t raw hv =>
    refine ⟨fun _ _ => ?_, fun _ _ he => nomatch he⟩
    have hb := (Session.handleAnswer_verdict _ raw).2 hv
    have hx := (e.session.sameExchange_answerNotices raw ns).owesResend
    rw [owesResend, hb] at hx
    exact hx
  | resends hp =>
    refine counts_sending rfl fun ho => ?_
    cases ho.symm.trans (hc.owes ha.1 hp)

theorem Launches.counts {armed : Session} (hr : armed.resendCount = 0)
    (h : e.Launches e' armed s ns none) (ns₀ : List Notice) : s.Counts (ns ++ ns₀) := by
  cases h with
  | @sends id t s₁ _ hc =>
    refine counts_sending rfl fun _ => ?_
    obtain ⟨_, _, he⟩ := Session.composed hc
    rw [he]
    exact hr

/-- An accepted call starts a session of its command. -/
theorem call_launches {c : Call} (hs : e.Standing) (h : e.call c = (.ok (), e')) :
    ∃ s₀ s ns₀ ns request userData capacity id,
      e.Prepares c s₀ ns₀ request userData capacity ∧
      e.Launches e' (s₀.armed c.command request userData capacity) s ns none ∧
      e.Passes s (ns ++ .started c.command :: ns₀) e' ∧ s.Waiting c.command id := by
  have hc := hs.call_calls c
  rw [h] at hc
  cases hc with
  | @starts s₀ s ns₀ ns request userData capacity _ hi hpre hl hp =>
    have hf : s₀.resendLastFrame = false := hpre.fresh (by rw [hi]; rfl)
    have ht : s₀.tickets = (none, none, none) := by rw [hpre.tickets, hi]; rfl
    obtain ⟨id, hw⟩ := hl.waiting rfl rfl rfl hf ht
    exact ⟨s₀, s, ns₀, ns, request, userData, capacity, id, hpre, hl, hp, hw⟩

end Engine

end FirmwareDownload
