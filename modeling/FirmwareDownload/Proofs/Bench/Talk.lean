import Mathlib.Data.List.Induction
import FirmwareDownload.Proofs.Bench.Progress
import FirmwareDownload.Proofs.Controller.Serving
import FirmwareDownload.Proofs.Engine.Lateness

/-! An engine and its controller as one protocol of four states: no frame is out, the answer to a
frame waits at the controller, it waits in the queue, or the memory was busy. Whatever happens on a
bench whose controller stays in download mode is a step of the protocol. -/

namespace FirmwareDownload

/-- What can happen to an engine on a bench with a controller on which no call fails. -/
inductive BenchMove
  | call (c : Call)
  | setMode (mode : DeviceMode)
  | loadPrimary
  | handleNext
  /-- A timer goes off with the ticket of an arming, as often as that may be and however late. -/
  | expire (ticket : Ticket)
  | control (control : ControllerControl)

namespace BenchMove

def on (e : Engine (Bench Controller)) : BenchMove → Move (Bench Controller)
  | call c => .call c
  | setMode mode => .setMode mode
  | loadPrimary => .loadPrimary
  | handleNext => .handleNext
  | expire ticket => .arrive (if ticket ≤ e.lastTicket then [.expired ticket] else [])
  | control k => .pass { e.world with link := k.apply e.world.link }

/-- The controller stays in download mode and is not silenced. -/
def stays : BenchMove → Bool
  | call .readPlatform => false
  | setMode .normal => false
  | control (.silent true) => false
  | _ => true

end BenchMove

/-- How an engine and its controller stand with each other. In each state the controller is the one
that is left when the answer on its way was fetched. -/
inductive Talk
  | idle (c : Controller)
  /-- The frame was taken, and its answer waits at the controller. -/
  | out (s : Session) (raw : Bytes) (c : Controller)
  /-- The answer waits in the queue. -/
  | due (s : Session) (raw : Bytes) (c : Controller)
  /-- The memory was busy, and the frame is sent again when the wait is over. -/
  | held (s : Session) (c : Controller)

namespace Talk

def controller : Talk → Controller
  | idle c | out _ _ c | due _ _ c | held _ c => c

def mapController (f : Controller → Controller) : Talk → Talk
  | idle c => idle (f c)
  | out s raw c => out s raw (f c)
  | due s raw c => due s raw (f c)
  | held s c => held s (f c)

/-- How the talk goes on by a signal, with what is told and delivered. -/
inductive Goes (limit : Option UInt32) : Talk → List Notice → List Completion → Talk → Prop
  | hears {s : Session} {raw : Bytes} {c : Controller} {t r : Ticket} :
    Goes limit (out s raw c) [] [] (due (s.frameOut.listening t r) raw c)
  | ends {s s' : Session} {raw : Bytes} {c : Controller} {command : Command}
      {result : Except DownloadError Unit} :
    s.command = some command → s.next limit raw = .ends s' result →
    Goes limit (due s raw c) [.received raw, .finished command (errorOf result)]
      [⟨command, result, s'.response.take s'.responseLength⟩] (idle c)
  | sends {s s' : Session} {raw raw' : Bytes} {c c' : Controller} {t : Ticket} :
    s.next limit raw = .sends s' → c.Answers s'.frame.bytes raw' c' →
    Goes limit (due s raw c) [.received raw, .sent s'.frame.bytes] [] (out (s'.sending t) raw' c')
  | holds {s s' : Session} {raw : Bytes} {c : Controller} {t : Ticket} :
    s.next limit raw = .holds s' →
    Goes limit (due s raw c) [.received raw] [] (held (s'.holding t) c)
  | resends {s : Session} {raw : Bytes} {c c' : Controller} {t : Ticket} :
    c.Answers s.frame.bytes raw c' →
    Goes limit (held s c) [.sent s.frame.bytes] [] (out (s.lapsed.sending t) raw c')

/-- All that a move can make of the talk. -/
inductive Step (limit : Option UInt32) :
    BenchMove → Talk → List Notice → List Completion → Talk → Prop
  | rests {m : BenchMove} {T : Talk} : (∀ k, m ≠ .control k) → Step limit m T [] [] T
  | controls {k : ControllerControl} {T : Talk} :
    Step limit (.control k) T [] [] (T.mapController k.apply)
  | switches {c : Controller} :
    Step limit (.setMode .download) (idle c) [] [] (idle (Link.setMode c .download))
  | starts {call : Call} {c c' : Controller} {s : Session} {n : Nat} {raw : Bytes} {t : Ticket} :
    s.command = some call.command → s.Loaded n → c.Answers s.frame.bytes raw c' →
    Step limit (.call call) (idle c) [.started call.command, .sent s.frame.bytes] []
      (out (s.sending t) raw c')
  | undone {call : Call} {c : Controller} {err : DownloadError} :
    Step limit (.call call) (idle c) [.started call.command, .finished call.command (some err)] []
      (idle c)
  | goes {T T' : Talk} {heard : List Notice} {done : List Completion} :
    Goes limit T heard done T' → Step limit .handleNext T heard done T'

end Talk

namespace Engine

variable {e e' : Engine (Bench Controller)} {T : Talk} {s : Session} {c : Controller}
  {signal x : Signal} {rest : List Signal} {raw : Bytes} {m : BenchMove}

def play (e : Engine (Bench Controller)) (m : BenchMove) : Engine (Bench Controller) :=
  e.move (m.on e)

def plays (e : Engine (Bench Controller)) (moves : List BenchMove) : Engine (Bench Controller) :=
  moves.foldl play e

/-- The signal is queued, and none before it is waited for. -/
def Queued (e : Engine (Bench Controller)) (signal : Signal) : Prop :=
  ∃ pre post, e.queue = pre ++ signal :: post ∧ ∀ x ∈ pre, ¬ e.session.Awaits x

/-- A session that holds no mode back runs on a calm bench with this controller. -/
structure Engaged (e : Engine (Bench Controller)) (s : Session) (c : Controller) : Prop where
  session : e.session = s
  mode : s.restoreNormalMode = false
  timer : ∀ id, s.timer.id = some id → e.world.HasTimer id
  calm : e.world.Calm c

def Shows (e : Engine (Bench Controller)) : Talk → Prop
  | .idle c => e.session.Idle ∧ e.world.Calm c
  | .out s raw c => e.Engaged s (c.carrying raw) ∧
    ∃ t, s.Awaits (.written t (.ok ())) ∧ e.Queued (.written t (.ok ()))
  | .due s raw c => e.Engaged s c ∧
    ∃ r, s.Awaits (.received r (.ok raw)) ∧ e.Queued (.received r (.ok raw))
  | .held s c => e.Engaged s c ∧ s.phase = .timer ∧ s.timer.purpose = .resendWait

/-- The engine is in step with its controller: the signal that its session waits for is on its way,
or the memory was busy, and no signal is queued whose request is still to be made. -/
structure InStep (e : Engine (Bench Controller)) (T : Talk) : Prop where
  sound : e.Standing ∧ e.Asked
  drawn : ∀ x ∈ e.queue, x.ticket ≤ e.lastTicket
  serving : T.controller.Serving
  shows : e.Shows T

/-- The engine is in step again behind one of these steps, and told and delivered what belongs
to it. -/
def Talks (e e' : Engine (Bench Controller))
    (Step : List Notice → List Completion → Talk → Prop) : Prop :=
  ∃ heard done T, Step heard done T ∧ e'.InStep T ∧
    traffic e'.notices = traffic e.notices ++ heard ∧ e'.delivered = done ++ e.delivered ∧
    e'.config = e.config

/-! ## What waits in the queue -/

theorem Queued.pop (h : e.Queued signal) (hq : e.queue = x :: rest) :
    x = signal ∨ ¬ e.session.Awaits x ∧ (e.popped rest).Queued signal := by
  obtain ⟨pre, post, he, hpre⟩ := h
  cases pre with
  | nil => exact .inl (List.cons.inj (hq.symm.trans he)).1
  | cons y pre =>
    obtain ⟨rfl, rfl⟩ := List.cons.inj (hq.symm.trans he)
    exact .inr ⟨hpre x List.mem_cons_self,
      pre, post, rfl, fun y hy => hpre y (List.mem_cons_of_mem x hy)⟩

theorem Queued.post (h : e.Queued signal) (signals : List Signal) :
    (e.post signals).Queued signal := by
  obtain ⟨pre, post, he, hpre⟩ := h
  exact ⟨pre, post ++ signals, by rw [Engine.post, he]; simp, hpre⟩

theorem Engaged.congr (h : e.Engaged s c) (hs : e'.session = e.session)
    (hw : e'.world = e.world) : e'.Engaged s c :=
  ⟨hs.trans h.session, h.mode, fun id hid => hw ▸ h.timer id hid, hw ▸ h.calm⟩

theorem Shows.congr (h : e.Shows T) (hs : e'.session = e.session) (hq : e'.queue = e.queue)
    (hw : e'.world = e.world) : e'.Shows T := by
  have hqd : ∀ {signal}, e.Queued signal → e'.Queued signal := by
    intro signal h
    rw [Queued, hq, hs]
    exact h
  cases T with
  | idle c => exact ⟨hs ▸ h.1, hw ▸ h.2⟩
  | out s raw c => exact ⟨h.1.congr hs hw, h.2.imp fun t ht => ⟨ht.1, hqd ht.2⟩⟩
  | due s raw c => exact ⟨h.1.congr hs hw, h.2.imp fun r hr => ⟨hr.1, hqd hr.2⟩⟩
  | held s c => exact ⟨h.1.congr hs hw, h.2⟩

/-- A signal that the session does not wait for is passed over. -/
theorem Shows.pop (h : e.Shows T) (hq : e.queue = x :: rest) (hx : ¬ e.session.Awaits x) :
    (e.popped rest).Shows T := by
  have hne : ∀ {signal}, e.session.Awaits signal → e.Queued signal →
      (e.popped rest).Queued signal := by
    intro signal ha hs
    rcases hs.pop hq with rfl | hs
    · exact absurd ha hx
    · exact hs.2
  cases T with
  | idle c => exact h
  | out s raw c =>
    obtain ⟨he, t, ha, hs⟩ := h
    exact ⟨he.congr rfl rfl, t, ha, hne (he.session ▸ ha) hs⟩
  | due s raw c =>
    obtain ⟨he, r, ha, hs⟩ := h
    exact ⟨he.congr rfl rfl, r, ha, hne (he.session ▸ ha) hs⟩
  | held s c => exact ⟨h.1.congr rfl rfl, h.2⟩

theorem Shows.post (h : e.Shows T) (signals : List Signal) : (e.post signals).Shows T := by
  cases T with
  | idle c => exact h
  | out s raw c => exact ⟨h.1.congr rfl rfl, h.2.imp fun t ht => ⟨ht.1, ht.2.post signals⟩⟩
  | due s raw c => exact ⟨h.1.congr rfl rfl, h.2.imp fun r hr => ⟨hr.1, hr.2.post signals⟩⟩
  | held s c => exact ⟨h.1.congr rfl rfl, h.2⟩

theorem Shows.control (h : e.Shows T) (k : ControllerControl) :
    (e.withWorld { e.world with link := k.apply e.world.link }).Shows
      (T.mapController k.apply) := by
  have hc : ∀ {d}, e.world.Calm d →
      Bench.Calm { e.world with link := k.apply e.world.link } (k.apply d) := by
    intro d hd
    rw [hd.link]
    exact hd.withLink _
  have he : ∀ {s d}, e.Engaged s d →
      (e.withWorld { e.world with link := k.apply e.world.link }).Engaged s (k.apply d) :=
    fun he => ⟨he.session, he.mode, he.timer, hc he.calm⟩
  cases T with
  | idle c => exact ⟨h.1, hc h.2⟩
  | out s raw c =>
    refine ⟨?_, h.2⟩
    rw [← Controller.apply_carrying]
    exact he h.1
  | due s raw c => exact ⟨he h.1, h.2⟩
  | held s c => exact ⟨he h.1, h.2⟩

/-! ## Steps -/

theorem InStep.sound_move (h : e.InStep T) (m : Move (Bench Controller)) :
    (e.move m).Standing ∧ (e.move m).Asked := by
  have ha := h.sound.1.move_advances m
  exact ⟨ha.standing h.sound.1, h.sound.2.renews ha.renews.1 ha.renews.2⟩

theorem InStep.waiting (h : e.InStep T)
    (hp : e.session.phase = .recv ∨ e.session.phase = .timer) :
    ∃ command id, e.session.Waiting command id := by
  rcases h.sound.1 with hi | hw
  · rw [hi] at hp
    rcases hp with hp | hp <;> cases hp
  · exact hw

theorem InStep.link (h : e.InStep T) :
    e.world.link = T.controller ∨ ∃ raw, e.world.link = T.controller.carrying raw := by
  cases T with
  | idle c => exact .inl h.shows.2.link
  | out s raw c => exact .inr ⟨raw, h.shows.1.calm.link⟩
  | due s raw c => exact .inl h.shows.1.calm.link
  | held s c => exact .inl h.shows.1.calm.link

theorem InStep.idle_of (h : e.InStep T) (hi : e.session.Idle) : ∃ c, T = .idle c := by
  have hp : e.session.phase = .init := by rw [hi]; rfl
  have hn : ∀ {s d signal}, e.Engaged s d → s.Awaits signal → False := by
    intro s d signal he ha
    obtain rfl := he.session
    rcases ha.phase with hp' | hp' <;> cases hp.symm.trans hp'
  cases T with
  | idle c => exact ⟨c, rfl⟩
  | out s raw c => exact (h.shows.2.elim fun t ht => hn h.shows.1 ht.1).elim
  | due s raw c => exact (h.shows.2.elim fun r hr => hn h.shows.1 hr.1).elim
  | held s c =>
    have hs := h.shows.1.session
    rw [hs] at hp
    cases hp.symm.trans h.shows.2.1

theorem InStep.rests (h : e.InStep T) (hm : ∀ k, m ≠ .control k) (hs : e'.Standing ∧ e'.Asked)
    (hd : ∀ x ∈ e'.queue, x.ticket ≤ e'.lastTicket) (hsh : e'.Shows T)
    (ht : traffic e'.notices = traffic e.notices) (hc : e'.delivered = e.delivered)
    (hcfg : e'.config = e.config) : e.Talks e' (T.Step e.config.resendLimit m) :=
  ⟨[], [], T, .rests hm, ⟨hs, hd, h.serving, hsh⟩, by rw [ht, List.append_nil], hc, hcfg⟩

theorem Attains.engaged {heard : List Notice} {signals : List Signal}
    (h : e.Attains s heard signals c e') (hm : s.restoreNormalMode = false) : e'.Engaged s c :=
  ⟨h.session, hm, h.timer, h.calm⟩

theorem Attains.drawn {heard : List Notice} {signals : List Signal}
    (h : e.Attains s heard signals c e') (hd : ∀ x ∈ e.queue, x.ticket ≤ e.lastTicket)
    (hs : ∀ x ∈ signals, x.ticket ≤ e'.lastTicket) : ∀ x ∈ e'.queue, x.ticket ≤ e'.lastTicket := by
  intro x hx
  rw [h.queue_eq] at hx
  rcases List.mem_append.1 hx with hx | hx
  · exact Nat.le_trans (hd x hx) h.lastTicket
  · exact hs x hx

/-- The signal that the link brings is the first one that the session waits for if each of its
requests was made just now. -/
theorem Attains.queued {heard : List Notice} (h : e.Attains s heard [signal] c e')
    (hd : ∀ x ∈ e.queue, x.ticket ≤ e.lastTicket)
    (hf : ∀ x, s.Awaits x → e.lastTicket < x.ticket) : e'.Queued signal := by
  refine ⟨e.queue, [], h.queue_eq, fun x hx hx' => ?_⟩
  rw [h.session] at hx'
  exact absurd (hd x hx) (Nat.not_le.2 (hf x hx'))

/-- A frame was handed over at a serving controller, and the engine is in step again. -/
theorem Attains.inStep_out {heard : List Notice} {t : Ticket} {frame : Bytes} {c₀ : Controller}
    (h : e.Attains (s.sending t) heard [.written t (.ok ())] (c.carrying raw) e')
    (hs : e'.Standing ∧ e'.Asked) (hd : ∀ x ∈ e.queue, x.ticket ≤ e.lastTicket) (ht : e.Draws e' t)
    (hm : s.restoreNormalMode = false) (ha : c₀.Answers frame raw c) :
    e'.InStep (.out (s.sending t) raw c) := by
  refine ⟨hs, h.drawn hd ?_, ha.serving, h.engaged hm, t, ⟨rfl, rfl⟩, h.queued hd fun x hx => ?_⟩
  · rintro _ hx
    obtain rfl := List.mem_singleton.1 hx
    exact ht.2
  · cases x with
    | written =>
      cases hx.ticketFor
      exact ht.1
    | received => cases hx.1
    | expired => cases hx.1

theorem InStep.hears (h : e.InStep (.out s raw c)) (hq : e.queue = x :: rest)
    (hx : e.session.Awaits x) :
    e.Talks (e.move .handleNext) (Talk.Goes e.config.resendLimit (.out s raw c)) := by
  have hst := h.sound_move .handleNext
  obtain ⟨command, id, hw⟩ := h.waiting hx.phase
  obtain ⟨he, t, -, hs⟩ := h.shows
  obtain rfl := he.session
  rcases hs.pop hq with rfl | hs
  · have hdr : ∀ y ∈ rest, y.ticket ≤ e.lastTicket := fun y hy =>
      h.drawn y (hq ▸ List.mem_cons_of_mem _ hy)
    obtain ⟨t', r, hr, ht, hr', hat⟩ := written_calm (e := e.popped rest) hw hx he.calm
      (he.timer id hw.timer) (h.serving.read raw)
    rw [handleNext_popped hq] at hst ⊢
    refine ⟨[], [], _, .hears, ⟨hst, hat.drawn hdr ?_, h.serving, hat.engaged he.mode, r,
      ⟨rfl, rfl⟩, hat.queued hdr fun y hy => ?_⟩, hat.traffic, hat.delivered, hat.config⟩
    · rintro _ hy
      obtain rfl := List.mem_singleton.1 hy
      exact hr'
    · cases y with
      | written => cases hy.1
      | received =>
        cases hy.ticketFor
        exact hr
      | expired =>
        cases hy.ticketFor
        exact ht
  · exact absurd hx hs.1

theorem InStep.answered (h : e.InStep (.due s raw c)) (hq : e.queue = x :: rest)
    (hx : e.session.Awaits x) :
    e.Talks (e.move .handleNext) (Talk.Goes e.config.resendLimit (.due s raw c)) := by
  have hst := h.sound_move .handleNext
  obtain ⟨command, id, hw⟩ := h.waiting hx.phase
  obtain ⟨he, r, -, hs⟩ := h.shows
  obtain rfl := he.session
  rcases hs.pop hq with rfl | hs
  · have hdr : ∀ y ∈ rest, y.ticket ≤ e.lastTicket := fun y hy =>
      h.drawn y (hq ▸ List.mem_cons_of_mem _ hy)
    have hre : (e.popped rest).Reaches e.session rest c (e.popped rest) :=
      reaches_refl he.calm he.timer
    rw [handleNext_popped hq] at hst ⊢
    cases hn : e.session.next e.config.resendLimit raw with
    | ends s' result =>
      have hl := received_ends (e := e.popped rest) hw hx he.mode hre hn
      have hab : Link.abortRead c = c := h.serving.abortRead
      rw [hab] at hl
      refine ⟨_, _, .idle c, .ends hw.command hn, ⟨hst, ?_, h.serving, hl.idle, hl.calm⟩,
        hl.traffic, hl.delivered, hl.config⟩
      rw [hl.queue_eq]
      exact fun y hy => Nat.le_trans (hdr y hy) hl.lastTicket
    | sends s' =>
      obtain ⟨raw', -, c', ha, -⟩ := h.serving.answers s'.frame.bytes
      obtain ⟨t, ht, hat⟩ := received_sends (e := e.popped rest) hw hx hre hn ha.write
      have hm := (Session.next_kept (.inl hn)).2.2.trans he.mode
      exact ⟨_, _, _, .sends hn ha, hat.inStep_out hst hdr ht hm ha, hat.traffic,
        hat.delivered, hat.config⟩
    | holds s' =>
      obtain ⟨t, ht, hat⟩ := received_holds (e := e.popped rest) hw hx hre hn
      have hm := (Session.next_kept (.inr hn)).2.2.trans he.mode
      exact ⟨_, _, .held (s'.holding t) c, .holds hn, ⟨hst, hat.drawn hdr nofun, h.serving,
        hat.engaged hm, rfl, rfl⟩, hat.traffic, hat.delivered, hat.config⟩
  · exact absurd hx hs.1

theorem InStep.lapses (h : e.InStep (.held s c)) (hq : e.queue = x :: rest)
    (hx : e.session.Awaits x) :
    e.Talks (e.move .handleNext) (Talk.Goes e.config.resendLimit (.held s c)) := by
  have hst := h.sound_move .handleNext
  obtain ⟨command, id, hw⟩ := h.waiting hx.phase
  obtain ⟨he, hp, hpu⟩ := h.shows
  obtain rfl := he.session
  obtain ⟨w, rfl⟩ : ∃ w, x = .expired w := by
    cases x with
    | written => cases hp.symm.trans hx.1
    | received r =>
      have hr := (hw.onTimer hp).read.1 (by rw [hx.2]; rfl)
      cases hr.symm.trans hpu
    | expired w => exact ⟨w, rfl⟩
  have hdr : ∀ y ∈ rest, y.ticket ≤ e.lastTicket := fun y hy =>
    h.drawn y (hq ▸ List.mem_cons_of_mem _ hy)
  have hre : (e.popped rest).Reaches e.session rest c (e.popped rest) :=
    reaches_refl he.calm he.timer
  obtain ⟨raw', -, c', ha, -⟩ := h.serving.answers e.session.frame.bytes
  obtain ⟨t, ht, hat⟩ := expired_calm (e := e.popped rest) hw hx hpu hre ha.write
  rw [handleNext_popped hq] at hst ⊢
  exact ⟨_, _, _, .resends ha, hat.inStep_out hst hdr ht he.mode ha, hat.traffic,
    hat.delivered, hat.config⟩

theorem InStep.awaited (h : e.InStep T) (hq : e.queue = x :: rest) (hx : e.session.Awaits x) :
    e.Talks (e.move .handleNext) (T.Goes e.config.resendLimit) := by
  cases T with
  | idle c =>
    have hp : e.session.phase = .init := by rw [h.shows.1]; rfl
    rcases hx.phase with hp' | hp' <;> cases hp.symm.trans hp'
  | out s raw c => exact h.hears hq hx
  | due s raw c => exact h.answered hq hx
  | held s c => exact h.lapses hq hx

theorem InStep.ignored (h : e.InStep T) (hq : e.queue = x :: rest) (hx : ¬ e.session.Awaits x) :
    e.move .handleNext = e.popped rest ∧ (e.popped rest).InStep T := by
  have hst := h.sound_move .handleNext
  have hm : e.move .handleNext = e.popped rest :=
    (handleNext_popped hq).trans (handle_ignored (e := e.popped rest) hx)
  rw [hm] at hst
  exact ⟨hm, hst, fun y hy => h.drawn y (hq ▸ List.mem_cons_of_mem x hy), h.serving,
    h.shows.pop hq hx⟩

theorem InStep.handleNext (h : e.InStep T) :
    e.Talks (e.move .handleNext) (T.Step e.config.resendLimit .handleNext) := by
  cases hq : e.queue with
  | nil =>
    have hm : e.move .handleNext = e := by
      unfold Engine.move Engine.handleNext
      rw [hq]
      rfl
    rw [hm]
    exact h.rests nofun h.sound h.drawn h.shows rfl rfl rfl
  | cons x rest =>
    by_cases hx : e.session.Awaits x
    · obtain ⟨heard, done, T', hg, h'⟩ := h.awaited hq hx
      exact ⟨heard, done, T', .goes hg, h'⟩
    · obtain ⟨hm, h'⟩ := h.ignored hq hx
      rw [hm]
      exact h.rests nofun h'.sound h'.drawn h'.shows rfl rfl rfl

/-- A call that starts its command on the idle engine sends its first frame, or undoes it all. -/
theorem InStep.starts (h : e.InStep (.idle c)) {call : Call} {p : Option Image} {request : Request}
    {userData : Option Bytes} {capacity : Nat} (hs : s.Blank)
    (he : e.call call = (e.equipped s p).start call.command request userData capacity) : ∃ id,
      (∀ s', (s.setOut call.command request userData capacity id).compose = (.ok (), s') →
        ∃ t raw c' e', e.call call = (.ok (), e') ∧ c.Answers s'.frame.bytes raw c' ∧
          s'.command = some call.command ∧ e'.InStep (.out (s'.sending t) raw c') ∧
          traffic e'.notices = traffic e.notices ++ [.started call.command, .sent s'.frame.bytes] ∧
          e'.delivered = e.delivered ∧ e'.config = e.config) ∧
      ∀ err s', (s.setOut call.command request userData capacity id).compose = (.error err, s') →
        ∃ e', e.call call = (.error err, e') ∧ e'.InStep (.idle c) ∧
          traffic e'.notices = traffic e.notices ++
            [.started call.command, .finished call.command (some err)] ∧
          e'.delivered = e.delivered ∧ e'.config = e.config := by
  have hst := h.sound_move (.call call)
  change (e.call call).2.Standing ∧ (e.call call).2.Asked at hst
  rw [he] at hst ⊢
  obtain ⟨id, hok, herr⟩ := start_calm (e := e.equipped s p) call.command request userData
    capacity hs h.shows.2
  refine ⟨id, fun s' hcomp => ?_, fun err s' hcomp => ?_⟩
  · obtain ⟨_, _, hs'⟩ := Session.composed hcomp
    obtain ⟨raw, -, c', ha, -⟩ := h.serving.answers s'.frame.bytes
    obtain ⟨t, e', hstart, ht, hat⟩ := hok s' hcomp _ ha.write
    rw [hstart] at hst
    have hcmd : s'.command = some call.command := by rw [hs']; rfl
    have hm : s'.restoreNormalMode = false := (compose_kept hcomp).2.2.trans hs.mode
    exact ⟨t, raw, c', e', hstart, ha, hcmd, hat.inStep_out hst h.drawn ht hm ha, hat.traffic,
      hat.delivered, hat.config⟩
  · obtain ⟨e', hstart, hl⟩ := herr err s' hcomp
    rw [hstart] at hst
    rw [show Link.abortRead c = c from h.serving.abortRead] at hl
    refine ⟨e', hstart, ⟨hst, ?_, h.serving, hl.idle, hl.calm⟩, hl.traffic, hl.delivered, hl.config⟩
    rw [hl.queue_eq]
    exact fun y hy => Nat.le_trans (h.drawn y hy) hl.lastTicket

theorem InStep.call (h : e.InStep T) {call : Call} (hc : call ≠ .readPlatform) :
    e.Talks (e.call call).2 (T.Step e.config.resendLimit (.call call)) := by
  cases hb : e.session.busy with
  | true =>
    rw [call_busy hb]
    exact h.rests nofun h.sound h.drawn h.shows rfl rfl rfl
  | false =>
    obtain ⟨c, rfl⟩ := h.idle_of (h.sound.1.idle_of_not_busy hb)
    have hi := h.shows.1
    rcases call_commences hb hc with ⟨err, he⟩ | ⟨s, p, request, userData, capacity, heq, he⟩
    · rw [he]
      exact h.rests nofun h.sound h.drawn h.shows rfl rfl rfl
    · obtain ⟨id, hok, herr⟩ := h.starts (heq.blank hi) he
      rcases hcomp : (s.setOut call.command request userData capacity id).compose with
        ⟨err | _, s'⟩
      · obtain ⟨e', hcall, h', ht, hd, hcfg⟩ := herr err s' hcomp
        rw [hcall]
        exact ⟨_, _, _, .undone, h', ht, hd, hcfg⟩
      · obtain ⟨n, hn⟩ := heq.loaded hi hcomp
        obtain ⟨t, raw, c', e', hcall, ha, hcmd, h', ht, hd, hcfg⟩ := hok s' hcomp
        rw [hcall]
        exact ⟨_, _, _, .starts hcmd hn ha, h', ht, hd, hcfg⟩

theorem InStep.setMode (h : e.InStep T) :
    e.Talks (e.setMode .download).2 (T.Step e.config.resendLimit (.setMode .download)) := by
  have hst := h.sound_move (.setMode .download)
  change (e.setMode .download).2.Standing ∧ (e.setMode .download).2.Asked at hst
  unfold Engine.setMode at hst ⊢
  cases hb : e.session.busy with
  | true =>
    rw [if_pos rfl]
    exact h.rests nofun h.sound h.drawn h.shows rfl rfl rfl
  | false =>
    obtain ⟨c, rfl⟩ := h.idle_of (h.sound.1.idle_of_not_busy hb)
    obtain ⟨b, he, hc, -⟩ := h.shows.2.setMode .download
    have hs : e.setHostMode .download =
        (.ok (), (e.note (.modeRequested .download)).withWorld b) := by
      unfold Engine.setHostMode
      rw [show Host.setMode e.world .download = (.ok (), b) from he]
    rw [hb, hs] at hst
    rw [if_neg Bool.false_ne_true, hs]
    refine ⟨[], [], _, .switches, ⟨hst, h.drawn, h.serving.setMode, h.shows.1, hc⟩, ?_, rfl, rfl⟩
    have hj : ((e.note (.modeRequested .download)).withWorld b).journal =
        [.modeRequested .download] ++ e.journal := rfl
    exact traffic_notices hj

/-- Whatever happens is a step of the talk. -/
theorem InStep.play (h : e.InStep T) (hm : m.stays = true) :
    e.Talks (e.play m) (T.Step e.config.resendLimit m) := by
  have hst := h.sound_move (m.on e)
  cases m with
  | call call =>
    refine h.call ?_
    rintro rfl
    cases hm
  | setMode mode =>
    cases mode with
    | normal => cases hm
    | download => exact h.setMode
  | loadPrimary =>
    have hp : e.play .loadPrimary = e.equipped e.session (e.play .loadPrimary).primary := by
      unfold Engine.play BenchMove.on Engine.move Engine.loadPrimary
      dsimp only
      split <;> rfl
    change (e.play .loadPrimary).Standing ∧ (e.play .loadPrimary).Asked at hst
    rw [hp] at hst ⊢
    exact h.rests nofun hst h.drawn (h.shows.congr rfl rfl rfl) rfl rfl rfl
  | handleNext => exact h.handleNext
  | expire ticket =>
    refine h.rests nofun hst ?_ (h.shows.post _) rfl rfl rfl
    intro x hx
    rcases List.mem_append.1 hx with hx | hx
    · exact h.drawn x hx
    · by_cases hl : ticket ≤ e.lastTicket
      · rw [if_pos hl] at hx
        obtain rfl := List.mem_singleton.1 hx
        exact hl
      · rw [if_neg hl] at hx
        cases hx
  | control k =>
    have hk : k ≠ .silent true := by
      rintro rfl
      cases hm
    refine ⟨[], [], _, .controls, ⟨hst, h.drawn, ?_, h.shows.control k⟩, ?_, rfl, rfl⟩
    · cases T <;> exact h.serving.apply hk
    · exact (List.append_nil _).symm

/-- What each step of a run keeps holds at its end. -/
theorem InStep.plays (Inv : List BenchMove → List Notice → List Completion → Talk → Prop)
    {moves : List BenchMove} (h : e.InStep T) (hm : ∀ m ∈ moves, m.stays = true)
    (hi : Inv [] (traffic e.notices) e.delivered T)
    (hstep : ∀ ms m heard done T heard' done' T', ms ++ [m] <+: moves → T.controller.Serving →
      Inv ms heard done T → T.Step e.config.resendLimit m heard' done' T' →
        Inv (ms ++ [m]) (heard ++ heard') (done' ++ done) T') :
    ∃ T', (e.plays moves).InStep T' ∧
      Inv moves (traffic (e.plays moves).notices) (e.plays moves).delivered T' ∧
      (e.plays moves).config = e.config := by
  suffices hp : ∀ ms, ms <+: moves → ∃ T', (e.plays ms).InStep T' ∧
      Inv ms (traffic (e.plays ms).notices) (e.plays ms).delivered T' ∧
      (e.plays ms).config = e.config from hp moves List.prefix_rfl
  -- A run grows at its end, as what was heard and delivered does.
  intro ms
  induction ms using List.reverseRecOn with
  | nil => exact fun _ => ⟨T, h, hi, rfl⟩
  | append_singleton ms m ih =>
    intro hpre
    obtain ⟨T₁, h₁, hi₁, hc₁⟩ := ih ((List.prefix_append ms [m]).trans hpre)
    have hmem : m ∈ moves := hpre.subset (List.mem_append_right _ (List.mem_singleton_self m))
    obtain ⟨heard, done, T', hs, h', ht, hd, hc⟩ := h₁.play (hm m hmem)
    have hp : e.plays (ms ++ [m]) = (e.plays ms).play m := List.foldl_append
    rw [hp, ht, hd]
    exact ⟨T', h', hstep ms m _ _ _ _ _ _ hpre h₁.serving hi₁ (hc₁ ▸ hs), hc.trans hc₁⟩

theorem inStep_fresh {b : Bench Controller} (config : Config) (library : ImageLibrary)
    (hb : b.Calm c) (hc : c.Serving) : (fresh config library b).InStep (.idle c) :=
  ⟨⟨standing_fresh config library b, asked_fresh config library b⟩,
    fun _ hx => (List.not_mem_nil hx).elim, hc, rfl, hb⟩

end Engine

end FirmwareDownload
