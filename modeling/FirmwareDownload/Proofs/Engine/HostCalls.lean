import FirmwareDownload.Proofs.Engine.Backlog

/-! The calls that an engine makes on its host. Whatever the engine does, its host ends up where
these calls take it, and the record tells of them in their order. Those that carry a ticket carry
one number after the other. -/

namespace FirmwareDownload

inductive HostCall
  | createTimer
  | startTimer (id : TimerId) (milliseconds : Nat) (ticket : Ticket)
  | stopTimer (id : TimerId)
  | deleteTimer (id : TimerId)
  | write (frame : Bytes) (ticket : Ticket)
  | read (limit : Nat) (ticket : Ticket)
  | abortRead
  | setMode (mode : DeviceMode)
  | await (limit : Nat)

/-- The notice tells of a call on the host. -/
def Notice.ofHost : Notice → Bool
  | .sent _ => true
  | .timerCreated _ => true
  | .timerArmed _ _ => true
  | .timerStopped _ => true
  | .timerDeleted _ => true
  | .readRequested _ => true
  | .readAborted => true
  | .modeRequested _ => true
  | _ => false

namespace HostCall

variable {W : Type} [Host W]

/-- The host behind the call. -/
def run (w : W) : HostCall → W
  | createTimer => (Host.createTimer w).2
  | startTimer id milliseconds ticket => (Host.startTimer w id milliseconds ticket).world
  | stopTimer id => (Host.stopTimer w id).2
  | deleteTimer id => (Host.deleteTimer w id).2
  | write frame ticket => (Host.write w frame ticket).world
  | read limit ticket => (Host.read w limit ticket).world
  | abortRead => Host.abortRead w
  | setMode mode => (Host.setMode w mode).2
  | await limit => (Host.await w limit).2

/-- What is noted of the call. A timer that was not created or not armed is not noted. -/
def notices (w : W) : HostCall → List Notice
  | createTimer =>
    match (Host.createTimer w).1 with
    | .ok id => [.timerCreated id]
    | .error _ => []
  | startTimer id milliseconds ticket =>
    match (Host.startTimer w id milliseconds ticket).outcome with
    | .ok () => [.timerArmed id milliseconds]
    | .error _ => []
  | stopTimer id => [.timerStopped id]
  | deleteTimer id => [.timerDeleted id]
  | write frame _ => [.sent frame]
  | read limit _ => [.readRequested limit]
  | abortRead => [.readAborted]
  | setMode mode => [.modeRequested mode]
  | await _ => []

def ticket? : HostCall → Option Ticket
  | startTimer _ _ ticket => some ticket
  | write _ ticket => some ticket
  | read _ ticket => some ticket
  | _ => none

def runAll (w : W) (calls : List HostCall) : W := calls.foldl run w

/-- What is noted of the calls, newest first. -/
def record (w : W) : List HostCall → List Notice
  | [] => []
  | c :: calls => record (c.run w) calls ++ c.notices w

theorem runAll_append (w : W) (calls calls' : List HostCall) :
    runAll w (calls ++ calls') = runAll (runAll w calls) calls' :=
  List.foldl_append

theorem record_append (w : W) (calls calls' : List HostCall) :
    record w (calls ++ calls') = record (runAll w calls) calls' ++ record w calls := by
  induction calls generalizing w with
  | nil => simp [record, runAll]
  | cons c calls ih =>
    simp only [List.cons_append, record, ih, List.append_assoc]
    rfl

theorem filter_notices (w : W) (c : HostCall) :
    (c.notices w).filter Notice.ofHost = c.notices w := by
  cases c with
  | createTimer =>
    simp only [notices]
    split <;> simp [Notice.ofHost]
  | startTimer =>
    simp only [notices]
    split <;> simp [Notice.ofHost]
  | _ => simp [notices, Notice.ofHost]

end HostCall

namespace Engine

variable {W : Type} [Host W]

/-- From `e` to `e'` tickets were drawn for these calls, numbered on in their order. -/
def Numbers (e : Engine W) (calls : List HostCall) (e' : Engine W) : Prop :=
  ∃ n, e'.lastTicket = e.lastTicket + n ∧
    calls.filterMap HostCall.ticket? = List.range' (e.lastTicket + 1) n

/-- The way from `e` to `e'`, as the host sees it. -/
structure Performs (e : Engine W) (calls : List HostCall) (e' : Engine W) : Prop where
  world : e'.world = HostCall.runAll e.world calls
  noted : ∃ ns, e'.journal = ns ++ e.journal ∧
    ns.filter Notice.ofHost = HostCall.record e.world calls
  numbered : e.Numbers calls e'

def Acts (e e' : Engine W) : Prop := ∃ calls, e.Performs calls e'

variable {e e₁ e₂ : Engine W}

omit [Host W] in
theorem Numbers.trans {calls calls' : List HostCall} (h : e.Numbers calls e₁)
    (h' : e₁.Numbers calls' e₂) : e.Numbers (calls ++ calls') e₂ := by
  obtain ⟨n, hl, ht⟩ := h
  obtain ⟨n', hl', ht'⟩ := h'
  refine ⟨n + n', by rw [hl', hl, Nat.add_assoc], ?_⟩
  rw [List.filterMap_append, ht, ht', hl, Nat.add_right_comm, List.range'_append_1]

omit [Host W] in
theorem numbers_nothing (hl : e₁.lastTicket = e.lastTicket) : e.Numbers [] e₁ := ⟨0, hl, rfl⟩

omit [Host W] in
/-- A single call draws the next ticket, if it carries one. -/
theorem numbers_call {c : HostCall} (h : c.ticket? = none ∧ e₁.lastTicket = e.lastTicket ∨
    c.ticket? = some (e.lastTicket + 1) ∧ e₁.lastTicket = e.lastTicket + 1) :
    e.Numbers [c] e₁ := by
  rcases h with ⟨hc, hl⟩ | ⟨hc, hl⟩
  · exact ⟨0, hl, by simp [hc]⟩
  · exact ⟨1, hl, by simp [hc]⟩

theorem Performs.trans {calls calls' : List HostCall} (h : e.Performs calls e₁)
    (h' : e₁.Performs calls' e₂) : e.Performs (calls ++ calls') e₂ := by
  obtain ⟨ns, hj, hn⟩ := h.noted
  obtain ⟨ns', hj', hn'⟩ := h'.noted
  refine ⟨?_, ⟨ns' ++ ns, ?_, ?_⟩, h.numbered.trans h'.numbered⟩
  · rw [h'.world, h.world, HostCall.runAll_append]
  · rw [hj', hj, List.append_assoc]
  · rw [List.filter_append, hn, hn', h.world, HostCall.record_append]

theorem Acts.trans (h : e.Acts e₁) (h' : e₁.Acts e₂) : e.Acts e₂ := by
  obtain ⟨calls, h⟩ := h
  obtain ⟨calls', h'⟩ := h'
  exact ⟨calls ++ calls', h.trans h'⟩

theorem acts_of_eq (hw : e₁.world = e.world) (hj : e₁.journal = e.journal)
    (hl : e₁.lastTicket = e.lastTicket) : e.Acts e₁ :=
  ⟨[], hw, ⟨[], hj, rfl⟩, numbers_nothing hl⟩

theorem Acts.refl (e : Engine W) : e.Acts e := acts_of_eq rfl rfl rfl

theorem acts_withSession (e : Engine W) (s : Session) : e.Acts (e.withSession s) :=
  acts_of_eq rfl rfl rfl

theorem Acts.withSession (h : e.Acts e₁) (s : Session) : e.Acts (e₁.withSession s) :=
  h.trans (acts_withSession e₁ s)

theorem acts_of_call (c : HostCall) (hw : e₁.world = c.run e.world)
    (hj : e₁.journal = c.notices e.world ++ e.journal)
    (hl : c.ticket? = none ∧ e₁.lastTicket = e.lastTicket ∨
      c.ticket? = some (e.lastTicket + 1) ∧ e₁.lastTicket = e.lastTicket + 1) : e.Acts e₁ :=
  ⟨[c], hw, ⟨_, hj, by simp [HostCall.record, HostCall.filter_notices]⟩, numbers_call hl⟩

theorem acts_note (e : Engine W) {n : Notice} (hn : n.ofHost = false) : e.Acts (e.note n) :=
  ⟨[], rfl, ⟨[n], rfl, by simp [hn, HostCall.record]⟩, numbers_nothing rfl⟩

theorem Acts.note (h : e.Acts e₁) {n : Notice} (hn : n.ofHost = false) : e.Acts (e₁.note n) :=
  h.trans (acts_note e₁ hn)

theorem acts_enter (e : Engine W) (p : Phase) : e.Acts (e.enter p) := by
  unfold Engine.enter
  split
  · exact acts_withSession e _
  · exact (acts_withSession e _).note rfl

theorem Acts.enter (h : e.Acts e₁) (p : Phase) : e.Acts (e₁.enter p) := h.trans (acts_enter e₁ p)

/-! ## Single calls -/

variable (e)

theorem acts_setHostMode (mode : DeviceMode) : e.Acts (e.setHostMode mode).2 :=
  acts_of_call (.setMode mode) rfl rfl (.inl ⟨rfl, rfl⟩)

theorem acts_stopHostTimer (id : TimerId) : e.Acts (e.stopHostTimer id) :=
  acts_of_call (.stopTimer id) rfl rfl (.inl ⟨rfl, rfl⟩)

theorem acts_deleteHostTimer (id : TimerId) : e.Acts (e.deleteHostTimer id) :=
  acts_of_call (.deleteTimer id) rfl rfl (.inl ⟨rfl, rfl⟩)

theorem acts_abortRead : e.Acts e.abortRead :=
  acts_of_call .abortRead rfl rfl (.inl ⟨rfl, rfl⟩)

theorem acts_createTimer : e.Acts e.createTimer.2 := by
  unfold Engine.createTimer
  rcases h : Host.createTimer e.world with ⟨_ | id, w⟩ <;>
    exact acts_of_call .createTimer
      (by simp [HostCall.run, h, Engine.withSession, Engine.withWorld])
      (by simp [HostCall.notices, h, Engine.withSession, Engine.withWorld, Engine.note])
      (.inl ⟨rfl, rfl⟩)

theorem acts_setTimer (purpose : TimerPurpose) (milliseconds : Nat) :
    e.Acts (e.setTimer purpose milliseconds).2 := by
  unfold Engine.setTimer
  cases e.session.timer.id with
  | none => exact .refl e
  | some id =>
    dsimp only [Engine.drawTicket]
    rcases h : Host.startTimer e.world id milliseconds (e.lastTicket + 1) with
      ⟨_ | _, signals, w⟩ <;>
      exact acts_of_call (.startTimer id milliseconds (e.lastTicket + 1))
        (by simp [HostCall.run, h, Engine.withSession, Engine.withWorld, Engine.post, Engine.note])
        (by simp [HostCall.notices, h, Engine.withSession, Engine.withWorld, Engine.post,
          Engine.note])
        (.inr ⟨rfl, rfl⟩)

theorem acts_haltTimer : e.Acts e.haltTimer := by
  unfold Engine.haltTimer
  cases e.session.timer.id with
  | none => exact acts_withSession e _
  | some id =>
    by_cases hr : e.session.timer.running = true
    · simp only [hr, if_true]
      exact (acts_stopHostTimer e id).withSession _
    · simp only [hr, Bool.false_eq_true, if_false]
      exact acts_withSession e _

omit [Host W] in
/-- The ticket of a frame may as well be drawn after the phase is entered. -/
theorem handing_eq : e.handing = ((e.withSession { e.session with
    writeTicket := some (e.lastTicket + 1) }).enter .recv).drawTicket.2.note
      (.sent e.session.frame.bytes) := by
  by_cases h : e.session.phase = .recv
  · simp only [handing, Engine.enter, Engine.drawTicket, Engine.withSession, h, if_true]
  · simp only [handing, Engine.enter, Engine.drawTicket, Engine.withSession, h, if_false]
    rfl

theorem acts_writeFrame : e.Acts e.writeFrame.2 := by
  have h := (acts_withSession e { e.session with
    writeTicket := some (e.lastTicket + 1) }).enter .recv
  have hl := lastTicket_enter (e.withSession { e.session with
    writeTicket := some (e.lastTicket + 1) }) .recv
  obtain ⟨r, he, -⟩ := e.handing.settle_eq
    (Host.write e.handing.world e.session.frame.bytes (e.lastTicket + 1))
  rw [writeFrame_eq, he, handing_eq]
  exact h.trans (acts_of_call (.write e.session.frame.bytes (e.lastTicket + 1)) rfl rfl
    (.inr ⟨by rw [hl]; rfl, rfl⟩))

theorem acts_requestRead : e.Acts e.requestRead.2 := by
  obtain ⟨r, he, -⟩ := e.asking.settle_eq
    (Host.read e.world Frame.maxLength (e.lastTicket + 1))
  rw [requestRead_eq, he]
  exact acts_of_call (.read Frame.maxLength (e.lastTicket + 1)) rfl rfl (.inr ⟨rfl, rfl⟩)

/-! ## The end of a session -/

theorem acts_restoreMode : e.Acts e.restoreMode := by
  unfold Engine.restoreMode
  split
  · exact (acts_setHostMode e .normal).withSession _
  · exact .refl e

theorem acts_releaseTimer : e.Acts e.releaseTimer := by
  unfold Engine.releaseTimer
  cases e.session.timer.id with
  | none => exact acts_withSession e _
  | some id =>
    have h := acts_withSession e
      { e.session with timer := { e.session.timer with id := none } }
    refine Acts.withSession (Acts.trans ?_ (acts_deleteHostTimer _ id)) _
    dsimp only
    split
    · exact h.trans (acts_stopHostTimer _ id)
    · exact h

theorem acts_release : e.Acts e.release :=
  ((acts_abortRead e).trans (acts_restoreMode _)).trans (acts_releaseTimer _)

theorem acts_closing (completion : Completion) : e.Acts (e.closing completion) := by
  unfold Engine.closing
  have h : e.Acts ((e.withSession e.session.reset).note
      (.finished completion.command (errorOf completion.result))) :=
    (acts_withSession e _).note rfl
  split
  · exact h.trans (acts_of_eq rfl rfl rfl)
  · exact h

theorem acts_conclude (result : Except DownloadError Unit) : e.Acts (e.conclude result) := by
  cases hc : e.session.command with
  | none =>
    unfold Engine.conclude
    rw [hc]
    exact .refl e
  | some command =>
    rw [conclude_eq hc]
    exact (((acts_release e).withSession _).enter .init).trans (acts_closing _ _)

variable {e} in
theorem Acts.concludeOnError {r : Except DownloadError Unit × Engine W} (h : e.Acts r.2) :
    e.Acts (Engine.concludeOnError r) := by
  obtain ⟨err | _, e₁⟩ := r
  · exact h.trans (acts_conclude e₁ (.error err))
  · exact h

theorem acts_drop : e.Acts e.drop := by
  unfold Engine.drop
  split
  · exact acts_release e
  · exact .refl e

/-! ## Steps -/

theorem acts_sendNext : e.Acts e.sendNext.2 := by
  have h : ∀ s, e.Acts (e.withSession s).writeFrame.2 :=
    fun s => (acts_withSession e s).trans (acts_writeFrame (e.withSession s))
  unfold Engine.sendNext
  split
  · exact h _
  · split
    · exact acts_withSession e _
    · exact h _

theorem acts_onWritten (result : Except LinkError Unit) : e.Acts (e.onWritten result) := by
  unfold Engine.onWritten
  cases result with
  | error err => exact acts_conclude e _
  | ok =>
    have h := acts_setTimer e .response e.config.responseTimeout.toNat
    dsimp only
    generalize e.setTimer .response e.config.responseTimeout.toNat = armed at h ⊢
    obtain ⟨err | _, e₁⟩ := armed
    · exact h.trans (acts_conclude e₁ (.error err))
    · exact ((h.enter .timer).trans (acts_requestRead _)).concludeOnError

theorem acts_awaitMemory : e.Acts e.awaitMemory := by
  rw [awaitMemory_eq]
  split
  · exact (acts_withSession e _).trans (acts_conclude _ _)
  · have h := ((acts_withSession e e.session.countBusy).note
      (n := .resend (e.session.resendCount + 1)) rfl).trans
        (acts_setTimer _ .resendWait e.config.resendWait.toNat)
    generalize ((e.withSession e.session.countBusy).note
      (.resend (e.session.resendCount + 1))).setTimer .resendWait e.config.resendWait.toNat =
        armed at h ⊢
    obtain ⟨err | _, e₁⟩ := armed
    · exact h.trans (acts_conclude e₁ (.error err))
    · exact h.enter .timer

theorem acts_noteStatus (raw : Bytes) : e.Acts (e.noteStatus raw) := by
  unfold Engine.noteStatus
  split
  · exact .refl e
  · split
    · exact acts_note e rfl
    · exact .refl e

theorem acts_noteProgress : e.Acts e.noteProgress := by
  unfold Engine.noteProgress
  split
  · exact acts_note e rfl
  · exact acts_note e rfl
  · exact .refl e

theorem acts_follow (verdict : Verdict) : e.Acts (e.follow verdict) := by
  cases verdict with
  | done => exact acts_conclude e (.ok ())
  | failed err => exact acts_conclude e (.error err)
  | proceed => exact ((acts_enter e .send).trans (acts_sendNext _)).concludeOnError
  | resend => exact acts_awaitMemory e

theorem acts_onAnswer (raw : Bytes) : e.Acts (e.onAnswer raw) := by
  have h : e.Acts ((e.note (.received raw)).noteStatus raw) :=
    (acts_note e rfl).trans (acts_noteStatus _ raw)
  rw [onAnswer_eq]
  exact ((h.withSession _).trans (acts_noteProgress _)).trans (acts_follow _ _)

theorem acts_onReceived (result : Except LinkError Bytes) : e.Acts (e.onReceived result) := by
  have h := (acts_haltTimer e).enter .response
  unfold Engine.onReceived
  cases result with
  | error err => exact h.trans (acts_conclude _ _)
  | ok raw => exact h.trans (acts_onAnswer _ raw)

theorem acts_sendAgain : e.Acts e.sendAgain :=
  (((acts_enter e .send).withSession _).trans (acts_sendNext _)).concludeOnError

theorem acts_toggleController : e.Acts e.toggleController :=
  ((acts_note e rfl).trans (acts_setHostMode _ .normal)).trans (acts_setHostMode _ .download)

theorem acts_onSilence : e.Acts e.onSilence := by
  have h := (acts_withSession e { e.session with
    timer := { e.session.timer with timedOut := true } }).enter .response
  unfold Engine.onSilence
  dsimp only
  split
  · exact h
  · refine Acts.trans ?_ (acts_conclude _ _)
    split
    · exact (h.note rfl).trans (acts_toggleController _)
    · exact h.note rfl

theorem acts_onExpired : e.Acts e.onExpired := by
  rw [onExpired_eq]
  split
  · exact (acts_withSession e _).trans (acts_onSilence _)
  · exact (acts_withSession e _).trans (acts_sendAgain _)

/-! ## Signals -/

theorem acts_handle (signal : Signal) : e.Acts (e.handle signal) := by
  by_cases ha : e.session.Awaits signal
  · cases signal with
    | written ticket result =>
      rw [handle_written ha.1 ha.2]
      exact (acts_withSession e _).trans (acts_onWritten _ result)
    | received ticket result =>
      rw [handle_received ha.1 ha.2]
      exact (acts_withSession e _).trans (acts_onReceived _ result)
    | expired ticket =>
      rw [handle_expired ha.1 ha.2]
      exact acts_onExpired e
  · rw [handle_ignored ha]
    exact .refl e

theorem acts_handleNext : e.Acts (e.handleNext.getD e) := by
  unfold Engine.handleNext
  split
  · exact .refl e
  · rename_i signal rest hq
    have h : e.Acts (e.popped rest) := acts_of_eq rfl rfl rfl
    exact h.trans (acts_handle _ signal)

theorem acts_of_handleNext {e₁ : Engine W} (h : e.handleNext = some e₁) : e.Acts e₁ := by
  have ha := acts_handleNext e
  rw [h] at ha
  exact ha

theorem acts_handleQueued (budget : Nat) : e.Acts (e.handleQueued budget).2 := by
  induction budget generalizing e with
  | zero => exact .refl e
  | succ budget ih =>
    unfold Engine.handleQueued
    split
    · exact .refl e
    · rename_i e₁ hn
      exact (acts_of_handleNext e hn).trans (ih e₁)

theorem acts_runToIdle (budget limit : Nat) : e.Acts (e.runToIdle budget limit).2 := by
  induction budget generalizing e limit with
  | zero => exact .refl e
  | succ budget ih =>
    unfold Engine.runToIdle
    split
    · exact .refl e
    · split
      · rename_i e₁ hn
        exact (acts_of_handleNext e hn).trans (ih e₁ limit)
      · split
        · rename_i w hw
          exact acts_of_call (.await limit) (by simp [HostCall.run, hw, Engine.withWorld]) rfl
            (.inl ⟨rfl, rfl⟩)
        · rename_i signals left w hw
          have h : e.Acts ((e.withWorld w).post signals) :=
            acts_of_call (.await limit)
              (by simp [HostCall.run, hw, Engine.withWorld, Engine.post]) rfl (.inl ⟨rfl, rfl⟩)
          exact h.trans (ih _ left)

/-! ## Calls -/

theorem acts_launch : e.Acts e.launch.2 := by
  have h := acts_createTimer e
  unfold Engine.launch
  generalize e.createTimer = created at h ⊢
  obtain ⟨_ | _, e₁⟩ := created
  · exact h
  · exact (h.enter .send).trans (acts_sendNext _)

theorem acts_start (command : Command) (request : Request) (userData : Option Bytes)
    (capacity : Nat) : e.Acts (e.start command request userData capacity).2 := by
  have h := ((acts_withSession e (e.session.armed command request userData capacity)).note
    (n := .started command) rfl).trans (acts_launch _)
  rw [start_eq]
  generalize ((e.withSession (e.session.armed command request userData capacity)).note
    (.started command)).launch = launched at h ⊢
  obtain ⟨_ | _, e₁⟩ := launched
  · exact ((h.trans (acts_release e₁)).withSession _).note rfl
  · exact h

variable {e} in
theorem Acts.guarded {p : Prop} [Decidable p] {fault : ParameterFault}
    {r : Except DownloadError Unit × Engine W} (h : e.Acts r.2) :
    e.Acts (if p then e.invalid fault else r).2 := by
  split
  · exact .refl e
  · exact h

theorem acts_startRead (addr : UInt32) (capacity : Nat) : e.Acts (e.startRead addr capacity).2 :=
  (acts_withSession e _).trans (acts_start _ _ _ _ _)

theorem acts_startWrite (data : Bytes) : e.Acts (e.startWrite data).2 :=
  (acts_withSession e _).trans (acts_start _ _ _ _ _)

theorem acts_chooseImage (recovery : Bool) : e.Acts (e.chooseImage recovery).2 := by
  unfold Engine.chooseImage
  dsimp only
  split
  · exact .refl e
  · split
    · exact .refl e
    · split
      · exact acts_of_eq rfl rfl rfl
      · exact .refl e

theorem acts_callWrite (recovery : Bool) (data : Option Bytes) :
    e.Acts (e.callWrite recovery data).2 := by
  unfold Engine.callWrite
  split
  · exact .refl e
  · split
    · exact .refl e
    · exact acts_startWrite e _
  · have h := acts_chooseImage e recovery
    generalize e.chooseImage recovery = chosen at h ⊢
    obtain ⟨_ | image, e₁⟩ := chosen
    · exact h
    · exact h.trans (acts_startWrite e₁ _)

theorem acts_callReadPlatform : e.Acts e.callReadPlatform.2 := by
  have h := acts_setHostMode e .download
  unfold Engine.callReadPlatform
  generalize e.setHostMode .download = switched at h ⊢
  obtain ⟨_ | _, e₁⟩ := switched
  · exact h
  · exact (h.withSession _).trans (acts_startRead _ _ _)

theorem acts_callIdle (c : Call) : e.Acts (e.callIdle c).2 := by
  cases c with
  | reset => exact acts_start e _ _ _ _
  | getVersion => exact (acts_start e _ _ _ _).guarded
  | getSessionState => exact (acts_start e _ _ _ _).guarded
  | checkIntegrity => exact (acts_start e _ _ _ _).guarded
  | read => exact (acts_startRead e _ _).guarded
  | readLog => exact (acts_startRead e _ _).guarded
  | readPlatform => exact acts_callReadPlatform e
  | write recovery data => exact acts_callWrite e recovery data
  | log => exact (acts_start e _ _ _ _).guarded
  | force => exact acts_start e _ _ _ _
  | raw => exact (acts_start e _ _ _ _).guarded.guarded

theorem acts_call (c : Call) : e.Acts (e.call c).2 := by
  unfold Engine.call
  split
  · exact .refl e
  · exact acts_callIdle e c

theorem acts_setMode (mode : DeviceMode) : e.Acts (e.setMode mode).2 := by
  have h := acts_setHostMode e mode
  unfold Engine.setMode
  split
  · exact .refl e
  · generalize e.setHostMode mode = switched at h ⊢
    obtain ⟨_ | _, e₁⟩ := switched <;> exact h

theorem acts_loadPrimary : e.Acts e.loadPrimary.2 := by
  unfold Engine.loadPrimary
  split
  · exact .refl e
  · exact acts_of_eq rfl rfl rfl

/-- Whatever is done to an engine, but for a change of its host, the host is behind calls of it. -/
theorem acts_move {m : Move W} (hm : ∀ w, m ≠ .pass w) : e.Acts (e.move m) := by
  cases m with
  | call c => exact acts_call e c
  | setMode mode => exact acts_setMode e mode
  | loadPrimary => exact acts_loadPrimary e
  | handleNext => exact acts_handleNext e
  | arrive signals => exact acts_of_eq rfl rfl rfl
  | pass w => exact absurd rfl (hm w)

/-! ## Runs -/

/-- The calls of a run, those of each move behind those of the moves before it. -/
inductive Asks : Engine W → List (Move W) → List HostCall → Prop
  | nil (e : Engine W) : Asks e [] []
  | pass {e : Engine W} {moves : List (Move W)} {calls : List HostCall} (w : W) :
    Asks (e.withWorld w) moves calls → Asks e (.pass w :: moves) calls
  | act {e : Engine W} {m : Move W} {moves : List (Move W)} {calls calls' : List HostCall} :
    (∀ w, m ≠ .pass w) → e.Performs calls (e.move m) → Asks (e.move m) moves calls' →
    Asks e (m :: moves) (calls ++ calls')

theorem exists_asks (moves : List (Move W)) :
    ∃ calls, e.Asks moves calls ∧ e.Numbers calls (e.run moves) := by
  induction moves generalizing e with
  | nil => exact ⟨[], .nil e, numbers_nothing rfl⟩
  | cons m moves ih =>
    by_cases hm : ∃ w, m = .pass w
    · obtain ⟨w, rfl⟩ := hm
      obtain ⟨calls, ha, hn⟩ := ih (e.withWorld w)
      exact ⟨calls, .pass w ha, hn⟩
    · have hm : ∀ w, m ≠ .pass w := fun w hw => hm ⟨w, hw⟩
      obtain ⟨calls, hp⟩ := e.acts_move hm
      obtain ⟨calls', ha, hn⟩ := ih (e.move m)
      exact ⟨calls ++ calls', .act hm hp ha, hp.numbered.trans hn⟩

/-- The requests of a run carry the tickets from one on, so no ticket is greater than the number of
the requests. -/
theorem run_numbered (config : Config) (library : ImageLibrary) (w : W) (moves : List (Move W)) :
    ∃ calls, (fresh config library w).Asks moves calls ∧ calls.filterMap HostCall.ticket? =
      List.range' 1 ((fresh config library w).run moves).lastTicket := by
  obtain ⟨calls, ha, n, hl, ht⟩ := exists_asks (fresh config library w) moves
  refine ⟨calls, ha, ?_⟩
  rw [ht, hl, show (fresh config library w).lastTicket = 0 from rfl, Nat.zero_add, Nat.zero_add]

end Engine

end FirmwareDownload
