import FirmwareDownload.Proofs.Engine.Waiting

/-! What a call does to an idle engine: it is refused and changes nothing of the session, it
starts a session that waits for its first frame, or the start fails and is undone. -/

namespace FirmwareDownload

def Call.command : Call → Command
  | .reset => .reset
  | .getVersion _ => .getVersion
  | .getSessionState _ => .getSessionState
  | .checkIntegrity _ _ => .checkIntegrity
  | .read _ _ => .read
  | .readLog _ => .read
  | .readPlatform => .read
  | .write _ _ => .write
  | .log _ => .log
  | .force _ => .force
  | .raw _ _ => .raw

namespace Session

/-- No session: only the last frame and the last failure are kept. -/
def Idle (s : Session) : Prop := s = s.reset

theorem idle_reset (s : Session) : s.reset.Idle := rfl

def armed (s : Session) (command : Command) (request : Request) (userData : Option Bytes)
    (capacity : Nat) : Session :=
  { s with
    command := some command
    busy := true
    request := request
    userData := userData.map List.toArray
    response := .ofCapacity capacity
    responseLength := 0
    resendCount := 0
    awaited := true }

def reading (s : Session) (addr : UInt32) (capacity : Nat) : Session :=
  { s with transfer := .startRead addr capacity }

def writing (s : Session) : Session :=
  { s with transfer := { firstWrite := true }, resendLastFrame := false }

end Session

namespace Engine

variable {W : Type} [Host W]

/-- How an armed session gets under way: what it becomes, what is noted, and the error that
stops it. -/
inductive Launches (e e' : Engine W) (armed : Session) :
    Session → List Notice → Option DownloadError → Prop
  | noTimer {err : DownloadError} : HostFault W err → Launches e e' armed armed [] (some err)
  | frameRefused {id : TimerId} {err : DownloadError} {s : Session} :
    { armed.timed id with phase := .send }.compose = (.error err, s) →
    Launches e e' armed s [.moved .init .send, .timerCreated id] (some err)
  | sends {id : TimerId} {t : Ticket} {s : Session} {failure : Option DownloadError} :
    { armed.timed id with phase := .send }.compose = (.ok (), s) → e.Draws e' t →
    (∀ err, failure = some err → HostFault W err) →
    Launches e e' armed (s.sending t)
      [.sent s.frame.bytes, .moved .send .recv, .moved .init .send, .timerCreated id] failure

variable {e e₁ e₂ : Engine W} {s : Session} {ns : List Notice}

theorem Launches.mono {armed : Session} {failure : Option DownloadError}
    (h : e.Launches e₁ armed s ns failure) (hl : e₁.lastTicket ≤ e₂.lastTicket) :
    e.Launches e₂ armed s ns failure := by
  cases h with
  | noTimer hf => exact .noTimer hf
  | frameRefused hc => exact .frameRefused hc
  | sends hc ht hf => exact .sends hc (ht.mono hl) hf

theorem Passes.launch (h : e.Passes s ns e₁) (hp : s.phase = .init)
    (hf : s.resendLastFrame = false) :
    ∃ s' ns' r e₂, e₁.launch = (r, e₂) ∧ e.Launches e₂ s s' ns' (errorOf r) ∧
      e.Passes s' (ns' ++ ns) e₂ := by
  unfold Engine.launch
  rcases h.createTimer with ⟨err, e₂, he, hc, h₂⟩ | ⟨id, e₂, he, h₂⟩
  · rw [he]
    exact ⟨_, _, _, _, rfl, .noTimer hc, h₂⟩
  · rw [he]
    have h₃ := h₂.enter .send
    rw [Session.moveNotices_of_phase (s := s.timed id) hp (by decide)] at h₃
    cases hc : { s.timed id with phase := .send }.compose with
    | mk r s' =>
      obtain ⟨_, _, hs⟩ := Session.composed hc
      have hf' : s'.resendLastFrame = false := by rw [hs]; exact hf
      cases r with
      | error err =>
        have hn := sendNext_refused (e := e₂.enter .send) (by rw [h₃.session]; exact hf)
          (h₃.session ▸ hc)
        exact ⟨_, _, _, _, hn, .frameRefused hc, h₃.withSession s'⟩
      | ok =>
        obtain ⟨r, t, e₄, hn, hr, ht, h₄⟩ := h₃.sendNext hf hf' hc
        rw [Session.moveNotices_of_phase (Session.compose_phase hc) (by decide)] at h₄
        refine ⟨_, _, _, _, hn, .sends hc (h₃.draws ht) ?_, h₄⟩
        rintro err he
        cases r with
        | ok => cases he
        | error err' =>
          cases he
          exact hr _ rfl

def Starts (e : Engine W) (s : Session) (ns : List Notice) (command : Command) :
    Except DownloadError Unit → Engine W → Prop
  | .ok (), e' => e.Passes s ns e'
  | .error err, e' =>
    e.Passes s.reset (.finished command (some err) :: (s.releaseNotices ++ ns)) e'

theorem start_eq (e : Engine W) (command : Command) (request : Request) (userData : Option Bytes)
    (capacity : Nat) : e.start command request userData capacity =
    match ((e.withSession (e.session.armed command request userData capacity)).note
        (.started command)).launch with
    | (.ok (), e) => (.ok (), e)
    | (.error err, e) =>
      (.error err, (e.release.withSession e.release.session.reset).note
        (.finished command (some err))) :=
  rfl

theorem Passes.start (h : e.Passes s ns e₁) (hp : s.phase = .init)
    (hf : s.resendLastFrame = false) (command : Command) (request : Request)
    (userData : Option Bytes) (capacity : Nat) :
    ∃ s' ns' r e₂, e₁.start command request userData capacity = (r, e₂) ∧
      e.Launches e₂ (s.armed command request userData capacity) s' ns' (errorOf r) ∧
      e.Starts s' (ns' ++ .started command :: ns) command r e₂ := by
  obtain rfl := h.session
  have h₁ := (h.update (fun s => s.armed command request userData capacity)).note (.started command)
  obtain ⟨s', ns', r, e₂, he, hl, h₂⟩ := h₁.launch hp hf
  rw [start_eq, he]
  cases r with
  | ok => exact ⟨s', ns', _, _, rfl, hl, h₂⟩
  | error err =>
    have hr := (Passes.refl e₂).release.lastTicket
    exact ⟨s', ns', _, _, rfl, hl.mono hr, (h₂.release.update Session.reset).note _⟩

/-! ## Calls -/

theorem call_busy (h : e.session.busy = true) (c : Call) : e.call c = (.error .busy, e) := by
  unfold Engine.call
  rw [if_pos h]

theorem call_idle (hb : e.session.busy = false) (c : Call) : e.call c = e.callIdle c := by
  unfold Engine.call
  rw [hb, if_neg Bool.false_ne_true]

/-- What a call needs before it starts its command. -/
inductive Prepares (e : Engine W) (c : Call) :
    Session → List Notice → Request → Option Bytes → Nat → Prop
  | plain {request : Request} {userData : Option Bytes} {capacity : Nat} :
    c.command ≠ .write → Prepares e c e.session [] request userData capacity
  | read {addr : UInt32} {capacity : Nat} : c.command = .read →
    Prepares e c (e.session.reading addr capacity) [] (.read addr) none capacity
  | readPlatform : c = .readPlatform →
    Prepares e c
      ({ e.session with restoreNormalMode := true }.reading platformAreaStart platformAreaSize)
      [.modeRequested .download] (.read platformAreaStart) none platformAreaSize
  | write {recovery : Bool} {data : Bytes} {image : Image} : c = .write recovery (some data) →
    Image.ofBytes data = .ok image →
    Prepares e c e.session.writing [] .write (some data) 0
  | writeNamed {recovery : Bool} {image : Image} : c = .write recovery none →
    (e.library (.select recovery e.session.lastStatus) = .ok image ∨
      ImageKind.select recovery e.session.lastStatus = .primary ∧ e.primary = some image) →
    Prepares e c e.session.writing [] .write (some image.data) 0

section

variable {c : Call} {request : Request} {userData : Option Bytes} {capacity : Nat}

omit [Host W] in
theorem Prepares.phase (h : e.Prepares c s ns request userData capacity) :
    s.phase = e.session.phase := by
  cases h <;> rfl

omit [Host W] in
theorem Prepares.tickets (h : e.Prepares c s ns request userData capacity) :
    s.tickets = e.session.tickets := by
  cases h <;> rfl

omit [Host W] in
theorem Prepares.fresh (h : e.Prepares c s ns request userData capacity)
    (hf : e.session.resendLastFrame = false) : s.resendLastFrame = false := by
  cases h with
  | write => rfl
  | writeNamed => rfl
  | _ => exact hf

end

/-- A call that is refused at once: only the mode of the controller may have changed. -/
def Refuses (e : Engine W) (r : Except DownloadError Unit × Engine W) : Prop :=
  ∃ err ns e', r = (.error err, e') ∧ (ns = [] ∨ ns = [.modeRequested .download]) ∧
    e.Passes e.session ns e'

def Proceeds (e : Engine W) (c : Call) (r : Except DownloadError Unit × Engine W) : Prop :=
  ∃ s ns request userData capacity e₁, e.Prepares c s ns request userData capacity ∧
    e.Passes s ns e₁ ∧ r = e₁.start c.command request userData capacity

/-- A call that is refused before anything was done for it. -/
def Declines (e : Engine W) (r : Except DownloadError Unit × Engine W) : Prop :=
  ∃ err, r = (.error err, e)

omit [Host W] in
theorem Declines.refuses {r : Except DownloadError Unit × Engine W} (h : e.Declines r) :
    e.Refuses r := by
  obtain ⟨err, rfl⟩ := h
  exact ⟨err, [], e, rfl, .inl rfl, .refl e⟩

omit [Host W] in
theorem declines_invalid (e : Engine W) (fault : ParameterFault) : e.Declines (e.invalid fault) :=
  ⟨_, rfl⟩

theorem guarded_cases {c : Call} {p : Prop} [Decidable p] (fault : ParameterFault)
    {r : Except DownloadError Unit × Engine W} (h : e.Declines r ∨ e.Proceeds c r) :
    e.Declines (if p then e.invalid fault else r) ∨
      e.Proceeds c (if p then e.invalid fault else r) := by
  by_cases hp : p
  · rw [if_pos hp]
    exact .inl (declines_invalid e fault)
  · rw [if_neg hp]
    exact h

theorem start_proceeds {c : Call} {request : Request} {userData : Option Bytes} {capacity : Nat}
    (hc : c.command ≠ .write) :
    e.Proceeds c (e.start c.command request userData capacity) :=
  ⟨_, _, _, _, _, e, .plain hc, .refl e, rfl⟩

theorem startRead_proceeds {c : Call} (hc : c.command = .read) (addr : UInt32) (capacity : Nat) :
    e.Proceeds c (e.startRead addr capacity) := by
  have hp : e.Prepares c (e.session.reading addr capacity) [] (.read addr) none capacity :=
    .read hc
  refine ⟨_, _, _, _, _, _, hp, (Passes.refl e).withSession _, ?_⟩
  rw [hc]
  rfl

theorem callReadPlatform_cases : e.Refuses e.callReadPlatform ∨
    e.Proceeds .readPlatform e.callReadPlatform := by
  have h := (Passes.refl e).setHostMode .download
  unfold Engine.callReadPlatform
  split <;> rename_i he <;> rw [he] at h
  · exact .inl ⟨_, _, _, rfl, .inr rfl, h⟩
  · exact .inr ⟨_, _, _, _, _, _, .readPlatform rfl, h.update (fun s =>
      { s with restoreNormalMode := true }.reading platformAreaStart platformAreaSize), rfl⟩

omit [Host W] in
theorem chooseImage_cases (e : Engine W) (recovery : Bool) :
    (∃ err, e.chooseImage recovery = (.error err, e)) ∨
    ∃ image e₁, e.chooseImage recovery = (.ok image, e₁) ∧ e.Passes e.session [] e₁ ∧
      (e.library (.select recovery e.session.lastStatus) = .ok image ∨
        ImageKind.select recovery e.session.lastStatus = .primary ∧ e.primary = some image) := by
  unfold Engine.chooseImage
  dsimp only
  split
  · rename_i image hk hp
    exact .inr ⟨image, e, rfl, .refl e, .inr ⟨hk, hp⟩⟩
  · split
    · exact .inl ⟨_, rfl⟩
    · rename_i image hi
      refine .inr ⟨image, _, rfl, ?_, .inl hi⟩
      split
      · rename_i hk
        rw [hk] at hi
        exact ⟨rfl, rfl, rfl, Nat.le_refl _, List.prefix_rfl, rfl, rfl, .inr ⟨image, hi, rfl⟩⟩
      · exact .refl e

theorem callWrite_cases (recovery : Bool) (data : Option Bytes) :
    e.Declines (e.callWrite recovery data) ∨
      e.Proceeds (.write recovery data) (e.callWrite recovery data) := by
  unfold Engine.callWrite
  split
  · exact .inl (declines_invalid e _)
  · rename_i data _
    split
    · exact .inl (declines_invalid e _)
    · rename_i image hi
      exact .inr ⟨_, _, _, _, _, _, .write rfl hi, (Passes.refl e).withSession _, rfl⟩
  · rcases e.chooseImage_cases recovery with ⟨err, he⟩ | ⟨image, e₁, he, h, hi⟩
    · rw [he]
      exact .inl ⟨err, rfl⟩
    · rw [he]
      exact .inr ⟨_, _, _, _, _, _, .writeNamed rfl hi, h.update Session.writing, rfl⟩

/-- Only a read of the platform area does something before it may be refused. -/
theorem call_declines_or_proceeds (hb : e.session.busy = false) {c : Call}
    (hc : c ≠ .readPlatform) : e.Declines (e.call c) ∨ e.Proceeds c (e.call c) := by
  rw [call_idle hb]
  cases c with
  | reset => exact .inr (start_proceeds (c := .reset) Command.noConfusion)
  | getVersion capacity =>
    exact guarded_cases _ (.inr (start_proceeds (c := .getVersion capacity) Command.noConfusion))
  | getSessionState capacity =>
    exact guarded_cases _
      (.inr (start_proceeds (c := .getSessionState capacity) Command.noConfusion))
  | checkIntegrity revision capacity =>
    exact guarded_cases _
      (.inr (start_proceeds (c := .checkIntegrity revision capacity) Command.noConfusion))
  | read addr capacity => exact guarded_cases _ (.inr (startRead_proceeds rfl addr capacity))
  | readLog capacity =>
    exact guarded_cases _ (.inr (startRead_proceeds rfl logAreaStart capacity))
  | readPlatform => exact absurd rfl hc
  | write recovery data => exact callWrite_cases recovery data
  | log entry =>
    exact guarded_cases _ (.inr (start_proceeds (c := .log entry) Command.noConfusion))
  | force clock => exact .inr (start_proceeds (c := .force clock) Command.noConfusion)
  | raw frame capacity =>
    exact guarded_cases _
      (guarded_cases _ (.inr (start_proceeds (c := .raw frame capacity) Command.noConfusion)))

theorem call_cases (hb : e.session.busy = false) (c : Call) :
    e.Refuses (e.call c) ∨ e.Proceeds c (e.call c) := by
  by_cases hc : c = .readPlatform
  · subst hc
    rw [call_idle hb]
    exact callReadPlatform_cases
  · exact (call_declines_or_proceeds hb hc).imp_left Declines.refuses

end Engine

end FirmwareDownload
