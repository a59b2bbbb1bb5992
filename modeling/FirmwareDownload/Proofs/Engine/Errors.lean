import FirmwareDownload.Proofs.Engine.Responses

/-! Which failures get to the caller. Arguments that were taken once are never found wrong later on,
each kind of failure belongs to the commands that can meet it, and the failures of a write that an
image may mend are told while the status that they come from is remembered. -/

namespace FirmwareDownload

/-- Only what can be wrong with the bytes that were received is told of them. -/
def FrameError.OfAnswer : FrameError → Prop
  | .tooShort .. | .crcMismatch .. | .lengthMismatch .. => True
  | .bodyTooLarge .. | .emptyBody | .rawTooLarge .. => False

/-- A command may end with this cause. -/
def Failure.MayEnd (command : Command) : Failure → Prop
  | .link _ | .timer _ => True
  | .frame err => err.OfAnswer ∧ command ≠ .raw
  | .unexpectedStatus _ => command ≠ .raw
  | .shortRead .. => command = .read
  | .responseOverflow .. => command.queries = true ∨ command = .raw
  | .resendLimit _ => command.shape = .readWrite
  | .image _ | .integrity _ | .badReport _ | .versionMismatch .. | .abandoned => False

/-- A command may end with this failure. -/
def DownloadError.MayEnd (command : Command) : DownloadError → Prop
  | .invalidParameter _ | .busy => False
  | .timeout => command ≠ .reset
  | .writeFailed | .rejected | .versionError => command = .write
  | .failed cause => cause.MayEnd command

/-- Only a write ends with a failure that an image may mend. -/
theorem DownloadError.MayEnd.write_of_report {command : Command} {err : DownloadError}
    {status : Status} (h : err.MayEnd command) (hr : err.report? = some status) :
    command = .write := by
  cases err <;> first | exact h | cases hr

theorem Frame.decode_error {raw : Bytes} {err : FrameError} (h : decode raw = .error err) :
    err.OfAnswer := by
  unfold decode at h
  dsimp only at h
  split_ifs at h <;> cases h <;> trivial

namespace Transfer

variable {t : Transfer} {err : DownloadError}

theorem acceptWrite_mayEnd {status : Status} (h : (t.acceptWrite status).1 = .error err) :
    err.MayEnd .write := by
  have hu : ∀ {status'}, (Except.error (.failed (.unexpectedStatus status')) :
      Except DownloadError Unit) = .error err → err.MayEnd .write := by
    rintro _ ⟨⟩
    exact Command.noConfusion
  unfold acceptWrite at h
  split at h
  · split at h
    · exact hu h
    · cases h
  · split at h
    · cases h
    · exact hu h
  · split at h
    · cases h
    · exact hu h
  · cases h
    rfl
  · cases h
    rfl
  · cases h
    rfl
  · exact hu h

theorem acceptRead_mayEnd {answer : Frame} {response : ResponseBuffer} (hf : err.Fits)
    (h : (t.acceptRead answer response).1 = .error err) : err.MayEnd .read := by
  unfold acceptRead at h
  dsimp only at h
  split_ifs at h
  · cases h
    exact Command.noConfusion
  · cases h
    rfl
  · cases h
    rfl
  · split at h <;> cases h
    exact absurd rfl (hf _ _)

end Transfer

namespace Session

variable {s s' : Session} {command : Command} {raw data : Bytes} {err : DownloadError}

theorem keepAnswer_error (h : (s.keepAnswer data).1 = .error err) :
    s.response.capacity ≠ 0 ∧ ∃ length capacity,
      err = .failed (.responseOverflow length capacity) := by
  unfold keepAnswer at h
  split at h
  · cases h
  · rename_i hz
    split at h <;> cases h
    exact ⟨hz, _, _, rfl⟩

theorem applyAnswer_mayEnd {answer : Frame} (hr : command ≠ .raw)
    (hm : command.mute = true → s.response.capacity = 0) (hf : command = .read → err.Fits)
    (h : (s.applyAnswer command answer).1 = .error err) : err.MayEnd command := by
  by_cases hread : command = .read
  · subst hread
    exact Transfer.acceptRead_mayEnd (hf rfl) h
  · by_cases hwrite : command = .write
    · subst hwrite
      exact Transfer.acceptWrite_mayEnd h
    · rw [applyAnswer_other hread hwrite] at h
      split at h
      · obtain ⟨hz, _, _, rfl⟩ := keepAnswer_error h
        have hn : command.mute ≠ true := fun he => hz (hm he)
        cases command with
        | getVersion | getSessionState | checkIntegrity => exact .inl rfl
        | read => exact absurd rfl hread
        | raw => exact absurd rfl hr
        | reset | write | log | force => exact absurd rfl hn
      · cases h
        exact hr

/-- The session can send what it has left to send, and a command that hands nothing back has no
buffer. -/
structure Provided (command : Command) (s : Session) : Prop where
  loaded : ∃ n, { s with command := some command }.Loaded n
  bufferless : command.mute = true → s.response.capacity = 0

theorem Provided.congr (h : s.Provided command) (hs : s'.cargo = s.cargo) :
    s'.Provided command := by
  obtain ⟨n, hn⟩ := h.loaded
  refine ⟨⟨n, hn.congr hs rfl⟩, fun hm => ?_⟩
  rw [response_of_cargo hs]
  exact h.bufferless hm

theorem Provided.loaded_of_command (h : s.Provided command) (hc : s.command = some command) :
    ∃ n, s.Loaded n := by
  obtain ⟨n, hn⟩ := h.loaded
  exact ⟨n, hn.congr rfl hc⟩

/-- A read fails for an answer that does not give its piece, but never for want of room. -/
theorem Loaded.read_fits {n : Nat} (h : s.Loaded n) (hc : s.command = some .read)
    (ha : s.handleAnswer raw = (.failed err, s')) : err.Fits := by
  have hb : statusOf raw ≠ some .memBusy := by
    intro hb
    cases ha.symm.trans (handleAnswer_memBusy hc rfl hb)
  cases h with
  | asks hc' hr => exact absurd (Option.some.inj (hc'.symm.trans hc)) hr
  | @reads g pieces _ hr =>
    cases hp : g.piece? pieces.length raw with
    | none =>
      obtain ⟨_, _, he, hf, -⟩ := hr.handleAnswer_refused hc hb hp
      cases ha.symm.trans he
      exact hf
    | some data =>
      obtain ⟨_, he, -⟩ := hr.handleAnswer_piece hc hp
      have hv := congrArg Prod.fst (ha.symm.trans he)
      dsimp only at hv
      split at hv <;> cases hv
  | writes hc' => cases hc'.symm.trans hc

theorem Provided.handleAnswer_mayEnd (h : s.Provided command) (hc : s.command = some command)
    (ha : s.handleAnswer raw = (.failed err, s')) : err.MayEnd command := by
  have hf : command = .read → err.Fits := by
    rintro rfl
    obtain ⟨n, hn⟩ := h.loaded_of_command hc
    exact hn.read_fits hc ha
  by_cases hr : command = .raw
  · subst hr
    rw [handleAnswer_raw hc] at ha
    split at ha
    · cases ha
    · rename_i hk
      cases ha
      obtain ⟨-, _, _, rfl⟩ := keepAnswer_error (congrArg Prod.fst hk)
      exact .inr rfl
  · rw [handleAnswer_framed hc hr] at ha
    split at ha
    · rename_i hd
      cases ha
      exact ⟨Frame.decode_error hd, hr⟩
    · split at ha
      · cases ha
      · split at ha
        · rename_i happly
          cases ha
          exact applyAnswer_mayEnd (s := { s with resendCount := 0 }) hr h.bufferless hf
            (congrArg Prod.fst happly)
        · split at ha <;> cases ha

end Session

namespace Engine

variable {W : Type} [Host W] {e e₀ e' : Engine W} {command : Command} {id : TimerId}
  {s : Session} {raw : Bytes} {ns ns' : List Notice}
  {outcome : Option (Except DownloadError Unit)}

theorem HostFault.cause {err : DownloadError} (h : HostFault W err) :
    (∃ cause, err = .failed (.timer cause)) ∨ ∃ cause, err = .failed (.link cause) := by
  cases h with
  | createTimer | startTimer => exact .inl ⟨_, rfl⟩
  | write | read => exact .inr ⟨_, rfl⟩

theorem HostFault.mayEnd {err : DownloadError} (h : HostFault W err) (command : Command) :
    err.MayEnd command := by
  rcases h.cause with ⟨_, rfl⟩ | ⟨_, rfl⟩ <;> trivial

/-- However a session ends, it may end so. -/
def EndsDuly (command : Command) (result : Except DownloadError Unit) : Prop :=
  ∀ err, result = .error err → err.MayEnd command

theorem Breaks.duly {result : Except DownloadError Unit} (h : Breaks W command result) :
    EndsDuly command result := by
  rintro err he
  cases h with
  | link => cases he; trivial
  | fault hf => cases he; exact hf.mayEnd command
  | silence =>
    unfold silenceResult at he
    split at he
    · cases he
    · cases he
      assumption

theorem Reacts.duly_answered {r : Ticket} (hw : e.session.Waiting command id)
    (hp : e.session.Provided command)
    (h : e.Reacts e' command id (.received r (.ok raw)) s ns' outcome) :
    s.Tells (fun s _ => s.Provided command) (fun result _ _ => EndsDuly command result)
      (ns' ++ ns) outcome := by
  have hc : e.session.answering.command = some command := hw.command
  have hp' : e.session.answering.Provided command := hp.congr e.session.cargo_answering
  have hb : command.mute = true → s.response.capacity = 0 :=
    fun hm => h.capacity.trans (hp.bufferless hm)
  obtain ⟨n, hn⟩ := hp.loaded_of_command hw.command
  cases h with
  | done => exact nofun
  | failed hv =>
    rintro _ ⟨⟩
    exact hp'.handleAnswer_mayEnd hc (Prod.ext hv rfl)
  | frameRefused hv hcomp =>
    obtain ⟨s₂, _, hs, -⟩ := hn.proceeds (Prod.ext hv rfl)
    cases hs.symm.trans hcomp
  | proceeds hv hcomp _ ho =>
    obtain ⟨s₂, n', hs, -, hn'⟩ := hn.proceeds (Prod.ext hv rfl)
    obtain ⟨-, rfl⟩ := Prod.mk.inj (hs.symm.trans hcomp)
    have hc' : s₂.command = some command := by
      obtain ⟨_, _, rfl⟩ := Session.composed hcomp
      exact (Session.handleAnswer_command _ raw).trans hw.command
    exact ho.tells ⟨⟨n', hn'.congr rfl hc'.symm⟩, hb⟩ fun _ hbreak => hbreak.duly
  | exhausted hv =>
    rintro _ ⟨⟩
    exact Session.handleAnswer_resend_shape hc hv
  | waitRefused _ hf =>
    rintro _ ⟨⟩
    exact hf.mayEnd command
  | holds hv =>
    obtain ⟨he, -⟩ := Session.handleAnswer_resend (Prod.ext hv rfl)
    exact hp'.congr ((congrArg Session.cargo he).trans rfl)

theorem provided_steady (command : Command) :
    Steady W command (fun s _ => s.Provided command)
      (fun result _ _ => EndsDuly command result) := by
  apply Steady.of_answers
  · exact fun hp hu => hp.congr hu.cargo
  · exact fun _ hb => hb.duly
  · exact fun hw hp h => h.duly_answered hw hp

/-! ## Between moves -/

/-- A session of the engine is provided for. -/
def Furnished (e : Engine W) : Prop :=
  ∀ command, e.session.command = some command → e.session.Provided command

/-- Nothing was delivered, or one completion with a failure that its command may end with, and the
status that the failure comes from is remembered. -/
def Delivers (e e' : Engine W) : Prop :=
  e'.delivered = e.delivered ∨ ∃ done, e'.delivered = done :: e.delivered ∧
    EndsDuly done.command done.result ∧ ∀ err status, done.result = .error err →
      err.report? = some status → e'.session.lastStatus = some status

omit [Host W] in
theorem furnished_idle (h : e.session.Idle) : e.Furnished := by
  intro command hc
  rw [h] at hc
  cases hc

omit [Host W] in
theorem Furnished.passes (h : e.Furnished) (hp : e.Passes e.session ns e') :
    e'.Furnished ∧ e.Delivers e' := by
  refine ⟨?_, .inl hp.delivered⟩
  unfold Furnished
  rw [hp.session]
  exact h

theorem Furnished.handles (h : e.Furnished) (hr : e.session.Recalls ns) (hh : e.Handles e') :
    e'.Furnished ∧ e.Delivers e' := by
  cases hh with
  | nothing => exact ⟨h, .inl rfl⟩
  | ignores => exact ⟨h, .inl rfl⟩
  | @reacts signal rest command id s ns' outcome _ _ hw ha hreact ht =>
    have hk : Steady W command (fun s _ => s.Provided command)
        (fun result _ _ => EndsDuly command result) :=
      provided_steady command
    have hs : s.Tells (fun s _ => s.Provided command)
        (fun result _ _ => EndsDuly command result) (ns' ++ ns) outcome :=
      hk (e := e.popped rest) hw ha (h command hw.command) hreact
    have hrec := hreact.recounts (e := e.popped rest) hw hr
    cases outcome with
    | none =>
      refine ⟨fun command' hc => ?_, .inl ht.delivered⟩
      have hc' := (hreact.waiting (e := e.popped rest) hw ha rfl).command
      rw [ht.session] at hc ⊢
      obtain rfl := Option.some.inj (hc'.symm.trans hc)
      exact hs
    | some result =>
      refine ⟨furnished_idle (ht.session ▸ Session.idle_reset s), .inr ⟨_, ht.delivered, hs, ?_⟩⟩
      rintro err status rfl hst
      rw [ht.session]
      exact hrec.report ((hs err rfl).write_of_report hst) err status rfl hst

theorem Furnished.call (h : e.Furnished) (hs : e.Standing) (c : Call) :
    (e.call c).2.Furnished ∧ e.Delivers (e.call c).2 := by
  rcases hc : e.call c with ⟨r, e'⟩
  cases r with
  | error err =>
    obtain ⟨hd, hcmd⟩ := call_refused hs hc
    refine ⟨?_, .inl hd⟩
    cases hb : e.session.busy with
    | true =>
      cases (call_busy hb c).symm.trans hc
      exact h
    | false =>
      intro command hc'
      rw [hcmd, hs.idle_of_not_busy hb] at hc'
      cases hc'
  | ok =>
    obtain ⟨n, hn⟩ := (embarks_of_ok hs hc).loaded hc
    have hg := grants_call e c
    rw [hc] at hg
    obtain ⟨_, s, _, _, _, _, _, _, -, -, hp, hw⟩ := call_launches hs hc
    refine ⟨fun command hcmd => ⟨⟨n, hn.congr rfl hcmd.symm⟩, fun hm => ?_⟩, .inl hp.delivered⟩
    have hcmd' : e'.session.command = some c.command := hp.session ▸ hw.command
    obtain rfl := Option.some.inj (hcmd'.symm.trans hcmd)
    exact (congrArg _ (hg.room rfl)).trans (c.capacity_eq_zero hm)

theorem Furnished.move (h : e.Furnished) (hs : e.Standing) (hr : e.session.Recalls ns)
    (m : Move W) : (e.move m).Furnished ∧ e.Delivers (e.move m) := by
  cases m with
  | call c => exact h.call hs c
  | setMode mode =>
    obtain ⟨_, -, hp⟩ := e.setMode_passes mode
    exact h.passes hp
  | loadPrimary => exact h.passes (Passes.loadPrimary e)
  | handleNext => exact h.handles hr hs.handleNext_handles
  | arrive signals => exact h.passes ((Passes.refl e).post signals)
  | pass w => exact h.passes ((Passes.refl e).withWorld w)

theorem Furnished.run (h : e.Furnished) (hs : e.Standing) (hr : e₀.Recollects e)
    (moves : List (Move W)) : (e.run moves).Furnished ∧
      ∀ done ∈ (e.run moves).delivered,
        done ∈ e.delivered ∨ EndsDuly done.command done.result := by
  induction moves generalizing e with
  | nil => exact ⟨h, fun _ hd => .inl hd⟩
  | cons m moves ih =>
    have ha := hs.move_advances m
    have hr' := hr.advance ha
    obtain ⟨_, -, hrec⟩ := hr
    obtain ⟨h', hd⟩ := h.move hs hrec m
    obtain ⟨hrun, hall⟩ := ih h' (ha.standing hs) hr'
    refine ⟨hrun, fun done hm => (hall done hm).elim (fun hm => ?_) .inr⟩
    rcases hd with hd | ⟨last, hd, hends, -⟩
    · exact .inl (hd ▸ hm)
    · rw [hd] at hm
      rcases List.mem_cons.1 hm with rfl | hm
      · exact .inr hends
      · exact .inl hm

/-- A valid call can only fail for the host. No command that was accepted is ever told that its
arguments are wrong or that the engine is busy, nor any failure but those of its kind, and behind
a write that the controller gave up or rejected its status is the last one. -/
theorem failures_meaningful (config : Config) (library : ImageLibrary) (w : W)
    (moves : List (Move W)) :
    let e := (fresh config library w).run moves
    (∀ c err e', e.isBusy = false → ¬ c.Invalid →
      (∀ recovery err, c = .write recovery none → ¬ e.Lacks recovery err) →
      e.call c = (.error err, e') →
      (∃ cause, err = .failed (.timer cause)) ∨ ∃ cause, err = .failed (.link cause)) ∧
    (∀ done ∈ e.delivered, ∀ err, done.result = .error err → err.MayEnd done.command) ∧
    ∀ m, (e.move m).delivered = e.delivered ∨ ∃ done, (e.move m).delivered = done :: e.delivered ∧
      (done.result = .error .writeFailed → (e.move m).session.lastStatus = some .pllError) ∧
      (done.result = .error .rejected → (e.move m).session.lastStatus = some .signatureError) := by
  have hs₀ := standing_fresh config library w
  have hi₀ : (fresh config library w).session.Idle := rfl
  have hs := hs₀.run moves
  have hr := (recollects_idle hi₀).run hs₀ moves
  obtain ⟨hf, hall⟩ := (furnished_idle hi₀).run hs₀ (recollects_idle hi₀) moves
  generalize (fresh config library w).run moves = e at hs hr hf hall
  refine ⟨fun c err e' hb hv hl hc => ?_, fun done hd => ?_, fun m => ?_⟩
  · rcases call_embarks (hs.idle_of_not_busy hb) hv hl with ⟨cause, e₁, hc'⟩ | he
    · cases hc'.symm.trans hc
      exact .inr ⟨cause, rfl⟩
    · exact (he.hostFault hc).cause
  · exact (hall done hd).resolve_left List.not_mem_nil
  · obtain ⟨_, -, hrec⟩ := hr
    rcases (hf.move hs hrec m).2 with hd | ⟨done, hd, -, hst⟩
    · exact .inl hd
    · exact .inr ⟨done, hd, fun he => hst _ _ he rfl, fun he => hst _ _ he rfl⟩

/-- The controller has lost its lock. -/
def unlocked : Bench MockLink := { link := { answers := [Frame.wrap [0x0D] false] } }

def unlockedMoves : List (Move (Bench MockLink)) :=
  [.call (.write false (some [0, 1, 0xC0])), .handleNext]

/-- The write fails with the answer to its only frame. -/
theorem write_unlocked :
    let e := (fresh {} (ImageLibrary.ofList []) unlocked).run unlockedMoves
    ∃ response, (e.move .handleNext).delivered = [⟨.write, .error .writeFailed, response⟩] ∧
      (e.move .handleNext).session.lastStatus = some .pllError := by
  have hrun : let e := (fresh {} (ImageLibrary.ofList []) unlocked).run unlockedMoves
      e.delivered = [] ∧ (e.move .handleNext).delivered.map
        (fun c => (c.command, errorOf c.result)) = [(.write, some .writeFailed)] := by
    decide +kernel
  have hlast := (failures_meaningful {} (ImageLibrary.ofList []) unlocked unlockedMoves).2.2
    .handleNext
  dsimp only at hrun hlast ⊢
  rw [hrun.1] at hlast
  rcases hlast with hd | ⟨⟨command, result, response⟩, hd, hst, -⟩
  · rw [hd] at hrun
    cases hrun.2
  · rw [hd] at hrun ⊢
    obtain ⟨rfl, herr⟩ := Prod.mk.inj (List.cons.inj hrun.2).1
    cases result with
    | ok => cases herr
    | error err =>
      cases herr
      exact ⟨response, rfl, hst rfl⟩

end Engine

end FirmwareDownload
