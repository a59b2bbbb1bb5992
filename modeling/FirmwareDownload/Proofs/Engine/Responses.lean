import FirmwareDownload.Proofs.Engine.BusyMemory
import FirmwareDownload.Proofs.Engine.Lifetime
import FirmwareDownload.Proofs.Engine.Requests

/-! What commands hand back. A command of one frame puts its one answer into the buffer or leaves it
empty, a read fills its buffer piece by piece, and the other commands have no buffer at all. -/

namespace FirmwareDownload

/-- The command hands back the payload of its one answer. -/
def Command.queries : Command → Bool
  | .getVersion | .getSessionState | .checkIntegrity => true
  | _ => false

/-- The command hands nothing back. -/
def Command.mute : Command → Bool
  | .reset | .write | .log | .force => true
  | _ => false

theorem Command.queries_asks {command : Command} (h : command.queries = true) :
    command.asks = true ∧ command.shape = .plain := by
  cases command <;> first | exact ⟨rfl, rfl⟩ | cases h

def Notice.received? : Notice → Option Bytes
  | .received raw => some raw
  | _ => none

/-- All answers that were received, oldest first. -/
def receivedFrames (ns : List Notice) : List Bytes := (marks ns).filterMap Notice.received?

theorem receivedFrames_append (ns ns' : List Notice) :
    receivedFrames (ns ++ ns') = receivedFrames ns' ++ receivedFrames ns := by
  simp [receivedFrames, marks_append]

theorem Plain.receivedFrames_eq_nil {ns : List Notice} (h : Plain ns) : receivedFrames ns = [] := by
  refine List.filterMap_eq_nil_iff.2 fun n hn => ?_
  have hp := h n (mem_marks.1 hn).1
  cases n <;> first | rfl | cases hp

theorem receivedFrames_answerNotices (s : Session) (raw : Bytes) :
    receivedFrames (s.answerNotices raw) = [raw] := by
  rw [receivedFrames, s.marks_answerNotices]
  rfl

theorem ResponseBuffer.length_take_le (b : ResponseBuffer) (n : Nat) :
    (b.take n).length ≤ b.capacity := by
  rw [b.take_eq, List.length_take, b.length_bytes]
  exact Nat.min_le_right ..

/-- An answer brings so many bytes, more than there is room for: the payload of a valid one, or a
raw one as a whole. -/
inductive Overflows (command : Command) (capacity : Nat) (raw : Bytes) : Nat → Prop
  | payload {answer : Frame} : command.queries = true → Frame.decode raw = .ok answer →
    answer.status = .ok → capacity < answer.payload.length →
    Overflows command capacity raw answer.payload.length
  | whole : command = .raw → capacity < raw.length → Overflows command capacity raw raw.length

/-- A call that ended so handed back what was received, and no more than there was room for. -/
structure Call.Returns (c : Call) (result : Except DownloadError Unit) (response : Bytes)
    (ns : List Notice) : Prop where
  fits : response.length ≤ c.capacity
  payload : c.command.queries = true → result = .ok () → ∃ raw answer, receivedFrames ns = [raw] ∧
    Frame.decode raw = .ok answer ∧ answer.status = .ok ∧ response = answer.payload
  whole : c.command = .raw → result = .ok () → receivedFrames ns = [response]
  silent : c.command.mute = true → response = []
  failed : c.command ≠ .read → ∀ err, result = .error err → response = []
  overflow : ∀ raw ∈ receivedFrames ns, ∀ length, Overflows c.command c.capacity raw length →
    result = .error (.failed (.responseOverflow length c.capacity))

namespace Session

variable {s s' : Session} {command : Command} {raw data : Bytes} {err : DownloadError}
  {length : Nat}

theorem keepAnswer_refused (h : s.keepAnswer data = (.error err, s')) : s' = s := by
  unfold keepAnswer at h
  split at h
  · cases h
  · split at h
    · exact (Prod.mk.inj h).2.symm
    · cases h

theorem keepAnswer_overflow (hz : s.response.capacity ≠ 0)
    (hl : s.response.capacity < data.length) : s.keepAnswer data =
      (.error (.failed (.responseOverflow data.length s.response.capacity)), s) := by
  have hn : s.response.store? 0 data = none := dif_neg (by omega)
  unfold keepAnswer
  rw [if_neg hz, hn]

/-- The answer to a command of one frame is its end; if that fails, nothing was put into the
buffer. -/
theorem handleAnswer_ends (hc : s.command = some command) (hs : command.shape = .plain)
    (raw : Bytes) : (∃ s', s.handleAnswer raw = (.done, s')) ∨
      ∃ err s', s.handleAnswer raw = (.failed err, s') ∧ s'.responseLength = s.responseLength := by
  by_cases hr : command = .raw
  · subst hr
    rw [handleAnswer_raw hc]
    split
    · exact .inl ⟨_, rfl⟩
    · rename_i hk
      exact .inr ⟨_, _, rfl, congrArg _ (keepAnswer_refused hk)⟩
  · cases hd : Frame.decode raw with
    | error err =>
      rw [handleAnswer_framed hc hr, hd]
      exact .inr ⟨_, _, rfl, rfl⟩
    | ok answer =>
      rw [handleAnswer_single hc hs hr hd]
      split
      · split
        · exact .inl ⟨_, rfl⟩
        · rename_i hk
          have hs' := keepAnswer_refused (s := { s with resendCount := 0 }) hk
          exact .inr ⟨_, _, rfl, by rw [hs']⟩
      · exact .inr ⟨_, _, rfl, rfl⟩

theorem handleAnswer_overflow (hc : s.command = some command) (hz : s.response.capacity ≠ 0)
    (ho : Overflows command s.response.capacity raw length) : ∃ s', s.handleAnswer raw =
      (.failed (.failed (.responseOverflow length s.response.capacity)), s') := by
  cases ho with
  | @payload answer hq hd hst hl =>
    obtain ⟨ha, hs⟩ := Command.queries_asks hq
    have hr : command ≠ .raw := by
      rintro rfl
      cases ha
    rw [handleAnswer_single hc hs hr hd, if_pos hst,
      keepAnswer_overflow (s := { s with resendCount := 0 }) hz hl]
    exact ⟨_, rfl⟩
  | whole hr hl =>
    subst hr
    rw [handleAnswer_raw hc, keepAnswer_overflow hz hl]
    exact ⟨_, rfl⟩

/-- A raw answer is kept as it came. -/
theorem handleAnswer_whole (hc : s.command = some .raw) (hz : s.response.capacity ≠ 0)
    (h : s.handleAnswer raw = (.done, s')) : s'.response.take s'.responseLength = raw := by
  rw [handleAnswer_raw hc] at h
  split at h
  · rename_i hk
    obtain ⟨-, rfl⟩ := Prod.mk.inj h
    have hkept := keepAnswer_kept (congrArg Prod.fst hk) hz
    rw [hk] at hkept
    exact hkept
  · cases h

end Session

section

variable {c : Call} {result : Except DownloadError Unit} {response : Bytes} {ns : List Notice}

theorem Call.capacity_ne_zero (hv : ¬ c.Invalid)
    (hc : c.command.queries = true ∨ c.command = .raw) : c.capacity ≠ 0 := by
  cases c with
  | getVersion | getSessionState | checkIntegrity => exact hv
  | raw => exact fun hz => hv (.inr hz)
  | _ => rcases hc with hc | hc <;> cases hc

theorem Call.capacity_eq_zero (hc : c.command.mute = true) : c.capacity = 0 := by
  cases c <;> first | rfl | cases hc

theorem Call.silent_of_fits (hf : response.length ≤ c.capacity) (hc : c.command.mute = true) :
    response = [] :=
  List.eq_nil_of_length_eq_zero (Nat.le_zero.1 (c.capacity_eq_zero hc ▸ hf))

theorem Overflows.plain {capacity length : Nat} {command : Command} {raw : Bytes}
    (h : Overflows command capacity raw length) : command.shape = .plain := by
  cases h with
  | payload hq => exact (Command.queries_asks hq).2
  | whole hr => rw [hr]; rfl

theorem Overflows.buffered {capacity length : Nat} {command : Command} {raw : Bytes}
    (h : Overflows command capacity raw length) : command.queries = true ∨ command = .raw := by
  cases h with
  | payload hq => exact .inl hq
  | whole hr => exact .inr hr

/-- A command that is not over with its first answer either reads or has no buffer. -/
theorem Call.returns_readWrite (hs : c.command.shape = .readWrite)
    (hf : response.length ≤ c.capacity) : c.Returns result response ns := by
  refine ⟨hf, fun hq _ => ?_, fun hr _ => ?_, c.silent_of_fits hf,
    fun hr _ _ => c.silent_of_fits hf ?_, fun _ _ _ ho => ?_⟩
  · cases hs.symm.trans (Command.queries_asks hq).2
  · rw [hr] at hs
    cases hs
  · generalize c.command = command at hs hr ⊢
    cases command with
    | read => exact absurd rfl hr
    | write | log | force => rfl
    | _ => cases hs
  · cases hs.symm.trans ho.plain

theorem Call.returns_unanswered (hn : receivedFrames ns = [])
    (hr : c.command ≠ .reset → result ≠ .ok ()) : c.Returns result [] ns := by
  have ho : ∀ raw ∈ receivedFrames ns, False := by
    rw [hn]
    exact fun _ => List.not_mem_nil
  refine ⟨Nat.zero_le _, fun hq hok => absurd hok (hr ?_), fun hraw hok => absurd hok (hr ?_),
    fun _ => rfl, fun _ _ _ => rfl, fun raw hm => (ho raw hm).elim⟩
  · intro hreset
    rw [hreset] at hq
    cases hq
  · rw [hraw]
    exact nofun

theorem Call.Returns.plain {closing : List Notice} (h : c.Returns result response ns)
    (hc : Plain closing) : c.Returns result response (closing ++ ns) := by
  have hn : receivedFrames (closing ++ ns) = receivedFrames ns := by
    rw [receivedFrames_append, hc.receivedFrames_eq_nil, List.append_nil]
  exact ⟨h.fits, hn ▸ h.payload, hn ▸ h.whole, h.silent, h.failed, hn ▸ h.overflow⟩

end

namespace Session

/-- The room is that which the call handed over, and a command of one frame has put nothing into it
yet. -/
structure Receptive (c : Call) (s : Session) (ns : List Notice) : Prop where
  capacity : s.response.capacity = c.capacity
  empty : c.command.shape = .plain → s.responseLength = 0 ∧ receivedFrames ns = []

variable {s s₀ s' : Session} {c : Call} {raw : Bytes} {err : DownloadError} {length : Nat}
  {ns ns' : List Notice}

theorem Receptive.unanswered (h : s₀.Receptive c ns) (hu : s₀.Unanswered s ns') :
    s.Receptive c (ns' ++ ns) := by
  have hn : receivedFrames ns' = [] := by
    cases hu with
    | plain _ hp => exact hp.receivedFrames_eq_nil
    | resent _ hp =>
      rw [← List.singleton_append, receivedFrames_append, hp.receivedFrames_eq_nil]
      rfl
  refine ⟨(congrArg _ (response_of_cargo hu.cargo)).trans h.capacity, fun hs => ?_⟩
  obtain ⟨hz, hns⟩ := h.empty hs
  rw [receivedFrames_append, hns, hn]
  exact ⟨(responseLength_of_cargo hu.cargo).trans hz, rfl⟩

/-! ### The answer to a command of one frame -/

theorem Receptive.fits {verdict : Verdict} (hr : s.Receptive c ns)
    (h : s.handleAnswer raw = (verdict, s')) :
    (s'.response.take s'.responseLength).length ≤ c.capacity := by
  have hk := s.handleAnswer_capacity raw
  rw [h, hr.capacity] at hk
  exact hk ▸ s'.response.length_take_le _

theorem Receptive.overflow (hv : ¬ c.Invalid) (hc : s.command = some c.command)
    (hr : s.Receptive c ns) (ho : Overflows c.command c.capacity raw length) :
    ∃ s', s.handleAnswer raw = (.failed (.failed (.responseOverflow length c.capacity)), s') := by
  have hz : c.capacity ≠ 0 := c.capacity_ne_zero hv ho.buffered
  rw [← hr.capacity] at hz ho ⊢
  exact handleAnswer_overflow hc hz ho

theorem Receptive.done (hv : ¬ c.Invalid) (hs : c.command.shape = .plain)
    (hc : s.command = some c.command) (hr : s.Receptive c ns)
    (h : s.handleAnswer raw = (.done, s')) (hn : receivedFrames ns' = [raw]) :
    c.Returns (.ok ()) (s'.response.take s'.responseLength) (ns' ++ ns) := by
  have hn' : receivedFrames (ns' ++ ns) = [raw] := by
    rw [receivedFrames_append, (hr.empty hs).2, hn]
    rfl
  have hroom : c.command.queries = true ∨ c.command = .raw → s.response.capacity ≠ 0 :=
    fun hb => hr.capacity ▸ c.capacity_ne_zero hv hb
  refine ⟨hr.fits h, fun hq _ => ?_, fun hraw _ => ?_, c.silent_of_fits (hr.fits h), nofun, ?_⟩
  · obtain ⟨answer, hd, hst, hp⟩ := handleAnswer_asks hc (Command.queries_asks hq).1
      (congrArg Prod.fst h)
    rw [h] at hp
    exact ⟨raw, answer, hn', hd, hst, hp (hroom (.inl hq))⟩
  · rw [hn', handleAnswer_whole (hc.trans (congrArg some hraw)) (hroom (.inr hraw)) h]
  · rw [hn']
    intro raw' hm length ho
    obtain rfl := List.mem_singleton.1 hm
    obtain ⟨_, he⟩ := hr.overflow hv hc ho
    cases h.symm.trans he

theorem Receptive.failed (hv : ¬ c.Invalid) (hs : c.command.shape = .plain)
    (hc : s.command = some c.command) (hr : s.Receptive c ns)
    (h : s.handleAnswer raw = (.failed err, s')) (hl : s'.responseLength = s.responseLength)
    (hn : receivedFrames ns' = [raw]) :
    c.Returns (.error err) (s'.response.take s'.responseLength) (ns' ++ ns) := by
  obtain ⟨hz, hns⟩ := hr.empty hs
  refine ⟨hr.fits h, nofun, nofun, c.silent_of_fits (hr.fits h), fun _ _ _ => ?_, ?_⟩
  · rw [hl, hz, ResponseBuffer.take_eq, List.take_zero]
  · rw [receivedFrames_append, hns, hn]
    intro raw' hm length ho
    obtain rfl := List.mem_singleton.1 hm
    obtain ⟨_, he⟩ := hr.overflow hv hc ho
    cases h.symm.trans he
    rfl

end Session

namespace Engine

variable {W : Type} [Host W] {e e₁ e' : Engine W} {s s₁ : Session} {c : Call} {raw : Bytes}
  {ns ns' : List Notice} {id : TimerId} {outcome : Option (Except DownloadError Unit)}

theorem Launches.receivedFrames_eq_nil {armed : Session} {failure : Option DownloadError}
    (h : e.Launches e' armed s ns failure) : receivedFrames ns = [] := by
  cases h <;> rfl

theorem Launches.responseLength_eq {armed : Session} (h : e.Launches e' armed s ns none) :
    s.responseLength = armed.responseLength := by
  cases h with
  | sends hc =>
    obtain ⟨_, _, rfl⟩ := Session.composed hc
    rfl

theorem Reacts.receives {r : Ticket} (hv : ¬ c.Invalid) (hw : e.session.Waiting c.command id)
    (hr : e.session.Receptive c ns)
    (h : e.Reacts e' c.command id (.received r (.ok raw)) s ns' outcome) :
    s.Tells (Session.Receptive c) c.Returns (ns' ++ ns) outcome := by
  cases hs : c.command.shape with
  | readWrite =>
    have hcap := h.capacity.trans hr.capacity
    cases outcome with
    | none => exact ⟨hcap, fun hs' => nomatch hs.symm.trans hs'⟩
    | some result => exact c.returns_readWrite hs (hcap ▸ s.response.length_take_le _)
  | plain =>
    have hr' : e.session.answering.Receptive c ns := ⟨hr.capacity, hr.empty⟩
    have hc : e.session.answering.command = some c.command := hw.command
    have hn := receivedFrames_answerNotices e.session raw
    rcases Session.handleAnswer_ends hc hs raw with ⟨s₁, ha⟩ | ⟨err, s₁, ha, hl⟩
    · obtain ⟨rfl, rfl, rfl⟩ := h.of_done ha
      exact hr'.done hv hs hc ha hn
    · obtain ⟨rfl, rfl, rfl⟩ := h.of_failed ha
      exact hr'.failed hv hs hc ha hl hn

theorem receptive_steady (hv : ¬ c.Invalid) :
    Steady W c.command (Session.Receptive c) c.Returns := by
  apply Steady.of_answers
  · exact fun hr hu => hr.unanswered hu
  · intro s ns result hr hb
    cases hs : c.command.shape with
    | readWrite =>
      exact c.returns_readWrite hs (hr.capacity ▸ s.response.length_take_le _)
    | plain =>
      obtain ⟨hz, hns⟩ := hr.empty hs
      rw [hz, ResponseBuffer.take_eq, List.take_zero]
      refine c.returns_unanswered hns fun hreset hok => ?_
      obtain ⟨err, he, -⟩ := hb.error hreset
      cases hok.symm.trans he
  · exact fun hw hr h => h.receives hv hw hr

/-- A command that was accepted hands back what was received for it, however large its buffer is and
whatever came before. An answer that does not fit ends it, with both lengths. -/
theorem responses_handed_back (config : Config) (library : ImageLibrary) (w : W)
    (before : List (Move W)) (c : Call) (e₁ : Engine W) (later : List (Move W))
    (hc : ((fresh config library w).run before).call c = (.ok (), e₁)) :
    ∃ ns outcome,
      ((fresh config library w).run before).Lifetime (e₁.run later) c.command ns outcome ∧
      (outcome = none → ∀ raw ∈ receivedFrames ns, ∀ length,
        ¬ Overflows c.command c.capacity raw length) ∧
      ∀ result response, outcome = some (result, response) → c.Returns result response ns := by
  have hs := (standing_fresh config library w).run before
  generalize (fresh config library w).run before = e at hc hs
  obtain ⟨-, hv⟩ := valid_of_ok hc
  have hg := grants_call e c
  rw [hc] at hg
  obtain ⟨s₀, s, ns₀, ns, _, _, _, id, hpre, hl, hp, hw⟩ := call_launches hs hc
  have hn : receivedFrames (ns ++ .started c.command :: ns₀) = [] := by
    have hstart : receivedFrames [.started c.command] = [] := rfl
    rw [receivedFrames_append, ← List.singleton_append, receivedFrames_append, hstart,
      hpre.plain_notices.receivedFrames_eq_nil, hl.receivedFrames_eq_nil]
    rfl
  have hb := hl.brackets_started hpre.brackets_eq_nil c.command
  have hr : e₁.session.Receptive c (ns ++ .started c.command :: ns₀) := by
    refine ⟨congrArg _ (hg.room rfl), fun _ => ⟨?_, hn⟩⟩
    rw [hp.session]
    exact hl.responseLength_eq
  have hk : Steady W c.command (Session.Receptive c) c.Returns := receptive_steady hv
  obtain ⟨ns', outcome, hlife, hnone, hsome⟩ := hk.lifetime (fun hc hret => hret.plain hc)
    hp.journal hp.delivered (hp.session ▸ hw) hb hr later
  refine ⟨ns', outcome, hlife, fun ho raw hm length hover => ?_, hsome⟩
  obtain ⟨s', hr'⟩ := hnone ho
  rw [(hr'.empty hover.plain).2] at hm
  cases hm

/-- Three bytes of version, twice. -/
def repeatedVersion : Bench MockLink :=
  { link := { answers := List.replicate 2 (Frame.wrap [0, 0x11, 0x22, 0x33] false) } }

def versionMoves : List (Move (Bench MockLink)) := [.call (.getVersion 3), .handleNext, .handleNext]

/-- The bytes that fitted the first buffer do not show in the second, which is too small. -/
theorem version_behind_version :
    let e := (fresh {} (ImageLibrary.ofList []) repeatedVersion).run versionMoves
    ∃ e₁ ns outcome, e.call (.getVersion 2) = (.ok (), e₁) ∧
      e.Lifetime (e₁.run [.handleNext, .handleNext]) .getVersion ns outcome ∧
      (∀ result response, outcome = some (result, response) →
        (Call.getVersion 2).Returns result response ns) ∧
      (e₁.run [.handleNext, .handleNext]).delivered.map (fun c => (errorOf c.result, c.response)) =
        [(some (.failed (.responseOverflow 3 2)), []), (none, [0x11, 0x22, 0x33])] := by
  dsimp only
  have hrun : (((fresh {} (ImageLibrary.ofList []) repeatedVersion).run versionMoves).call
      (.getVersion 2)).1.isOk = true ∧
      ((((fresh {} (ImageLibrary.ofList []) repeatedVersion).run versionMoves).call
        (.getVersion 2)).2.run [.handleNext, .handleNext]).delivered.map
          (fun c => (errorOf c.result, c.response)) =
        [(some (.failed (.responseOverflow 3 2)), []), (none, [0x11, 0x22, 0x33])] := by
    decide +kernel
  rcases hcall : ((fresh {} (ImageLibrary.ofList []) repeatedVersion).run versionMoves).call
    (.getVersion 2) with ⟨r, e₁⟩
  rw [hcall] at hrun
  cases r with
  | error err => cases hrun.1
  | ok =>
    obtain ⟨ns, outcome, hlife, -, hret⟩ := responses_handed_back {} (ImageLibrary.ofList [])
      repeatedVersion versionMoves (.getVersion 2) e₁ [.handleNext, .handleNext] hcall
    exact ⟨e₁, ns, outcome, rfl, hlife, hret, hrun.2⟩

end Engine

end FirmwareDownload
