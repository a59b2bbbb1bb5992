import FirmwareDownload.Proofs.Bench.Progress
import FirmwareDownload.Proofs.Engine.Refusals

/-! What calls send. The frame of a call that needs only one comes from its arguments and the chip,
and the first frame of any valid call can be built. -/

namespace FirmwareDownload

/-- The frame of a call that needs only one. -/
def Call.frame? (chip : ChipFamily) : Call → Option Bytes
  | .reset => some (Frame.wrap [RequestId.reset, 0, 0, 0] false)
  | .getVersion _ => some (Frame.wrap [RequestId.getVersion, 0, 0, 0] false)
  | .getSessionState _ => some (Frame.wrap [RequestId.getSessionState, 0, 0, 0] false)
  | .checkIntegrity revision _ =>
    let area := if coversUserData revision then
      littleEndian16 chip.userDataArea.1 ++ littleEndian16 chip.userDataArea.2 else []
    some (Frame.wrap ([RequestId.checkIntegrity, 0, 0, 0] ++ area) false)
  | .log entry => some (Frame.wrap ([RequestId.log, 0, 0, 0] ++ entry) false)
  | .force clock =>
    let (p0, p1, p2) := clockBytes clock
    some (Frame.wrap [RequestId.force, p0, p1, p2] false)
  | .raw frame _ => some frame
  | .read _ _ | .readLog _ | .readPlatform | .write _ _ => none

theorem Call.frame?_command {c : Call} {chip : ChipFamily} {frame : Bytes}
    (h : c.frame? chip = some frame) : c.command ≠ .read ∧ c.command ≠ .write := by
  cases c with
  | read | readLog | readPlatform | write => cases h
  | _ => exact ⟨Command.noConfusion, Command.noConfusion⟩

namespace Request

/-- Whatever is in its buffer, a session with the request builds this frame, and changes nothing
else. -/
def Builds (request : Request) (userData : Option Bytes) (frame : Bytes) : Prop :=
  ∀ s : Session, s.request = request → s.userData = userData.map List.toArray →
    ∃ buffer, s.compose = (.ok (), { s with frame := buffer }) ∧ buffer.bytes = frame

variable {request : Request} {userData : Option Bytes}

theorem builds_of_encode {f : Frame} (hl : f.payload.length ≤ 251)
    (hc : ∀ s : Session, s.request = request → s.userData = userData.map List.toArray →
      s.compose = s.setFrame (Transfer.liftFrame (s.frame.encode f))) :
    request.Builds userData f.wire := by
  intro s hr hu
  obtain ⟨buffer, he, hb⟩ := s.setFrame_encode hl
  exact ⟨buffer, (hc s hr hu).trans he, hb⟩

theorem builds_fixed (id : UInt8) :
    (fixed id).Builds Option.none (Frame.wrap [id, 0, 0, 0] false) := by
  refine builds_of_encode (f := fixedFrame id) (Nat.le_of_ble_eq_true rfl) fun s hr _ => ?_
  rw [Session.compose, hr]

theorem builds_integrity (area : Option (UInt16 × UInt16)) :
    (integrity area).Builds Option.none (integrityFrame area).wire := by
  refine builds_of_encode ?_ fun s hr _ => ?_
  · cases area <;> exact Nat.le_of_ble_eq_true rfl
  · rw [Session.compose, hr]

theorem builds_log {entry : Bytes} (hl : entry.length ≤ 64) :
    log.Builds (some entry) (Frame.wrap ([RequestId.log, 0, 0, 0] ++ entry) false) := by
  refine builds_of_encode (f := logFrame entry) ?_ fun s hr hu => ?_
  · simp only [logFrame, List.length_append, List.length_cons, List.length_nil]
    omega
  · rw [Session.compose, hr]
    dsimp only
    rw [hu]
    rfl

theorem builds_force (p0 p1 p2 : UInt8) :
    (force p0 p1 p2).Builds Option.none (Frame.wrap [RequestId.force, p0, p1, p2] false) := by
  refine builds_of_encode (f := forceFrame p0 p1 p2) (Nat.le_of_ble_eq_true rfl) fun s hr _ => ?_
  rw [Session.compose, hr]

theorem builds_raw {frame : Bytes} (hl : frame.length ≤ Frame.maxLength) :
    raw.Builds (some frame) frame := by
  intro s hr hu
  obtain ⟨buffer, he, hb⟩ := s.frame.setRaw_ok hl
  have hc : s.compose = s.setFrame (Transfer.liftFrame (s.frame.setRaw frame)) := by
    rw [Session.compose, hr]
    dsimp only
    rw [hu]
    rfl
  rw [hc, he]
  exact ⟨buffer, rfl, hb⟩

end Request

namespace Engine

variable {W : Type} [Host W] {e e' : Engine W} {c : Call} {frame : Bytes}

/-- A valid call of one frame starts its command on the engine as it is. -/
theorem call_single (hb : e.session.busy = false) (hv : ¬ c.Invalid)
    (hf : c.frame? e.config.chip = some frame) : ∃ request userData,
      request.Builds userData frame ∧
      e.call c = e.start c.command request userData c.capacity := by
  rw [call_idle hb]
  cases c with
  | reset =>
    cases hf
    exact ⟨_, _, Request.builds_fixed _, rfl⟩
  | getVersion capacity =>
    cases hf
    exact ⟨_, _, Request.builds_fixed _, if_neg hv⟩
  | getSessionState capacity =>
    cases hf
    exact ⟨_, _, Request.builds_fixed _, if_neg hv⟩
  | checkIntegrity revision capacity =>
    cases hf
    refine ⟨_, _, ?_, if_neg hv⟩
    cases hr : coversUserData revision with
    | true => exact Request.builds_integrity (some e.config.chip.userDataArea)
    | false => exact Request.builds_integrity none
  | log entry =>
    cases hf
    have hl : 1 ≤ entry.length ∧ entry.length ≤ 64 := Decidable.not_not.1 hv
    refine ⟨_, _, Request.builds_log hl.2, if_neg ?_⟩
    simp only [logAreaSize, ← List.length_eq_zero_iff]
    omega
  | force clock =>
    unfold Engine.callIdle
    dsimp only [Call.frame?] at hf ⊢
    generalize clockBytes clock = pll at hf ⊢
    cases hf
    exact ⟨_, _, Request.builds_force _ _ _, rfl⟩
  | raw _ capacity =>
    cases hf
    obtain ⟨hl, hc⟩ := not_or.1 hv
    have hl : 1 ≤ frame.length ∧ frame.length ≤ 256 := Decidable.not_not.1 hl
    refine ⟨_, _, Request.builds_raw hl.2, (if_neg ?_).trans (if_neg hc)⟩
    simp only [Frame.maxLength, ← List.length_eq_zero_iff]
    omega
  | read | readLog | readPlatform | write => cases hf

/-! ## Valid calls -/

/-- The call comes down to the start of its command, on a session whose first frame can be built. -/
def Embarks (e : Engine W) (c : Call) : Prop :=
  ∃ s ns request userData e₁, e.Passes s ns e₁ ∧ s.phase = .init ∧ s.resendLastFrame = false ∧
    e.call c = e₁.start c.command request userData c.capacity ∧
    ∀ id, ∃ s' n, (s.setOut c.command request userData c.capacity id).compose = (.ok (), s') ∧
      s'.Loaded n

theorem embarks_single (hi : e.session.Idle) (hv : ¬ c.Invalid)
    (hf : c.frame? e.config.chip = some frame) : e.Embarks c := by
  have hb : e.session.busy = false := by rw [hi]; rfl
  obtain ⟨request, userData, hq, hc⟩ := call_single hb hv hf
  obtain ⟨hr, hw⟩ := Call.frame?_command hf
  refine ⟨_, _, request, userData, e, .refl e, by rw [hi]; rfl, by rw [hi]; rfl, hc, fun id => ?_⟩
  obtain ⟨buffer, hs, -⟩ := hq (e.session.setOut c.command request userData c.capacity id) rfl rfl
  refine ⟨_, 1, hs, .asks rfl hr hw ?_⟩
  show e.session.transfer.remaining = 0
  rw [hi]
  rfl

theorem embarks_reading {s : Session} {ns : List Notice} {e₁ : Engine W} {g : ReadRange}
    (hp : e.Passes s ns e₁) (hph : s.phase = .init) (hf : s.resendLastFrame = false)
    (hr : c.command = .read) (hg : g.length = c.capacity) (hz : 0 < g.length)
    (hc : e.call c = e₁.startRead g.addr g.length) : e.Embarks c := by
  refine ⟨_, _, .read g.addr, none, _, hp.update (fun s => s.reading g.addr g.length), hph, hf,
    ?_, fun id => ?_⟩
  · rw [hr, ← hg]
    exact hc
  · obtain ⟨s', hs, hreads⟩ := s.setOut_reading c.command hz id
    rw [← hg]
    obtain ⟨_, _, he⟩ := Session.composed hs
    refine ⟨s', _, hs, .reads ?_ hreads⟩
    rw [he, ← hr]
    rfl

theorem embarks_writing {e₁ : Engine W} {recovery : Bool} {data : Option Bytes} (image : Image)
    (hi : e.session.Idle) (hp : e.Passes e.session [] e₁)
    (hc : e.call (.write recovery data) = e₁.startWrite image.data) :
    e.Embarks (.write recovery data) := by
  refine ⟨_, _, .write, some image.data, _, hp.update Session.writing, by rw [hi]; rfl, rfl, hc,
    fun id => ?_⟩
  obtain ⟨s', body, post, hs, -, hw⟩ := e.session.setOut_writing .write image id
  obtain ⟨_, _, he⟩ := Session.composed hs
  refine ⟨s', _, hs, .writes ?_ hw⟩
  rw [he]
  rfl

omit [Host W] in
theorem lacks_of_chooseImage {recovery : Bool} {err : DownloadError}
    (h : e.chooseImage recovery = (.error err, e')) : ∃ err, e.Lacks recovery err := by
  unfold Engine.chooseImage at h
  dsimp only at h
  split at h
  · cases h
  · rename_i hn
    split at h
    · rename_i err' hl
      refine ⟨err', hl, fun hk => ?_⟩
      cases hp : e.primary with
      | none => rfl
      | some image => exact absurd hp (hn image hk)
    · cases h

/-- A valid call on an idle engine gets as far as its first frame. Only a read of the platform area
may fail before, when the link does not switch the mode. -/
theorem call_embarks (hi : e.session.Idle) (hv : ¬ c.Invalid)
    (hl : ∀ recovery err, c = .write recovery none → ¬ e.Lacks recovery err) :
    (∃ err e', e.call c = (.error (.failed (.link err)), e')) ∨ e.Embarks c := by
  have hb : e.session.busy = false := by rw [hi]; rfl
  have hph : e.session.phase = .init := by rw [hi]; rfl
  have hfr : e.session.resendLastFrame = false := by rw [hi]; rfl
  have hc := call_idle hb c
  cases c with
  | read addr capacity =>
    have hn : capacity ≠ 0 := hv
    exact .inr (embarks_reading (g := ⟨addr, capacity⟩) (.refl e) hph hfr rfl rfl
      (Nat.pos_of_ne_zero hn) (hc.trans (if_neg hn)))
  | readLog capacity =>
    have hn : capacity ≠ 0 := hv
    exact .inr (embarks_reading (g := ⟨logAreaStart, capacity⟩) (.refl e) hph hfr rfl rfl
      (Nat.pos_of_ne_zero hn) (hc.trans (if_neg hn)))
  | readPlatform =>
    have hp := (Passes.refl e).setHostMode .download
    rcases hm : e.setHostMode .download with ⟨r, e₁⟩
    rw [hm] at hp
    unfold Engine.callIdle Engine.callReadPlatform at hc
    dsimp only at hc
    rw [hm] at hc
    cases r with
    | error err => exact .inl ⟨err, e₁, hc⟩
    | ok =>
      exact .inr (embarks_reading (g := ⟨platformAreaStart, platformAreaSize⟩)
        (hp.update (fun s => { s with restoreNormalMode := true })) hph hfr rfl rfl (by decide) hc)
  | write recovery data =>
    refine .inr ?_
    cases data with
    | none =>
      rcases e.chooseImage_cases recovery with ⟨err, he⟩ | ⟨image, e₁, he, hp, -⟩
      · obtain ⟨err, hlacks⟩ := lacks_of_chooseImage he
        exact absurd hlacks (hl recovery err rfl)
      · refine embarks_writing image hi hp (hc.trans ?_)
        unfold Engine.callIdle Engine.callWrite
        dsimp only
        rw [he]
    | some data =>
      obtain ⟨hd, hlaid⟩ := not_or.1 hv
      obtain ⟨image, himage⟩ := (Image.ofBytes_exact data).1.2 ⟨hd, not_not.1 hlaid⟩
      refine embarks_writing image hi (.refl e) (hc.trans ?_)
      rw [Image.data_of_ofBytes himage]
      cases data with
      | nil => exact absurd rfl hd
      | cons b data =>
        unfold Engine.callIdle Engine.callWrite
        dsimp only
        rw [himage]
  | reset | getVersion | getSessionState | checkIntegrity | log | force | raw =>
    exact .inr (embarks_single hi hv rfl)

theorem Embarks.hostFault {err : DownloadError} (h : e.Embarks c)
    (hc : e.call c = (.error err, e')) : HostFault W err := by
  obtain ⟨s, ns, request, userData, e₁, hp, hph, hf, hcall, hcompose⟩ := h
  obtain ⟨s', ns', r, e₂, he, hl, -⟩ := hp.start hph hf c.command request userData c.capacity
  obtain ⟨rfl, rfl⟩ := Prod.mk.inj (he.symm.trans (hcall.symm.trans hc))
  cases hl with
  | noTimer hf => exact hf
  | @frameRefused id _ _ hcomp =>
    obtain ⟨s₂, -, hs, -⟩ := hcompose id
    cases hs.symm.trans hcomp
  | sends _ _ hf => exact hf err rfl

theorem Embarks.loaded (h : e.Embarks c) (hc : e.call c = (.ok (), e')) :
    ∃ n, e'.session.Loaded n := by
  obtain ⟨s, ns, request, userData, e₁, hp, hph, hf, hcall, hcompose⟩ := h
  obtain ⟨s', ns', r, e₂, he, hl, hst⟩ := hp.start hph hf c.command request userData c.capacity
  obtain ⟨rfl, rfl⟩ := Prod.mk.inj (he.symm.trans (hcall.symm.trans hc))
  cases hl with
  | @sends id t s₁ _ hcomp =>
    obtain ⟨s₂, n, hs, hn⟩ := hcompose id
    obtain ⟨-, rfl⟩ := Prod.mk.inj (hs.symm.trans hcomp)
    exact ⟨n, hst.session ▸ hn.congr rfl rfl⟩

theorem valid_of_ok (h : e.call c = (.ok (), e')) : e.session.busy = false ∧ ¬ c.Invalid := by
  cases hb : e.session.busy with
  | true => cases (call_busy hb c).symm.trans h
  | false =>
    refine ⟨rfl, fun hv => ?_⟩
    obtain ⟨fault, hc⟩ := call_invalid hb hv
    cases hc.symm.trans h

/-- A call that was accepted got as far as its first frame. -/
theorem embarks_of_ok (hs : e.Standing) (h : e.call c = (.ok (), e')) : e.Embarks c := by
  obtain ⟨hb, hv⟩ := valid_of_ok h
  have hl : ∀ recovery err, c = .write recovery none → ¬ e.Lacks recovery err := by
    rintro recovery err rfl hl
    cases (call_lacking hb hl).symm.trans h
  rcases call_embarks (hs.idle_of_not_busy hb) hv hl with ⟨err, e₁, hc⟩ | h'
  · cases hc.symm.trans h
  · exact h'

end Engine

end FirmwareDownload
