import FirmwareDownload.Proofs.Engine.BusyMemory
import FirmwareDownload.Proofs.Engine.Lifetime
import FirmwareDownload.Proofs.Engine.Requests

/-! Commands of one frame. Nothing that an engine did before leaves a mark on the frame, and the
session sends no other: this one goes out once, and again only while the memory is busy. -/

namespace FirmwareDownload

section

variable {ns : List Notice} {frame : Bytes}

theorem mem_sentFrames_of_lastSent (h : lastSent ns = some frame) : frame ∈ sentFrames ns := by
  induction ns with
  | nil => cases h
  | cons n ns ih =>
    rw [sentFrames_cons]
    cases n with
    | sent frame' =>
      cases h
      exact List.mem_append_right _ (List.mem_singleton_self _)
    | _ => exact List.mem_append_left _ (ih h)

/-- Frames that were sent again had been sent before. -/
theorem mem_freshFrames (h : frame ∈ sentFrames ns) : frame ∈ freshFrames ns := by
  induction ns with
  | nil => cases h
  | cons n ns ih =>
    rw [sentFrames_cons] at h
    cases n with
    | sent frame' =>
      rw [freshFrames]
      rcases List.mem_append.1 h with h | h
      · exact List.mem_append_left _ (ih h)
      · obtain rfl := List.mem_singleton.1 h
        by_cases hr : Retransmits ns frame
        · exact List.mem_append_left _ (ih (mem_sentFrames_of_lastSent hr.2))
        · rw [if_neg hr]
          exact List.mem_append_right _ (List.mem_singleton_self _)
    | _ => exact ih ((List.mem_append.1 h).resolve_right List.not_mem_nil)

end

/-- One frame was sent, and again only behind busy answers; a command that does not wait for the
memory sent it once. -/
structure SentAlone (command : Command) (frame : Bytes) (ns : List Notice) : Prop where
  fresh : freshFrames ns = [frame]
  once : command.shape = .plain → sentFrames ns = [frame]

theorem SentAlone.append {command : Command} {frame : Bytes} {ns ns' : List Notice}
    (h : SentAlone command frame ns) (hf : freshFrames (ns' ++ ns) = freshFrames ns)
    (hs : command.shape = .plain → sentFrames ns' = []) :
    SentAlone command frame (ns' ++ ns) := by
  refine ⟨hf.trans h.fresh, fun hp => ?_⟩
  rw [sentFrames_append, hs hp, List.append_nil]
  exact h.once hp

theorem SentAlone.plain {command : Command} {frame : Bytes} {ns ns' : List Notice}
    (h : SentAlone command frame ns) (hp : Plain ns') : SentAlone command frame (ns' ++ ns) :=
  h.append (hp.sameExchange ns).freshFrames fun _ => hp.sentFrames_eq_nil

/-- The one frame was sent again, behind a busy answer. -/
theorem SentAlone.again {command : Command} {frame : Bytes} {ns : List Notice}
    (h : SentAlone command frame ns) (hs : command.shape = .readWrite)
    (hr : Retransmits ns frame) : SentAlone command frame (.sent frame :: ns) := by
  rw [← List.singleton_append]
  refine h.append ?_ fun hp => nomatch hs.symm.trans hp
  rw [List.singleton_append, freshFrames, if_pos hr, List.append_nil]

theorem SentAlone.answered {command : Command} {frame raw : Bytes} {ns : List Notice}
    (h : SentAlone command frame ns) (s : Session) :
    SentAlone command frame (s.answerNotices raw ++ ns) :=
  h.append (s.sameExchange_answerNotices raw ns).freshFrames fun _ =>
    congrArg (List.filterMap Notice.sent?) (s.marks_answerNotices raw)

namespace Session

/-- The one frame of the command is in flight, and nothing is left behind it. -/
structure Sends (command : Command) (frame : Bytes) (s : Session) (ns : List Notice) : Prop extends
    SentAlone command frame ns where
  bytes : s.frame.bytes = frame
  last : lastSent ns = some frame
  alone : s.transfer.remaining = 0
  waits : s.phase = .timer → s.timer.purpose = .resendWait →
    command.shape = .readWrite ∧ owesResend ns = true

variable {s s₀ : Session} {command : Command} {frame : Bytes} {ns ns' : List Notice}

theorem Sends.unanswered (h : s₀.Sends command frame ns) (hu : s₀.Unanswered s ns') :
    s.Sends command frame (ns' ++ ns) := by
  have hb : s.frame.bytes = frame :=
    (congrArg FrameBuffer.bytes (frame_of_cargo hu.cargo)).trans h.bytes
  have ha : s.transfer.remaining = 0 :=
    (congrArg Transfer.remaining (transfer_of_cargo hu.cargo)).trans h.alone
  cases hu with
  | plain _ hp hq =>
    refine ⟨h.plain hp, hb, (hp.sameExchange ns).lastSent.trans h.last, ha, fun hph hq' => ?_⟩
    cases (hq hph).symm.trans hq'
  | @resent ns₁ _ hp hph hq hph' =>
    obtain ⟨hs, ho⟩ := h.waits hph hq
    have hx := hp.sameExchange ns
    have hr : Retransmits (ns₁ ++ ns) frame := ⟨hx.owesResend.trans ho, hx.lastSent.trans h.last⟩
    rw [h.bytes]
    refine ⟨(h.plain hp).again hs hr, hb, rfl, ha, fun hph'' => ?_⟩
    cases hph'.symm.trans hph''

end Session

namespace Engine

variable {W : Type} [Host W] {e e' : Engine W} {s : Session} {c : Call} {command : Command}
  {frame raw : Bytes} {ns ns' : List Notice} {id : TimerId}
  {outcome : Option (Except DownloadError Unit)}

/-- A busy answer is waited out; any other one ends the command. -/
theorem Reacts.sends_answered {r : Ticket} (hr : command ≠ .read) (hw : command ≠ .write)
    (hwait : e.session.Waiting command id) (hs : e.session.Sends command frame ns)
    (h : e.Reacts e' command id (.received r (.ok raw)) s ns' outcome) :
    s.Tells (Session.Sends command frame) (fun _ _ => SentAlone command frame) (ns' ++ ns)
      outcome := by
  have hnext : (e.session.answering.handleAnswer raw).1 ≠ .proceed :=
    Session.handleAnswer_remaining (s := e.session.answering)
      (fun he => hr (Option.some.inj (hwait.command.symm.trans he)))
      (fun he => hw (Option.some.inj (hwait.command.symm.trans he))) hs.alone raw
  have ha : SentAlone command frame (e.session.answerNotices raw ++ ns) := hs.answered e.session
  rcases hv : e.session.answering.handleAnswer raw with ⟨verdict, s₁⟩
  rw [hv] at hnext
  cases verdict with
  | proceed => exact absurd rfl hnext
  | done =>
    obtain ⟨rfl, rfl, rfl⟩ := h.of_done hv
    exact ha
  | failed err =>
    obtain ⟨rfl, rfl, rfl⟩ := h.of_failed hv
    exact ha
  | resend =>
    obtain ⟨he, hb⟩ := Session.handleAnswer_resend hv
    obtain ⟨after, hp, rfl, h'⟩ := h.of_resend hv
    have hx := (hp.sameExchange _).trans (e.session.sameExchange_answerNotices raw ns)
    rw [List.append_assoc]
    rcases h' with ⟨rfl, err, rfl⟩ | ⟨t, rfl, rfl⟩
    · exact ha.plain hp
    · subst he
      refine ⟨ha.plain hp, hs.bytes, hx.lastSent.trans hs.last, hs.alone, fun _ _ => ⟨?_, ?_⟩⟩
      · exact Session.handleAnswer_resend_shape (s := e.session.answering) hwait.command
          (congrArg Prod.fst hv)
      · refine hx.owesResend.trans ?_
        rw [owesResend, hb]
        rfl

theorem sends_steady (hr : command ≠ .read) (hw : command ≠ .write) (frame : Bytes) :
    Steady W command (Session.Sends command frame) (fun _ _ => SentAlone command frame) := by
  apply Steady.of_answers
  · exact fun hs hu => hs.unanswered hu
  · exact fun hs _ => hs.toSentAlone
  · exact fun hwait hs h => h.sends_answered hr hw hwait hs

/-! ## From the call on -/

theorem Launches.single {s₀ : Session} {request : Request} {userData : Option Bytes}
    {capacity : Nat} {failure : Option DownloadError} (hq : request.Builds userData frame)
    (ht : s₀.transfer.remaining = 0)
    (h : e.Launches e' (s₀.armed command request userData capacity) s ns failure) :
    (∀ err, failure = some err →
      HostFault W err ∧ (sentFrames ns = [] ∨ sentFrames ns = [frame])) ∧
    (failure = none → s.Sends command frame (ns ++ [.started command])) := by
  have hbuilds := fun id => hq (s₀.setOut command request userData capacity id) rfl rfl
  cases h with
  | noTimer hf =>
    refine ⟨?_, nofun⟩
    rintro _ ⟨⟩
    exact ⟨hf, .inl rfl⟩
  | @frameRefused id _ _ hc =>
    obtain ⟨buffer, hs, -⟩ := hbuilds id
    cases hs.symm.trans hc
  | @sends id t s₁ _ hc _ hf =>
    obtain ⟨buffer, hs, rfl⟩ := hbuilds id
    obtain ⟨-, rfl⟩ := Prod.mk.inj (hs.symm.trans hc)
    exact ⟨fun err he => ⟨hf err he, .inr rfl⟩, fun _ => ⟨⟨rfl, fun _ => rfl⟩, rfl, rfl, ht, nofun⟩⟩

/-- All that the engine sends for the call is this frame. A call that is refused sends nothing, and
one that the host fails sends it at most. Behind any moves, the session of an accepted call sent it
for the first time once, and again only for a log or a force, each time behind a busy answer. -/
structure HandsOver (e : Engine W) (c : Call) (frame : Bytes) : Prop where
  failed : ∀ err e', e.call c = (.error err, e') → ∃ ns, e'.journal = ns ++ e.journal ∧
    (c.Invalid ∧ ns = [] ∨ HostFault W err ∧ (sentFrames ns = [] ∨ sentFrames ns = [frame]))
  accepted : ∀ e' moves, e.call c = (.ok (), e') → ∃ ns outcome,
    e.Lifetime (e'.run moves) c.command ns outcome ∧ freshFrames ns = [frame] ∧
    (∀ sent ∈ sentFrames ns, sent = frame) ∧
    (c.command = .log ∨ c.command = .force ∨ sentFrames ns = [frame])

theorem single_failed (hi : e.session.Idle) (hf : c.frame? e.config.chip = some frame)
    {err : DownloadError} (h : e.call c = (.error err, e')) : ∃ ns, e'.journal = ns ++ e.journal ∧
      (c.Invalid ∧ ns = [] ∨
        HostFault W err ∧ (sentFrames ns = [] ∨ sentFrames ns = [frame])) := by
  have hb : e.session.busy = false := by rw [hi]; rfl
  by_cases hv : c.Invalid
  · obtain ⟨fault, hc⟩ := call_invalid hb hv
    cases hc.symm.trans h
    exact ⟨[], rfl, .inl ⟨hv, rfl⟩⟩
  · obtain ⟨request, userData, hq, hc⟩ := call_single hb hv hf
    obtain ⟨s, ns, r, e₂, he, hl, hst⟩ := (Passes.refl e).start (by rw [hi]; rfl)
      (by rw [hi]; rfl) c.command request userData c.capacity
    obtain ⟨rfl, rfl⟩ := Prod.mk.inj (he.symm.trans (hc.symm.trans h))
    obtain ⟨hfault, hsent⟩ := (hl.single hq (by rw [hi]; rfl)).1 err rfl
    have hstart : sentFrames [.started c.command] = [] := rfl
    have hfinish : sentFrames [.finished c.command (some err)] = [] := rfl
    refine ⟨_, hst.journal, .inr ⟨hfault, ?_⟩⟩
    rw [sentFrames_cons, sentFrames_append, s.plain_releaseNotices.sentFrames_eq_nil,
      sentFrames_append, hstart, hfinish]
    simpa using hsent

theorem single_accepted (hs : e.Standing) (hf : c.frame? e.config.chip = some frame)
    (h : e.call c = (.ok (), e')) (moves : List (Move W)) : ∃ ns outcome,
      e.Lifetime (e'.run moves) c.command ns outcome ∧ SentAlone c.command frame ns := by
  obtain ⟨hb, hv⟩ := valid_of_ok h
  have hi := hs.idle_of_not_busy hb
  obtain ⟨hread, hwrite⟩ := Call.frame?_command hf
  obtain ⟨request, userData, hq, hc⟩ := call_single hb hv hf
  have hfresh : e.session.resendLastFrame = false := by rw [hi]; rfl
  obtain ⟨s, ns, r, e₂, he, hl, hst⟩ := (Passes.refl e).start (by rw [hi]; rfl) hfresh
    c.command request userData c.capacity
  obtain ⟨rfl, rfl⟩ := Prod.mk.inj (he.symm.trans (hc.symm.trans h))
  obtain ⟨id, hw⟩ := hl.waiting rfl rfl rfl hfresh (by rw [hi]; rfl)
  have hsends := (hl.single hq (by rw [hi]; rfl)).2 rfl
  have hbr : brackets (ns ++ [.started c.command]) = [.started c.command] :=
    hl.brackets_started rfl c.command
  have hk : Steady W c.command (Session.Sends c.command frame)
      (fun _ _ => SentAlone c.command frame) :=
    sends_steady hread hwrite frame
  obtain ⟨ns', outcome, hlife, hnone, hsome⟩ := hk.lifetime (fun hp ha => ha.plain hp) hst.journal
    hst.delivered (hst.session ▸ hw) hbr (hst.session ▸ hsends) moves
  refine ⟨ns', outcome, hlife, ?_⟩
  cases outcome with
  | none =>
    obtain ⟨s', hs'⟩ := hnone rfl
    exact hs'.toSentAlone
  | some ending => exact hsome ending.1 ending.2 rfl

theorem handsOver (hs : e.Standing) (hb : e.isBusy = false)
    (hf : c.frame? e.config.chip = some frame) : e.HandsOver c frame := by
  refine ⟨fun err e' h => single_failed (hs.idle_of_not_busy hb) hf h, fun e' moves h => ?_⟩
  obtain ⟨ns, outcome, hlife, ha⟩ := single_accepted hs hf h moves
  have hsent : ∀ sent ∈ sentFrames ns, sent = frame := by
    intro sent hm
    have hm' := mem_freshFrames hm
    rw [ha.fresh] at hm'
    exact List.mem_singleton.1 hm'
  refine ⟨ns, outcome, hlife, ha.fresh, hsent, ?_⟩
  cases c with
  | log => exact .inl rfl
  | force => exact .inr (.inl rfl)
  | read | readLog | readPlatform | write => cases hf
  | _ => exact .inr (.inr (ha.once rfl))

end Engine

end FirmwareDownload
