import FirmwareDownload.Proofs.Bench.Prompt

/-! A command as a conversation: the frames it sends and the answers it gets, in turns. If the link
holds its part and the session the other, the command ends well, two signals for each frame. -/

namespace FirmwareDownload

def Frame.wire (f : Frame) : Bytes := wrap (f.code :: f.payload) f.more

/-- The link takes the frames one after the other and has the answer to each ready. -/
inductive Converses {D : Type} [Link D] : D → List (Bytes × Bytes) → D → Prop
  | nil (d : D) : Converses d [] d
  | cons {d d₁ d' : D} {frame raw : Bytes} {rest : List (Bytes × Bytes)} :
    Replies d frame raw d₁ → Converses d₁ rest d' → Converses d ((frame, raw) :: rest) d'

theorem Converses.single {D : Type} [Link D] {d d' : D} {frame raw : Bytes}
    (h : Replies d frame raw d') : Converses d [(frame, raw)] d' :=
  .cons h (.nil d')

theorem Converses.append {D : Type} [Link D] {d d₁ d' : D} {xs ys : List (Bytes × Bytes)}
    (h : Converses d xs d₁) (h' : Converses d₁ ys d') : Converses d (xs ++ ys) d' := by
  induction h with
  | nil => exact h'
  | cons hr _ ih => exact .cons hr (ih h')

namespace Session

/-- The session, whose frame gets the answer `raw`, goes on with these frames as it gets these
answers, and is done with the last one. What it does not carry makes no difference. -/
def Hears (command : Command) (response : Bytes) : List (Bytes × Bytes) → Session → Bytes → Prop
  | [], s, raw => ∀ s₁ : Session, s₁.cargo = s.cargo → s₁.command = some command →
    ∃ s₂, s₁.handleAnswer raw = (.done, s₂) ∧ s₂.response.take s₂.responseLength = response
  | (frame, raw') :: rest, s, raw => ∀ s₁ : Session, s₁.cargo = s.cargo →
    s₁.command = some command → ∃ s₂ s₃, s₁.handleAnswer raw = (.proceed, s₂) ∧
      { s₂ with phase := .send }.compose = (.ok (), s₃) ∧ s₃.frame.bytes = frame ∧
      Hears command response rest s₃ raw'

/-- The session builds the frames as it gets the answers, and hands over `response` in the end. -/
def Performs (s : Session) (command : Command) (response : Bytes) : List (Bytes × Bytes) → Prop
  | [] => False
  | (frame, raw) :: rest => ∃ s', s.compose = (.ok (), s') ∧ s'.frame.bytes = frame ∧
    Hears command response rest s' raw

end Session

namespace Engine

variable {D : Type} [Link D] {e e₁ : Engine (Bench D)} {s : Session} {d d₁ d' : D}
  {command : Command} {id : TimerId} {raw response : Bytes} {rest : List (Bytes × Bytes)}

theorem compose_kept {s s' : Session} {r : Except DownloadError Unit} (hc : s.compose = (r, s')) :
    s'.resendLastFrame = s.resendLastFrame ∧ s'.timer = s.timer ∧
      s'.restoreNormalMode = s.restoreNormalMode := by
  obtain ⟨_, _, rfl⟩ := Session.composed hc
  exact ⟨rfl, rfl, rfl⟩

theorem Poised.hears (hh : Session.Hears command response rest s raw) (hc : Converses d rest d')
    (h : e.Poised s raw d e₁) (hu : s.Underway command id) (hr : s.restoreNormalMode = false) :
    ∃ e₂, (∀ budget limit, e₁.runToIdle (2 * rest.length + 2 + budget) limit = (true, e₂)) ∧
      e.Settles command (.ok ()) response (Link.abortRead d') e₂ := by
  -- An answer takes two signals, and the frame that is built on it is poised for the next one.
  induction rest generalizing s raw d e₁ with
  | nil =>
    cases hc
    obtain ⟨s₁, s₂, e₂, verdict, hs, hcm, ha, hu₂, hr₂, h₂, hrun⟩ := h.answered hu
    obtain ⟨s₂', ha', hresp⟩ := hh s₁ hs hcm
    obtain ⟨rfl, rfl⟩ := Prod.mk.inj (ha.symm.trans ha')
    have hend := h₂.conclude hu₂.command hu₂.awaited (hr₂.trans hr) (.ok ())
    refine ⟨_, fun budget limit => ?_, hresp ▸ hend⟩
    rw [show 2 * ([] : List (Bytes × Bytes)).length + 2 + budget = budget + 2 from
      Nat.add_comm 2 budget, hrun]
    exact runToIdle_of_idle hend.idle budget limit
  | cons exchange rest ih =>
    obtain ⟨frame, raw'⟩ := exchange
    cases hc with
    | cons hrep hrest =>
      obtain ⟨s₁, s₂, e₂, verdict, hs, hcm, ha, hu₂, hr₂, h₂, hrun⟩ := h.answered hu
      obtain ⟨s₂', s₃, ha', hcomp, hf, hh'⟩ := hh s₁ hs hcm
      obtain ⟨rfl, rfl⟩ := Prod.mk.inj (ha.symm.trans ha')
      obtain ⟨hn, ht, hm⟩ := compose_kept hcomp
      obtain ⟨e₃, hsend, h₃⟩ := (h₂.enter .send).sendNext hu₂.fresh hcomp (hn.trans hu₂.fresh) ht
        (hf ▸ hrep)
      obtain ⟨e₄, hrun', hend⟩ := ih hh' hrest h₃ (hu₂.compose hcomp) (hm.trans (hr₂.trans hr))
      refine ⟨e₄, fun budget limit => ?_, hend⟩
      have hfollow : e₂.follow .proceed = e₃ := by
        unfold follow
        rw [hsend]
        rfl
      rw [show 2 * ((frame, raw') :: rest).length + 2 + budget =
        2 * rest.length + 2 + budget + 2 by rw [List.length_cons]; omega, hrun, hfollow, hrun']

/-! ## Calls -/

/-- No session is in flight, no signal waits, and no call on the bench fails. -/
structure Rests (e : Engine (Bench D)) (d : D) : Prop where
  idle : e.session.Idle
  queue_eq : e.queue = []
  calm : e.world.Calm d

/-- The command that a call starts at `e` ends well within so many signals. -/
structure Serves (e : Engine (Bench D)) (command : Command) (signals : Nat) (response : Bytes)
    (d : D) (started : Except DownloadError Unit × Engine (Bench D)) (e' : Engine (Bench D)) :
    Prop where
  accepted : started.1 = .ok ()
  ends : ∀ budget limit, signals ≤ budget → started.2.runToIdle budget limit = (true, e')
  settles : e.Settles command (.ok ()) response d e'

theorem Reaches.start {request : Request} {userData : Option Bytes} {capacity : Nat}
    {exchanges : List (Bytes × Bytes)} (h : e.Reaches s [] d e₁)
    (hf : s.resendLastFrame = false) (hr : s.restoreNormalMode = false)
    (hp : ∀ id, ({ (s.armed command request userData capacity).timed id with
      phase := .send } : Session).Performs command response exchanges)
    (hc : Converses d exchanges d') :
    ∃ e', e.Serves command (2 * exchanges.length) response (Link.abortRead d')
      (e₁.start command request userData capacity) e' := by
  have h₁ := (h.update (fun s => s.armed command request userData capacity) fun _ hid =>
    hid).note (.started command)
  obtain rfl := h.session
  obtain ⟨id, e₂, ht, h₂⟩ := h₁.createTimer
  have hperf := hp id
  cases hc with
  | nil => exact hperf.elim
  | cons hrep hrest =>
    obtain ⟨s', hcomp, hfr, hh⟩ := hperf
    obtain ⟨hn, htm, hm⟩ := compose_kept hcomp
    obtain ⟨e₃, hsend, h₃⟩ := (h₂.enter .send).sendNext hf hcomp (hn.trans hf) htm (hfr ▸ hrep)
    have hu : ((e₁.session.armed command request userData capacity).timed id).Underway command id :=
      ⟨rfl, rfl, rfl, rfl, hf⟩
    obtain ⟨e₄, hrun, hend⟩ := h₃.hears hh hrest (hu.compose hcomp) (hm.trans hr)
    have hs : e₁.start command request userData capacity = (.ok (), e₃) := by
      rw [start_eq]
      unfold launch
      rw [ht]
      dsimp only
      rw [hsend]
    refine ⟨e₄, ?_, ?_, hend⟩
    · rw [hs]
    · intro budget limit hb
      rw [hs]
      obtain ⟨k, rfl⟩ := Nat.le.dest hb
      exact hrun k limit

end Engine

end FirmwareDownload
