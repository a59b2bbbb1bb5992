import FirmwareDownload.Proofs.Engine.Invariant

/-! A session followed from signal to signal. What holds of it between two signals and what holds
of its end is carried through any run by one lemma about a single signal. -/

namespace FirmwareDownload

/-- The failure is not that of an answer for which there was no room. -/
def DownloadError.Fits (err : DownloadError) : Prop :=
  ∀ length capacity, err ≠ .failed (.responseOverflow length capacity)

namespace Session

/-- All that a session sends and gathers. -/
def cargo (s : Session) :
    Request × Option (Array UInt8) × ResponseBuffer × Nat × FrameBuffer × Transfer :=
  (s.request, s.userData, s.response, s.responseLength, s.frame, s.transfer)

theorem response_of_cargo {s s' : Session} (h : s.cargo = s'.cargo) : s.response = s'.response :=
  congrArg (·.2.2.1) h

theorem responseLength_of_cargo {s s' : Session} (h : s.cargo = s'.cargo) :
    s.responseLength = s'.responseLength :=
  congrArg (·.2.2.2.1) h

theorem frame_of_cargo {s s' : Session} (h : s.cargo = s'.cargo) : s.frame = s'.frame :=
  congrArg (·.2.2.2.2.1) h

theorem transfer_of_cargo {s s' : Session} (h : s.cargo = s'.cargo) : s.transfer = s'.transfer :=
  congrArg (·.2.2.2.2.2) h

/-- Without an answer a session keeps all that it sends and gathers. At most the last frame is sent
again, where that was waited for. -/
inductive Unanswered (s₀ s : Session) : List Notice → Prop
  | plain {ns : List Notice} : s.cargo = s₀.cargo → Plain ns →
    (s.phase = .timer → s.timer.purpose = .response) → Unanswered s₀ s ns
  | resent {ns : List Notice} : s.cargo = s₀.cargo → Plain ns → s₀.phase = .timer →
    s₀.timer.purpose = .resendWait → s.phase = .recv →
    Unanswered s₀ s (.sent s₀.frame.bytes :: ns)

theorem Unanswered.cargo {s₀ s : Session} {ns : List Notice} (h : s₀.Unanswered s ns) :
    s.cargo = s₀.cargo := by
  cases h with
  | plain hc => exact hc
  | resent hc => exact hc

/-- The session goes on and `Holds`, or it has its end, with what it hands over. -/
def Tells (s : Session) (Holds : Session → List Notice → Prop)
    (Ends : Except DownloadError Unit → Bytes → List Notice → Prop) (ns : List Notice) :
    Option (Except DownloadError Unit) → Prop
  | none => Holds s ns
  | some result => Ends result (s.response.take s.responseLength) ns

end Session

namespace Engine

variable {W : Type} [Host W] {e e₀ e' : Engine W} {command : Command} {id : TimerId}
  {signal : Signal} {s : Session} {ns : List Notice}
  {outcome : Option (Except DownloadError Unit)}

theorem HostFault.fits {err : DownloadError} (h : HostFault W err) : err.Fits := by
  cases h <;> exact nofun

/-- How a session ends that got no answer: the link or the host failed it, or all was silent. -/
inductive Breaks (W : Type) [Host W] (command : Command) : Except DownloadError Unit → Prop
  | link (err : LinkError) : Breaks W command (.error (.failed (.link err)))
  | fault {err : DownloadError} : HostFault W err → Breaks W command (.error err)
  | silence : Breaks W command (silenceResult command)

theorem Breaks.error {result : Except DownloadError Unit} (hc : command ≠ .reset)
    (h : Breaks W command result) : ∃ err, result = .error err ∧ err.Fits := by
  cases h with
  | link err => exact ⟨_, rfl, nofun⟩
  | fault hf => exact ⟨_, rfl, hf.fits⟩
  | silence => exact ⟨.timeout, if_neg hc, nofun⟩

theorem Reacts.unanswered (ha : e.session.Awaits signal)
    (hs : ∀ r raw, signal ≠ .received r (.ok raw))
    (h : e.Reacts e' command id signal s ns outcome) :
    e.session.Unanswered s ns ∧ ∀ result, outcome = some result → Breaks W command result := by
  have hu : Unhindered W outcome → ∀ result, outcome = some result → Breaks W command result := by
    intro ho result he
    cases ho with
    | goes => cases he
    | fails hf =>
      cases he
      exact .fault hf
  cases h with
  | writeFailed =>
    refine ⟨.plain rfl (.of_all rfl) (fun hp => nomatch ha.1.symm.trans hp), ?_⟩
    rintro _ ⟨⟩
    exact .link _
  | timerRefused hf =>
    refine ⟨.plain rfl (.of_all rfl) (fun hp => nomatch ha.1.symm.trans hp), ?_⟩
    rintro _ ⟨⟩
    exact .fault hf
  | listens _ _ ho => exact ⟨.plain rfl (.of_all rfl) fun _ => rfl, hu ho⟩
  | readFailed =>
    refine ⟨.plain rfl (e.session.plain_haltNotices.cons rfl) (fun hp => nomatch hp), ?_⟩
    rintro _ ⟨⟩
    exact .link _
  | silent =>
    refine ⟨.plain rfl ((Session.plain_venResetNotices _ _).append (.of_all rfl))
      (fun hp => nomatch hp), ?_⟩
    rintro _ ⟨⟩
    exact .silence
  | resends hp _ ho => exact ⟨.resent rfl (.of_all rfl) ha.1 hp rfl, hu ho⟩
  | _ => exact absurd rfl (hs _ _)

theorem Reacts.resend_fits {r : Ticket} {raw : Bytes} {err : DownloadError}
    (hv : (e.session.answering.handleAnswer raw).1 = .resend)
    (h : e.Reacts e' command id (.received r (.ok raw)) s ns (some (.error err))) : err.Fits := by
  cases h with
  | exhausted => exact nofun
  | waitRefused _ hf => exact hf.fits
  | _ => cases hv.symm.trans ‹_›

variable {Holds : Session → List Notice → Prop}
  {Ends : Except DownloadError Unit → Bytes → List Notice → Prop}

/-- Whatever signal a session of the command waits for, what holds of it is kept, or it ends so. -/
def Steady (W : Type) [Host W] (command : Command) (Holds : Session → List Notice → Prop)
    (Ends : Except DownloadError Unit → Bytes → List Notice → Prop) : Prop :=
  ∀ {e e' : Engine W} {id : TimerId} {signal : Signal} {s : Session} {ns ns' : List Notice}
    {outcome : Option (Except DownloadError Unit)},
    e.session.Waiting command id → e.session.Awaits signal → Holds e.session ns →
    e.Reacts e' command id signal s ns' outcome → s.Tells Holds Ends (ns' ++ ns) outcome

theorem Unhindered.tells (ho : Unhindered W outcome) (hh : Holds s ns)
    (hb : ∀ result, Breaks W command result →
      Ends result (s.response.take s.responseLength) ns) :
    s.Tells Holds Ends ns outcome := by
  cases ho with
  | goes => exact hh
  | fails hf => exact hb _ (.fault hf)

/-- Only the answers to a command are its own affair. -/
theorem Steady.of_answers
    (hkeep : ∀ {s₀ s : Session} {ns ns' : List Notice}, Holds s₀ ns → s₀.Unanswered s ns' →
      Holds s (ns' ++ ns))
    (hbreak : ∀ {s : Session} {ns : List Notice} {result : Except DownloadError Unit}, Holds s ns →
      Breaks W command result → Ends result (s.response.take s.responseLength) ns)
    (hanswer : ∀ {e e' : Engine W} {id : TimerId} {r : Ticket} {raw : Bytes} {s : Session}
      {ns ns' : List Notice} {outcome : Option (Except DownloadError Unit)},
      e.session.Waiting command id → Holds e.session ns →
      e.Reacts e' command id (.received r (.ok raw)) s ns' outcome →
      s.Tells Holds Ends (ns' ++ ns) outcome) :
    Steady W command Holds Ends := by
  intro e e' id signal s ns ns' outcome hw ha hh h
  by_cases hs : ∃ r raw, signal = .received r (.ok raw)
  · obtain ⟨r, raw, rfl⟩ := hs
    exact hanswer hw hh h
  · obtain ⟨hu, hb⟩ := h.unanswered ha fun r raw he => hs ⟨r, raw, he⟩
    cases outcome with
    | none => exact hkeep hh hu
    | some result => exact hbreak (hkeep hh hu) (hb result rfl)

/-- Since `e₀` a session of the command was started: it is under way, or it is over. -/
inductive Follows (e₀ : Engine W) (command : Command) (Holds : Session → List Notice → Prop)
    (Ends : Except DownloadError Unit → Bytes → List Notice → Prop) (e : Engine W) : Prop
  | underway {ns : List Notice} {id : TimerId} : e.journal = ns ++ e₀.journal →
    e.delivered = e₀.delivered → e.session.Waiting command id → Holds e.session ns →
    Follows e₀ command Holds Ends e
  | ended {closing ns : List Notice} {result : Except DownloadError Unit} {response : Bytes} :
    e.journal = .finished command (errorOf result) :: (closing ++ ns) ++ e₀.journal →
    Plain closing → e.session.Idle → e.delivered = ⟨command, result, response⟩ :: e₀.delivered →
    Ends result response ns → Follows e₀ command Holds Ends e

omit [Host W] in
theorem Follows.standing (h : e₀.Follows command Holds Ends e) : e.Standing := by
  cases h with
  | underway _ _ hw => exact .inr ⟨_, _, hw⟩
  | ended _ _ hi => exact .inl hi

theorem Follows.handles (hk : Steady W command Holds Ends) (h : e₀.Follows command Holds Ends e)
    (hh : e.Handles e') : e₀.Follows command Holds Ends e' := by
  cases hh with
  | nothing => exact h
  | ignores =>
    cases h with
    | underway hj hd hw hp => exact .underway hj hd hw hp
    | ended hj hc hi hd hp => exact .ended hj hc hi hd hp
  | @reacts signal rest command' id s ns' outcome _ _ hw ha hr ht =>
    cases h with
    | ended _ _ hi =>
      -- Once the session is over none waits for a signal.
      have hb : e.session.busy = false := by rw [hi]; rfl
      cases hb.symm.trans hw.busy
    | @underway ns id' hj hd hw' hp =>
      obtain rfl := Option.some.inj (hw'.command.symm.trans hw.command)
      have hs := hk (e := e.popped rest) hw ha hp hr
      have hj₀ : (e.popped rest).journal = ns ++ e₀.journal := hj
      cases outcome with
      | none =>
        have hw₁ := Reacts.waiting (e := e.popped rest) hw ha hr rfl
        have hj₁ : e'.journal = (ns' ++ ns) ++ e₀.journal := by
          rw [ht.journal, hj₀, List.append_assoc]
        exact .underway hj₁ (ht.delivered.trans hd) (ht.session ▸ hw₁) (ht.session ▸ hs)
      | some result =>
        have hj₁ : e'.journal = .finished command (errorOf result) ::
            ((s.moveNotices .init ++ s.releaseNotices) ++ (ns' ++ ns)) ++ e₀.journal := by
          rw [ht.journal, hj₀]
          simp only [List.cons_append, List.append_assoc]
        exact .ended hj₁ s.plain_endNotices (ht.session ▸ Session.idle_reset s)
          (ht.delivered.trans (congrArg (_ :: ·) hd)) hs

theorem Follows.move (hk : Steady W command Holds Ends) (h : e₀.Follows command Holds Ends e)
    {m : Move W} (hm : m.Serves) : e₀.Follows command Holds Ends (e.move m) := by
  cases hm with
  | handleNext => exact h.handles hk h.standing.handleNext_handles
  | arrive signals =>
    cases h with
    | underway hj hd hw hp => exact .underway hj hd hw hp
    | ended hj hc hi hd hp => exact .ended hj hc hi hd hp
  | pass w =>
    cases h with
    | underway hj hd hw hp => exact .underway hj hd hw hp
    | ended hj hc hi hd hp => exact .ended hj hc hi hd hp

theorem Follows.run (hk : Steady W command Holds Ends) (h : e₀.Follows command Holds Ends e)
    {moves : List (Move W)} (hm : ∀ m ∈ moves, Move.Serves m) :
    e₀.Follows command Holds Ends (e.run moves) := by
  induction moves generalizing e with
  | nil => exact h
  | cons m moves ih =>
    exact ih (h.move hk (hm m (List.mem_cons_self ..)))
      (fun m' hm' => hm m' (List.mem_cons_of_mem m hm'))

end Engine

end FirmwareDownload
