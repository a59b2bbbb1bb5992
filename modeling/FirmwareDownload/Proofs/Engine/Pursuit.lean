import FirmwareDownload.Proofs.Engine.Answers

/-! A command from its call to its end. It is under way until a signal ends it, and then it is
delivered with what the controller answered. -/

namespace FirmwareDownload

/-- The room that a call hands over for the answer. -/
def Call.capacity : Call → Nat
  | .getVersion capacity => capacity
  | .getSessionState capacity => capacity
  | .checkIntegrity _ capacity => capacity
  | .read _ capacity => capacity
  | .readLog capacity => capacity
  | .readPlatform => platformAreaSize
  | .raw _ capacity => capacity
  | _ => 0

/-- The end of a command fits what was noted since its call. -/
structure Accords (command : Command) (capacity : Nat) (ns : List Notice)
    (result : Except DownloadError Unit) (response : Bytes) : Prop where
  report : command ≠ .write → ∀ err, result = .error err → err.report? = none
  answer : command.asks = true → result = .ok () →
    ∃ raw answer, .received raw ∈ ns ∧ Frame.decode raw = .ok answer ∧ answer.status = .ok ∧
      (capacity ≠ 0 → response = answer.payload)

namespace Engine

variable {W : Type} [Host W] {e e₀ e₁ e' : Engine W} {c : Call} {ns : List Notice}
  {err : DownloadError}

/-! ## Calls that are accepted, and calls that are not -/

/-- The operation does not change the room for the answer, and it does not fail in a way that an
image may mend. -/
structure Issues (e : Engine W) (r : Except DownloadError Unit × Engine W) : Prop where
  response : r.2.session.response = e.session.response
  report : ∀ err, r.1 = .error err → err.report? = none

omit [Host W] in
theorem Issues.after {r : Except DownloadError Unit × Engine W} (h : e₁.Issues r)
    (he : e₁.session.response = e.session.response) : e.Issues r :=
  ⟨h.response.trans he, h.report⟩

theorem issues_createTimer (e : Engine W) : e.Issues e.createTimer := by
  rcases (Passes.refl e).createTimer with ⟨err, e₂, he, hf, hp⟩ | ⟨id, e₂, he, hp⟩
  · rw [he]
    exact ⟨by rw [hp.session], by rintro _ ⟨⟩; exact hf.report⟩
  · rw [he]
    exact ⟨by rw [hp.session]; rfl, nofun⟩

theorem issues_writeFrame (e : Engine W) : e.Issues e.writeFrame := by
  obtain ⟨r, t, e₂, he, hr, -, hp⟩ := (Passes.refl e).writeFrame
  rw [he]
  exact ⟨by rw [hp.session], fun err h => (hr err h).report⟩

theorem issues_sendNext (e : Engine W) : e.Issues e.sendNext := by
  unfold Engine.sendNext
  split
  · exact (issues_writeFrame _).after rfl
  · have hr := e.session.compose_response
    split <;> rename_i hc <;> rw [hc] at hr
    · refine ⟨hr, ?_⟩
      rintro _ ⟨⟩
      exact Session.compose_report hc
    · exact (issues_writeFrame _).after hr

theorem issues_launch (e : Engine W) : e.Issues e.launch := by
  have hc := issues_createTimer e
  unfold Engine.launch
  split <;> rename_i he <;> rw [he] at hc
  · exact hc
  · rename_i e₁
    have hr : (e₁.enter .send).session.response = e₁.session.response := by
      unfold Engine.enter
      split <;> rfl
    exact (issues_sendNext _).after (hr.trans hc.response)

/-- A call starts a command with so much room for its answer, or it fails in a way that no image
mends. -/
structure Grants (capacity : Nat) (r : Except DownloadError Unit × Engine W) : Prop where
  room : r.1 = .ok () → r.2.session.response = .ofCapacity capacity
  report : ∀ err, r.1 = .error err → err.report? = none

theorem grants_start (e : Engine W) (command : Command) (request : Request)
    (userData : Option Bytes) (capacity : Nat) :
    Grants capacity (e.start command request userData capacity) := by
  have hl := issues_launch
    ((e.withSession (e.session.armed command request userData capacity)).note (.started command))
  rw [start_eq]
  split <;> rename_i he <;> rw [he] at hl
  · exact ⟨fun _ => hl.response, nofun⟩
  · refine ⟨nofun, ?_⟩
    rintro _ ⟨⟩
    exact hl.report _ rfl

omit [Host W] in
theorem grants_error {capacity : Nat} (h : err.report? = none) (e : Engine W) :
    Grants capacity (.error err, e) :=
  ⟨nofun, by rintro _ ⟨⟩; exact h⟩

omit [Host W] in
theorem grants_guarded {p : Prop} [Decidable p] {capacity : Nat} (fault : ParameterFault)
    {r : Except DownloadError Unit × Engine W} (h : Grants capacity r) :
    Grants capacity (if p then e.invalid fault else r) := by
  split
  · exact grants_error rfl e
  · exact h

theorem grants_callReadPlatform (e : Engine W) : Grants platformAreaSize e.callReadPlatform := by
  unfold Engine.callReadPlatform
  split
  · exact grants_error rfl _
  · exact grants_start ..

theorem grants_callWrite (e : Engine W) (recovery : Bool) (data : Option Bytes) :
    Grants 0 (e.callWrite recovery data) := by
  unfold Engine.callWrite
  split
  · exact grants_error rfl _
  · split
    · exact grants_error rfl _
    · exact grants_start ..
  · split <;> rename_i he
    · have hr : (e.chooseImage recovery).1 = .error _ := congrArg Prod.fst he
      unfold Engine.chooseImage at hr
      dsimp only at hr
      split at hr
      · cases hr
      · split at hr <;> cases hr
        exact grants_error rfl _
    · exact grants_start ..

theorem grants_call (e : Engine W) (c : Call) : Grants c.capacity (e.call c) := by
  unfold Engine.call
  split
  · exact grants_error rfl e
  · cases c with
    | reset => exact grants_start ..
    | getVersion capacity => exact grants_guarded _ (grants_start ..)
    | getSessionState capacity => exact grants_guarded _ (grants_start ..)
    | checkIntegrity revision capacity => exact grants_guarded _ (grants_start ..)
    | read addr capacity => exact grants_guarded _ (grants_start ..)
    | readLog capacity => exact grants_guarded _ (grants_start ..)
    | readPlatform => exact grants_callReadPlatform e
    | write recovery data => exact grants_callWrite e recovery data
    | log entry => exact grants_guarded _ (grants_start ..)
    | force clock => exact grants_start ..
    | raw frame capacity => exact grants_guarded _ (grants_guarded _ (grants_start ..))

theorem call_refused_busy (hs : e.Standing) (h : e.call c = (.error err, e')) :
    e'.session.busy = e.session.busy := by
  have hc := hs.call_calls c
  rw [h] at hc
  cases hc with
  | refused _ hp => rw [hp.session]
  | undone hi _ _ hp =>
    rw [hp.session, hi]
    rfl

/-- A log command with an entry that fits the log area is started, even if it gets no further. -/
theorem call_log_started (hi : e.session.Idle) {entry : Bytes} (hn : entry ≠ [])
    (hl : entry.length ≤ logAreaSize) : ∃ ns, (e.call (.log entry)).2.journal = ns ++ e.journal ∧
      .started .log ∈ ns := by
  have hc : e.call (.log entry) = e.start .log .log (some entry) 0 := by
    have hb : e.session.busy = false := by rw [hi]; rfl
    have hf : ¬ (entry = [] ∨ logAreaSize < entry.length) :=
      fun h => h.elim hn (Nat.not_lt.2 hl)
    exact (call_idle hb _).trans (if_neg hf)
  have hp : e.session.phase = .init := by rw [hi]; rfl
  have hr : e.session.resendLastFrame = false := by rw [hi]; rfl
  obtain ⟨s, ns, r, e₂, he, -, hs⟩ := (Passes.refl e).start hp hr .log .log (some entry) 0
  rw [hc, he]
  cases r with
  | ok => exact ⟨_, hs.journal, by simp⟩
  | error err => exact ⟨_, hs.journal, by simp⟩

/-! ## From the call to the end -/

/-- Since `e₀` the command was called. It is under way, or it is over and was delivered. -/
inductive Pursues (e₀ : Engine W) (c : Call) (e : Engine W) : Prop
  | underway {ns : List Notice} {id : TimerId} : e.journal = ns ++ e₀.journal →
    e.delivered = e₀.delivered → e.session.Waiting c.command id →
    e.session.response.capacity = c.capacity → Pursues e₀ c e
  | ended {ns : List Notice} {result : Except DownloadError Unit} {response : Bytes} :
    e.journal = ns ++ e₀.journal → e.session.Idle →
    e.delivered = ⟨c.command, result, response⟩ :: e₀.delivered →
    Accords c.command c.capacity ns result response → Pursues e₀ c e

theorem Calls.pursues (hs : e.Standing) (h : e.call c = (.ok (), e')) : e.Pursues c e' := by
  have hc := hs.call_calls c
  have hg := grants_call e c
  rw [h] at hc hg
  have hroom := hg.room rfl
  cases hc with
  | @starts s₀ s ns₀ ns request userData capacity _ hi hpre hl hp =>
    have hf : s₀.resendLastFrame = false := hpre.fresh (by rw [hi]; rfl)
    have ht : s₀.tickets = (none, none, none) := by rw [hpre.tickets, hi]; rfl
    obtain ⟨id, hw⟩ := hl.waiting rfl rfl rfl hf ht
    exact .underway hp.journal hp.delivered (hp.session ▸ hw) (congrArg _ hroom)

theorem Pursues.handles (h : e₀.Pursues c e) (hh : e.Handles e') : e₀.Pursues c e' := by
  cases hh with
  | nothing => exact h
  | ignores =>
    cases h with
    | underway hj hd hw hc => exact .underway hj hd hw hc
    | ended hj hi hd ha => exact .ended hj hi hd ha
  | @reacts signal rest command id s ns outcome _ hq hw ha hr ht =>
    cases h with
    | ended hj hi hd _ =>
      -- Once the command is over no session waits for a signal.
      have hb : e.session.busy = false := by rw [hi]; rfl
      cases hb.symm.trans hw.busy
    | @underway ns' id' hj hd hw' hc =>
      obtain rfl := Option.some.inj (hw.command.symm.trans hw'.command)
      cases outcome with
      | none =>
        have hw₁ := Reacts.waiting (e := e.popped rest) hw ha hr rfl
        have hj' : e'.journal = (ns ++ ns') ++ e₀.journal := by
          rw [ht.journal, List.append_assoc, ← hj]
          rfl
        refine .underway hj' (ht.delivered.trans hd) (ht.session ▸ hw₁) ?_
        rw [ht.session]
        exact hr.capacity.trans hc
      | some result =>
        have hj' : e'.journal = (.finished c.command (errorOf result) ::
            (s.moveNotices .init ++ s.releaseNotices ++ ns) ++ ns') ++ e₀.journal := by
          rw [ht.journal, show (e.popped rest).journal = ns' ++ e₀.journal from hj,
            ← List.append_assoc]
        have hd' : e'.delivered =
            ⟨c.command, result, s.response.take s.responseLength⟩ :: e₀.delivered := by
          rw [ht.delivered]
          exact congrArg (_ :: ·) hd
        refine .ended hj' (ht.session ▸ Session.idle_reset s) hd' ?_
        refine ⟨fun hnw err he => hr.report (e := e.popped rest) hw hnw err (congrArg some he),
          fun has hok => ?_⟩
        subst hok
        obtain ⟨raw, answer, hm, hde, hst, hp⟩ := hr.answer (e := e.popped rest) hw has
        exact ⟨raw, answer, by simp [hm], hde, hst, fun hcap => hp (hc ▸ hcap)⟩

omit [Host W] in
theorem Pursues.standing (h : e₀.Pursues c e) : e.Standing := by
  cases h with
  | underway _ _ hw => exact .inr ⟨_, _, hw⟩
  | ended _ hi => exact .inl hi

theorem Pursues.move (h : e₀.Pursues c e) {m : Move W} (hm : m.Serves) :
    e₀.Pursues c (e.move m) := by
  cases hm with
  | handleNext => exact h.handles h.standing.handleNext_handles
  | arrive signals =>
    cases h with
    | underway hj hd hw hc => exact .underway hj hd hw hc
    | ended hj hi hd ha => exact .ended hj hi hd ha
  | pass w =>
    cases h with
    | underway hj hd hw hc => exact .underway hj hd hw hc
    | ended hj hi hd ha => exact .ended hj hi hd ha

theorem Pursues.served (h : e₀.Pursues c e) (hs : e.Served e') : e₀.Pursues c e' := by
  obtain ⟨moves, hm, rfl⟩ := hs
  induction moves generalizing e with
  | nil => exact h
  | cons m moves ih =>
    exact ih (h.move (hm m (List.mem_cons_self ..)))
      (fun m' hm' => hm m' (List.mem_cons_of_mem m hm'))

theorem Advances.journal {cs : List Command} (h : e.Advances cs e') :
    ∃ ns, e'.journal = ns ++ e.journal := by
  cases h with
  | keeps _ hp => exact ⟨_, hp.journal⟩
  | calls hc =>
    cases hc with
    | refused _ hp => exact ⟨_, hp.journal⟩
    | starts _ _ _ hp => exact ⟨_, hp.journal⟩
    | undone _ _ _ hp => exact ⟨_, hp.journal⟩
  | ignores => exact ⟨[], rfl⟩
  | @reacts _ rest _ _ _ _ outcome _ _ _ _ _ ht =>
    cases outcome with
    | none => exact ⟨_, ht.journal⟩
    | some result => exact ⟨_, ht.journal⟩

theorem Standing.run_journal (hs : e.Standing) (moves : List (Move W)) :
    ∃ ns, (e.run moves).journal = ns ++ e.journal := by
  induction moves generalizing e with
  | nil => exact ⟨[], rfl⟩
  | cons m moves ih =>
    have ha := hs.move_advances m
    obtain ⟨ns, hj⟩ := ha.journal
    obtain ⟨ns', hj'⟩ := ih (ha.standing hs)
    refine ⟨ns' ++ ns, ?_⟩
    rw [run_cons, hj', hj, List.append_assoc]

theorem runToIdle_idle (budget limit : Nat) (e : Engine W) :
    (e.runToIdle budget limit).1 = !(e.runToIdle budget limit).2.session.busy := by
  induction budget generalizing e limit with
  | zero => rfl
  | succ budget ih =>
    unfold Engine.runToIdle
    split
    · rename_i hb
      exact hb.symm
    · rename_i hb
      split
      · exact ih _ _
      · split
        · exact (Bool.eq_false_iff.2 hb).symm
        · exact ih _ _

end Engine

end FirmwareDownload
