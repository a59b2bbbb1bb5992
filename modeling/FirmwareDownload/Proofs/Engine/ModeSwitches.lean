import FirmwareDownload.Proofs.Engine.HostCalls
import FirmwareDownload.Proofs.Engine.Invariant

/-! The modes that the controller is switched to. An idle engine switches it when it is told to, and
for a read of the platform area, whose end switches it back to normal mode. A session that ends
without an answer may toggle it in between. Nothing else switches it. -/

namespace FirmwareDownload

def Notice.mode? : Notice → Option DeviceMode
  | .modeRequested mode => some mode
  | _ => none

/-- The modes that were asked for, in the order of the notices. -/
def askedModes (ns : List Notice) : List DeviceMode := ns.filterMap Notice.mode?

def HostCall.mode? : HostCall → Option DeviceMode
  | .setMode mode => some mode
  | _ => none

@[simp]
theorem askedModes_nil : askedModes [] = [] := rfl

@[simp]
theorem askedModes_append (ns ns' : List Notice) :
    askedModes (ns ++ ns') = askedModes ns ++ askedModes ns' :=
  List.filterMap_append

@[simp]
theorem askedModes_cons (n : Notice) (ns : List Notice) :
    askedModes (n :: ns) = n.mode?.toList ++ askedModes ns := by
  cases h : n.mode? <;> simp [askedModes, h]

theorem askedModes_filter (ns : List Notice) :
    askedModes (ns.filter Notice.ofHost) = askedModes ns := by
  rw [askedModes, List.filterMap_filter]
  exact congrArg (List.filterMap · ns) (funext fun n => by cases n <;> rfl)

theorem HostCall.askedModes_record {W : Type} [Host W] (w : W) (calls : List HostCall) :
    askedModes (HostCall.record w calls) = (calls.filterMap HostCall.mode?).reverse := by
  induction calls generalizing w with
  | nil => rfl
  | cons c calls ih =>
    have hc : askedModes (c.notices w) = c.mode?.toList := by
      cases c with
      | createTimer | startTimer =>
        simp only [HostCall.notices]
        split <;> rfl
      | _ => rfl
    rw [HostCall.record, askedModes_append, ih, hc]
    cases hm : c.mode? <;> simp [hm]

/-! ## The law -/

/-- The response timer that the session waits for goes off, and the controller is to be toggled. -/
def Session.toggles (s : Session) (config : Config) : Signal → Bool
  | .expired ticket => s.phase = .timer ∧ s.timer.ticket = some ticket ∧
      s.timer.purpose = .response ∧ config.venResetOnTimeout ∧ s.lastStatus = some .signatureError
  | _ => false

namespace Engine

variable {W : Type} [Host W]

/-- The modes that a move asks for, and whether there is a read of the platform area behind it for
which the controller was switched to download mode; `reading` tells so before it. -/
def switchesAt (e : Engine W) (reading : Bool) : Move W → List DeviceMode × Bool
  | .setMode mode => (if e.isBusy then [] else [mode], reading)
  | .call .readPlatform =>
    if e.isBusy then ([], reading)
    else
      match (Host.setMode e.world .download).1, (e.call .readPlatform).1 with
      | .error _, _ => ([.download], false)
      | .ok (), .ok () => ([.download], true)
      | .ok (), .error _ => ([.download, .normal], false)
  | .handleNext =>
    let ends := reading && !(e.move .handleNext).isBusy
    ((if e.queue.head?.any (e.session.toggles e.config) then [.normal, .download] else []) ++
      (if ends then [.normal] else []), reading && !ends)
  | _ => ([], reading)

def switchesAlong (e : Engine W) (reading : Bool) : List (Move W) → List DeviceMode × Bool
  | [] => ([], reading)
  | m :: moves =>
    let rest := (e.move m).switchesAlong (e.switchesAt reading m).2 moves
    ((e.switchesAt reading m).1 ++ rest.1, rest.2)

/-- On the way from `e` to `e'` these modes were asked for, and the session behind it goes back to
normal mode at its end, or not. -/
structure Switches (e : Engine W) (modes : List DeviceMode) (restore : Bool) (e' : Engine W) :
    Prop where
  noted : askedModes e'.notices = askedModes e.notices ++ modes
  restore : e'.session.restoreNormalMode = restore

end Engine

namespace Session

variable (s : Session)

@[simp]
theorem askedModes_moveNotices (p : Phase) : askedModes (s.moveNotices p) = [] := by
  unfold moveNotices
  split <;> rfl

@[simp]
theorem askedModes_haltNotices : askedModes s.haltNotices = [] := by
  unfold haltNotices
  cases s.timer.id with
  | none => rfl
  | some id => cases s.timer.running <;> rfl

@[simp]
theorem askedModes_answerNotices (raw : Bytes) : askedModes (s.answerNotices raw) = [] := by
  have hs : askedModes (s.answering.statusNotices raw) = [] := by
    rcases s.answering.statusNotices_cases raw with hs | ⟨status, hs⟩ <;> rw [hs] <;> rfl
  have hp : ∀ s : Session, askedModes s.progressNotices = [] := by
    intro s
    unfold progressNotices
    split <;> rfl
  simp [answerNotices, hs, hp, Notice.mode?]

@[simp]
theorem askedModes_releaseNotices :
    askedModes s.releaseNotices = if s.restoreNormalMode then [.normal] else [] := by
  unfold releaseNotices timerReleaseNotices
  cases s.timer.id with
  | none => cases s.restoreNormalMode <;> rfl
  | some id => cases s.restoreNormalMode <;> cases s.timer.running <;> rfl

theorem restore_handleAnswer (raw : Bytes) :
    (s.answering.handleAnswer raw).2.restoreNormalMode = s.restoreNormalMode := by
  obtain ⟨_, _, _, _, _, he⟩ := s.answering.handleAnswer_eq raw
  rw [he]
  rfl

theorem restore_compose {s s' : Session} {r : Except DownloadError Unit}
    (hc : s.compose = (r, s')) : s'.restoreNormalMode = s.restoreNormalMode := by
  obtain ⟨_, _, he⟩ := composed hc
  rw [he]

end Session

namespace Engine

variable {W : Type} [Host W] {e e' e₁ : Engine W} {command : Command} {id : TimerId}
  {signal : Signal} {s : Session} {ns : List Notice}
  {outcome : Option (Except DownloadError Unit)} {modes : List DeviceMode} {restore : Bool}

omit [Host W] in
theorem askedModes_notices (h : e'.journal = ns ++ e.journal) :
    askedModes e'.notices = askedModes e.notices ++ (askedModes ns).reverse := by
  rw [notices, notices, h, List.reverse_append, askedModes_append]
  exact congrArg _ (List.filterMap_reverse ..)

omit [Host W] in
theorem Passes.switches (h : e.Passes s ns e') (hm : (askedModes ns).reverse = modes) :
    e.Switches modes s.restoreNormalMode e' :=
  ⟨by rw [askedModes_notices h.journal, hm], by rw [h.session]⟩

omit [Host W] in
theorem Concludes.switches {result : Except DownloadError Unit}
    (h : e.Concludes s ns command result e') (hm : (askedModes ns).reverse = modes) :
    e.Switches (modes ++ if s.restoreNormalMode then [.normal] else []) false e' := by
  refine ⟨?_, by rw [h.session]; rfl⟩
  rw [askedModes_notices h.journal]
  cases hr : s.restoreNormalMode <;> simp [hr, hm, Notice.mode?]

/-- The calls on the host ask for the modes that are noted. -/
theorem Performs.switches {calls : List HostCall} (h : e.Performs calls e') :
    askedModes e'.notices = askedModes e.notices ++ calls.filterMap HostCall.mode? := by
  obtain ⟨ns, hj, hn⟩ := h.noted
  rw [askedModes_notices hj, ← askedModes_filter ns, hn, HostCall.askedModes_record,
    List.reverse_reverse]

/-! ## A session under way -/

theorem Reacts.switches (ha : e.session.Awaits signal)
    (h : e.Reacts e' command id signal s ns outcome) :
    (askedModes ns).reverse =
        (if e.session.toggles e.config signal then [.normal, .download] else []) ∧
      s.restoreNormalMode = e.session.restoreNormalMode := by
  have hh := e.session.restore_handleAnswer
  cases h with
  | writeFailed => exact ⟨rfl, rfl⟩
  | timerRefused => exact ⟨rfl, rfl⟩
  | listens => exact ⟨rfl, rfl⟩
  | readFailed => exact ⟨by simp [Session.toggles, Notice.mode?], rfl⟩
  | done => exact ⟨by simp [Session.toggles], hh _⟩
  | failed => exact ⟨by simp [Session.toggles], hh _⟩
  | frameRefused _ hc =>
    exact ⟨by simp [Session.toggles, Notice.mode?], (Session.restore_compose hc).trans (hh _)⟩
  | proceeds _ hc =>
    exact ⟨by simp [Session.toggles, Notice.mode?], (Session.restore_compose hc).trans (hh _)⟩
  | exhausted => exact ⟨by simp [Session.toggles], hh _⟩
  | waitRefused => exact ⟨by simp [Session.toggles, Notice.mode?], hh _⟩
  | holds => exact ⟨by simp [Session.toggles, Notice.mode?], hh _⟩
  | silent hp =>
    refine ⟨?_, rfl⟩
    obtain ⟨hph, ht⟩ := ha
    simp only [askedModes_append, Session.venResetNotices, Session.toggles]
    by_cases hv : e.config.venResetOnTimeout = true ∧
        e.session.lastStatus = some .signatureError
    · simp [hv, hph, ht, hp, Notice.mode?]
    · simp [hv, hph, ht, hp, Notice.mode?]
  | resends hp => exact ⟨by simp [Session.toggles, hp, Notice.mode?], rfl⟩

omit [Host W] in
theorem toggles_awaited (h : e.session.toggles e.config signal = true) :
    e.session.Awaits signal := by
  cases signal with
  | expired ticket =>
    simp only [Session.toggles, decide_eq_true_eq] at h
    exact ⟨h.1, h.2.1⟩
  | written | received => cases h

omit [Host W] in
theorem Standing.idle_restore (h : e.Standing) (hb : e.isBusy = false) :
    e.session.restoreNormalMode = false := by
  have hi : e.session = e.session.reset := h.idle_of_not_busy hb
  rw [hi]
  rfl

omit [Host W] in
theorem Standing.not_ending (h : e.Standing) :
    (e.session.restoreNormalMode && !e.isBusy) = false := by
  cases hb : e.isBusy with
  | true => simp
  | false => simp [h.idle_restore hb]

theorem Standing.switches_handleNext (h : e.Standing) :
    let law := e.switchesAt e.session.restoreNormalMode .handleNext
    e.Switches law.1 law.2 (e.move .handleNext) := by
  cases hq : e.queue with
  | nil =>
    have hmove : e.move .handleNext = e := by simp [Engine.move, Engine.handleNext, hq]
    simp only [switchesAt, hmove, hq, h.not_ending]
    exact ⟨by simp, by simp⟩
  | cons signal rest =>
    have hmove : e.move .handleNext = (e.popped rest).handle signal := by
      simp [Engine.move, Engine.handleNext, hq, popped]
    simp only [switchesAt, hmove, hq, List.head?_cons, Option.any_some]
    by_cases ha : e.session.Awaits signal
    · obtain ⟨command, id, hw⟩ := h.waiting_of_awaits ha
      obtain ⟨s, ns, outcome, hr, ht⟩ := handle_reacts (e := e.popped rest) hw ha
      obtain ⟨hm, hs⟩ : (askedModes ns).reverse =
          (if e.session.toggles e.config signal then [.normal, .download] else []) ∧
            s.restoreNormalMode = e.session.restoreNormalMode :=
        Reacts.switches (e := e.popped rest) ha hr
      cases outcome with
      | none =>
        have hw' := Reacts.waiting (e := e.popped rest) hw ha hr rfl
        have hb : ((e.popped rest).handle signal).isBusy = true := by
          rw [isBusy, ht.session]
          exact hw'.busy
        have hsw := Passes.switches (e := e.popped rest) ht hm
        rw [hs] at hsw
        have hsw : e.Switches _ e.session.restoreNormalMode _ := ⟨hsw.noted, hsw.restore⟩
        simpa [hb] using hsw
      | some result =>
        have hb : ((e.popped rest).handle signal).isBusy = false := by
          rw [isBusy, ht.session]
          rfl
        have hsw := Concludes.switches (e := e.popped rest) ht hm
        rw [hs] at hsw
        have hsw : e.Switches _ false _ := ⟨hsw.noted, hsw.restore⟩
        simpa [hb] using hsw
    · have hno : e.session.toggles e.config signal = false := by
        cases ht : e.session.toggles e.config signal with
        | false => rfl
        | true => exact absurd (toggles_awaited ht) ha
      rw [handle_ignored (e := e.popped rest) ha]
      have hb : (e.popped rest).isBusy = e.isBusy := rfl
      simp only [hb, h.not_ending, hno]
      exact ⟨by simp [popped, notices], by simp [popped]⟩

/-! ## Calls -/

theorem Launches.switches {armed : Session} {failure : Option DownloadError}
    (h : e.Launches e' armed s ns failure) :
    askedModes ns = [] ∧ s.restoreNormalMode = armed.restoreNormalMode := by
  cases h with
  | noTimer => exact ⟨rfl, rfl⟩
  | frameRefused hc => exact ⟨rfl, (Session.restore_compose hc).trans rfl⟩
  | sends hc => exact ⟨rfl, (Session.restore_compose hc).trans rfl⟩

/-- A start that fails brings the link back to normal mode, if its session would have. -/
theorem Passes.switches_start (h : e.Passes s ns e₁) (hp : s.phase = .init)
    (hf : s.resendLastFrame = false) (command : Command) (request : Request)
    (userData : Option Bytes) (capacity : Nat) :
    match e₁.start command request userData capacity with
    | (.ok (), e') => e.Switches (askedModes ns).reverse s.restoreNormalMode e'
    | (.error _, e') => e.Switches ((askedModes ns).reverse ++
        if s.restoreNormalMode then [.normal] else []) false e' := by
  obtain ⟨s', ns', r, e', he, hl, hst⟩ := h.start hp hf command request userData capacity
  obtain ⟨hn, hr⟩ := hl.switches
  have hr : s'.restoreNormalMode = s.restoreNormalMode := hr
  rw [he]
  cases r with
  | ok =>
    have hsw := Passes.switches hst rfl
    simpa [hn, hr, Notice.mode?] using hsw
  | error err =>
    have hsw := Passes.switches hst rfl
    cases hrs : s.restoreNormalMode <;>
      simpa [hn, hr, hrs, Notice.mode?, Session.reset] using hsw

theorem Passes.switches_startRead (h : e.Passes s ns e₁) (hp : s.phase = .init)
    (hf : s.resendLastFrame = false) (addr : UInt32) (capacity : Nat) :
    match e₁.startRead addr capacity with
    | (.ok (), e') => e.Switches (askedModes ns).reverse s.restoreNormalMode e'
    | (.error _, e') => e.Switches ((askedModes ns).reverse ++
        if s.restoreNormalMode then [.normal] else []) false e' :=
  (h.update fun s => s.reading addr capacity).switches_start hp hf .read (.read addr) none capacity

omit [Host W] in
theorem Prepares.switches {c : Call} {request : Request} {userData : Option Bytes} {capacity : Nat}
    (h : e.Prepares c s ns request userData capacity) (hc : c ≠ .readPlatform) :
    askedModes ns = [] ∧ s.restoreNormalMode = e.session.restoreNormalMode := by
  cases h with
  | readPlatform hp => exact absurd hp hc
  | _ => exact ⟨rfl, rfl⟩

theorem Standing.switches_call (h : e.Standing) (hb : e.isBusy = false) {c : Call}
    (hc : c ≠ .readPlatform) : e.Switches [] false (e.call c).2 := by
  have hi := h.idle_of_not_busy hb
  have hn := h.idle_restore hb
  rcases call_declines_or_proceeds hb hc with ⟨err, he⟩ |
    ⟨s, ns, request, userData, capacity, e₁, hpre, hp, he⟩
  · rw [he]
    exact ⟨by simp, hn⟩
  · obtain ⟨hns, hs⟩ := hpre.switches hc
    have hph : s.phase = .init := by rw [hpre.phase, hi]; rfl
    have hf : s.resendLastFrame = false := hpre.fresh (by rw [hi]; rfl)
    have hst := hp.switches_start hph hf c.command request userData capacity
    rw [← he] at hst
    split at hst <;> rename_i hr <;> rw [hr] <;> simpa [hns, hs, hn] using hst

theorem Standing.switches_readPlatform (h : e.Standing) (hb : e.isBusy = false) :
    let law := e.switchesAt false (.call .readPlatform)
    e.Switches law.1 law.2 (e.call .readPlatform).2 := by
  have hi := h.idle_of_not_busy hb
  have hcall : e.call .readPlatform = e.callReadPlatform := if_neg (by simpa [isBusy] using hb)
  have hset := (Passes.refl e).setHostMode .download
  have hr : (Host.setMode e.world .download).1 = (e.setHostMode .download).1 := rfl
  simp only [switchesAt, hb, hcall, hr, Engine.callReadPlatform]
  generalize e.setHostMode .download = switched at hset ⊢
  obtain ⟨err | _, e₁⟩ := switched
  · simpa [Notice.mode?, h.idle_restore hb] using Passes.switches hset rfl
  · -- The session that is armed goes back to normal mode at its end.
    have hph : e.session.phase = .init := by rw [hi]; rfl
    have hf : e.session.resendLastFrame = false := by rw [hi]; rfl
    have hst := (hset.update (fun s => { s with restoreNormalMode := true })).switches_startRead
      hph hf platformAreaStart platformAreaSize
    dsimp only
    generalize (e₁.withSession { e₁.session with restoreNormalMode := true }).startRead
      platformAreaStart platformAreaSize = started at hst ⊢
    obtain ⟨err | _, e₂⟩ := started <;> simpa [Notice.mode?] using hst

/-! ## Runs -/

theorem Standing.switches_move (h : e.Standing) (m : Move W) :
    let law := e.switchesAt e.session.restoreNormalMode m
    e.Switches law.1 law.2 (e.move m) := by
  have hsame : ∀ e', e'.journal = e.journal → e'.session = e.session →
      e.Switches [] e.session.restoreNormalMode e' := by
    intro e' hj hs
    exact ⟨by simp [notices, hj], by rw [hs]⟩
  cases m with
  | handleNext => exact h.switches_handleNext
  | arrive signals => exact hsame _ rfl rfl
  | pass w => exact hsame _ rfl rfl
  | loadPrimary => exact hsame _ (Passes.loadPrimary e).journal (Passes.loadPrimary e).session
  | setMode mode =>
    cases hb : e.isBusy with
    | true =>
      have hm : e.setMode mode = (.error .busy, e) := if_pos hb
      simp only [Engine.move, switchesAt, hm, hb]
      exact hsame e rfl rfl
    | false =>
      have hset := (Passes.refl e).setHostMode mode
      have hm : (e.setMode mode).2 = (e.setHostMode mode).2 := by
        simp only [Engine.setMode, show e.session.busy = false from hb]
        rcases e.setHostMode mode with ⟨_ | _, e₁⟩ <;> rfl
      simp only [Engine.move, switchesAt, hm, hb]
      simpa [Notice.mode?] using Passes.switches hset rfl
  | call c =>
    cases hb : e.isBusy with
    | true =>
      have hc : e.call c = (.error .busy, e) := call_busy hb c
      have hl : e.switchesAt e.session.restoreNormalMode (.call c) =
          ([], e.session.restoreNormalMode) := by
        cases c <;> simp [switchesAt, hb]
      simp only [Engine.move, hl, hc]
      exact hsame e rfl rfl
    | false =>
      have hn := h.idle_restore hb
      by_cases hp : c = .readPlatform
      · subst hp
        rw [hn]
        exact h.switches_readPlatform hb
      · have hl : e.switchesAt e.session.restoreNormalMode (.call c) = ([], false) := by
          rw [hn]
          cases c <;> first | rfl | exact absurd rfl hp
        rw [hl]
        exact h.switches_call hb hp

theorem Standing.switches_run (h : e.Standing) (moves : List (Move W)) :
    let law := e.switchesAlong e.session.restoreNormalMode moves
    e.Switches law.1 law.2 (e.run moves) := by
  induction moves generalizing e with
  | nil => exact ⟨by simp [switchesAlong, Engine.run], rfl⟩
  | cons m moves ih =>
    have hm := h.switches_move m
    have hrest := ih ((h.move_advances m).standing h)
    rw [hm.restore] at hrest
    refine ⟨?_, hrest.restore⟩
    rw [run_cons, hrest.noted, hm.noted, List.append_assoc]
    rfl

theorem Standing.switches_drop (h : e.Standing) :
    e.Switches (if e.session.restoreNormalMode then [.normal] else []) false e.drop := by
  by_cases hc : e.session.busy = true ∨ e.session.timer.id ≠ none
  · rw [Engine.drop, if_pos hc]
    have hsw := Passes.switches (Passes.refl e).release rfl
    cases hr : e.session.restoreNormalMode <;>
      simpa [hr, Notice.mode?, Session.released] using hsw
  · have hn := h.idle_restore (Bool.eq_false_iff.2 fun hb => hc (.inl hb))
    rw [Engine.drop, if_neg hc, hn]
    exact ⟨by simp, hn⟩

theorem Acts.switches (ha : e.Acts e') (hs : e.Switches modes restore e') :
    ∃ calls, e.Performs calls e' ∧ calls.filterMap HostCall.mode? = modes := by
  obtain ⟨calls, hp⟩ := ha
  exact ⟨calls, hp, List.append_cancel_left (hp.switches.symm.trans hs.noted)⟩

/-- The controller is switched just as the law says, whatever comes of a switch. The modes that a
run asks for are those of its moves, in their order, and a drop asks for normal mode if there is a read
of the platform area. The calls on the host ask for the same. -/
theorem modes_follow_law (config : Config) (library : ImageLibrary) (w : W)
    (moves : List (Move W)) :
    let e := (fresh config library w).run moves
    let law := (fresh config library w).switchesAlong false moves
    let atDrop := if law.2 then [DeviceMode.normal] else []
    askedModes e.notices = law.1 ∧ askedModes e.drop.notices = law.1 ++ atDrop ∧
    (∀ m, (∀ w, m ≠ .pass w) → ∃ calls, e.Performs calls (e.move m) ∧
      calls.filterMap HostCall.mode? = (e.switchesAt law.2 m).1) ∧
    ∃ calls, e.Performs calls e.drop ∧ calls.filterMap HostCall.mode? = atDrop := by
  have hs := (standing_fresh config library w).run moves
  have hsw := (standing_fresh config library w).switches_run moves
  dsimp only at hsw ⊢
  obtain ⟨hn, hr⟩ := hsw
  generalize (fresh config library w).run moves = e at hs hn hr
  change e.session.restoreNormalMode = ((fresh config library w).switchesAlong false moves).2 at hr
  change askedModes e.notices = [] ++ ((fresh config library w).switchesAlong false moves).1 at hn
  have hdrop := hs.switches_drop
  rw [hr] at hdrop
  rw [List.nil_append] at hn
  refine ⟨hn, by rw [hdrop.noted, hn], fun m hm => ?_, (acts_drop e).switches hdrop⟩
  have hmove := hs.switches_move m
  rw [hr] at hmove
  exact (acts_move e hm).switches hmove

end Engine

end FirmwareDownload
