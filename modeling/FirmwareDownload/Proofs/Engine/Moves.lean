import FirmwareDownload.Proofs.Engine.Starting

/-! An engine in use: calls, switches of the mode, signals that arrive in any order, and the
handling of queued ones, on a host that may change meanwhile. -/

namespace FirmwareDownload

/-- What can happen to an engine from outside. -/
inductive Move (W : Type)
  | call (c : Call)
  | setMode (mode : DeviceMode)
  | loadPrimary
  /-- The oldest signal of the queue is handled. -/
  | handleNext
  | arrive (signals : List Signal)
  /-- The host changes on its own. -/
  | pass (w : W)

/-- A move of the link and the timers, or the handling of a signal. -/
inductive Move.Serves {W : Type} : Move W → Prop
  | handleNext : Serves .handleNext
  | arrive (signals : List Signal) : Serves (.arrive signals)
  | pass (w : W) : Serves (.pass w)

def Call.accepted (c : Call) : Except DownloadError Unit → List Command
  | .ok () => [c.command]
  | .error _ => []

namespace Engine

variable {W : Type} [Host W]

def move (e : Engine W) : Move W → Engine W
  | .call c => (e.call c).2
  | .setMode mode => (e.setMode mode).2
  | .loadPrimary => e.loadPrimary.2
  | .handleNext => e.handleNext.getD e
  | .arrive signals => e.post signals
  | .pass w => e.withWorld w

def run (e : Engine W) (moves : List (Move W)) : Engine W := moves.foldl Engine.move e

def accepts (e : Engine W) : Move W → List Command
  | .call c => c.accepted (e.call c).1
  | _ => []

def accepted (e : Engine W) : List (Move W) → List Command
  | [] => []
  | m :: moves => e.accepts m ++ (e.move m).accepted moves

def fresh (config : Config) (library : ImageLibrary) (w : W) : Engine W :=
  { config := config, library := library, world := w }

theorem run_cons (e : Engine W) (m : Move W) (moves : List (Move W)) :
    e.run (m :: moves) = (e.move m).run moves :=
  rfl

theorem run_append (e : Engine W) (moves moves' : List (Move W)) :
    e.run (moves ++ moves') = (e.run moves).run moves' :=
  List.foldl_append

/-- There is no session, or it waits for a signal. -/
def Standing (e : Engine W) : Prop :=
  e.session.Idle ∨ ∃ command id, e.session.Waiting command id

omit [Host W] in
theorem standing_fresh (config : Config) (library : ImageLibrary) (w : W) :
    (fresh config library w).Standing :=
  .inl rfl

/-- All that a call can do to an engine that stands. -/
inductive Calls (e : Engine W) (c : Call) : Except DownloadError Unit → Engine W → Prop
  | refused {err : DownloadError} {ns : List Notice} {e' : Engine W} :
    (ns = [] ∨ ns = [.modeRequested .download]) → e.Passes e.session ns e' →
    Calls e c (.error err) e'
  | starts {s₀ s : Session} {ns₀ ns : List Notice} {request : Request} {userData : Option Bytes}
      {capacity : Nat} {e' : Engine W} :
    e.session.Idle → e.Prepares c s₀ ns₀ request userData capacity →
    e.Launches e' (s₀.armed c.command request userData capacity) s ns none →
    e.Passes s (ns ++ .started c.command :: ns₀) e' → Calls e c (.ok ()) e'
  | undone {s₀ s : Session} {ns₀ ns : List Notice} {request : Request} {userData : Option Bytes}
      {capacity : Nat} {err : DownloadError} {e' : Engine W} :
    e.session.Idle → e.Prepares c s₀ ns₀ request userData capacity →
    e.Launches e' (s₀.armed c.command request userData capacity) s ns (some err) →
    e.Passes s.reset
      (.finished c.command (some err) :: (s.releaseNotices ++ (ns ++ .started c.command :: ns₀)))
      e' →
    Calls e c (.error err) e'

def popped (e : Engine W) (rest : List Signal) : Engine W := { e with queue := rest }

inductive Handles (e : Engine W) : Engine W → Prop
  | nothing : Handles e e
  | ignores {signal : Signal} {rest : List Signal} : e.queue = signal :: rest →
    ¬ e.session.Awaits signal → Handles e (e.popped rest)
  | reacts {signal : Signal} {rest : List Signal} {command : Command} {id : TimerId} {s : Session}
      {ns : List Notice} {outcome : Option (Except DownloadError Unit)} {e' : Engine W} :
    e.queue = signal :: rest → e.session.Waiting command id → e.session.Awaits signal →
    (e.popped rest).Reacts e' command id signal s ns outcome →
    (e.popped rest).Turns s ns command outcome e' → Handles e e'

/-- All that one move can do to an engine that stands, with the command it accepted. -/
inductive Advances (e : Engine W) : List Command → Engine W → Prop
  | keeps {ns : List Notice} {e' : Engine W} : (ns = [] ∨ ∃ mode, ns = [.modeRequested mode]) →
    e.Passes e.session ns e' → Advances e [] e'
  | calls {c : Call} {r : Except DownloadError Unit} {e' : Engine W} : e.Calls c r e' →
    Advances e (c.accepted r) e'
  | ignores {signal : Signal} {rest : List Signal} : e.queue = signal :: rest →
    ¬ e.session.Awaits signal → Advances e [] (e.popped rest)
  | reacts {signal : Signal} {rest : List Signal} {command : Command} {id : TimerId} {s : Session}
      {ns : List Notice} {outcome : Option (Except DownloadError Unit)} {e' : Engine W} :
    e.queue = signal :: rest → e.session.Waiting command id → e.session.Awaits signal →
    (e.popped rest).Reacts e' command id signal s ns outcome →
    (e.popped rest).Turns s ns command outcome e' → Advances e [] e'

variable {e : Engine W}

omit [Host W] in
theorem Standing.idle_of_not_busy (h : e.Standing) (hb : e.session.busy = false) :
    e.session.Idle := by
  rcases h with hi | ⟨command, id, hw⟩
  · exact hi
  · cases hb.symm.trans hw.busy

omit [Host W] in
/-- Only a session under way waits for a signal. -/
theorem Standing.waiting_of_awaits {signal : Signal} (h : e.Standing)
    (ha : e.session.Awaits signal) : ∃ command id, e.session.Waiting command id := by
  rcases h with hi | hw
  · have hp : e.session.phase = .init := by rw [hi]; rfl
    rcases ha.phase with hp' | hp' <;> cases hp.symm.trans hp'
  · exact hw

theorem Standing.call_calls (h : e.Standing) (c : Call) :
    e.Calls c (e.call c).1 (e.call c).2 := by
  cases hb : e.session.busy with
  | true =>
    rw [call_busy hb]
    exact .refused (.inl rfl) (.refl e)
  | false =>
    have hi := h.idle_of_not_busy hb
    rcases call_cases hb c with ⟨err, ns, e', he, hn, hp⟩ |
      ⟨s, ns, request, userData, capacity, e₁, hpre, hp, he⟩
    · rw [he]
      exact .refused hn hp
    · have hph : s.phase = .init := by rw [hpre.phase, hi]; rfl
      have hr : s.resendLastFrame = false := hpre.fresh (by rw [hi]; rfl)
      obtain ⟨s', ns', r, e₂, hs, hl, hst⟩ :=
        hp.start hph hr c.command request userData capacity
      rw [he, hs]
      cases r with
      | ok => exact .starts hi hpre hl hst
      | error err => exact .undone hi hpre hl hst

theorem setMode_passes (e : Engine W) (mode : DeviceMode) :
    ∃ ns, (ns = [] ∨ ns = [.modeRequested mode]) ∧ e.Passes e.session ns (e.setMode mode).2 := by
  have h := (Passes.refl e).setHostMode mode
  unfold Engine.setMode
  split
  · exact ⟨[], .inl rfl, .refl e⟩
  · split <;> rename_i he <;> rw [he] at h <;> exact ⟨_, .inr rfl, h⟩

theorem setMode_advances (e : Engine W) (mode : DeviceMode) :
    e.Advances [] (e.setMode mode).2 := by
  obtain ⟨ns, hn, hp⟩ := setMode_passes e mode
  exact .keeps (hn.imp id fun h => ⟨mode, h⟩) hp

omit [Host W] in
theorem Passes.loadPrimary (e : Engine W) : e.Passes e.session [] e.loadPrimary.2 := by
  unfold Engine.loadPrimary
  split
  · exact .refl e
  · rename_i image hi
    exact ⟨rfl, rfl, rfl, Nat.le_refl _, List.prefix_rfl, rfl, rfl, .inr ⟨image, hi, rfl⟩⟩

theorem Standing.handleNext_handles (h : e.Standing) : e.Handles (e.handleNext.getD e) := by
  unfold Engine.handleNext
  split
  · exact .nothing
  · rename_i signal rest hq
    by_cases ha : e.session.Awaits signal
    · obtain ⟨command, id, hw⟩ := h.waiting_of_awaits ha
      obtain ⟨s, ns, outcome, hr, ht⟩ := handle_reacts (e := e.popped rest) hw ha
      exact .reacts hq hw ha hr ht
    · have hh := handle_ignored (e := e.popped rest) ha
      rw [popped] at hh
      rw [Option.getD_some, hh]
      exact .ignores hq ha

theorem Handles.advances {e' : Engine W} (h : e.Handles e') : e.Advances [] e' := by
  cases h with
  | nothing => exact .keeps (.inl rfl) (.refl e)
  | ignores hq ha => exact .ignores hq ha
  | reacts hq hw ha hr ht => exact .reacts hq hw ha hr ht

theorem Standing.move_advances (h : e.Standing) (m : Move W) :
    e.Advances (e.accepts m) (e.move m) := by
  cases m with
  | call c => exact .calls (h.call_calls c)
  | setMode mode => exact setMode_advances e mode
  | loadPrimary => exact .keeps (.inl rfl) (Passes.loadPrimary e)
  | handleNext => exact h.handleNext_handles.advances
  | arrive signals => exact .keeps (.inl rfl) ((Passes.refl e).post signals)
  | pass w => exact .keeps (.inl rfl) ((Passes.refl e).withWorld w)

/-! ## Handling signals until there is none, or the session ended -/

/-- Such a course is a run of moves that serve the session. -/
def Served (e e' : Engine W) : Prop := ∃ moves, (∀ m ∈ moves, Move.Serves m) ∧ e' = e.run moves

theorem Served.refl (e : Engine W) : e.Served e := ⟨[], fun _ hm => (List.not_mem_nil hm).elim, rfl⟩

theorem Served.step {e e' : Engine W} {m : Move W} (hm : m.Serves) (h : (e.move m).Served e') :
    e.Served e' := by
  obtain ⟨moves, hs, he⟩ := h
  refine ⟨m :: moves, ?_, he⟩
  intro m' hm'
  rcases List.mem_cons.1 hm' with rfl | hm'
  · exact hm
  · exact hs m' hm'

theorem move_handleNext {e e₁ : Engine W} (h : e.handleNext = some e₁) :
    e.move .handleNext = e₁ := by
  rw [Engine.move, h, Option.getD_some]

theorem served_handleQueued (budget : Nat) (e : Engine W) :
    e.Served (e.handleQueued budget).2 := by
  induction budget generalizing e with
  | zero => exact .refl e
  | succ budget ih =>
    unfold Engine.handleQueued
    split
    · exact .refl e
    · rename_i e₁ he
      exact .step .handleNext (move_handleNext he ▸ ih e₁)

theorem served_runToIdle (budget limit : Nat) (e : Engine W) :
    e.Served (e.runToIdle budget limit).2 := by
  induction budget generalizing e limit with
  | zero => exact .refl e
  | succ budget ih =>
    unfold Engine.runToIdle
    split
    · exact .refl e
    · split
      · rename_i e₁ he
        exact .step .handleNext (move_handleNext he ▸ ih limit e₁)
      · split
        · rename_i w _
          exact .step (.pass w) (.refl _)
        · rename_i signals left w _
          exact .step (.pass w) (.step (.arrive signals) (ih left _))

end Engine

end FirmwareDownload
