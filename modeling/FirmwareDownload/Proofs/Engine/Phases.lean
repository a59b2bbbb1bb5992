import FirmwareDownload.Bench
import FirmwareDownload.Proofs.Engine.Invariant

/-! The changes of phase that an observer is told of. Each move adds changes that follow on one
another from the phase before it. They lead to the phase behind it, but for a start that is undone
after its session left `init`: it goes back there without a word. -/

namespace FirmwareDownload

def Notice.shift? : Notice → Option (Phase × Phase)
  | .moved source target => some (source, target)
  | _ => none

/-- The changes of phase among the notices, in their order. -/
def shifts (ns : List Notice) : List (Phase × Phase) := ns.filterMap Notice.shift?

/-- Each change starts where the one before it ended, the first one at `p`, and the last one ends
at `q`. -/
inductive Leads : Phase → List (Phase × Phase) → Phase → Prop
  | nil (p : Phase) : Leads p [] p
  | cons {p q r : Phase} {rest : List (Phase × Phase)} : Leads q rest r →
    Leads p ((p, q) :: rest) r

section

variable {p q r : Phase} {xs ys : List (Phase × Phase)}

theorem Leads.append (h : Leads p xs q) (h' : Leads q ys r) : Leads p (xs ++ ys) r := by
  induction h with
  | nil => exact h'
  | cons _ ih => exact .cons (ih h')

theorem Leads.split (h : Leads p (xs ++ ys) r) : ∃ q, Leads p xs q ∧ Leads q ys r := by
  induction xs generalizing p with
  | nil => exact ⟨p, .nil p, h⟩
  | cons x xs ih =>
    cases h with
    | cons h =>
      obtain ⟨q, hx, hy⟩ := ih h
      exact ⟨q, .cons hx, hy⟩

theorem Leads.unique (h : Leads p xs q) (h' : Leads p xs r) : q = r := by
  induction h with
  | nil => cases h'; rfl
  | cons _ ih => cases h' with | cons h' => exact ih h'

/-- Where changes that are there start is known. -/
theorem Leads.source {x : Phase × Phase} {p' q' : Phase} (h : Leads p (x :: xs) q)
    (h' : Leads p' (x :: xs) q') : p = p' := by
  cases h
  cases h'
  rfl

end

theorem shifts_append (ns ns' : List Notice) : shifts (ns ++ ns') = shifts ns ++ shifts ns' :=
  List.filterMap_append

namespace Session

variable (s : Session)

theorem shifts_haltNotices : shifts s.haltNotices.reverse = [] := by
  unfold haltNotices
  cases s.timer.id with
  | none => rfl
  | some id => cases s.timer.running <;> rfl

theorem shifts_releaseNotices : shifts s.releaseNotices.reverse = [] := by
  unfold releaseNotices timerReleaseNotices
  cases s.timer.id with
  | none => cases s.restoreNormalMode <;> rfl
  | some id => cases s.restoreNormalMode <;> cases s.timer.running <;> rfl

theorem timerCreated_not_mem_releaseNotices (id : TimerId) :
    .timerCreated id ∉ s.releaseNotices := by
  unfold releaseNotices timerReleaseNotices
  cases s.timer.id with
  | none => cases s.restoreNormalMode <;> simp
  | some id => cases s.restoreNormalMode <;> cases s.timer.running <;> simp

theorem shifts_venResetNotices (config : Config) :
    shifts (s.venResetNotices config).reverse = [] := by
  unfold venResetNotices
  split <;> rfl

theorem shifts_answerNotices (hp : s.phase = .timer) (raw : Bytes) :
    shifts (s.answerNotices raw).reverse = [(.timer, .response)] := by
  have hs : shifts (s.answering.statusNotices raw).reverse = [] := by
    rcases s.answering.statusNotices_cases raw with hs | ⟨status, hs⟩ <;> rw [hs] <;> rfl
  have hg : shifts (s.answering.handleAnswer raw).2.progressNotices.reverse = [] := by
    unfold progressNotices
    split <;> rfl
  have hm : s.moveNotices .response = [.moved .timer .response] :=
    moveNotices_of_phase hp (by decide)
  simp only [answerNotices, hm, List.reverse_append, List.reverse_cons, shifts_append,
    shifts_haltNotices, hs, hg]
  rfl

theorem leads_moveNotices (p : Phase) :
    Leads s.phase (shifts (s.moveNotices p).reverse) p := by
  unfold moveNotices
  split
  · rename_i h
    exact h ▸ .nil _
  · exact .cons (.nil p)

end Session

namespace Engine

variable {W : Type} [Host W] {e e' : Engine W} {command : Command} {id : TimerId} {signal : Signal}
  {s : Session} {ns : List Notice} {outcome : Option (Except DownloadError Unit)}

/-- The changes of a reaction lead from the phase of the session that took the signal to that of
the session it became. -/
theorem Reacts.leads (ha : e.session.Awaits signal)
    (h : e.Reacts e' command id signal s ns outcome) :
    Leads e.session.phase (shifts ns.reverse) s.phase := by
  have hans : ∀ raw, e.session.phase = .timer → Leads e.session.phase
      (shifts (e.session.answerNotices raw).reverse)
      (e.session.answering.handleAnswer raw).2.phase := by
    intro raw hp
    rw [Session.shifts_answerNotices _ hp, hp, Session.handleAnswer_phase]
    exact .cons (.nil _)
  cases h with
  | writeFailed => exact .nil _
  | timerRefused => exact .nil _
  | listens =>
    rw [ha.1]
    exact .cons (.nil _)
  | readFailed =>
    rw [List.reverse_cons, shifts_append, Session.shifts_haltNotices, ha.1]
    exact .cons (.nil _)
  | done => exact hans _ ha.1
  | failed => exact hans _ ha.1
  | frameRefused _ hc =>
    rw [List.reverse_cons, shifts_append, Session.compose_phase hc]
    exact (hans _ ha.1).append (Session.handleAnswer_phase .. ▸ .cons (.nil _))
  | proceeds =>
    simp only [List.reverse_cons, shifts_append, List.append_assoc]
    exact (hans _ ha.1).append (Session.handleAnswer_phase .. ▸ .cons (.cons (.nil _)))
  | exhausted => exact hans _ ha.1
  | waitRefused =>
    rw [List.reverse_cons, shifts_append]
    exact (hans _ ha.1).append (.nil _)
  | holds =>
    simp only [List.reverse_cons, shifts_append, List.append_assoc]
    exact (hans _ ha.1).append (Session.handleAnswer_phase .. ▸ .cons (.nil _))
  | silent =>
    rw [List.reverse_append, shifts_append, Session.shifts_venResetNotices, ha.1]
    exact .cons (.nil _)
  | resends =>
    rw [ha.1]
    exact .cons (.cons (.nil _))

/-- A session on its way leaves `init` with its timer. -/
theorem Launches.leads {armed : Session} {failure : Option DownloadError}
    (h : e.Launches e' armed s ns failure) (hp : armed.phase = .init) :
    Leads .init (shifts ns.reverse) s.phase ∧
      ((∃ id, .timerCreated id ∈ ns) ↔ s.phase ≠ .init) ∧
      (s.phase = .init ∨ s.phase = .send ∨ s.phase = .recv) := by
  cases h with
  | noTimer => simp [hp, shifts, Leads.nil]
  | frameRefused hc =>
    rw [Session.compose_phase hc]
    exact ⟨.cons (.nil _), by simp, .inr (.inl rfl)⟩
  | sends =>
    exact ⟨.cons (.cons (.nil _)), by simp [Session.sending], .inr (.inr rfl)⟩

omit [Host W] in
theorem Prepares.shifts_eq_nil {c : Call} {request : Request} {userData : Option Bytes}
    {capacity : Nat} (h : e.Prepares c s ns request userData capacity) :
    shifts ns.reverse = [] ∧ ∀ id, .timerCreated id ∉ ns := by
  cases h <;> simp [shifts, Notice.shift?]

/-- The call fails after a timer was created for its session. -/
def Undoes (e : Engine W) (m : Move W) : Prop :=
  ∃ c err ns id, m = .call c ∧ (e.call c).1 = .error err ∧
    (e.call c).2.journal = ns ++ e.journal ∧ .timerCreated id ∈ ns

/-- The changes that a move adds, and where they lead. -/
structure Shifts (e : Engine W) (undone : Prop) (e' : Engine W) (xs : List (Phase × Phase))
    (p : Phase) : Prop where
  added : shifts e'.notices = shifts e.notices ++ xs
  leads : Leads e.session.phase xs p
  kept : ¬ undone → p = e'.session.phase
  lost : undone →
    e.session.phase = .init ∧ (p = .send ∨ p = .recv) ∧ e'.session.phase = .init

omit [Host W] in
theorem shifts_notices (h : e'.journal = ns ++ e.journal) :
    shifts e'.notices = shifts e.notices ++ shifts ns.reverse := by
  rw [notices, notices, h, List.reverse_append, shifts_append]

omit [Host W] in
theorem Passes.exists_shifts {undone : Prop} (h : e.Passes s ns e') (hn : ¬ undone)
    (hl : Leads e.session.phase (shifts ns.reverse) s.phase) :
    ∃ xs p, e.Shifts undone e' xs p :=
  ⟨_, _, shifts_notices h.journal, hl, fun _ => by rw [h.session], fun hu => (hn hu).elim⟩

omit [Host W] in
theorem Concludes.exists_shifts {undone : Prop} {result : Except DownloadError Unit}
    (h : e.Concludes s ns command result e') (hn : ¬ undone)
    (hl : Leads e.session.phase (shifts ns.reverse) s.phase) :
    ∃ xs p, e.Shifts undone e' xs p := by
  have hend : Leads e.session.phase (shifts (.finished command (errorOf result) ::
      (s.moveNotices .init ++ s.releaseNotices ++ ns)).reverse) .init := by
    simp only [List.reverse_cons, List.reverse_append, shifts_append, s.shifts_releaseNotices]
    exact ((hl.append (s.leads_moveNotices .init)).append (.nil _))
  refine ⟨_, _, shifts_notices h.journal, hend, fun _ => ?_, fun hu => (hn hu).elim⟩
  rw [h.session]
  rfl

theorem Calls.exists_shifts {c : Call} {r : Except DownloadError Unit} (h : e.Calls c r e') :
    ∃ xs p, e.Shifts (∃ err ns id, r = .error err ∧ e'.journal = ns ++ e.journal ∧
      .timerCreated id ∈ ns) e' xs p := by
  cases h with
  | @refused err ns _ hns hp =>
    have hn : ∀ id, .timerCreated id ∉ ns := by rcases hns with rfl | rfl <;> simp
    refine hp.exists_shifts ?_ ?_
    · rintro ⟨_, ns', id, -, hj, hm⟩
      exact hn id (List.append_cancel_right (hj.symm.trans hp.journal) ▸ hm)
    · rcases hns with rfl | rfl <;> exact .nil _
  | @starts s₀ s ns₀ ns request userData capacity _ hi hpre hl hp =>
    have hph : e.session.phase = .init := by rw [hi]; rfl
    have hl' := (hl.leads (hpre.phase.trans hph)).1
    refine hp.exists_shifts (by simp) ?_
    simp only [List.reverse_append, List.reverse_cons, shifts_append, hpre.shifts_eq_nil.1]
    exact hph ▸ hl'
  | @undone s₀ s ns₀ ns request userData capacity err _ hi hpre hl hp =>
    have hph : e.session.phase = .init := by rw [hi]; rfl
    obtain ⟨hl', hc, hs⟩ := hl.leads (hpre.phase.trans hph)
    have hx : shifts (.finished c.command (some err) ::
        (s.releaseNotices ++ (ns ++ .started c.command :: ns₀))).reverse = shifts ns.reverse := by
      simp only [List.reverse_append, List.reverse_cons, shifts_append, hpre.shifts_eq_nil.1,
        s.shifts_releaseNotices, List.nil_append, List.append_nil]
      exact List.append_nil _
    have hin : (∃ err' ns' id, (.error err : Except DownloadError Unit) = .error err' ∧
        e'.journal = ns' ++ e.journal ∧ .timerCreated id ∈ ns') ↔ s.phase ≠ .init := by
      rw [← hc]
      constructor
      · rintro ⟨_, ns', id, -, hj, hm⟩
        obtain rfl := List.append_cancel_right (hj.symm.trans hp.journal)
        refine ⟨id, ?_⟩
        simpa [s.timerCreated_not_mem_releaseNotices, hpre.shifts_eq_nil.2] using hm
      · rintro ⟨id, hm⟩
        exact ⟨err, _, id, rfl, hp.journal, by simp [hm]⟩
    have hend : e'.session.phase = .init := congrArg Session.phase hp.session
    refine ⟨_, _, shifts_notices hp.journal, hx ▸ hph ▸ hl', fun hu => ?_,
      fun hu => ⟨hph, hs.resolve_left (hin.1 hu), hend⟩⟩
    rw [hend]
    exact Decidable.not_not.1 (mt hin.2 hu)

omit [Host W] in
theorem Shifts.congr {undone undone' : Prop} {xs : List (Phase × Phase)} {p : Phase}
    (h : e.Shifts undone e' xs p) (hu : undone ↔ undone') : e.Shifts undone' e' xs p :=
  ⟨h.added, h.leads, fun hn => h.kept (mt hu.1 hn), fun hn => h.lost (hu.2 hn)⟩

theorem Handles.exists_shifts {undone : Prop} (h : e.Handles e') (hn : ¬ undone) :
    ∃ xs p, e.Shifts undone e' xs p := by
  cases h with
  | nothing => exact (Passes.refl e).exists_shifts hn (.nil _)
  | @ignores _ rest =>
    have hp : e.Shifts undone (e.popped rest) [] e.session.phase :=
      ⟨(List.append_nil _).symm, .nil _, fun _ => rfl, fun hu => (hn hu).elim⟩
    exact ⟨_, _, hp⟩
  | @reacts signal rest command id s ns outcome _ hq hw ha hr ht =>
    -- The signal is taken off the queue first, which no notice tells of.
    have hl := Reacts.leads (e := e.popped rest) ha hr
    have hs : ∃ xs p, (e.popped rest).Shifts undone e' xs p := by
      cases outcome with
      | none => exact Passes.exists_shifts ht hn hl
      | some result => exact Concludes.exists_shifts ht hn hl
    obtain ⟨xs, p, hs⟩ := hs
    exact ⟨xs, p, hs.added, hs.leads, hs.kept, hs.lost⟩

theorem Standing.exists_shifts (h : e.Standing) (m : Move W) :
    ∃ xs p, e.Shifts (e.Undoes m) (e.move m) xs p := by
  have hn : (∀ c, m ≠ .call c) → ¬ e.Undoes m := by
    rintro hm ⟨c, _, _, _, rfl, -⟩
    exact hm c rfl
  cases m with
  | call c =>
    obtain ⟨xs, p, hs⟩ := (h.call_calls c).exists_shifts
    refine ⟨xs, p, hs.congr ⟨?_, ?_⟩⟩
    · rintro ⟨err, ns, id, he, hj, hm⟩
      exact ⟨c, err, ns, id, rfl, he, hj, hm⟩
    · rintro ⟨_, err, ns, id, hc, he, hj, hm⟩
      cases hc
      exact ⟨err, ns, id, he, hj, hm⟩
  | setMode mode =>
    obtain ⟨ns, hn', hp⟩ := e.setMode_passes mode
    have hs : shifts ns.reverse = [] := by rcases hn' with rfl | rfl <;> rfl
    exact hp.exists_shifts (hn nofun) (hs ▸ .nil _)
  | loadPrimary => exact (Passes.loadPrimary e).exists_shifts (hn nofun) (.nil _)
  | handleNext => exact h.handleNext_handles.exists_shifts (hn nofun)
  | arrive signals => exact ((Passes.refl e).post signals).exists_shifts (hn nofun) (.nil _)
  | pass w => exact ((Passes.refl e).withWorld w).exists_shifts (hn nofun) (.nil _)

omit [Host W] in
/-- A chain that reached the phase of the engine goes on unless a start is undone, and one that
broke is broken for good. -/
theorem Shifts.leads_iff {undone : Prop} {xs : List (Phase × Phase)} {p : Phase}
    (h : e.Shifts undone e' xs p) :
    Leads .init (shifts e'.notices) e'.session.phase ↔
      Leads .init (shifts e.notices) e.session.phase ∧ ¬ undone := by
  rw [h.added]
  constructor
  · intro hl
    obtain ⟨q, hq, hx⟩ := hl.split
    have hsame : xs = [] → p = e.session.phase ∧ q = e'.session.phase := by
      rintro rfl
      exact ⟨h.leads.unique (.nil _), (hx.unique (.nil _)).symm⟩
    -- Changes that are there start at one phase only, so they mend no chain that was broken.
    have hsource : xs ≠ [] → q = e.session.phase ∧ p = e'.session.phase := by
      intro hne
      cases xs with
      | nil => exact (hne rfl).elim
      | cons x xs =>
        obtain rfl := hx.source h.leads
        exact ⟨rfl, h.leads.unique hx⟩
    by_cases hu : undone
    · obtain ⟨hfrom, hp, hto⟩ := h.lost hu
      have hpi : p = .init := by
        by_cases hne : xs = []
        · exact (hsame hne).1.trans hfrom
        · exact (hsource hne).2.trans hto
      subst hpi
      simp at hp
    · refine ⟨?_, hu⟩
      have hqe : q = e.session.phase := by
        by_cases hne : xs = []
        · obtain ⟨hp, hq'⟩ := hsame hne
          rw [hq', ← h.kept hu, hp]
        · exact (hsource hne).1
      exact hqe ▸ hq
  · rintro ⟨hl, hu⟩
    exact h.kept hu ▸ hl.append h.leads

theorem Standing.leads_run (h : e.Standing) (moves : List (Move W)) :
    Leads .init (shifts (e.run moves).notices) (e.run moves).session.phase ↔
      Leads .init (shifts e.notices) e.session.phase ∧
        ∀ before m after, moves = before ++ m :: after → ¬ (e.run before).Undoes m := by
  induction moves generalizing e with
  | nil =>
    refine (and_iff_left ?_).symm
    simp
  | cons m moves ih =>
    obtain ⟨xs, p, hs⟩ := h.exists_shifts m
    rw [run_cons, ih ((h.move_advances m).standing h), hs.leads_iff, and_assoc]
    refine and_congr_right fun _ => ⟨?_, fun hall => ⟨hall [] m moves rfl, ?_⟩⟩
    · rintro ⟨hu, hall⟩ before m' after he
      cases before with
      | nil =>
        cases he
        exact hu
      | cons m₀ before =>
        cases he
        exact hall before m' after rfl
    · rintro before m' after rfl
      exact hall (m :: before) m' after rfl

/-- The changes of phase that an observer is told of form a chain from `init` to the phase of the
engine if and only if no call failed once its session had a timer. Such a call leaves the engine in
`init`, and the last change that it told of ends in `send` or `recv`. Any other move adds changes
that lead from the phase before it to the phase behind it. -/
theorem phases_chained_unless_undone (config : Config) (library : ImageLibrary) (w : W)
    (moves : List (Move W)) :
    let e := (fresh config library w).run moves
    (Leads .init (shifts e.notices) e.session.phase ↔ ∀ before m after,
      moves = before ++ m :: after → ¬ ((fresh config library w).run before).Undoes m) ∧
    ∀ m, ∃ changes p, e.Shifts (e.Undoes m) (e.move m) changes p := by
  have hs := standing_fresh config library w
  refine ⟨?_, fun m => (hs.run moves).exists_shifts m⟩
  rw [hs.leads_run moves]
  exact and_iff_right (.nil _)

/-- Its link takes no frame. -/
def refusingBench : Bench MockLink := { link := { writeBehavior := .reject } }

/-- The frame of the first call is refused, that of the second one is not. -/
def refusedThenTaken : List (Move (Bench MockLink)) :=
  [.call (.getVersion 16), .pass { link := {} }, .call .reset]

/-- The session of the refused frame was seen to reach `recv`, and the next one starts at `init`. -/
theorem refused_frame_breaks_chain :
    let e := fresh {} (ImageLibrary.ofList []) refusingBench
    ¬ Leads .init (shifts (e.run refusedThenTaken).notices)
        (e.run refusedThenTaken).session.phase ∧
      shifts (e.run refusedThenTaken).notices =
        [(.init, .send), (.send, .recv), (.init, .send), (.send, .recv)] := by
  have hu : (fresh {} (ImageLibrary.ofList []) refusingBench).Undoes (.call (.getVersion 16)) :=
    ⟨_, _, _, ⟨1⟩, rfl, rfl, (List.append_nil _).symm, by decide +kernel⟩
  refine ⟨fun hl => ?_, by decide +kernel⟩
  exact (phases_chained_unless_undone _ _ _ refusedThenTaken).1.1 hl [] _ _ rfl hu

end Engine

end FirmwareDownload
