import FirmwareDownload.Proofs.Engine.HostCalls
import FirmwareDownload.Proofs.Engine.Invariant

/-! What an engine holds of its host, as its record tells: at most one timer, and a read. The
record of a run is in order: a timer is created only while none is held, and only the one held is
armed, stopped or deleted. An idle engine holds nothing. -/

namespace FirmwareDownload

structure Holdings where
  timer : Option TimerId := none
  /-- A read was asked for and not taken back since. -/
  reading : Bool := false
  deriving DecidableEq, Repr

namespace Holdings

/-- What is held behind the notice, if what it tells of was in order. -/
def take (h : Holdings) : Notice → Option Holdings
  | .timerCreated id => if h.timer = none then some { h with timer := some id } else none
  | .timerArmed id _ => if h.timer = some id then some h else none
  | .timerStopped id => if h.timer = some id then some h else none
  | .timerDeleted id => if h.timer = some id then some { h with timer := none } else none
  | .readRequested _ => some { h with reading := true }
  | .readAborted => some { h with reading := false }
  | _ => some h

/-- What is held behind the notices, which come newest first. -/
def after (h : Holdings) : List Notice → Option Holdings
  | [] => some h
  | n :: ns => (h.after ns).bind (fun h => h.take n)

variable {h h' : Holdings} {ns ns' : List Notice}

@[simp]
theorem after_nil : h.after [] = some h := rfl

@[simp]
theorem after_cons (n : Notice) : h.after (n :: ns) = (h.after ns).bind (fun h => h.take n) := rfl

@[simp]
theorem after_append : h.after (ns ++ ns') = (h.after ns').bind (fun h => h.after ns) := by
  induction ns with
  | nil => simp
  | cons n ns ih => rw [List.cons_append, after_cons, ih, Option.bind_assoc]; rfl

theorem after_trans (hn : h.after ns = some h') : h.after (ns' ++ ns) = h'.after ns' := by
  rw [after_append, hn]
  rfl

/-- Notices that tell of no call on the host change nothing of what is held. -/
theorem after_filter (h : Holdings) (ns : List Notice) :
    h.after (ns.filter Notice.ofHost) = h.after ns := by
  induction ns with
  | nil => rfl
  | cons n ns ih =>
    by_cases hn : n.ofHost = true
    · rw [List.filter_cons_of_pos hn, after_cons, after_cons, ih]
    · have ht : ∀ h : Holdings, h.take n = some h := by
        intro h
        cases n <;> first | rfl | exact absurd rfl hn
      rw [List.filter_cons_of_neg hn, ih, after_cons]
      cases h.after ns <;> simp [ht]

/-- A timer that is held was created once more than it was deleted, and any other as often. -/
theorem count_created (hn : ({} : Holdings).after ns = some h) (id : TimerId) :
    ns.count (.timerCreated id) =
      ns.count (.timerDeleted id) + if h.timer = some id then 1 else 0 := by
  induction ns generalizing h with
  | nil =>
    cases hn
    simp
  | cons n ns ih =>
    obtain ⟨h₁, h₂, hn⟩ := Option.bind_eq_some_iff.1 hn
    have hc := ih h₂
    cases n with
    | timerCreated id' =>
      simp only [take, Option.ite_none_right_eq_some, Option.some.injEq] at hn
      obtain ⟨ht, rfl⟩ := hn
      by_cases he : id' = id <;> simp_all
    | timerDeleted id' =>
      simp only [take, Option.ite_none_right_eq_some, Option.some.injEq] at hn
      obtain ⟨ht, rfl⟩ := hn
      by_cases he : id' = id <;> simp_all
    | timerArmed | timerStopped =>
      simp only [take, Option.ite_none_right_eq_some, Option.some.injEq] at hn
      obtain ⟨-, rfl⟩ := hn
      simpa using hc
    | _ =>
      simp only [take, Option.some.injEq] at hn
      subst hn
      simpa using hc

end Holdings

namespace Session

variable (s : Session) (h : Holdings)

@[simp]
theorem after_moveNotices (p : Phase) : h.after (s.moveNotices p) = some h := by
  unfold moveNotices
  split <;> rfl

@[simp]
theorem after_statusNotices (raw : Bytes) : h.after (s.statusNotices raw) = some h := by
  rcases s.statusNotices_cases raw with hs | ⟨status, hs⟩ <;> rw [hs] <;> rfl

@[simp]
theorem after_progressNotices : h.after s.progressNotices = some h := by
  unfold progressNotices
  split <;> rfl

@[simp]
theorem after_venResetNotices (config : Config) : h.after (s.venResetNotices config) = some h := by
  unfold venResetNotices
  split <;> rfl

/-- The session knows the timer that is held. -/
theorem after_haltNotices (ht : h.timer = s.timer.id) : h.after s.haltNotices = some h := by
  unfold haltNotices
  cases hid : s.timer.id with
  | none => rfl
  | some id =>
    rw [hid] at ht
    cases s.timer.running <;> simp [Holdings.take, ht]

theorem after_answerNotices (ht : h.timer = s.timer.id) (raw : Bytes) :
    h.after (s.answerNotices raw) = some h := by
  simp [answerNotices, after_haltNotices s h ht, Holdings.take]

/-- A release gives back all that is held. -/
theorem after_releaseNotices (ht : h.timer = s.timer.id) :
    h.after s.releaseNotices = some {} := by
  unfold releaseNotices timerReleaseNotices
  cases hid : s.timer.id with
  | none =>
    rw [hid] at ht
    cases s.restoreNormalMode <;> simp [Holdings.take, ht]
  | some id =>
    rw [hid] at ht
    cases s.restoreNormalMode <;> cases s.timer.running <;> simp [Holdings.take, ht]

end Session

namespace Engine

variable {W : Type} [Host W] {e e' : Engine W} {command : Command} {id : TimerId} {signal : Signal}
  {s : Session} {ns : List Notice} {outcome : Option (Except DownloadError Unit)}

/-- A reaction keeps the timer of the session. -/
theorem Reacts.holdings (hw : e.session.Waiting command id)
    (hr : e.Reacts e' command id signal s ns outcome) {h : Holdings} (ht : h.timer = some id) :
    s.timer.id = some id ∧ ∃ reading, h.after ns = some ⟨some id, reading⟩ := by
  obtain ⟨timer, reading⟩ := h
  obtain rfl : timer = some id := ht
  have hid := hw.timer
  have hu := fun raw => hw.toUnderway.handleAnswer raw
  have ha := fun raw => e.session.after_answerNotices ⟨some id, reading⟩ hid.symm raw
  have hh := e.session.after_haltNotices ⟨some id, reading⟩ hid.symm
  cases hr with
  | writeFailed => exact ⟨hid, _, rfl⟩
  | timerRefused => exact ⟨hid, _, rfl⟩
  | listens => exact ⟨hid, true, by simp [Holdings.take]⟩
  | readFailed => exact ⟨hid, reading, by simp [hh, Holdings.take]⟩
  | done => exact ⟨(hu _).timer, reading, ha _⟩
  | failed => exact ⟨(hu _).timer, reading, ha _⟩
  | frameRefused _ hc => exact ⟨((hu _).compose hc).timer, reading, by simp [ha, Holdings.take]⟩
  | proceeds _ hc => exact ⟨((hu _).compose hc).timer, reading, by simp [ha, Holdings.take]⟩
  | exhausted => exact ⟨(hu _).timer, reading, ha _⟩
  | waitRefused => exact ⟨(hu _).timer, reading, by simp [ha, Holdings.take]⟩
  | holds => exact ⟨(hu _).timer, reading, by simp [ha, Holdings.take]⟩
  | silent => exact ⟨hid, reading, by simp [Holdings.take]⟩
  | resends => exact ⟨hid, reading, by simp [Holdings.take]⟩

/-- A session on its way holds the timer that was created for it. -/
theorem Launches.holdings {armed : Session} {failure : Option DownloadError}
    (hl : e.Launches e' armed s ns failure) (ht : armed.timer.id = none) :
    ({} : Holdings).after ns = some ⟨s.timer.id, false⟩ := by
  have hk : ∀ {id : TimerId} {r s'}, { armed.timed id with phase := .send }.compose = (r, s') →
      s'.timer.id = some id := by
    intro id r s' hc
    obtain ⟨_, _, he⟩ := Session.composed hc
    rw [he]
    rfl
  cases hl with
  | noTimer => rw [ht]; rfl
  | frameRefused hc => simp [hk hc, Holdings.take]
  | sends hc => simp [Session.sending, hk hc, Holdings.take]

omit [Host W] in
theorem Prepares.holdings {c : Call} {request : Request} {userData : Option Bytes} {capacity : Nat}
    (h : e.Prepares c s ns request userData capacity) :
    s.timer.id = e.session.timer.id ∧ ({} : Holdings).after ns = some {} := by
  cases h <;> exact ⟨rfl, rfl⟩

/-- The record is in order, and tells of the timer of the session. Without a session nothing is
held. -/
def Orderly (e : Engine W) : Prop := ∃ reading,
  ({} : Holdings).after e.journal = some ⟨e.session.timer.id, reading⟩ ∧
    (e.session.Idle → reading = false)

omit [Host W] in
theorem Orderly.of_idle (h : e.Orderly) (hi : e.session.Idle) :
    ({} : Holdings).after e.journal = some {} := by
  obtain ⟨reading, hj, hr⟩ := h
  rw [hj, hr hi, hi]
  rfl

omit [Host W] in
theorem orderly_fresh (config : Config) (library : ImageLibrary) (w : W) :
    (fresh config library w).Orderly :=
  ⟨false, rfl, fun _ => rfl⟩

omit [Host W] in
theorem Orderly.keeps (h : e.Orderly) (hp : e.Passes e.session ns e')
    (hn : ∀ h : Holdings, h.after ns = some h) : e'.Orderly := by
  obtain ⟨reading, hj, hr⟩ := h
  refine ⟨reading, ?_, ?_⟩
  · rw [hp.journal, Holdings.after_trans hj, hn, hp.session]
  · rw [hp.session]
    exact hr

omit [Host W] in
theorem Orderly.concludes {result : Except DownloadError Unit}
    (hp : e.Concludes s ns command result e') {reading : Bool}
    (hn : ({} : Holdings).after (ns ++ e.journal) = some ⟨s.timer.id, reading⟩) : e'.Orderly := by
  refine ⟨false, ?_, fun _ => rfl⟩
  have hend := s.after_releaseNotices ⟨s.timer.id, reading⟩ rfl
  rw [hp.journal, hp.session, List.cons_append, List.append_assoc, Holdings.after_cons,
    Holdings.after_trans hn, Holdings.after_append, hend]
  simp [Holdings.take, Session.reset]

theorem Orderly.calls {c : Call} {r : Except DownloadError Unit} (h : e.Orderly)
    (hc : e.Calls c r e') : e'.Orderly := by
  cases hc with
  | refused hns hp =>
    refine h.keeps hp ?_
    rcases hns with rfl | rfl <;> intro h <;> rfl
  | @starts s₀ s ns₀ ns _ _ _ _ hi hpre hl hp =>
    have ht : s₀.timer.id = none := by rw [hpre.holdings.1, hi]; rfl
    refine ⟨false, ?_, fun _ => rfl⟩
    rw [hp.journal, hp.session, Holdings.after_trans (h.of_idle hi)]
    simp [hpre.holdings.2, hl.holdings ht, Holdings.take]
  | @undone s₀ s ns₀ ns _ _ _ _ _ hi hpre hl hp =>
    have ht : s₀.timer.id = none := by rw [hpre.holdings.1, hi]; rfl
    refine ⟨false, ?_, fun _ => rfl⟩
    rw [hp.journal, hp.session, Holdings.after_trans (h.of_idle hi)]
    simp [hpre.holdings.2, hl.holdings ht, s.after_releaseNotices ⟨s.timer.id, false⟩ rfl,
      Holdings.take, Session.reset]

theorem Orderly.advances {cs : List Command} (h : e.Orderly) (ha : e.Advances cs e') :
    e'.Orderly := by
  cases ha with
  | keeps hns hp =>
    refine h.keeps hp ?_
    rcases hns with rfl | ⟨mode, rfl⟩ <;> intro h <;> rfl
  | calls hc => exact h.calls hc
  | ignores => exact h
  | @reacts signal rest command id s ns outcome _ hq hw hs hr ht =>
    obtain ⟨reading, hj, -⟩ := h
    obtain ⟨hid, reading', hn⟩ := Reacts.holdings (e := e.popped rest) hw hr
      (h := ⟨e.session.timer.id, reading⟩) hw.timer
    rw [← hid, ← Holdings.after_trans hj] at hn
    cases outcome with
    | none =>
      have hw' := Reacts.waiting (e := e.popped rest) hw hs hr rfl
      refine ⟨reading', ?_, ?_⟩
      · rw [ht.journal, ht.session]
        exact hn
      · intro hi
        have hb : s.busy = true := hw'.busy
        rw [← ht.session, hi] at hb
        cases hb
    | some result => exact .concludes (e := e.popped rest) ht hn

theorem Orderly.run (h : e.Orderly) (hs : e.Standing) (moves : List (Move W)) :
    (e.run moves).Orderly := by
  induction moves generalizing e with
  | nil => exact h
  | cons m moves ih =>
    have ha := hs.move_advances m
    exact ih (h.advances ha) (ha.standing hs)

/-- Once it is dropped an engine holds nothing. -/
theorem Orderly.drop (h : e.Orderly) (hs : e.Standing) :
    ({} : Holdings).after e.drop.journal = some {} := by
  unfold Engine.drop
  split
  · obtain ⟨reading, hj, -⟩ := h
    have hp := (Passes.refl e).release
    rw [hp.journal, List.append_nil, Holdings.after_trans hj]
    exact e.session.after_releaseNotices _ rfl
  · rename_i hn
    have hb : e.session.busy = false := by
      cases hb : e.session.busy with
      | false => rfl
      | true => exact absurd (.inl hb) hn
    exact h.of_idle (hs.idle_of_not_busy hb)

end Engine

end FirmwareDownload
