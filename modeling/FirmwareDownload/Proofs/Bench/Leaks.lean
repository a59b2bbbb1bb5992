import FirmwareDownload.Proofs.Bench.LaidAnswers
import FirmwareDownload.Proofs.Engine.Holdings
import FirmwareDownload.Proofs.Engine.HostCalls

/-! Timers and reads on a bench with a mock link and timers that fire by hand. Whatever is done to
the bench and to the engine on it, the bench has the timer that the engine holds and no other, and
a read is parked only while the engine holds one. -/

namespace FirmwareDownload

namespace Notice

variable {ns : List Notice}

def created? : Notice → Option TimerId
  | timerCreated id => some id
  | _ => none

theorem created?_eq_some {n : Notice} {id : TimerId} :
    n.created? = some id ↔ n = timerCreated id := by
  cases n <;> simp [created?]

theorem filterMap_created? (h : ∀ id, timerCreated id ∉ ns) : ns.filterMap created? = [] :=
  List.filterMap_eq_nil_iff.2 fun _ hn => Option.eq_none_iff_forall_ne_some.2 fun id he =>
    h id (created?_eq_some.1 he ▸ hn)

theorem filterMap_created?_filter (ns : List Notice) :
    (ns.filter ofHost).filterMap created? = ns.filterMap created? := by
  rw [List.filterMap_filter]
  exact congrArg (List.filterMap · ns) (funext fun n => by cases n <;> rfl)

end Notice

namespace HostCall

/-- The error with which a stop or a deletion of a timer ends. -/
def fault? {W : Type} [Host W] (w : W) : HostCall → Option TimerError
  | stopTimer id =>
    match (Host.stopTimer w id).1 with
    | .ok () => none
    | .error err => some err
  | deleteTimer id =>
    match (Host.deleteTimer w id).1 with
    | .ok () => none
    | .error err => some err
  | _ => none

end HostCall

/-- The record of the calls on the bench, newest first, is in order, and the bench has what the
engine holds. -/
structure Bench.Fits (b : Bench MockLink) (ns : List Notice) (h : Holdings) : Prop where
  clock : b.clock = none
  held : ({} : Holdings).after ns = some h
  timers : b.bank.timers.map Prod.fst = h.timer.toList
  parked : b.link.parked.isSome = true → h.reading = true
  /-- Timers are numbered from one as they are created. -/
  numbered : (ns.filterMap Notice.created?).map TimerId.number =
    (List.range' 1 b.bank.lastId).reverse
  once : ∀ id, ns.count (.timerCreated id) ≤ 1

namespace TimerBank

theorem ids_setArming (b : TimerBank) (id : TimerId) (arming : Option Arming) :
    (b.setArming id arming).timers.map Prod.fst = b.timers.map Prod.fst := by
  simp only [setArming, List.map_map]
  refine List.map_congr_left fun t _ => ?_
  by_cases ht : t.1 = id <;> simp [ht]

theorem ids_start (b : TimerBank) (id : TimerId) (milliseconds : Nat) (ticket : Ticket) :
    (b.start id milliseconds ticket).2.timers.map Prod.fst = b.timers.map Prod.fst ∧
      (b.start id milliseconds ticket).2.lastId = b.lastId := by
  unfold start
  split
  · exact ⟨rfl, rfl⟩
  · dsimp only
    split
    · exact ⟨ids_setArming _ id _, rfl⟩
    · exact ⟨rfl, rfl⟩

theorem create_cases (b : TimerBank) : b.create = (.error .exhausted, b) ∨
    b.create = (.ok ⟨b.lastId + 1⟩, { b with
      lastId := b.lastId + 1, timers := b.timers ++ [(⟨b.lastId + 1⟩, none)] }) := by
  unfold create
  split
  · exact .inl rfl
  · exact .inr rfl

theorem has_of_ids {b : TimerBank} {id : TimerId} (h : b.timers.map Prod.fst = [id]) :
    b.has id = true := by
  have hm : id ∈ b.timers.map Prod.fst := by simp [h]
  simpa [has] using hm

theorem stop_only {b : TimerBank} {id : TimerId} (h : b.timers.map Prod.fst = [id]) :
    b.stop id = (.ok (), b.setArming id none) := by
  simp [stop, has_of_ids h]

theorem delete_only {b : TimerBank} {id : TimerId} (h : b.timers.map Prod.fst = [id]) :
    b.delete id = (.ok (), { b with timers := [] }) := by
  have hnone : b.timers.filter (fun t => t.1 ≠ id) = [] := by
    rw [List.filter_eq_nil_iff]
    intro t ht
    have hm : t.1 ∈ b.timers.map Prod.fst := List.mem_map_of_mem ht
    simpa [h] using hm
  simp only [delete, has_of_ids h, hnone]
  rfl

theorem ids_fire (b : TimerBank) (id : TimerId) :
    (b.fire id).2.timers.map Prod.fst = b.timers.map Prod.fst ∧
      (b.fire id).2.lastId = b.lastId := by
  unfold fire
  split
  · exact ⟨ids_setArming b _ none, rfl⟩
  · exact ⟨rfl, rfl⟩

theorem ids_fireOldest (b : TimerBank) :
    b.fireOldest.2.timers.map Prod.fst = b.timers.map Prod.fst ∧
      b.fireOldest.2.lastId = b.lastId := by
  unfold fireOldest
  split
  · exact ⟨ids_setArming b _ none, rfl⟩
  · exact ⟨rfl, rfl⟩

end TimerBank

namespace Bench

variable {b b' : Bench MockLink} {ns ns' : List Notice} {h h' : Holdings}

theorem Fits.length_le (hf : b.Fits ns h) : b.bank.timers.length ≤ 1 := by
  have hl := congrArg List.length hf.timers
  rw [List.length_map] at hl
  rw [hl]
  cases h.timer <;> simp

theorem Fits.number_le (hf : b.Fits ns h) {id : TimerId} (hm : .timerCreated id ∈ ns) :
    id.number ≤ b.bank.lastId := by
  have hn : id.number ∈ (ns.filterMap Notice.created?).map TimerId.number :=
    List.mem_map_of_mem (List.mem_filterMap.2 ⟨_, hm, rfl⟩)
  rw [hf.numbered, List.mem_reverse, List.mem_range'_1] at hn
  omega

/-- No timer is created or deleted. -/
theorem Fits.keeps (hf : b.Fits ns h) (hc : b'.clock = b.clock)
    (ht : b'.bank.timers.map Prod.fst = b.bank.timers.map Prod.fst ∧
      b'.bank.lastId = b.bank.lastId)
    (hp : b'.link.parked.isSome = true → h'.reading = true)
    (hn : ∀ id, .timerCreated id ∉ ns') (ha : h.after ns' = some h') (hh : h'.timer = h.timer) :
    b'.Fits (ns' ++ ns) h' := by
  refine ⟨hc.trans hf.clock, ?_, ?_, hp, ?_, fun id => ?_⟩
  · rw [Holdings.after_trans hf.held, ha]
  · rw [ht.1, hf.timers, hh]
  · rw [ht.2, List.filterMap_append, Notice.filterMap_created? hn]
    exact hf.numbered
  · rw [List.count_append, List.count_eq_zero_of_not_mem (hn id), Nat.zero_add]
    exact hf.once id

theorem Fits.createTimer (hf : b.Fits ns h)
    (ha : h.after (HostCall.createTimer.notices b) = some h') :
    (HostCall.createTimer.run b).Fits (HostCall.createTimer.notices b ++ ns) h' := by
  have hb : Host.createTimer b = (b.bank.create.1, { b with bank := b.bank.create.2 }) := by
    simp only [Host.createTimer, Bench.createTimer, hf.clock]
  rcases b.bank.create_cases with hc | hc <;>
    simp only [HostCall.notices, HostCall.run, hb, hc] at ha ⊢
  · cases ha
    exact hf.keeps rfl ⟨rfl, rfl⟩ hf.parked (by simp) rfl rfl
  · have hheld := (Holdings.after_trans hf.held).trans ha
    simp only [Holdings.after_cons, Holdings.after_nil, Option.bind_some, Holdings.take,
      Option.ite_none_right_eq_some, Option.some.injEq] at ha
    obtain ⟨hn, rfl⟩ := ha
    have hnew : .timerCreated ⟨b.bank.lastId + 1⟩ ∉ ns := by
      intro hm
      have hle : b.bank.lastId + 1 ≤ b.bank.lastId := hf.number_le hm
      omega
    refine ⟨hf.clock, hheld, by simp [hf.timers, hn], hf.parked, ?_, fun id => ?_⟩
    · rw [List.range'_1_concat, List.reverse_append, Nat.add_comm 1, ← hf.numbered]
      rfl
    · by_cases he : (⟨b.bank.lastId + 1⟩ : TimerId) = id
      · subst he
        simp [List.count_eq_zero_of_not_mem hnew]
      · simpa [he] using hf.once id

theorem Fits.startTimer (hf : b.Fits ns h) {id : TimerId} {milliseconds : Nat} {ticket : Ticket}
    (ha : h.after ((HostCall.startTimer id milliseconds ticket).notices b) = some h') :
    ((HostCall.startTimer id milliseconds ticket).run b).Fits
      ((HostCall.startTimer id milliseconds ticket).notices b ++ ns) h' := by
  have hb : (HostCall.startTimer id milliseconds ticket).run b =
      { b with bank := (b.bank.start id milliseconds ticket).2 } := by
    simp only [HostCall.run, Host.startTimer, Bench.startTimer, hf.clock]
  have hh : h' = h ∧ ∀ id', .timerCreated id' ∉
      (HostCall.startTimer id milliseconds ticket).notices b := by
    simp only [HostCall.notices] at ha ⊢
    split at ha
    · simp only [Holdings.after_cons, Holdings.after_nil, Option.bind_some, Holdings.take,
        Option.ite_none_right_eq_some, Option.some.injEq] at ha
      exact ⟨ha.2.symm, by simp⟩
    · cases ha
      exact ⟨rfl, by simp⟩
  obtain ⟨rfl, hn⟩ := hh
  rw [hb]
  exact hf.keeps rfl (b.bank.ids_start id milliseconds ticket) hf.parked hn ha rfl

theorem Fits.stopTimer (hf : b.Fits ns h) {id : TimerId}
    (ha : h.after ((HostCall.stopTimer id).notices b) = some h') :
    ((HostCall.stopTimer id).run b).Fits ((HostCall.stopTimer id).notices b ++ ns) h' ∧
      (HostCall.stopTimer id).fault? b = none := by
  have hs := ha
  simp only [HostCall.notices, Holdings.after_cons, Holdings.after_nil, Option.bind_some,
    Holdings.take, Option.ite_none_right_eq_some, Option.some.injEq] at hs
  obtain ⟨hid, rfl⟩ := hs
  have hids : b.bank.timers.map Prod.fst = [id] := by rw [hf.timers, hid]; rfl
  have hc : Host.stopTimer b id = (.ok (), { b with bank := b.bank.setArming id none }) := by
    simp only [Host.stopTimer, Bench.stopTimer, hf.clock, TimerBank.stop_only hids]
  refine ⟨?_, by simp only [HostCall.fault?, hc]⟩
  rw [HostCall.run, hc]
  exact hf.keeps rfl ⟨b.bank.ids_setArming id none, rfl⟩ hf.parked (by simp [HostCall.notices]) ha
    rfl

theorem Fits.deleteTimer (hf : b.Fits ns h) {id : TimerId}
    (ha : h.after ((HostCall.deleteTimer id).notices b) = some h') :
    ((HostCall.deleteTimer id).run b).Fits ((HostCall.deleteTimer id).notices b ++ ns) h' ∧
      (HostCall.deleteTimer id).fault? b = none := by
  have hheld := (Holdings.after_trans hf.held).trans ha
  simp only [HostCall.notices, Holdings.after_cons, Holdings.after_nil, Option.bind_some,
    Holdings.take, Option.ite_none_right_eq_some, Option.some.injEq] at ha
  obtain ⟨hid, rfl⟩ := ha
  have hids : b.bank.timers.map Prod.fst = [id] := by rw [hf.timers, hid]; rfl
  have hc : Host.deleteTimer b id = (.ok (), { b with bank := { b.bank with timers := [] } }) := by
    simp only [Host.deleteTimer, Bench.deleteTimer, hf.clock, TimerBank.delete_only hids]
  refine ⟨?_, by simp only [HostCall.fault?, hc]⟩
  rw [HostCall.run, hc]
  refine ⟨hf.clock, hheld, rfl, hf.parked, hf.numbered, fun id' => ?_⟩
  · simpa [HostCall.notices] using hf.once id'

theorem Fits.write (hf : b.Fits ns h) (frame : Bytes) (ticket : Ticket) :
    ((HostCall.write frame ticket).run b).Fits
      ((HostCall.write frame ticket).notices b ++ ns) h := by
  have hk : ((HostCall.write frame ticket).run b).link.parked = b.link.parked := by
    simp only [HostCall.run, Host.write, Bench.write]
    split
    · rfl
    · simp only [Link.write, MockLink.write]
      split <;> rfl
  have hb : ((HostCall.write frame ticket).run b).clock = b.clock ∧
      ((HostCall.write frame ticket).run b).bank = b.bank := by
    simp only [HostCall.run, Host.write, Bench.write]
    split <;> exact ⟨rfl, rfl⟩
  exact hf.keeps hb.1 (by simp [hb.2]) (by rw [hk]; exact hf.parked) (by simp [HostCall.notices])
    rfl rfl

theorem Fits.read (hf : b.Fits ns h) (limit : Nat) (ticket : Ticket) :
    ((HostCall.read limit ticket).run b).Fits ((HostCall.read limit ticket).notices b ++ ns)
      { h with reading := true } := by
  have hb : ((HostCall.read limit ticket).run b).clock = b.clock ∧
      ((HostCall.read limit ticket).run b).bank = b.bank := by
    simp only [HostCall.run, Host.read, Bench.read]
    split <;> exact ⟨rfl, rfl⟩
  exact hf.keeps hb.1 (by simp [hb.2]) (fun _ => rfl) (by simp [HostCall.notices]) rfl rfl

theorem Fits.setMode (hf : b.Fits ns h) (mode : DeviceMode) :
    ((HostCall.setMode mode).run b).Fits ((HostCall.setMode mode).notices b ++ ns) h := by
  have hb : ((HostCall.setMode mode).run b).clock = b.clock ∧
      ((HostCall.setMode mode).run b).bank = b.bank ∧
      ((HostCall.setMode mode).run b).link.parked = b.link.parked := by
    simp only [HostCall.run, Host.setMode, Bench.setMode]
    split <;> exact ⟨rfl, rfl, rfl⟩
  exact hf.keeps hb.1 (by simp [hb.2.1]) (by rw [hb.2.2]; exact hf.parked)
    (by simp [HostCall.notices]) rfl rfl

/-- A call that is in order succeeds, if it stops or deletes a timer, and the bench has what is held
behind it. -/
theorem Fits.run (hf : b.Fits ns h) {c : HostCall} (ha : h.after (c.notices b) = some h') :
    (c.run b).Fits (c.notices b ++ ns) h' ∧ c.fault? b = none := by
  cases c with
  | createTimer => exact ⟨hf.createTimer ha, rfl⟩
  | startTimer => exact ⟨hf.startTimer ha, rfl⟩
  | stopTimer => exact hf.stopTimer ha
  | deleteTimer => exact hf.deleteTimer ha
  | write frame ticket =>
    cases ha
    exact ⟨hf.write frame ticket, rfl⟩
  | read limit ticket =>
    cases ha
    exact ⟨hf.read limit ticket, rfl⟩
  | abortRead =>
    cases ha
    exact ⟨hf.keeps rfl ⟨rfl, rfl⟩ nofun (by simp [HostCall.notices]) rfl rfl, rfl⟩
  | setMode mode =>
    cases ha
    exact ⟨hf.setMode mode, rfl⟩
  | await limit =>
    cases ha
    have hb : (HostCall.await limit).run b = b := by
      simp only [HostCall.run, Host.await, Bench.await, hf.clock]
    rw [hb]
    exact ⟨hf, rfl⟩

theorem Fits.runAll {calls : List HostCall} (hf : b.Fits ns h)
    (ha : h.after (HostCall.record b calls) = some h') :
    (HostCall.runAll b calls).Fits (HostCall.record b calls ++ ns) h' ∧
      ∀ before c after, calls = before ++ c :: after →
        c.fault? (HostCall.runAll b before) = none ∧
          (HostCall.runAll b before).bank.timers.length ≤ 1 := by
  induction calls generalizing b ns h with
  | nil =>
    cases ha
    exact ⟨hf, by simp⟩
  | cons c calls ih =>
    rw [HostCall.record, Holdings.after_append] at ha
    obtain ⟨h₁, hc, ha⟩ := Option.bind_eq_some_iff.1 ha
    obtain ⟨hf₁, hfault⟩ := hf.run hc
    obtain ⟨hf', hall⟩ := ih hf₁ ha
    rw [HostCall.record, List.append_assoc]
    refine ⟨hf', ?_⟩
    rintro before c' after he
    cases before with
    | nil =>
      cases he
      exact ⟨hfault, hf.length_le⟩
    | cons c₀ before =>
      cases he
      exact hall before c' after rfl

end Bench

/-! ## Trials -/

/-- What can happen in a trial: a step of it, the handling of a single signal, and signals that come
in another order, or others. -/
inductive Occurrence
  | step (s : TrialStep MockControl)
  | handleNext
  | requeue (signals : List Signal)

/-- Something done to the bench, and not by the engine. -/
def Occurrence.ofBench : Occurrence → Bool
  | .step (.holdWrites _) => true
  | .step .releaseWrites => true
  | .step (.readFault _) => true
  | .step (.failModes _) => true
  | .step (.failCreate _) => true
  | .step (.failStart _) => true
  | .step .fire => true
  | .step (.fireId _) => true
  | .step (.link _) => true
  | _ => false

namespace Trial

def fresh (config : Config) (library : ImageLibrary) : Trial MockLink :=
  { engine := Engine.fresh config library { link := {} } }

def occur (t : Trial MockLink) : Occurrence → Trial MockLink
  | .step s => (t.step s).2
  | .handleNext => (t.onEngine (fun e => (.nothing, e.handleNext.getD e))).2
  | .requeue signals => { t with engine := { t.engine with queue := signals } }

def play (t : Trial MockLink) (occurrences : List Occurrence) : Trial MockLink :=
  occurrences.foldl occur t

variable {t : Trial MockLink}

theorem bench_post (t : Trial MockLink) (signals : List Signal) :
    (t.post signals).bench = t.bench ∧ (t.post signals).dropped = t.dropped ∧
      (t.post signals).engine.session = t.engine.session ∧
      (t.post signals).engine.journal = t.engine.journal := by
  unfold post
  split <;> exact ⟨rfl, rfl, rfl, rfl⟩

theorem parked_act (m : MockLink) (control : MockControl) :
    (Controls.act m control).2.parked.isSome = true → m.parked.isSome = true := by
  intro h
  obtain ⟨ticket, ht⟩ := Option.isSome_iff_exists.1 h
  rcases (m.deals_control control).parked_cases ht with hp | hr
  · rw [hp]
    rfl
  · cases hr

/-- What is done to the bench leaves the engine and the timers that there are. -/
structure Turns (t t' : Trial MockLink) : Prop where
  dropped : t'.dropped = t.dropped
  session : t'.engine.session = t.engine.session
  journal : t'.engine.journal = t.engine.journal
  clock : t'.bench.clock = t.bench.clock
  timers : t'.bench.bank.timers.map Prod.fst = t.bench.bank.timers.map Prod.fst ∧
    t'.bench.bank.lastId = t.bench.bank.lastId
  parked : t'.bench.link.parked.isSome = true → t.bench.link.parked.isSome = true

theorem turns_post {t' : Trial MockLink} (h : t.Turns t') (signals : List Signal) :
    t.Turns (t'.post signals) := by
  obtain ⟨hb, hd, hs, hj⟩ := t'.bench_post signals
  exact ⟨hd.trans h.dropped, hs.trans h.session, hj.trans h.journal, by rw [hb, h.clock],
    by rw [hb]; exact h.timers, by rw [hb]; exact h.parked⟩

theorem turns_postFired {t' : Trial MockLink} (h : t.Turns t') (arming : Option Arming) :
    t.Turns (t'.postFired arming) := by
  cases arming with
  | none => exact h
  | some arming => exact turns_post h _

theorem occur_turns {o : Occurrence} (ho : o.ofBench = true) : t.Turns (t.occur o) := by
  have hbank : ∀ bank : TimerBank, bank.timers.map Prod.fst = t.bench.bank.timers.map Prod.fst ∧
      bank.lastId = t.bench.bank.lastId → t.Turns (t.setBank bank) :=
    fun bank hb => ⟨rfl, rfl, rfl, rfl, hb, id⟩
  have hlink : ∀ link : MockLink, (link.parked.isSome = true → t.bench.link.parked.isSome = true) →
      t.Turns (t.setBench { t.bench with link := link }) :=
    fun link hl => ⟨rfl, rfl, rfl, rfl, ⟨rfl, rfl⟩, hl⟩
  cases o with
  | step s =>
    cases s with
    | holdWrites | readFault | failModes => exact ⟨rfl, rfl, rfl, rfl, ⟨rfl, rfl⟩, id⟩
    | releaseWrites =>
      have hr : t.Turns (t.setBench t.bench.releaseWrites.2) := ⟨rfl, rfl, rfl, rfl, ⟨rfl, rfl⟩, id⟩
      exact turns_post hr _
    | failCreate on => exact hbank { t.bench.bank with failCreate := on } ⟨rfl, rfl⟩
    | failStart on => exact hbank { t.bench.bank with failStart := on } ⟨rfl, rfl⟩
    | fire => exact turns_postFired (hbank _ t.bench.bank.ids_fireOldest) _
    | fireId id => exact turns_postFired (hbank _ (t.bench.bank.ids_fire id)) _
    | link control => exact turns_post (hlink _ (parked_act t.bench.link control)) _
    | _ => cases ho
  | handleNext | requeue => cases ho

theorem onEngine_acts {f : Engine (Bench MockLink) → Reply × Engine (Bench MockLink)}
    (hf : t.engine.Acts (f t.engine).2) : t.engine.Acts (t.onEngine f).2.engine := by
  unfold onEngine
  split
  · exact .refl _
  · exact hf

theorem occur_acts {o : Occurrence} (ho : o.ofBench = false) :
    t.engine.Acts (t.occur o).engine := by
  cases o with
  | handleNext => exact onEngine_acts t.engine.acts_handleNext
  | requeue signals => exact Engine.acts_of_eq rfl rfl rfl
  | step s =>
    cases s with
    | drop =>
      simp only [occur, step]
      split
      · exact .refl _
      · exact t.engine.acts_drop
    | call c => exact onEngine_acts (t.engine.acts_call c)
    | setMode mode => exact onEngine_acts (t.engine.acts_setMode mode)
    | loadPrimary => exact onEngine_acts t.engine.acts_loadPrimary
    | handleQueued => exact onEngine_acts (t.engine.acts_handleQueued patience)
    | runToIdle => exact onEngine_acts (t.engine.acts_runToIdle patience _)
    | primaryVersion | lastFrame => exact onEngine_acts (.refl _)
    | look => exact .refl _
    | _ => cases ho

/-- The engine stands and its record is in order, or it was dropped and holds nothing. -/
structure Kept (t : Trial MockLink) : Prop where
  standing : t.dropped = false → t.engine.Standing ∧ t.engine.Orderly
  gone : t.dropped = true → ({} : Holdings).after t.engine.journal = some {}

/-- A trial between two occurrences. -/
structure Tight (t : Trial MockLink) : Prop extends Kept t where
  fits : ∃ h, t.bench.Fits (t.engine.journal.filter Notice.ofHost) h

theorem Kept.held (h : t.Kept) : ∃ h : Holdings,
    ({} : Holdings).after t.engine.journal = some h := by
  cases hd : t.dropped with
  | true => exact ⟨_, h.gone hd⟩
  | false =>
    obtain ⟨reading, hj, -⟩ := (h.standing hd).2
    exact ⟨_, hj⟩

theorem tight_fresh (config : Config) (library : ImageLibrary) : (fresh config library).Tight := by
  have hs := Engine.standing_fresh config library ({ link := {} } : Bench MockLink)
  have ho := Engine.orderly_fresh config library ({ link := {} } : Bench MockLink)
  have hf : (fresh config library).bench.Fits [] {} := ⟨rfl, rfl, rfl, nofun, rfl, by simp⟩
  exact ⟨⟨fun _ => ⟨hs, ho⟩, nofun⟩, _, hf⟩

theorem Tight.turns {t' : Trial MockLink} (h : t.Tight) (ht : t.Turns t') : t'.Tight := by
  obtain ⟨held, hf⟩ := h.fits
  refine ⟨⟨fun hd => ?_, fun hd => ?_⟩, held, ?_⟩
  · obtain ⟨hs, ho⟩ := h.standing (ht.dropped ▸ hd)
    rw [Engine.Standing, Engine.Orderly, ht.session, ht.journal]
    exact ⟨hs, ho⟩
  · rw [ht.journal]
    exact h.gone (ht.dropped ▸ hd)
  · rw [ht.journal]
    have hnone : ∀ id, Notice.timerCreated id ∉ ([] : List Notice) := fun _ => List.not_mem_nil
    exact hf.keeps ht.clock ht.timers (fun hp => hf.parked (ht.parked hp)) hnone rfl rfl

theorem runs_onEngine {f : Engine (Bench MockLink) → Reply × Engine (Bench MockLink)}
    (hf : ∃ moves, (f t.engine).2 = t.engine.run moves) :
    (t.onEngine f).2.dropped = t.dropped ∧
      ∃ moves, (t.onEngine f).2.engine = t.engine.run moves ∧ (t.dropped = true → moves = []) := by
  unfold onEngine
  split
  · exact ⟨rfl, [], rfl, fun _ => rfl⟩
  · rename_i hd
    obtain ⟨moves, he⟩ := hf
    exact ⟨rfl, moves, he, fun hy => absurd hy hd⟩

/-- What the engine does in a trial is a run of moves, unless it is dropped; it does nothing then. -/
theorem occur_runs {o : Occurrence} (ho : o.ofBench = false) (hd : o ≠ .step .drop)
    (hq : ∀ signals, o ≠ .requeue signals) :
    (t.occur o).dropped = t.dropped ∧
      ∃ moves, (t.occur o).engine = t.engine.run moves ∧ (t.dropped = true → moves = []) := by
  cases o with
  | requeue signals => exact absurd rfl (hq signals)
  | handleNext => exact runs_onEngine ⟨[.handleNext], rfl⟩
  | step s =>
    cases s with
    | drop => exact absurd rfl hd
    | call c => exact runs_onEngine ⟨[.call c], rfl⟩
    | setMode mode => exact runs_onEngine ⟨[.setMode mode], rfl⟩
    | loadPrimary => exact runs_onEngine ⟨[.loadPrimary], rfl⟩
    | handleQueued =>
      obtain ⟨moves, -, he⟩ := Engine.served_handleQueued patience t.engine
      exact runs_onEngine ⟨moves, he⟩
    | runToIdle =>
      obtain ⟨moves, -, he⟩ := Engine.served_runToIdle patience
        (if t.engine.world.clock.isSome then waitLimit else 0) t.engine
      exact runs_onEngine ⟨moves, he⟩
    | primaryVersion | lastFrame => exact runs_onEngine ⟨[], rfl⟩
    | look => exact ⟨rfl, [], rfl, fun _ => rfl⟩
    | _ => cases ho

theorem Kept.occur (h : t.Kept) {o : Occurrence} (ho : o.ofBench = false) : (t.occur o).Kept := by
  by_cases hd : o = .step .drop
  · subst hd
    refine ⟨nofun, fun _ => ?_⟩
    cases hdrop : t.dropped with
    | true => simpa [Trial.occur, step, hdrop] using h.gone hdrop
    | false =>
      obtain ⟨hs, hord⟩ := h.standing hdrop
      simpa [Trial.occur, step, hdrop] using hord.drop hs
  · by_cases hq : ∃ signals, o = .requeue signals
    · obtain ⟨signals, rfl⟩ := hq
      exact ⟨h.standing, h.gone⟩
    · obtain ⟨hdrop, moves, he, hnil⟩ := t.occur_runs ho hd (fun signals hs => hq ⟨signals, hs⟩)
      refine ⟨fun hn => ?_, fun hy => ?_⟩
      · obtain ⟨hs, hord⟩ := h.standing (hdrop ▸ hn)
        rw [he]
        exact ⟨hs.run moves, hord.run hs moves⟩
      · rw [he, hnil (hdrop ▸ hy)]
        exact h.gone (hdrop ▸ hy)

/-- The calls that the engine makes meanwhile are in order. -/
theorem Tight.acts (h : t.Tight) {o : Occurrence} (ho : o.ofBench = false) :
    (t.occur o).Tight ∧ ∃ calls, t.engine.Performs calls (t.occur o).engine ∧
      ∀ before c after, calls = before ++ c :: after →
        c.fault? (HostCall.runAll t.bench before) = none ∧
          (HostCall.runAll t.bench before).bank.timers.length ≤ 1 := by
  have hkept := h.toKept.occur ho
  obtain ⟨held, hf⟩ := h.fits
  obtain ⟨calls, hp⟩ := t.occur_acts ho
  obtain ⟨ns, hj, hn⟩ := hp.noted
  obtain ⟨held', hheld⟩ := hkept.held
  rw [← Holdings.after_filter, hj, List.filter_append, hn, Holdings.after_trans hf.held] at hheld
  obtain ⟨hf', hall⟩ := hf.runAll hheld
  refine ⟨⟨hkept, held', ?_⟩, calls, hp, hall⟩
  have hb : (t.occur o).bench = HostCall.runAll t.bench calls := hp.world
  rw [hb, hj, List.filter_append, hn]
  exact hf'

theorem Tight.occur (h : t.Tight) (o : Occurrence) : (t.occur o).Tight := by
  cases ho : o.ofBench with
  | true => exact h.turns (occur_turns ho)
  | false => exact (h.acts ho).1

theorem Tight.play (h : t.Tight) (occurrences : List Occurrence) : (t.play occurrences).Tight := by
  induction occurrences generalizing t with
  | nil => exact h
  | cons o occurrences ih => exact ih (h.occur o)

/-- Without a session the bench has no timer and no read. -/
theorem Tight.empty (h : t.Tight) (hn : t.engine.isBusy = false ∨ t.dropped = true) :
    t.bench.bank.timers = [] ∧ t.bench.bank.armed = [] ∧ t.bench.link.parked = none := by
  obtain ⟨held, hf⟩ := h.fits
  have hheld : ({} : Holdings).after t.engine.journal = some {} := by
    cases hd : t.dropped with
    | true => exact h.gone hd
    | false =>
      simp only [hd, Bool.false_eq_true, or_false] at hn
      obtain ⟨hs, ho⟩ := h.standing hd
      exact ho.of_idle (hs.idle_of_not_busy hn)
  have he := hf.held
  rw [Holdings.after_filter, hheld, Option.some.injEq] at he
  subst he
  have ht : t.bench.bank.timers = [] := List.map_eq_nil_iff.1 hf.timers
  refine ⟨ht, by simp [TimerBank.armed, ht], ?_⟩
  simpa using hf.parked

/-- Whatever is done to an engine and to the bench it runs on, a timer that was created is deleted
at most once, the bench has one timer at most, also between any two calls of the engine, and no
stop or deletion of a timer ends with an error. When the engine is idle, and once it is dropped, the
bench has no timer and no read is parked. The timers are numbered from one, so it takes 2 ^ 32 of
them to come to a number that 32 bits do not hold. -/
theorem nothing_leaks (config : Config) (library : ImageLibrary) (occurrences : List Occurrence) :
    let t := (fresh config library).play occurrences
    (∀ id, t.engine.journal.count (.timerDeleted id) ≤ t.engine.journal.count (.timerCreated id) ∧
      t.engine.journal.count (.timerCreated id) ≤ 1) ∧
    t.bench.bank.timers.length ≤ 1 ∧
    (t.engine.isBusy = false ∨ t.dropped = true →
      t.bench.bank.timers = [] ∧ t.bench.bank.armed = [] ∧ t.bench.link.parked = none) ∧
    (∀ o : Occurrence,
      (o.ofBench = true → (t.occur o).engine.journal = t.engine.journal) ∧
      (o.ofBench = false → ∃ calls, t.engine.Performs calls (t.occur o).engine ∧
        ∀ before (c : HostCall) after, calls = before ++ c :: after →
          c.fault? (HostCall.runAll t.bench before) = none ∧
            (HostCall.runAll t.bench before).bank.timers.length ≤ 1)) ∧
    (t.engine.notices.filterMap Notice.created?).map TimerId.number =
      List.range' 1 t.bench.bank.lastId := by
  have h := (tight_fresh config library).play occurrences
  dsimp only
  generalize (fresh config library).play occurrences = t at h
  obtain ⟨held, hf⟩ := h.fits
  refine ⟨fun id => ?_, hf.length_le, h.empty, fun o => ⟨?_, fun ho => (h.acts ho).2⟩, ?_⟩
  · have hheld := hf.held
    rw [Holdings.after_filter] at hheld
    have hc := Holdings.count_created hheld id
    have hone := hf.once id
    rw [List.count_filter rfl] at hone
    omega
  · intro ho
    exact (occur_turns ho).journal
  · have hn := hf.numbered
    rw [Notice.filterMap_created?_filter] at hn
    rw [Engine.notices, List.filterMap_reverse, List.map_reverse, hn, List.reverse_reverse]

end Trial

end FirmwareDownload
