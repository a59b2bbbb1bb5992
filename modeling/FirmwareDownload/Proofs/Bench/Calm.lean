import FirmwareDownload.Bench

/-! A bench on which no call fails: its writes and reads reach the link, and its timers can be
created and armed. -/

namespace FirmwareDownload

theorem any_setEntry {α : Type} (timers : List (TimerId × α)) (id id' : TimerId) (entry : α) :
    (timers.map (fun t => if t.1 = id then (id, entry) else t)).any (fun t => t.1 = id') =
      timers.any (fun t => t.1 = id') := by
  induction timers with
  | nil => rfl
  | cons t timers ih =>
    by_cases h : t.1 = id
    · simp [h, ih]
    · simp [h, ih]

namespace TimerBank

theorem has_setArming (b : TimerBank) (id id' : TimerId) (arming : Option Arming) :
    (b.setArming id arming).has id' = b.has id' :=
  any_setEntry b.timers id id' arming

theorem create_ok {b : TimerBank} (h : b.failCreate = false) : ∃ b', b.create =
    (.ok ⟨b.lastId + 1⟩, b') ∧ b'.failCreate = false ∧ b'.failStart = b.failStart ∧
      b'.has ⟨b.lastId + 1⟩ = true := by
  refine ⟨_, if_neg (by simp [h]), h, rfl, ?_⟩
  simp [has]

theorem start_ok {b : TimerBank} {id : TimerId} (h : b.failStart = false) (ht : b.has id = true)
    (milliseconds : Nat) (ticket : Ticket) : ∃ b', b.start id milliseconds ticket = (.ok (), b') ∧
      b'.failCreate = b.failCreate ∧ b'.failStart = false ∧ b'.has id = true := by
  unfold start
  rw [if_neg (by simp [h])]
  refine ⟨_, if_pos ht, rfl, h, ?_⟩
  rw [has_setArming]
  exact ht

theorem stop_keeps (b : TimerBank) (id id' : TimerId) :
    (b.stop id).2.failCreate = b.failCreate ∧ (b.stop id).2.failStart = b.failStart ∧
      (b.stop id).2.has id' = b.has id' := by
  unfold stop
  split
  · exact ⟨rfl, rfl, b.has_setArming id id' none⟩
  · exact ⟨rfl, rfl, rfl⟩

theorem delete_keeps (b : TimerBank) (id : TimerId) :
    (b.delete id).2.failCreate = b.failCreate ∧ (b.delete id).2.failStart = b.failStart := by
  unfold delete
  split <;> exact ⟨rfl, rfl⟩

end TimerBank

namespace AlarmClock

theorem has_setAlarm (c : AlarmClock) (id id' : TimerId) (alarm : Option Alarm) :
    (c.setAlarm id alarm).has id' = c.has id' :=
  any_setEntry c.timers id id' alarm

theorem has_create (c : AlarmClock) : c.create.2.has ⟨c.lastId + 1⟩ = true := by
  simp [create, has]

theorem start_ok {c : AlarmClock} {id : TimerId} (h : c.has id = true) (milliseconds : Nat)
    (ticket : Ticket) :
    ∃ c', c.start id milliseconds ticket = (.ok (), c') ∧ c'.has id = true := by
  refine ⟨_, if_pos h, ?_⟩
  rw [has_setAlarm]
  exact h

theorem stop_has (c : AlarmClock) (id id' : TimerId) : (c.stop id).2.has id' = c.has id' := by
  unfold stop
  split
  · exact c.has_setAlarm id id' none
  · rfl

end AlarmClock

namespace Bench

variable {D : Type} {b : Bench D} {d : D}

/-- The timer can be armed. -/
def HasTimer (b : Bench D) (id : TimerId) : Prop :=
  match b.clock with
  | some clock => clock.has id = true
  | none => b.bank.has id = true

/-- No call on the bench fails, and its link is `d`. -/
structure Calm (b : Bench D) (d : D) : Prop where
  link : b.link = d
  holdWrites : b.holdWrites = false
  readFault : b.readFault = .none
  failModes : b.failModes = false
  bank : b.clock = none → b.bank.failCreate = false ∧ b.bank.failStart = false

theorem Calm.withLink (h : b.Calm d) (d' : D) : { b with link := d' }.Calm d' :=
  ⟨rfl, h.holdWrites, h.readFault, h.failModes, h.bank⟩

theorem Calm.createTimer (h : b.Calm d) :
    ∃ id b', b.createTimer = (.ok id, b') ∧ b'.Calm d ∧ b'.HasTimer id := by
  unfold Bench.createTimer
  cases hc : b.clock with
  | some clock =>
    exact ⟨_, _, rfl, ⟨h.link, h.holdWrites, h.readFault, h.failModes, nofun⟩, clock.has_create⟩
  | none =>
    obtain ⟨hf, hs⟩ := h.bank hc
    obtain ⟨bank, he, hf', hs', ht⟩ := TimerBank.create_ok hf
    rw [he]
    refine ⟨_, _, rfl, ⟨h.link, h.holdWrites, h.readFault, h.failModes, ?_⟩, ?_⟩
    · exact fun _ => ⟨hf', hs'.trans hs⟩
    · exact ht

theorem Calm.startTimer {id : TimerId} (h : b.Calm d) (ht : b.HasTimer id) (milliseconds : Nat)
    (ticket : Ticket) :
    ∃ b', b.startTimer id milliseconds ticket = ⟨.ok (), [], b'⟩ ∧ b'.Calm d ∧ b'.HasTimer id := by
  unfold Bench.startTimer
  unfold HasTimer at ht
  split
  · rename_i clock hc
    rw [hc] at ht
    obtain ⟨clock', he, ht'⟩ := AlarmClock.start_ok ht milliseconds ticket
    rw [he]
    exact ⟨_, rfl, ⟨h.link, h.holdWrites, h.readFault, h.failModes, nofun⟩, ht'⟩
  · rename_i hc
    rw [hc] at ht
    obtain ⟨hf, hs⟩ := h.bank hc
    obtain ⟨bank, he, hf', hs', ht'⟩ := TimerBank.start_ok hs ht milliseconds ticket
    rw [he]
    refine ⟨_, rfl, ⟨h.link, h.holdWrites, h.readFault, h.failModes, ?_⟩, ?_⟩
    · exact fun _ => ⟨hf'.trans hf, hs'⟩
    · simp only [HasTimer, hc]
      exact ht'

theorem Calm.stopTimer (h : b.Calm d) (id : TimerId) : (b.stopTimer id).2.Calm d ∧
    ∀ id', b.HasTimer id' → (b.stopTimer id).2.HasTimer id' := by
  unfold Bench.stopTimer HasTimer
  cases hc : b.clock with
  | some clock =>
    refine ⟨⟨h.link, h.holdWrites, h.readFault, h.failModes, nofun⟩, fun id' ht => ?_⟩
    exact (clock.stop_has id id').trans ht
  | none =>
    obtain ⟨hf, hs⟩ := h.bank hc
    refine ⟨⟨h.link, h.holdWrites, h.readFault, h.failModes, fun _ => ?_⟩, fun id' ht => ?_⟩
    · obtain ⟨hf', hs', -⟩ := b.bank.stop_keeps id id
      exact ⟨hf'.trans hf, hs'.trans hs⟩
    · exact (b.bank.stop_keeps id id').2.2.trans ht

theorem Calm.deleteTimer (h : b.Calm d) (id : TimerId) : (b.deleteTimer id).2.Calm d := by
  unfold Bench.deleteTimer
  cases hc : b.clock with
  | some clock => exact ⟨h.link, h.holdWrites, h.readFault, h.failModes, nofun⟩
  | none =>
    obtain ⟨hf, hs⟩ := h.bank hc
    obtain ⟨hf', hs'⟩ := b.bank.delete_keeps id
    exact ⟨h.link, h.holdWrites, h.readFault, h.failModes, fun _ => ⟨hf'.trans hf, hs'.trans hs⟩⟩

variable [Link D]

theorem Calm.write (h : b.Calm d) {frame : Bytes} {ticket : Ticket} {signals : List Signal} {d' : D}
    (hw : Link.write d frame ticket = ⟨.ok (), signals, d'⟩) :
    ∃ b', Bench.write b frame ticket = ⟨.ok (), signals, b'⟩ ∧ b'.Calm d' ∧
      ∀ id, b.HasTimer id → b'.HasTimer id := by
  refine ⟨{ b with link := d' }, ?_, h.withLink d', fun _ ht => ht⟩
  rw [Bench.write, h.holdWrites, if_neg Bool.false_ne_true, h.link, hw]

theorem Calm.read (h : b.Calm d) {ticket : Ticket} {signals : List Signal} {d' : D}
    (hr : Link.read d ticket = ⟨.ok (), signals, d'⟩) :
    ∃ b', Bench.read b ticket = ⟨.ok (), signals, b'⟩ ∧ b'.Calm d' ∧
      ∀ id, b.HasTimer id → b'.HasTimer id := by
  refine ⟨{ b with link := d' }, ?_, h.withLink d', fun _ ht => ht⟩
  rw [Bench.read, h.readFault]
  simp only [h.link, hr]

theorem Calm.setMode (h : b.Calm d) (mode : DeviceMode) :
    ∃ b', Bench.setMode b mode = (.ok (), b') ∧ b'.Calm (Link.setMode d mode) ∧
      ∀ id, b.HasTimer id → b'.HasTimer id := by
  refine ⟨{ b with link := Link.setMode d mode }, ?_, h.withLink _, fun _ ht => ht⟩
  rw [Bench.setMode, h.failModes, if_neg Bool.false_ne_true, h.link]

end Bench

end FirmwareDownload
