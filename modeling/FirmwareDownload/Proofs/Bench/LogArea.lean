import FirmwareDownload.Proofs.Bench.Reads
import FirmwareDownload.Proofs.Engine.Requests

/-! An entry that is written to the log area is what the area is read back as, up to its end. The
cells behind it are those that were there before. -/

namespace FirmwareDownload

namespace Memory

variable {m : Memory} {addr cell : UInt32} {data : Bytes}

theorem store_outside (h : ∀ i < data.length, cell ≠ addr + i.toUInt32) :
    m.store addr data cell = m cell := by
  have hn : data.length ≤ (cell - addr).toNat := by
    by_contra hlt
    refine h (cell - addr).toNat (Nat.lt_of_not_le hlt) ?_
    rw [Nat.toUInt32_eq, UInt32.ofNat_toNat, UInt32.add_comm, UInt32.sub_add_cancel]
  rw [store, List.getElem?_eq_none hn, Option.getD_none]

theorem load_store_append (m : Memory) (addr : UInt32) (data : Bytes) {n : Nat}
    (hn : n ≤ UInt32.size) :
    (m.store addr data).load addr n = data.take n ++ (m.load addr n).drop data.length := by
  have hl : (data.take n ++ (m.load addr n).drop data.length).length = n := by
    simp only [load, List.length_append, List.length_take, List.length_drop, List.length_map,
      List.length_range]
    omega
  refine List.ext_getElem (by rw [hl]; simp [load]) fun i hi hi' => ?_
  rw [hl] at hi'
  have ho : (addr + i.toUInt32 - addr).toNat = i := by
    rw [UInt32.add_comm, UInt32.add_sub_cancel]
    exact UInt32.toNat_ofNat_of_lt' (Nat.lt_of_lt_of_le hi' hn)
  simp only [load, store, List.getElem_map, List.getElem_range, ho]
  by_cases hd : i < data.length
  · rw [List.getElem?_eq_getElem hd, Option.getD_some,
      List.getElem_append_left (by rw [List.length_take]; omega), List.getElem_take]
  · rw [List.getElem?_eq_none (Nat.le_of_not_lt hd), Option.getD_none,
      List.getElem_append_right (by rw [List.length_take]; omega)]
    simp only [List.length_take, List.getElem_drop, List.getElem_map, List.getElem_range]
    congr 3
    omega

end Memory

namespace Controller

/-- The controller behind an entry for its log. -/
def logged (c : Controller) (entry : Bytes) : Controller :=
  { c.facing false with memory := c.memory.store logAreaStart entry }

theorem Serving.answers_log {c : Controller} {entry : Bytes} (h : c.Serving)
    (ho : c.openRecord = none) (hi : c.injected = []) (hl : entry.length ≤ logAreaSize) :
    c.Answers (Request.logFrame entry).wire (Frame.wire ⟨Status.ok.toByte, [], false⟩)
      (c.logged entry) := by
  have hp : (Request.logFrame entry).payload.length < 1023 := by
    have hl : entry.length ≤ 64 := hl
    simp only [Request.logFrame, List.length_append, List.length_cons, List.length_nil]
    omega
  refine Serving.responds ⟨h.normalMode, h.silent, h.outbox, h.pendingRead⟩ (Nat.zero_le _) ?_
  rw [h.receive_plain ho hi (fun hc => absurd hc (by decide : RequestId.log ≠ RequestId.write)) hp]
  rfl

end Controller

namespace Session

/-- The only frame of a log is out to a controller like `c₀`, which takes the entry. -/
structure LogsTo (s : Session) (c₀ : Controller) (entry : Bytes) (raw : Bytes) (c : Controller) :
    Prop where
  command : s.command = some .log
  alone : s.transfer.remaining = 0
  bufferless : s.response.capacity = 0
  silent : s.responseLength = 0
  answer : raw = Frame.wire ⟨Status.ok.toByte, [], false⟩
  controller : c = c₀.logged entry

variable {s s' : Session} {c c₀ : Controller} {entry raw : Bytes}

theorem LogsTo.congr (h : s.LogsTo c₀ entry raw c) (hs : s'.cargo = s.cargo)
    (hc : s'.command = s.command) : s'.LogsTo c₀ entry raw c := by
  exact ⟨hc.trans h.command, (congrArg _ (transfer_of_cargo hs)).trans h.alone,
    (congrArg _ (response_of_cargo hs)).trans h.bufferless,
    (responseLength_of_cargo hs).trans h.silent, h.answer, h.controller⟩

/-- A log has no buffer, and is over with its first answer. -/
theorem handleAnswer_log {answer : Frame} (hc : s.command = some .log)
    (hd : Frame.decode raw = .ok answer) (hs : answer.status = .ok) (hz : s.response.capacity = 0)
    (ht : s.transfer.remaining = 0) :
    s.handleAnswer raw = (.done, { s with resendCount := 0 }) := by
  have hk : ({ s with resendCount := 0 } : Session).applyAnswer .log answer =
      (.ok (), { s with resendCount := 0 }) :=
    (applyAnswer_other Command.noConfusion Command.noConfusion).trans
      ((if_pos hs).trans (if_pos hz))
  have hb : ¬ (answer.status = .memBusy ∧ Command.log.shape = .readWrite) := by
    rw [hs]
    exact fun hb => Status.noConfusion hb.1
  rw [handleAnswer_framed hc Command.noConfusion, hd]
  dsimp only
  rw [if_neg hb, hk]
  dsimp only
  rw [ht, if_neg (fun hr => Nat.lt_irrefl 0 hr.2)]

theorem LogsTo.next (h : s.LogsTo c₀ entry raw c) (limit : Option UInt32) :
    ∃ s', s.next limit raw = .ends s' (.ok ()) ∧ s'.responseLength = 0 := by
  have hd : Frame.decode raw = .ok ⟨Status.ok.toByte, [], false⟩ :=
    h.answer ▸ Frame.decode_wire (by decide)
  exact ⟨_, next_of_done (handleAnswer_log (s := s.answering) h.command hd rfl h.bufferless
    h.alone), h.silent⟩

end Session

namespace Talk

variable {T T' : Talk} {c₀ : Controller} {entry : Bytes} {old done done' : List Completion}
  {limit : Option UInt32} {heard : List Notice} {m : BenchMove}

/-- A log is under way that found the controller like `c₀`, or it is over and was delivered. -/
def LogsTo (c₀ : Controller) (entry : Bytes) (old : List Completion) :
    Talk → List Completion → Prop
  | idle c, done => done = ⟨.log, .ok (), []⟩ :: old ∧ c = c₀.logged entry
  | out s raw c, done | due s raw c, done => done = old ∧ s.LogsTo c₀ entry raw c
  | held _ _, _ => False

theorem LogsTo.goes (h : T.LogsTo c₀ entry old done) (hg : Goes limit T heard done' T') :
    T'.LogsTo c₀ entry old (done' ++ done) := by
  cases hg with
  | hears => exact ⟨h.1, h.2.congr rfl rfl⟩
  | ends hcmd hn =>
    obtain ⟨rfl, h⟩ := h
    obtain rfl := Option.some.inj (hcmd.symm.trans h.command)
    obtain ⟨s₁, hn', hz⟩ := h.next limit
    obtain ⟨rfl, rfl⟩ := Session.Next.ends.inj (hn.symm.trans hn')
    refine ⟨?_, h.controller⟩
    rw [hz, ResponseBuffer.take_eq, List.take_zero]
    rfl
  | sends hn =>
    obtain ⟨s₁, hn', -⟩ := h.2.next limit
    cases hn.symm.trans hn'
  | holds hn =>
    obtain ⟨s₁, hn', -⟩ := h.2.next limit
    cases hn.symm.trans hn'
  | resends => exact h.elim

theorem LogsTo.step (h : T.LogsTo c₀ entry old done)
    (hm : m = .handleNext ∨ ∃ ticket, m = .expire ticket)
    (hs : T.Step limit m heard done' T') : T'.LogsTo c₀ entry old (done' ++ done) := by
  cases hs with
  | rests => exact h
  | goes hg => exact h.goes hg
  | _ => rcases hm with hm | ⟨_, hm⟩ <;> cases hm

end Talk

namespace Engine

variable {e : Engine (Bench Controller)} {c : Controller} {entry : Bytes}

theorem InStep.startsLog (h : e.InStep (.idle c)) (hi : c.injected = []) (ho : c.openRecord = none)
    (hz : 0 < entry.length) (hl : entry.length ≤ logAreaSize) :
    ∃ e₁ T, e.call (.log entry) = (.ok (), e₁) ∧ e₁.InStep T ∧
      T.LogsTo c entry e.delivered e₁.delivered ∧ ∃ n, T.Loaded n := by
  have hidle := h.shows.1
  have hb : e.session.busy = false := by rw [hidle]; rfl
  have hs : e.session.Blank := by
    rw [hidle]
    exact ⟨rfl, rfl, rfl, rfl⟩
  have hv : ¬ (entry = [] ∨ logAreaSize < entry.length) := by
    rw [← List.length_eq_zero_iff]
    omega
  have he : e.call (.log entry) =
      (e.equipped e.session e.primary).start (Call.log entry).command .log (some entry) 0 := by
    rw [call_idle hb]
    exact if_neg hv
  obtain ⟨id, hok, -⟩ := h.starts hs he
  obtain ⟨buffer, hcomp, hframe⟩ := Request.builds_log hl
    (e.session.setOut .log .log (some entry) 0 id) rfl rfl
  obtain ⟨t, raw, c', e₁, hcall, ha, hcmd, h₁, -, hd, -⟩ := hok _ hcomp
  rw [show ({ e.session.setOut .log .log (some entry) 0 id with frame := buffer } :
    Session).frame.bytes = (Request.logFrame entry).wire from hframe] at ha
  obtain ⟨hraw, hc'⟩ := ha.unique (h.serving.answers_log ho hi hl)
  have hrem : e.session.transfer.remaining = 0 := by rw [hidle]; rfl
  exact ⟨e₁, _, hcall, h₁, ⟨hd, hcmd, hrem, rfl, rfl, hraw, hc'⟩, 1, .asks hcmd nofun nofun hrem⟩

/-- A log entry is taken, and read back with the cells behind it, as many as there is room for. The
entry lies where the log area starts, and no other cell is changed. -/
theorem log_reads_back (h : e.InStep (.idle c)) (hi : c.injected = []) (ho : c.openRecord = none)
    (hz : 0 < entry.length) (hl : entry.length ≤ logAreaSize) {capacity : Nat}
    (hcap : 0 < capacity) (hw : logAreaStart.toNat + capacity ≤ UInt32.size) :
    ∃ e₁, e.call (.log entry) = (.ok (), e₁) ∧
      ∀ moves, (∀ m ∈ moves, m = .handleNext ∨ ∃ ticket, m = .expire ticket) →
        (∃ k, (attend^[k] (e₁.plays moves)).session.Idle) ∧
        ((e₁.plays moves).session.Idle →
          (e₁.plays moves).delivered = ⟨.log, .ok (), []⟩ :: e.delivered ∧
          ∃ e₂, (e₁.plays moves).call (.readLog capacity) = (.ok (), e₂) ∧
            ∀ later, (∀ m ∈ later, m = .handleNext ∨ ∃ ticket, m = .expire ticket) →
              (∃ k, (attend^[k] (e₂.plays later)).session.Idle) ∧
              ((e₂.plays later).session.Idle → ∃ response,
                (e₂.plays later).delivered =
                  ⟨.read, .ok (), response⟩ :: ⟨.log, .ok (), []⟩ :: e.delivered ∧
                response.length = capacity ∧
                response = entry.take capacity ++
                  (c.memory.load logAreaStart capacity).drop entry.length ∧
                ∀ cell, (∀ i < entry.length, cell ≠ logAreaStart + i.toUInt32) →
                  (e₂.plays later).world.link.memory cell = c.memory cell)) := by
  obtain ⟨e₁, T₁, hcall₁, h₁, hlogs, n₁, hn₁⟩ := h.startsLog hi ho hz hl
  refine ⟨e₁, hcall₁, fun moves hm => ?_⟩
  obtain ⟨hk₁, hend₁⟩ := h₁.attended (fun T _ done => T.LogsTo c entry e.delivered done) hn₁ hlogs
    (fun hinv _ hm hs => hinv.step hm hs) hm
  refine ⟨hk₁, fun hidle => ?_⟩
  obtain ⟨_, h', hd, rfl⟩ := hend₁ hidle
  refine ⟨hd, ?_⟩
  have hopen : (c.logged entry).openRecord = none := ho
  have hres : (c.logged entry).readResult ⟨logAreaStart, capacity⟩ = .ok () := by
    rw [Controller.readResult, hopen]
    exact (if_neg Bool.false_ne_true).trans (if_pos (.inl hw))
  obtain ⟨e₂, T₂, hcall₂, h₂, hreads, n₂, hn₂⟩ := h'.startsRange hi
    (show (Call.readLog capacity).range? = some ⟨logAreaStart, capacity⟩ from rfl) nofun hcap
  refine ⟨e₂, hcall₂, fun later hlater => ?_⟩
  obtain ⟨hk₂, hend₂⟩ := h₂.attended (fun T _ done => T.ReadsFrom (c.logged entry)
    ⟨logAreaStart, capacity⟩ (e₁.plays moves).delivered done) hn₂ hreads
    (fun hinv hs hm hst => hinv.step hs hm hst) hlater
  refine ⟨hk₂, fun hidle₂ => ?_⟩
  obtain ⟨c₂, h₃, hmem, response, hd₂, hresp⟩ := hend₂ hidle₂
  have hsize : capacity ≤ UInt32.size := by omega
  have hload : response = (c.memory.store logAreaStart entry).load logAreaStart capacity :=
    hresp hres
  rw [hres, hd] at hd₂
  refine ⟨response, hd₂, ?_, ?_, fun cell hcell => ?_⟩
  · rw [hload, Memory.load, List.length_map, List.length_range]
  · rw [hload, Memory.load_store_append _ _ _ hsize]
  · rw [h₃.shows.2.link, hmem]
    exact Memory.store_outside hcell

/-- Nine bytes are logged and read back with the cells behind them, which were never programmed. -/
theorem log_reads_back_erased :
    let entry : Bytes := [0x66, 0x77, 0x2D, 0x75, 0x70, 0x64, 0x61, 0x74, 0x65]
    ∃ e₁ e₂ k l,
      (fresh {} (ImageLibrary.ofList []) ({ link := {} } : Bench Controller)).call (.log entry) =
        (.ok (), e₁) ∧
      (attend^[k] e₁).session.Idle ∧
      (attend^[k] e₁).call (.readLog 64) = (.ok (), e₂) ∧
      (attend^[l] e₂).session.Idle ∧
      (attend^[l] e₂).delivered =
        [⟨.read, .ok (), entry ++ List.replicate 55 0xFF⟩, ⟨.log, .ok (), []⟩] := by
  intro entry
  obtain ⟨e₁, hcall₁, h₁⟩ := log_reads_back (inStep_fresh {} (ImageLibrary.ofList [])
    (b := { link := {} }) ⟨rfl, rfl, rfl, rfl, fun _ => ⟨rfl, rfl⟩⟩ ⟨rfl, rfl, rfl, rfl⟩) rfl rfl
    (show 0 < entry.length by decide) (show entry.length ≤ logAreaSize by decide)
    (show 0 < 64 by decide) (by decide)
  obtain ⟨⟨k, hk⟩, -⟩ := h₁ [] nofun
  obtain ⟨moves, he, hm⟩ := e₁.attends_eq_plays k
  change (attend^[k] e₁).session.Idle at hk
  obtain ⟨-, e₂, hcall₂, h₂⟩ := (h₁ moves hm).2 (he ▸ hk)
  obtain ⟨⟨l, hl⟩, -⟩ := h₂ [] nofun
  obtain ⟨later, he', hlater⟩ := e₂.attends_eq_plays l
  change (attend^[l] e₂).session.Idle at hl
  obtain ⟨response, hd, -, hresp, -⟩ := (h₂ later hlater).2 (he' ▸ hl)
  refine ⟨e₁, e₂, k, l, hcall₁, hk, he ▸ hcall₂, hl, ?_⟩
  rw [he', hd, hresp]
  rfl

end Engine

end FirmwareDownload
