import FirmwareDownload.Proofs.Bench.Attendance
import FirmwareDownload.Proofs.Controller.Reads

/-! An engine that reads from its controller, with nothing injected. The range is handed over if no
piece of it goes over the end of the address space, also when it is continued at the start. -/

namespace FirmwareDownload

namespace Transfer

variable {t : Transfer} {answer : Frame}

theorem acceptRead_status (hs : answer.status ≠ .ok) (response : ResponseBuffer) :
    t.acceptRead answer response =
      (.error (.failed (.unexpectedStatus answer.status)), t, response) :=
  if_pos hs

theorem acceptRead_short (hs : answer.status = .ok) (hl : answer.payload.length < 3)
    (response : ResponseBuffer) :
    t.acceptRead answer response =
      (.error (.failed (.shortRead t.frameLength 0)), t, response) := by
  unfold acceptRead
  dsimp only
  rw [if_neg (not_not_intro hs), if_pos hl]

end Transfer

namespace Session

variable {s s' : Session} {g : ReadRange} {i : Nat} {raw : Bytes} {c c' c₀ : Controller}
  {limit : Option UInt32}

/-- The session reads the range and asked for the piece `i`. The controller was like `c₀` when the
read began, its answer to that frame is `raw`, and behind it it is `c`. -/
structure ReadsFrom (s : Session) (c₀ : Controller) (g : ReadRange) (i : Nat) (raw : Bytes)
    (c : Controller) : Prop where
  command : s.command = some .read
  reading : s.Reading g (g.loaded c₀.memory i)
  within : ∀ j < i, g.Within j
  answer : c₀.openRecord = none → raw = g.answer c₀.memory i
  /-- The frame was taken for the end of the record that was open. -/
  swallowed : c₀.openRecord ≠ none → i = 0 ∧ raw = Frame.wire ⟨Status.ok.toByte, [], false⟩
  memory : c.memory = c₀.memory
  injected : c.injected = []
  openRecord : c.openRecord = none

theorem ReadsFrom.congr (h : s.ReadsFrom c₀ g i raw c) (hs : s'.cargo = s.cargo)
    (hc : s'.command = s.command) : s'.ReadsFrom c₀ g i raw c :=
  { h with command := hc.trans h.command, reading := h.reading.congr hs }

theorem ReadsFrom.lt (h : s.ReadsFrom c₀ g i raw c) : i < g.pieceCount := by
  have hlt := h.reading.transfer.lt
  rwa [ReadRange.length_loaded] at hlt

theorem next_refused {answer : Frame} {err : DownloadError} (hc : s.command = some .read)
    (hd : Frame.decode raw = .ok answer) (hb : answer.status ≠ .memBusy)
    (ha : ∀ response, s.transfer.acceptRead answer response = (.error err, s.transfer, response)) :
    ∃ s', s.next limit raw = .ends s' (.error err) := by
  have hb' : statusOf raw ≠ some .memBusy := fun he =>
    hb (Option.some.inj ((statusOf_of_decode hd).symm.trans he))
  have hv := handleAnswer_read (s := s.answering) hc hd hb'
  rw [show s.answering.transfer.acceptRead answer s.answering.response = _ from ha _] at hv
  exact ⟨_, next_of_failed hv⟩

theorem ReadsFrom.next_swallowed (h : s.ReadsFrom c₀ g i raw c) (limit : Option UInt32)
    (ho : c₀.openRecord ≠ none) :
    ∃ s', s.next limit raw = .ends s' (.error (.failed (.shortRead (g.pieceLength 0) 0))) := by
  obtain ⟨rfl, hraw⟩ := h.swallowed ho
  have hd : Frame.decode raw = .ok ⟨Status.ok.toByte, [], false⟩ :=
    hraw ▸ Frame.decode_wire (by decide)
  have hn : s.transfer.frameLength = g.pieceLength 0 := h.reading.transfer.frameLength
  rw [← hn]
  exact next_refused h.command hd (by decide) (Transfer.acceptRead_short rfl (by decide))

theorem ReadsFrom.next_across (h : s.ReadsFrom c₀ g i raw c) (limit : Option UInt32)
    (ho : c₀.openRecord = none) (hw : ¬ g.Within i) : ∃ s',
      s.next limit raw = .ends s' (.error (.failed (.unexpectedStatus .addrRangeOverflow))) := by
  have hraw := h.answer ho
  rw [ReadRange.answer, if_neg hw] at hraw
  have hd : Frame.decode raw = .ok ⟨Status.addrRangeOverflow.toByte, [], false⟩ :=
    hraw ▸ Frame.decode_wire (by decide)
  exact next_refused h.command hd (by decide) (Transfer.acceptRead_status (by decide))

/-- A piece that was given is kept, and the next one is asked for if there is one. -/
theorem ReadsFrom.next_within (h : s.ReadsFrom c₀ g i raw c) (limit : Option UInt32)
    (ho : c₀.openRecord = none) (hw : g.Within i) :
    (i + 1 = g.pieceCount ∧ ∃ s', s.next limit raw = .ends s' (.ok ()) ∧
      s'.response.take s'.responseLength = c₀.memory.load g.addr g.length) ∨
    i + 1 < g.pieceCount ∧ ∃ s', s.next limit raw = .sends s' ∧ s'.command = some .read ∧
      s'.Reading g (g.loaded c₀.memory (i + 1)) := by
  have hlen : (g.loaded c₀.memory i).length = i := g.length_loaded _ _
  have hp : g.piece? (g.loaded c₀.memory i).length raw = some (g.cells c₀.memory i) := by
    rw [hlen, h.answer ho]
    exact ReadRange.piece?_answer _ hw
  have hlt := h.lt
  have hn := h.reading.next_piece h.command hp limit
  rw [hlen, ← ReadRange.loaded_succ] at hn
  rcases hn with ⟨hm, s', hn, hr⟩ | ⟨hm, s', hn, hg⟩
  · exact .inr ⟨hm, s', hn, (next_kept (.inl hn)).1.trans h.command, hr⟩
  · have he : i + 1 = g.pieceCount := by omega
    refine .inl ⟨he, s', hn, ?_⟩
    rw [hg.handOver, he]
    exact ReadRange.flatten_loaded_all _

theorem ReadsFrom.next (h : s.ReadsFrom c₀ g i raw c) (limit : Option UInt32) :
    (∃ s', s.next limit raw = .ends s' (c₀.readResult g) ∧ (c₀.readResult g = .ok () →
      s'.response.take s'.responseLength = c₀.memory.load g.addr g.length)) ∨
    c₀.openRecord = none ∧ i + 1 < g.pieceCount ∧ g.Within i ∧ ∃ s',
      s.next limit raw = .sends s' ∧ s'.command = some .read ∧
        s'.Reading g (g.loaded c₀.memory (i + 1)) := by
  unfold Controller.readResult
  cases ho : c₀.openRecord with
  | some body =>
    obtain ⟨s', hn⟩ := h.next_swallowed limit (by rw [ho]; exact nofun)
    exact .inl ⟨s', hn, nofun⟩
  | none =>
    by_cases hw : g.Within i
    · rcases h.next_within limit ho hw with ⟨he, s', hn, hr⟩ | ⟨hm, s', hn, hc, hr⟩
      · have hu : g.Unbroken := by
          refine ReadRange.unbroken_iff.2 fun j hj => ?_
          rcases Nat.lt_or_eq_of_le (Nat.le_of_lt_succ (he ▸ hj)) with hj | rfl
          · exact h.within j hj
          · exact hw
        rw [if_neg (by decide), if_pos hu]
        exact .inl ⟨s', hn, fun _ => hr⟩
      · exact .inr ⟨rfl, hm, hw, s', hn, hc, hr⟩
    · have hu : ¬ g.Unbroken := fun hu => hw (ReadRange.unbroken_iff.1 hu i h.lt)
      obtain ⟨s', hn⟩ := h.next_across limit ho hw
      rw [if_neg (by decide), if_neg hu]
      exact .inl ⟨s', hn, nofun⟩

/-- The next piece is asked for, and this is answered. -/
theorem ReadsFrom.again {raw' : Bytes} (h : s.ReadsFrom c₀ g i raw c) (hc : c.Serving)
    (ho : c₀.openRecord = none) (hm : i + 1 < g.pieceCount) (hw : g.Within i)
    (hcmd : s'.command = some .read) (hr : s'.Reading g (g.loaded c₀.memory (i + 1)))
    (ha : c.Answers s'.frame.bytes raw' c') : s'.ReadsFrom c₀ g (i + 1) raw' c' := by
  have hf : s'.frame.bytes = g.frame (i + 1) := by
    rw [hr.frame, ReadRange.length_loaded]
  rw [hf] at ha
  obtain ⟨hraw, hc'⟩ := ha.unique (hc.answers_piece h.openRecord h.injected hm)
  subst hc'
  refine ⟨hcmd, hr, fun j hj => ?_, fun _ => ?_, fun hn => absurd ho hn, h.memory, h.injected,
    h.openRecord⟩
  · rcases Nat.lt_or_eq_of_le (Nat.le_of_lt_succ hj) with hj | rfl
    · exact h.within j hj
    · exact hw
  · rw [hraw, h.memory]

/-- The first piece was asked for, and this was answered. -/
theorem readsFrom_first (hc : c.Serving) (hi : c.injected = []) (hcmd : s.command = some .read)
    (hr : s.Reading g []) (ha : c.Answers s.frame.bytes raw c') : s.ReadsFrom c g 0 raw c' := by
  have hf : s.frame.bytes = g.frame 0 := hr.frame
  rw [hf] at ha
  cases ho : c.openRecord with
  | none =>
    obtain ⟨rfl, rfl⟩ := ha.unique (hc.answers_piece ho hi hr.transfer.lt)
    exact ⟨hcmd, hr, nofun, fun _ => rfl, fun hn => absurd ho hn, rfl, hi, ho⟩
  | some body =>
    rw [Controller.frame_eq_wire] at ha
    obtain ⟨rfl, rfl⟩ := ha.unique (hc.answers_last ho hi (show 7 < 1023 by decide) rfl)
    exact ⟨hcmd, hr, nofun, fun hn => (nomatch ho.symm.trans hn), fun _ => ⟨rfl, rfl⟩, rfl, hi, rfl⟩

end Session

namespace Talk

variable {T T' : Talk} {c₀ : Controller} {g : ReadRange} {old done done' : List Completion}
  {limit : Option UInt32} {heard : List Notice} {m : BenchMove}

/-- A read is under way that found the controller like `c₀`, or it is over and was delivered. -/
def ReadsFrom (c₀ : Controller) (g : ReadRange) (old : List Completion) :
    Talk → List Completion → Prop
  | idle c, done => c.memory = c₀.memory ∧ ∃ response,
    done = ⟨.read, c₀.readResult g, response⟩ :: old ∧
      (c₀.readResult g = .ok () → response = c₀.memory.load g.addr g.length)
  | out s raw c, done | due s raw c, done => done = old ∧ ∃ i, s.ReadsFrom c₀ g i raw c
  | held _ _, _ => False

theorem ReadsFrom.memory (h : T.ReadsFrom c₀ g old done) : T.controller.memory = c₀.memory := by
  cases T with
  | idle c => exact h.1
  | out s raw c => exact h.2.elim fun _ h => h.memory
  | due s raw c => exact h.2.elim fun _ h => h.memory
  | held s c => exact h.elim

theorem ReadsFrom.goes (h : T.ReadsFrom c₀ g old done) (hc : T.controller.Serving)
    (hg : Goes limit T heard done' T') : T'.ReadsFrom c₀ g old (done' ++ done) := by
  cases hg with
  | hears =>
    obtain ⟨hd, i, h⟩ := h
    exact ⟨hd, i, h.congr rfl rfl⟩
  | @ends s s' raw c command result hcmd hn =>
    obtain ⟨rfl, i, h⟩ := h
    obtain rfl := Option.some.inj (hcmd.symm.trans h.command)
    rcases h.next limit with ⟨s₁, hn', hr⟩ | ⟨-, -, -, s₁, hn', -⟩
    · obtain ⟨rfl, rfl⟩ := Session.Next.ends.inj (hn.symm.trans hn')
      exact ⟨h.memory, _, rfl, hr⟩
    · cases hn.symm.trans hn'
  | @sends s s' raw raw' c c' t hn ha =>
    obtain ⟨rfl, i, h⟩ := h
    rcases h.next limit with ⟨s₁, hn', -⟩ | ⟨ho, hm, hw, s₁, hn', hcmd, hr⟩
    · cases hn.symm.trans hn'
    · obtain rfl := Session.Next.sends.inj (hn.symm.trans hn')
      exact ⟨rfl, i + 1, (h.again hc ho hm hw hcmd hr ha).congr rfl rfl⟩
  | @holds s s' raw c t hn =>
    obtain ⟨-, i, h⟩ := h
    rcases h.next limit with ⟨s₁, hn', -⟩ | ⟨-, -, -, s₁, hn', -⟩ <;>
      cases hn.symm.trans hn'
  | resends => exact h.elim

theorem ReadsFrom.step (h : T.ReadsFrom c₀ g old done) (hc : T.controller.Serving)
    (hm : m = .handleNext ∨ ∃ ticket, m = .expire ticket)
    (hs : T.Step limit m heard done' T') : T'.ReadsFrom c₀ g old (done' ++ done) := by
  cases hs with
  | rests => exact h
  | goes hg => exact h.goes hc hg
  | _ => rcases hm with hm | ⟨_, hm⟩ <;> cases hm

end Talk

namespace Engine

variable {e : Engine (Bench Controller)} {c : Controller}

theorem InStep.startsRange (h : e.InStep (.idle c)) (hi : c.injected = []) {call : Call}
    {g : ReadRange} (hc : call.range? = some g) (hp : call ≠ .readPlatform) (hz : 0 < g.length) :
    ∃ e₁ T, e.call call = (.ok (), e₁) ∧ e₁.InStep T ∧ T.ReadsFrom c g e.delivered e₁.delivered ∧
      ∃ n, T.Loaded n := by
  have hidle := h.shows.1
  have hb : e.session.busy = false := by rw [hidle]; rfl
  have hn : g.length ≠ 0 := Nat.pos_iff_ne_zero.1 hz
  obtain ⟨hread, he⟩ : call.command = .read ∧ e.call call =
      (e.equipped (e.session.reading g.addr g.length) e.primary).start
        call.command (.read g.addr) none g.length := by
    rw [call_idle hb]
    cases call with
    | read | readLog =>
      cases hc
      exact ⟨rfl, if_neg hn⟩
    | readPlatform => exact absurd rfl hp
    | _ => cases hc
  have hs : (e.session.reading g.addr g.length).Blank := by
    rw [hidle]
    exact ⟨rfl, rfl, rfl, rfl⟩
  obtain ⟨id, hok, -⟩ := h.starts hs he
  rw [hread] at hok
  obtain ⟨s', hcomp, hr⟩ := e.session.setOut_reading .read hz id
  obtain ⟨t, raw, c', e₁, hcall, ha, hcmd, h₁, -, hd, -⟩ := hok s' hcomp
  refine ⟨e₁, _, hcall, h₁, ⟨hd, 0, ?_⟩, _, .reads hcmd (hr.congr rfl)⟩
  exact (Session.readsFrom_first h.serving hi hcmd hr ha).congr rfl rfl

theorem InStep.startsRead (h : e.InStep (.idle c)) (hi : c.injected = []) (g : ReadRange)
    (hz : 0 < g.length) : ∃ e₁ T, e.call (.read g.addr g.length) = (.ok (), e₁) ∧ e₁.InStep T ∧
      T.ReadsFrom c g e.delivered e₁.delivered ∧ ∃ n, T.Loaded n :=
  h.startsRange hi rfl nofun hz

/-- A read ends, leaves the memory alone, and hands over the cells from its address on unless a
piece of it goes over the end of the address space. -/
theorem read_ends (h : e.InStep (.idle c)) (hi : c.injected = []) (addr : UInt32) {capacity : Nat}
    (hz : 0 < capacity) : ∃ e₁, e.call (.read addr capacity) = (.ok (), e₁) ∧
      ∀ moves, (∀ m ∈ moves, m = .handleNext ∨ ∃ ticket, m = .expire ticket) →
        (e₁.plays moves).world.link.memory = c.memory ∧
        (∃ k, (attend^[k] (e₁.plays moves)).session.Idle) ∧
        ((e₁.plays moves).session.Idle → ∃ response,
          (e₁.plays moves).delivered =
            ⟨.read, c.readResult ⟨addr, capacity⟩, response⟩ :: e.delivered ∧
          (c.readResult ⟨addr, capacity⟩ = .ok () → response = c.memory.load addr capacity)) := by
  obtain ⟨e₁, T, hcall, h₁, hr, n, hn⟩ := h.startsRead hi ⟨addr, capacity⟩ hz
  refine ⟨e₁, hcall, fun moves hm => ?_⟩
  have hstays : ∀ m ∈ moves, m.stays = true := by
    intro m hmem
    rcases hm m hmem with rfl | ⟨_, rfl⟩ <;> rfl
  obtain ⟨T', h', ⟨hr', n', hn'⟩, -⟩ := h₁.plays
    (fun _ _ done T => T.ReadsFrom c ⟨addr, capacity⟩ e.delivered done ∧ ∃ n, T.Loaded n)
    hstays ⟨hr, n, hn⟩ fun ms m _ _ _ _ _ _ hpre hs hinv hstep =>
      ⟨hinv.1.step hs (hm m (hpre.subset (by simp))) hstep, hstep.loaded hs hinv.2⟩
  refine ⟨?_, h'.exists_idle hn', fun hidle => ?_⟩
  · rw [← hr'.memory]
    rcases h'.link with hl | ⟨raw, hl⟩ <;> rw [hl]
    rfl
  · obtain ⟨c', rfl⟩ := h'.idle_of hidle
    exact hr'.2

/-- Its first piece ends with the address space, so the second one is read from address zero. -/
theorem read_goes_round :
    UInt32.size < (0xFFFFFF08 : UInt32).toNat + 249 ∧ ∃ e₁ k,
      (fresh {} (ImageLibrary.ofList []) ({ link := {} } : Bench Controller)).call
        (.read 0xFFFFFF08 249) = (.ok (), e₁) ∧
      (attend^[k] e₁).session.Idle ∧
      (attend^[k] e₁).delivered = [⟨.read, .ok (), Memory.erased.load 0xFFFFFF08 249⟩] := by
  obtain ⟨e₁, hcall, h⟩ := read_ends (inStep_fresh {} (ImageLibrary.ofList [])
    (b := { link := {} }) ⟨rfl, rfl, rfl, rfl, fun _ => ⟨rfl, rfl⟩⟩ ⟨rfl, rfl, rfl, rfl⟩) rfl
    0xFFFFFF08 (show 0 < 249 by decide)
  obtain ⟨-, ⟨k, hk⟩, -⟩ := h [] nofun
  obtain ⟨moves, he, hm⟩ := e₁.attends_eq_plays k
  change (attend^[k] e₁).session.Idle at hk
  obtain ⟨response, hd, hr⟩ := (h moves hm).2.2 (he ▸ hk)
  have hres : ({} : Controller).readResult ⟨0xFFFFFF08, 249⟩ = .ok () :=
    (if_neg Bool.false_ne_true).trans (if_pos (by decide))
  refine ⟨by decide, e₁, k, hcall, hk, ?_⟩
  rw [he, hd, hres, hr hres]
  rfl

end Engine

end FirmwareDownload
