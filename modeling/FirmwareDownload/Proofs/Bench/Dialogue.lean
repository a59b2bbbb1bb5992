import FirmwareDownload.Proofs.Bench.Attendance

/-! An engine and its controller never get out of step. Whatever is called, injected and left open,
each frame has one answer, the session that sent the frame takes it, and nothing is left on the
link between two sessions. -/

namespace FirmwareDownload

/-- Along the moves the controller took these frames, and had these answers to them. -/
inductive Dialogue (c : Controller) :
    List BenchMove → List (Bytes × Bytes) → Controller → Prop
  | nil : Dialogue c [] [] c
  | passes {ms : List BenchMove} {m : BenchMove} {xs : List (Bytes × Bytes)} {c₁ : Controller} :
    Dialogue c ms xs c₁ → (∀ k, m ≠ .control k) → Dialogue c (ms ++ [m]) xs c₁
  | controls {ms : List BenchMove} {k : ControllerControl} {xs : List (Bytes × Bytes)}
      {c₁ : Controller} :
    Dialogue c ms xs c₁ → Dialogue c (ms ++ [.control k]) xs (k.apply c₁)
  | switches {ms : List BenchMove} {xs : List (Bytes × Bytes)} {c₁ : Controller} :
    Dialogue c ms xs c₁ →
    Dialogue c (ms ++ [.setMode .download]) xs (Link.setMode c₁ .download)
  | answers {ms : List BenchMove} {m : BenchMove} {xs : List (Bytes × Bytes)}
      {c₁ c₂ : Controller} {frame raw : Bytes} :
    Dialogue c ms xs c₁ → (m = .handleNext ∨ ∃ call, m = .call call) →
    c₁.Answers frame raw c₂ → Dialogue c (ms ++ [m]) (xs ++ [(frame, raw)]) c₂

/-- A session from its start to its end: the frames it sent, each with the answer it took. -/
structure Episode where
  command : Command
  exchanges : List (Bytes × Bytes)
  error : Option DownloadError

/-- A session so far. The answer to the frame in flight is on its way. -/
structure Opening where
  command : Command
  exchanges : List (Bytes × Bytes)
  flight : Option (Bytes × Bytes)

def exchangeNotices (xs : List (Bytes × Bytes)) : List Notice :=
  xs.flatMap fun x => [.sent x.1, .received x.2]

def Episode.notices (p : Episode) : List Notice :=
  .started p.command :: (exchangeNotices p.exchanges ++ [.finished p.command p.error])

def Opening.notices (p : Opening) : List Notice :=
  .started p.command :: (exchangeNotices p.exchanges ++ (p.flight.map fun x => .sent x.1).toList)

/-- The sessions that ended, and the one that is under way. -/
structure Transcript where
  closed : List Episode := []
  opened : Option Opening := none

namespace Transcript

def notices (t : Transcript) : List Notice :=
  t.closed.flatMap Episode.notices ++ t.opened.elim [] Opening.notices

/-- All frames with their answers, over all sessions. -/
def exchanges (t : Transcript) : List (Bytes × Bytes) :=
  t.closed.flatMap Episode.exchanges ++ t.opened.elim [] fun p => p.exchanges ++ p.flight.toList

end Transcript

theorem exchangeNotices_concat (xs : List (Bytes × Bytes)) (frame raw : Bytes) :
    exchangeNotices (xs ++ [(frame, raw)]) =
      exchangeNotices xs ++ [.sent frame, .received raw] := by
  simp [exchangeNotices]

theorem Dialogue.spec {c c' : Controller} {ms : List BenchMove} {xs : List (Bytes × Bytes)}
    (h : Dialogue c ms xs c') (hc : c.Serving) (hm : ∀ m ∈ ms, m.stays = true) :
    c'.Serving ∧ c'.frameCount = c.frameCount + xs.length ∧
      ∀ x ∈ xs, ∃ answer, Frame.decode x.2 = .ok answer := by
  have hpre : ∀ {ms m}, (∀ x ∈ ms ++ [m], BenchMove.stays x = true) →
      ∀ x ∈ ms, BenchMove.stays x = true :=
    fun hm x hx => hm x (List.mem_append_left _ hx)
  induction h with
  | nil => exact ⟨hc, rfl, nofun⟩
  | passes _ _ ih => exact ih (hpre hm)
  | @controls ms k xs c₁ _ ih =>
    obtain ⟨hs, hf, hd⟩ := ih (hpre hm)
    have hk : k ≠ .silent true := by
      rintro rfl
      exact Bool.noConfusion (hm (.control (.silent true)) (by simp))
    refine ⟨hs.apply hk, ?_, hd⟩
    rw [← hf]
    cases k <;> rfl
  | switches _ ih =>
    obtain ⟨hs, hf, hd⟩ := ih (hpre hm)
    exact ⟨hs.setMode, hf, hd⟩
  | answers _ _ ha ih =>
    obtain ⟨hs, hf, hd⟩ := ih (hpre hm)
    obtain ⟨⟨answer, hdec⟩, hf', -⟩ := hs.of_answers ha
    refine ⟨ha.serving, ?_, ?_⟩
    · rw [hf', hf, List.length_append, List.length_singleton, Nat.add_assoc]
    · intro x hx
      rcases List.mem_append.1 hx with hx | hx
      · exact hd x hx
      · obtain rfl := List.mem_singleton.1 hx
        exact ⟨answer, hdec⟩

namespace Talk

/-- The session of the talk is the one that the transcript leaves open. -/
def Fits : Talk → Option Opening → Prop
  | idle _, opened => opened = none
  | out s raw _, opened | due s raw _, opened =>
    ∃ p, opened = some p ∧ s.command = some p.command ∧ p.flight = some (s.frame.bytes, raw)
  | held s _, opened => ∃ p, opened = some p ∧ s.command = some p.command ∧ p.flight = none

/-- The transcript tells what was heard along the moves, up to this state of the talk. -/
structure Tells (T : Talk) (c : Controller) (ms : List BenchMove) (heard : List Notice)
    (t : Transcript) : Prop where
  heard_eq : heard = t.notices
  dialogue : Dialogue c ms t.exchanges T.controller
  fits : T.Fits t.opened

variable {c : Controller} {ms : List BenchMove} {m : BenchMove} {heard heard' : List Notice}
  {done : List Completion} {T T' : Talk} {t : Transcript} {limit : Option UInt32}

theorem Tells.goes (h : T.Tells c ms heard t) (hg : Goes limit T heard' done T') :
    ∃ t', T'.Tells c (ms ++ [.handleNext]) (heard ++ heard') t' := by
  obtain ⟨closed, opened⟩ := t
  obtain ⟨hh, hd, hf⟩ := h
  have hpass : Dialogue c (ms ++ [.handleNext]) _ _ := hd.passes nofun
  cases hg with
  | hears => exact ⟨_, by rw [hh, List.append_nil], hpass, hf⟩
  | @ends s s' raw c₁ command result hc hn =>
    obtain ⟨⟨_, xs, _⟩, rfl, hc', rfl⟩ := hf
    obtain rfl := Option.some.inj (hc.symm.trans hc')
    refine ⟨⟨closed ++ [⟨command, xs ++ [(s.frame.bytes, raw)], errorOf result⟩], none⟩, ?_, ?_,
      rfl⟩
    · simp [hh, Transcript.notices, Episode.notices, Opening.notices, exchangeNotices_concat]
    · simpa [Transcript.exchanges, controller] using hpass
  | @sends s s' raw raw' c₁ c₂ t hn ha =>
    obtain ⟨⟨command, xs, _⟩, rfl, hc, rfl⟩ := hf
    have hd' := hd.answers (.inl rfl) ha
    refine ⟨⟨closed, some ⟨command, xs ++ [(s.frame.bytes, raw)], some (s'.frame.bytes, raw')⟩⟩,
      ?_, ?_, _, rfl, (Session.next_kept (.inl hn)).1.trans hc, rfl⟩
    · simp [hh, Transcript.notices, Opening.notices, exchangeNotices_concat]
    · simpa [Transcript.exchanges, controller] using hd'
  | @holds s s' raw c₁ t hn =>
    obtain ⟨⟨command, xs, _⟩, rfl, hc, rfl⟩ := hf
    refine ⟨⟨closed, some ⟨command, xs ++ [(s.frame.bytes, raw)], none⟩⟩, ?_, ?_, _, rfl,
      (Session.next_kept (.inr hn)).1.trans hc, rfl⟩
    · simp [hh, Transcript.notices, Opening.notices, exchangeNotices_concat]
    · simpa [Transcript.exchanges, controller] using hpass
  | @resends s raw c₁ c₂ t ha =>
    obtain ⟨⟨command, xs, _⟩, rfl, hc, rfl⟩ := hf
    have hd' := hd.answers (.inl rfl) ha
    refine ⟨⟨closed, some ⟨command, xs, some (s.frame.bytes, raw)⟩⟩, ?_, ?_, _, rfl, hc, rfl⟩
    · simp [hh, Transcript.notices, Opening.notices]
    · simpa [Transcript.exchanges, controller] using hd'

theorem Tells.step (h : T.Tells c ms heard t) (hs : T.Step limit m heard' done T') :
    ∃ t', T'.Tells c (ms ++ [m]) (heard ++ heard') t' := by
  obtain ⟨hh, hd, hf⟩ := h
  cases hs with
  | rests hm => exact ⟨t, by rw [hh, List.append_nil], hd.passes hm, hf⟩
  | controls =>
    refine ⟨t, by rw [hh, List.append_nil], ?_, ?_⟩
    · cases T <;> exact hd.controls
    · cases T <;> exact hf
  | switches => exact ⟨t, by rw [hh, List.append_nil], hd.switches, hf⟩
  | @starts call c₁ c₂ s n raw tk hc _ ha =>
    obtain ⟨closed, _⟩ := t
    obtain rfl : _ = none := hf
    have hd' := hd.answers (.inr ⟨call, rfl⟩) ha
    refine ⟨⟨closed, some ⟨call.command, [], some (s.frame.bytes, raw)⟩⟩, ?_, ?_, _, rfl, hc, rfl⟩
    · simp [hh, Transcript.notices, Opening.notices, exchangeNotices]
    · simpa [Transcript.exchanges, controller] using hd'
  | @undone call c₁ err =>
    obtain ⟨closed, _⟩ := t
    obtain rfl : _ = none := hf
    have hd' := hd.passes (m := .call call) nofun
    refine ⟨⟨closed ++ [⟨call.command, [], some err⟩], none⟩, ?_, ?_, rfl⟩
    · simp [hh, Transcript.notices, Episode.notices, exchangeNotices]
    · simpa [Transcript.exchanges, controller] using hd'
  | goes hg => exact Tells.goes ⟨hh, hd, hf⟩ hg

end Talk

theorem Transcript.no_timeout (t : Transcript) (command : Command) :
    .timeout command ∉ t.notices := by
  have hx : ∀ xs, .timeout command ∉ exchangeNotices xs := by
    simp [exchangeNotices]
  obtain ⟨closed, _ | p⟩ := t
  · simp [notices, Episode.notices, hx]
  · simp [notices, Episode.notices, Opening.notices, hx]

namespace Engine

variable {e : Engine (Bench Controller)} {T : Talk}

/-- The sessions of the transcript are all that the engine told, and all that went over the link
since the controller was `c`. -/
structure Accords (e : Engine (Bench Controller)) (c : Controller) (moves : List BenchMove)
    (t : Transcript) : Prop where
  told : traffic e.notices = t.notices
  exchanged : ∃ c', Dialogue c moves t.exchanges c' ∧ (e.session.Idle → e.world.link = c')
  counted : e.world.link.frameCount = c.frameCount + t.exchanges.length
  decoded : ∀ x ∈ t.exchanges, ∃ answer, Frame.decode x.2 = .ok answer
  in_time : ∀ command, .timeout command ∉ e.notices
  closed : e.session.Idle → t.opened = none
  quiet : e.session.Idle → e.world.link.outbox = [] ∧ e.world.link.pendingRead = none

theorem InStep.accords {c : Controller} {moves : List BenchMove} {t : Transcript}
    (h : e.InStep T) (hc : c.Serving) (hm : ∀ m ∈ moves, m.stays = true)
    (ht : T.Tells c moves (traffic e.notices) t) : e.Accords c moves t := by
  obtain ⟨-, hf, hd⟩ := ht.dialogue.spec hc hm
  have hcount : e.world.link.frameCount = T.controller.frameCount := by
    rcases h.link with hl | ⟨raw, hl⟩ <;> rw [hl]
    rfl
  have hidle : e.session.Idle → e.world.link = T.controller ∧ t.opened = none := by
    intro hi
    obtain ⟨c', rfl⟩ := h.idle_of hi
    exact ⟨h.shows.2.link, ht.fits⟩
  refine ⟨ht.heard_eq, ⟨T.controller, ht.dialogue, fun hi => (hidle hi).1⟩, hcount.trans hf,
    hd, fun command hn => ?_, fun hi => (hidle hi).2, fun hi => ?_⟩
  · refine t.no_timeout command ?_
    rw [← ht.heard_eq]
    exact List.mem_filter.2 ⟨hn, rfl⟩
  · rw [(hidle hi).1]
    exact ⟨h.serving.outbox, h.serving.pendingRead⟩

/-- Whatever is done to an engine and its controller, each frame has one answer and the session that
sent the frame takes it, no answer is waited for in vain, and every session comes to its end. -/
theorem keeps_in_step (config : Config) (library : ImageLibrary) {b : Bench Controller}
    {c : Controller} (hb : b.Calm c) (hc : c.Serving) {moves : List BenchMove}
    (hm : ∀ m ∈ moves, m.stays = true) :
    (∃ t, ((fresh config library b).plays moves).Accords c moves t) ∧
      ∃ k, (attend^[k] ((fresh config library b).plays moves)).session.Idle := by
  obtain ⟨T, hT, ⟨⟨t, ht⟩, n, hn⟩, -⟩ := (inStep_fresh config library hb hc).plays
    (fun ms heard _ T => (∃ t, T.Tells c ms heard t) ∧ ∃ n, T.Loaded n) hm
    ⟨⟨{}, rfl, .nil, rfl⟩, 0, trivial⟩
    fun _ _ _ _ _ _ _ _ _ hs hi hstep => ⟨hi.1.elim fun _ ht => ht.step hstep,
      hstep.loaded hs hi.2⟩
  exact ⟨⟨t, hT.accords hc hm ht⟩, hT.exists_idle hn⟩

/-- A read that finds the memory busy, behind bytes that are no frame. -/
theorem keeps_in_step_busy :
    let e := fresh {} (ImageLibrary.ofList []) ({ link := {} } : Bench Controller)
    let moves := [.control (.inject .memBusy 1), .call (.raw [1, 2, 3] 16), .handleNext,
      .handleNext, .call (.read 0 4), .handleNext, .handleNext]
    (∀ m ∈ moves, m.stays = true) ∧ (∃ t, (e.plays moves).Accords {} moves t) ∧
      ∃ k, (attend^[k] (e.plays moves)).session.Idle :=
  ⟨by decide, keeps_in_step {} (ImageLibrary.ofList []) ⟨rfl, rfl, rfl, rfl, fun _ => ⟨rfl, rfl⟩⟩
    ⟨rfl, rfl, rfl, rfl⟩ (by decide)⟩

end Engine

end FirmwareDownload
