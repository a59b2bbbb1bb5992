import FirmwareDownload.Proofs.Bench.Attendance
import FirmwareDownload.Proofs.Controller.Writes

/-! An engine that writes an image to its controller while the memory is made busy, over and over
and at any point. Each busy memory costs one frame more, and the image is taken all the same. -/

namespace FirmwareDownload

namespace BenchMove

/-- How often the move makes the memory busy. -/
def injected : BenchMove → Nat
  | control (.inject _ n) | control (.injectWrite _ n) => n
  | _ => 0

/-- The bench is attended to, or the memory is made busy. -/
def waits : BenchMove → Bool
  | handleNext | expire _ => true
  | control (.inject status _) | control (.injectWrite status _) => status = .memBusy
  | _ => false

def injections (moves : List BenchMove) : Nat := (moves.map injected).sum

theorem injections_append (ms ms' : List BenchMove) :
    injections (ms ++ ms') = injections ms + injections ms' := by
  simp [injections]

theorem injections_concat (ms : List BenchMove) (m : BenchMove) :
    injections (ms ++ [m]) = injections ms + m.injected := by
  rw [injections_append]
  rfl

theorem injected_eq_zero {m : BenchMove} (h : ∀ k, m ≠ .control k) : m.injected = 0 := by
  cases m with
  | control k => exact absurd rfl (h k)
  | _ => rfl

/-- Attending to the bench makes no memory busy. -/
theorem waits_of_attends {m : BenchMove} (h : m = .handleNext ∨ ∃ ticket, m = .expire ticket) :
    m.waits = true ∧ m.injected = 0 := by
  rcases h with rfl | ⟨_, rfl⟩ <;> exact ⟨rfl, rfl⟩

theorem stays_of_waits {m : BenchMove} (h : m.waits = true) : m.stays = true := by
  unfold waits at h
  split at h <;> first | rfl | cases h

end BenchMove

namespace Session

variable {s s' : Session} {image : Image} {pre post : List Bytes} {body raw : Bytes} {i n : Nat}
  {c c' c₀ : Controller} {limit : Option UInt32}

/-- The session writes the image and is about to send the slice `i` of `body`, anew or not. The
controller took all before it, and was busy for this frame as often as the session counts at
most. -/
structure WritesOn (s : Session) (c₀ : Controller) (image : Image) (pre : List Bytes) (body : Bytes)
    (post : List Bytes) (i n : Nat) (c : Controller) : Prop where
  command : s.command = some .write
  writing : s.Writing image pre body post i
  took : c.Took c₀ image pre i n
  patience : s.resendCount.toNat + c.pending ≤ c₀.pending + n

/-- The frame is out, `raw` is the answer to it, and behind it the controller is `c`. -/
structure WritesTo (s : Session) (c₀ : Controller) (image : Image) (pre : List Bytes) (body : Bytes)
    (post : List Bytes) (i n : Nat) (raw : Bytes) (c : Controller) : Prop where
  command : s.command = some .write
  writing : s.Writing image pre body post i
  answer : statusOf raw = some .memBusy ∧ c.Took c₀ image pre i n ∧
      s.resendCount.toNat + c.pending + 1 ≤ c₀.pending + n ∨
    statusOf raw = some (Record.sliceAck body i) ∧
      s.resendCount.toNat + c.pending ≤ c₀.pending + n ∧
      c.Took c₀ image (Record.behind pre body i).1 (Record.behind pre body i).2 n ∧
      (i + 1 = Record.sliceCount body → c.sessionOpen = false)

theorem WritesOn.congr (h : s.WritesOn c₀ image pre body post i n c) (hs : s'.cargo = s.cargo)
    (hc : s'.command = s.command) (hr : s'.resendCount = s.resendCount) :
    s'.WritesOn c₀ image pre body post i n c :=
  ⟨hc.trans h.command, h.writing.congr (outgoing_of_cargo hs), h.took, hr ▸ h.patience⟩

theorem WritesTo.congr (h : s.WritesTo c₀ image pre body post i n raw c) (hs : s'.cargo = s.cargo)
    (hc : s'.command = s.command) (hr : s'.resendCount = s.resendCount) :
    s'.WritesTo c₀ image pre body post i n raw c :=
  ⟨hc.trans h.command, h.writing.congr (outgoing_of_cargo hs), hr ▸ h.answer⟩

theorem WritesOn.answered (h : s.WritesOn c₀ image pre body post i n c) (hc : c.Serving)
    (hq : c₀.inBurst = false) (ha : c.Answers s.frame.bytes raw c') :
    s.WritesTo c₀ image pre body post i n raw c' := by
  have hp := h.patience
  rw [h.writing.frame] at ha
  refine ⟨h.command, h.writing, ?_⟩
  rcases h.took.takes hc hq h.writing.records h.writing.transfer.lt_sliceCount ha with
    ⟨hb, hs⟩ | ⟨hk, hpend, ht, ho⟩
  · have := hs.pending
    exact .inl ⟨hb, h.took.spends hs, by omega⟩
  · exact .inr ⟨hk, by omega, ht, ho⟩

/-- A busy memory is waited for, an acknowledged slice is followed by the next one, and behind the
last one the write is done. -/
theorem WritesTo.next (h : s.WritesTo c₀ image pre body post i n raw c)
    (hl : ∀ l, limit = some l → c₀.pending + n ≤ l.toNat) :
    (∃ s', s.next limit raw = .holds s' ∧ s'.countBusy.WritesOn c₀ image pre body post i n c) ∨
    (∃ s', s.next limit raw = .ends s' (.ok ()) ∧ s'.responseLength = 0 ∧
      c.Took c₀ image image.records 0 n ∧ c.sessionOpen = false) ∨
    ∃ s' pre' body' post' i', s.next limit raw = .sends s' ∧
      s'.WritesOn c₀ image pre' body' post' i' n c := by
  rcases h.answer with ⟨hb, ht, hp⟩ | ⟨hk, hp, ht, ho⟩
  · left
    have ha := handleAnswer_memBusy (s := s.answering) h.command rfl hb
    have hcount : (s.resendCount + 1).toNat ≤ s.resendCount.toNat + 1 := Nat.mod_le _ _
    have hn : limit.filter (fun l => l < s.resendCount + 1) = none := by
      cases hlim : limit with
      | none => rfl
      | some l =>
        have := hl l hlim
        exact if_neg (by rw [decide_eq_true_eq, UInt32.lt_iff_toNat_lt]; omega)
    refine ⟨_, next_of_resend ha hn, h.command, h.writing.congr rfl, ht, ?_⟩
    show (s.resendCount + 1).toNat + c.pending ≤ _
    omega
  · right
    rcases h.writing.next_acknowledged h.command hk limit with
      ⟨s₁, hn, hz, hbeh⟩ | ⟨s₁, pre', body', post', i', hn, hw, hr, hbeh, -⟩ <;> rw [hbeh] at ht
    · have hi : i + 1 = Record.sliceCount body := by
        by_contra hn
        rw [Record.behind, if_neg hn] at hbeh
        cases (Prod.mk.inj hbeh).2
      exact .inl ⟨s₁, hn, hz, ht, ho hi⟩
    · have hcmd := (next_kept (.inl hn)).1.trans h.command
      refine .inr ⟨s₁, pre', body', post', i', hn, hcmd, hw, ht, ?_⟩
      rw [hr, UInt32.toNat_zero]
      omega

theorem WritesOn.injects {k : ControllerControl} {j : Nat}
    (h : s.WritesOn c₀ image pre body post i n c)
    (hk : k = .inject .memBusy j ∨ k = .injectWrite .memBusy j) :
    s.WritesOn c₀ image pre body post i (n + j) (k.apply c) := by
  have hp := h.patience
  have hj := (c.injects_kept hk).1
  exact ⟨h.command, h.writing, h.took.injects hk, by omega⟩

theorem WritesTo.injects {k : ControllerControl} {j : Nat}
    (h : s.WritesTo c₀ image pre body post i n raw c)
    (hk : k = .inject .memBusy j ∨ k = .injectWrite .memBusy j) :
    s.WritesTo c₀ image pre body post i (n + j) raw (k.apply c) := by
  obtain ⟨hj, -, hopen, -⟩ := c.injects_kept hk
  refine ⟨h.command, h.writing, ?_⟩
  rcases h.answer with ⟨hb, ht, hp⟩ | ⟨hk', hp, ht, ho⟩
  · exact .inl ⟨hb, ht.injects hk, by omega⟩
  · exact .inr ⟨hk', by omega, ht.injects hk, fun hi => hopen.trans (ho hi)⟩

end Session

namespace Talk

variable {T T' : Talk} {c₀ : Controller} {image : Image} {old done done' : List Completion}
  {n : Nat} {limit : Option UInt32} {heard : List Notice} {m : BenchMove}

/-- A write is under way that found the controller like `c₀`, or it is over and was delivered. -/
def WritesTo (c₀ : Controller) (image : Image) (old : List Completion) (n : Nat) :
    Talk → List Completion → Prop
  | idle c, done => done = ⟨.write, .ok (), []⟩ :: old ∧ c.Took c₀ image image.records 0 n ∧
    c.sessionOpen = false
  | out s raw c, done | due s raw c, done => done = old ∧
    ∃ pre body post i, s.WritesTo c₀ image pre body post i n raw c
  | held s c, done => done = old ∧ ∃ pre body post i, s.WritesOn c₀ image pre body post i n c

theorem WritesTo.goes (h : T.WritesTo c₀ image old n done) (hc : T.controller.Serving)
    (hq : c₀.inBurst = false) (hl : ∀ l, limit = some l → c₀.pending + n ≤ l.toNat)
    (hg : Goes limit T heard done' T') : T'.WritesTo c₀ image old n (done' ++ done) := by
  cases hg with
  | hears =>
    obtain ⟨hd, pre, body, post, i, h⟩ := h
    exact ⟨hd, pre, body, post, i, h.congr rfl rfl rfl⟩
  | @ends s s' raw c command result hcmd hn =>
    obtain ⟨rfl, pre, body, post, i, h⟩ := h
    obtain rfl := Option.some.inj (hcmd.symm.trans h.command)
    rcases h.next hl with ⟨s₁, hn', -⟩ | ⟨s₁, hn', hz, ht, ho⟩ | ⟨s₁, _, _, _, _, hn', -⟩
    · cases hn.symm.trans hn'
    · obtain ⟨rfl, rfl⟩ := Session.Next.ends.inj (hn.symm.trans hn')
      refine ⟨?_, ht, ho⟩
      rw [hz, ResponseBuffer.take_eq, List.take_zero]
      rfl
    · cases hn.symm.trans hn'
  | @sends s s' raw raw' c c' t hn ha =>
    obtain ⟨rfl, pre, body, post, i, h⟩ := h
    rcases h.next hl with ⟨s₁, hn', -⟩ | ⟨s₁, hn', -⟩ | ⟨s₁, pre', body', post', i', hn', h'⟩
    · cases hn.symm.trans hn'
    · cases hn.symm.trans hn'
    · obtain rfl := Session.Next.sends.inj (hn.symm.trans hn')
      exact ⟨rfl, pre', body', post', i', (h'.answered hc hq ha).congr rfl rfl rfl⟩
  | @holds s s' raw c t hn =>
    obtain ⟨rfl, pre, body, post, i, h⟩ := h
    rcases h.next hl with ⟨s₁, hn', h'⟩ | ⟨s₁, hn', -⟩ | ⟨s₁, _, _, _, _, hn', -⟩
    · obtain rfl := Session.Next.holds.inj (hn.symm.trans hn')
      exact ⟨rfl, pre, body, post, i, h'.congr rfl rfl rfl⟩
    · cases hn.symm.trans hn'
    · cases hn.symm.trans hn'
  | @resends s raw c c' t ha =>
    obtain ⟨rfl, pre, body, post, i, h⟩ := h
    exact ⟨rfl, pre, body, post, i, (h.answered hc hq ha).congr rfl rfl rfl⟩

theorem WritesTo.step (h : T.WritesTo c₀ image old n done) (hc : T.controller.Serving)
    (hq : c₀.inBurst = false) (hl : ∀ l, limit = some l → c₀.pending + n ≤ l.toNat)
    (hm : m.waits = true) (hs : T.Step limit m heard done' T') :
    T'.WritesTo c₀ image old (n + m.injected) (done' ++ done) := by
  cases hs with
  | rests hr =>
    rw [BenchMove.injected_eq_zero hr]
    exact h
  | @controls k =>
    have hk : k = .inject .memBusy (BenchMove.control k).injected ∨
        k = .injectWrite .memBusy (BenchMove.control k).injected := by
      cases k with
      | inject status j => exact .inl (by rw [of_decide_eq_true hm]; rfl)
      | injectWrite status j => exact .inr (by rw [of_decide_eq_true hm]; rfl)
      | _ => cases hm
    cases T with
    | idle c => exact ⟨h.1, h.2.1.injects hk, (c.injects_kept hk).2.2.1.trans h.2.2⟩
    | out s raw c =>
      obtain ⟨hd, pre, body, post, i, h⟩ := h
      exact ⟨hd, pre, body, post, i, h.injects hk⟩
    | due s raw c =>
      obtain ⟨hd, pre, body, post, i, h⟩ := h
      exact ⟨hd, pre, body, post, i, h.injects hk⟩
    | held s c =>
      obtain ⟨hd, pre, body, post, i, h⟩ := h
      exact ⟨hd, pre, body, post, i, h.injects hk⟩
  | goes hg => exact h.goes hc hq hl hg
  | _ => cases hm

end Talk

namespace Engine

variable {e : Engine (Bench Controller)} {c : Controller} {recovery : Bool} {data : Option Bytes}
  {image : Image}

/-- The image that a write takes, or makes its choice of. -/
def Picks (e : Engine (Bench Controller)) (recovery : Bool) (image : Image) : Option Bytes → Prop
  | some data => Image.ofBytes data = .ok image
  | none => (e.chooseImage recovery).1 = .ok image

theorem callWrite_picks (h : e.Picks recovery image data) : ∃ p, e.callWrite recovery data =
    (e.equipped e.session.writing p).start .write .write (some image.data) 0 := by
  cases data with
  | none =>
    have h : (e.chooseImage recovery).1 = .ok image := h
    rcases e.chooseImage_equips recovery with ⟨err, he⟩ | ⟨image', p, he⟩
    · rw [he] at h
      cases h
    · rw [he] at h
      obtain rfl : image' = image := Except.ok.inj h
      refine ⟨p, ?_⟩
      unfold Engine.callWrite
      dsimp only
      rw [he]
      rfl
  | some data =>
    have h : Image.ofBytes data = .ok image := h
    refine ⟨e.primary, ?_⟩
    rw [Image.data_of_ofBytes h]
    cases data with
    | nil => cases h
    | cons b data =>
      unfold Engine.callWrite
      dsimp only
      rw [h]
      rfl

/-- The first slice of the first record is out. -/
theorem InStep.startsWriting (h : e.InStep (.idle c)) (ho : c.openRecord = none)
    (hq : c.inBurst = false) (hb : c.OnlyBusy) (hp : e.Picks recovery image data) :
    ∃ e₁ s raw c' body post, e.call (.write recovery data) = (.ok (), e₁) ∧
      e₁.InStep (.out s raw c') ∧ s.WritesTo c image [] body post 0 0 raw c' ∧
      traffic e₁.notices =
        traffic e.notices ++ [.started .write, .sent (Record.sliceFrame body 0)] ∧
      e₁.delivered = e.delivered ∧ e₁.config = e.config := by
  have hidle := h.shows.1
  have hbusy : e.session.busy = false := by rw [hidle]; rfl
  obtain ⟨p, hcall⟩ := callWrite_picks hp
  have he : e.call (.write recovery data) = (e.equipped e.session.writing p).start
      (Call.write recovery data).command .write (some image.data) 0 :=
    (call_idle hbusy _).trans hcall
  have hs : e.session.writing.Blank := by
    rw [hidle]
    exact ⟨rfl, rfl, rfl, rfl⟩
  obtain ⟨id, hok, -⟩ := h.starts hs he
  obtain ⟨s', body, post, hcomp, -, hw⟩ := e.session.setOut_writing .write image id
  obtain ⟨t, raw, c', e₁, hcall, ha, hcmd, h₁, ht, hd, hcfg⟩ := hok s' hcomp
  have hr : s'.resendCount = 0 := by
    obtain ⟨_, _, hs'⟩ := Session.composed hcomp
    rw [hs']
    rfl
  have hp : s'.resendCount.toNat + c.pending ≤ c.pending + 0 := by
    rw [hr, UInt32.toNat_zero]
    omega
  have hon : s'.WritesOn c image [] body post 0 0 c :=
    ⟨hcmd, hw, Controller.took_nothing hb ho hq, hp⟩
  have hto := hon.answered h.serving hq ha
  exact ⟨e₁, _, raw, c', body, post, hcall, h₁, hto.congr rfl rfl rfl, hw.frame ▸ ht, hd, hcfg⟩

theorem InStep.startsWrite (h : e.InStep (.idle c)) (ho : c.openRecord = none)
    (hq : c.inBurst = false) (hb : c.OnlyBusy) (hp : e.Picks recovery image data) :
    ∃ e₁ T, e.call (.write recovery data) = (.ok (), e₁) ∧ e₁.InStep T ∧
      T.WritesTo c image e.delivered 0 e₁.delivered ∧ (∃ n, T.Loaded n) ∧
      e₁.config = e.config := by
  obtain ⟨e₁, s, raw, c', body, post, hcall, h₁, hw, -, hd, hcfg⟩ := h.startsWriting ho hq hb hp
  exact ⟨e₁, _, hcall, h₁, ⟨hd, [], body, post, 0, hw⟩, ⟨_, .writes hw.command hw.writing⟩, hcfg⟩

/-- A write succeeds however often the memory is busy meanwhile, and the controller takes the whole
image. -/
theorem write_succeeds (h : e.InStep (.idle c)) (ho : c.openRecord = none)
    (hq : c.inBurst = false) (hb : c.OnlyBusy) (hp : e.Picks recovery image data) :
    ∃ e₁, e.call (.write recovery data) = (.ok (), e₁) ∧
      ∀ moves, (∀ m ∈ moves, m.waits = true) →
        (∀ limit, e.config.resendLimit = some limit →
          c.pending + BenchMove.injections moves ≤ limit.toNat) →
        (∃ k, (attend^[k] (e₁.plays moves)).session.Idle) ∧
        ((e₁.plays moves).session.Idle →
          (e₁.plays moves).delivered = ⟨.write, .ok (), []⟩ :: e.delivered ∧
          (e₁.plays moves).world.link.Committed c image (BenchMove.injections moves)) := by
  obtain ⟨e₁, T, hcall, h₁, hw, hn, hcfg⟩ := h.startsWrite ho hq hb hp
  refine ⟨e₁, hcall, fun moves hm hl => ?_⟩
  obtain ⟨T', h', ⟨hw', n, hn'⟩, -⟩ := h₁.plays
    (fun ms _ done T =>
      T.WritesTo c image e.delivered (BenchMove.injections ms) done ∧ ∃ n, T.Loaded n)
    (fun m hmem => BenchMove.stays_of_waits (hm m hmem)) ⟨hw, hn⟩
    fun ms m _ _ _ _ _ _ hpre hs hinv hstep => by
      obtain ⟨later, rfl⟩ := hpre
      rw [BenchMove.injections_append, BenchMove.injections_concat] at hl
      have hle : ∀ limit, e₁.config.resendLimit = some limit →
          c.pending + BenchMove.injections ms ≤ limit.toNat := by
        intro limit hlim
        have := hl limit (hcfg ▸ hlim)
        omega
      rw [BenchMove.injections_concat]
      exact ⟨hinv.1.step hs hq hle (hm m (by simp)) hstep, hstep.loaded hs hinv.2⟩
  refine ⟨h'.exists_idle hn', fun hidle => ?_⟩
  obtain ⟨c', rfl⟩ := h'.idle_of hidle
  obtain ⟨hd, ht, hopen⟩ := hw'
  rw [h'.shows.2.link]
  exact ⟨hd, ht.committed h'.serving hq hopen⟩

/-- Two busy memories, one of them between the two slices of the record, and no more are allowed. -/
theorem write_succeeds_past_busy :
    let e := fresh { resendLimit := some 2 } (ImageLibrary.ofList [])
      ({ link := { injected := [.memBusy] } } : Bench Controller)
    let moves := List.replicate 6 BenchMove.handleNext ++ [.control (.inject .memBusy 1)]
    ∃ image e₁ k, Image.ofBytes twoSlices = .ok image ∧
      e.call (.write false (some twoSlices)) = (.ok (), e₁) ∧
      (attend^[k] (e₁.plays moves)).session.Idle ∧
      (attend^[k] (e₁.plays moves)).delivered = [⟨.write, .ok (), []⟩] ∧
      (attend^[k] (e₁.plays moves)).world.link.Committed { injected := [.memBusy] } image 1 := by
  intro e moves
  have hi : (Image.ofBytes twoSlices).isOk = true := by decide +kernel
  obtain ⟨image, himg⟩ : ∃ image, Image.ofBytes twoSlices = .ok image := by
    cases himg : Image.ofBytes twoSlices with
    | error err => rw [himg] at hi; cases hi
    | ok image => exact ⟨image, rfl⟩
  have hin : e.InStep (.idle { injected := [.memBusy] }) :=
    inStep_fresh _ _ ⟨rfl, rfl, rfl, rfl, fun _ => ⟨rfl, rfl⟩⟩ ⟨rfl, rfl, rfl, rfl⟩
  have hb : ({ injected := [.memBusy] } : Controller).OnlyBusy :=
    fun status hs => List.mem_singleton.1 hs
  obtain ⟨e₁, hcall, hw⟩ := write_succeeds hin rfl rfl hb
    (show e.Picks false image (some twoSlices) from himg)
  obtain ⟨⟨k, hk⟩, -⟩ := hw moves (by decide) (by rintro _ ⟨⟩; decide)
  obtain ⟨later, he, hlater⟩ := (e₁.plays moves).attends_eq_plays k
  have hwaits : ∀ m ∈ moves ++ later, m.waits = true := by
    intro m hm
    rcases List.mem_append.1 hm with hm | hm
    · exact (by decide : ∀ m ∈ moves, m.waits = true) m hm
    · exact (BenchMove.waits_of_attends (hlater m hm)).1
  have hlate : BenchMove.injections later = 0 := by
    refine List.sum_eq_zero_iff_forall_eq_nat.2 fun n hn => ?_
    obtain ⟨m, hm, rfl⟩ := List.mem_map.1 hn
    exact (BenchMove.waits_of_attends (hlater m hm)).2
  have hsum : BenchMove.injections (moves ++ later) = 1 := by
    rw [BenchMove.injections_append, hlate]
    rfl
  have hp : (e₁.plays moves).plays later = e₁.plays (moves ++ later) := List.foldl_append.symm
  obtain ⟨-, hend⟩ := hw (moves ++ later) hwaits (by rw [hsum]; rintro _ ⟨⟩; decide)
  rw [hsum] at hend
  refine ⟨image, e₁, k, himg, hcall, hk, ?_⟩
  rw [he, hp] at hk ⊢
  exact hend hk

end Engine

end FirmwareDownload
