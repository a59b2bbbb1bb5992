import FirmwareDownload.Proofs.Bench.Commands
import FirmwareDownload.Proofs.Bench.Steps

/-! How far a session is from its end. A read has its pieces to ask for and a write its slices to
send, every other command its one frame; an answer that is not a busy memory makes them fewer. -/

namespace FirmwareDownload

namespace Session

/-- The session waits for the answer to a frame, and has at most `n` to send from that one on. -/
inductive Loaded (s : Session) : Nat → Prop
  | asks {command : Command} : s.command = some command → command ≠ .read → command ≠ .write →
    s.transfer.remaining = 0 → Loaded s 1
  | reads {g : ReadRange} {pieces : List Bytes} : s.command = some .read → s.Reading g pieces →
    Loaded s (g.pieceCount - pieces.length)
  | writes {image : Image} {pre post : List Bytes} {body : Bytes} {i : Nat} :
    s.command = some .write → s.Writing image pre body post i →
    Loaded s ((Record.after Record.exchange body i post).length + 1)

variable {s s' s₁ : Session} {n : Nat} {limit : Option UInt32} {raw : Bytes}
  {result : Except DownloadError Unit}

theorem cargo_answering (s : Session) : s.answering.cargo = s.cargo := rfl

theorem Loaded.congr (h : s.Loaded n) (hs : s'.cargo = s.cargo) (hc : s'.command = s.command) :
    s'.Loaded n := by
  cases h with
  | asks hc' hr hw ht =>
    exact .asks (hc.trans hc') hr hw (transfer_of_cargo hs ▸ ht)
  | reads hc' hr => exact .reads (hc.trans hc') (hr.congr hs)
  | writes hc' hw => exact .writes (hc.trans hc') (hw.congr (outgoing_of_cargo hs))

/-! ## Answers -/

theorem handleAnswer_resend (h : s.handleAnswer raw = (.resend, s')) :
    s' = { s with lastStatus := some .memBusy } ∧ statusOf raw = some .memBusy := by
  unfold handleAnswer at h
  split at h
  · cases h
  · split at h <;> cases h
  · split at h
    · cases h
    · rename_i hd
      split at h
      · rename_i hb
        cases h
        exact ⟨rfl, (statusOf_of_decode hd).trans (congrArg some hb.1)⟩
      · split at h
        · cases h
        · split at h <;> cases h

theorem next_kept (h : s.next limit raw = .sends s' ∨ s.next limit raw = .holds s') :
    s'.command = s.command ∧ s'.busy = s.busy ∧ s'.restoreNormalMode = s.restoreNormalMode := by
  obtain ⟨_, _, _, _, _, ha⟩ := s.answering.handleAnswer_eq raw
  rcases h with h | h
  · obtain ⟨s₁, he, hc⟩ := next_sends h
    obtain ⟨_, _, hs⟩ := composed hc
    rw [he] at ha
    rw [hs, show s₁ = _ from ha]
    exact ⟨rfl, rfl, rfl⟩
  · obtain ⟨he, -⟩ := next_holds h
    rw [he] at ha
    rw [show s' = _ from ha]
    exact ⟨rfl, rfl, rfl⟩

/-- A piece that was given is kept, and the next one is asked for if there is one. -/
theorem Reading.next_piece {g : ReadRange} {pieces : List Bytes} {data : Bytes}
    (h : s.Reading g pieces) (hc : s.command = some .read)
    (hp : g.piece? pieces.length raw = some data) (limit : Option UInt32) :
    (pieces.length + 1 < g.pieceCount ∧ ∃ s', s.next limit raw = .sends s' ∧
      s'.Reading g (pieces ++ [data])) ∨
    (¬ pieces.length + 1 < g.pieceCount ∧ ∃ s', s.next limit raw = .ends s' (.ok ()) ∧
      s'.Gathered g (pieces ++ [data])) := by
  obtain ⟨s₁, ha, hr, hg, hf⟩ := (h.congr s.cargo_answering).handleAnswer_piece hc hp
  have hl : (pieces ++ [data]).length = pieces.length + 1 := List.length_append
  by_cases hm : pieces.length + 1 < g.pieceCount
  · rw [if_pos hm] at ha
    obtain ⟨s', hcomp, hreading⟩ := compose_reading (s := { s₁ with phase := .send }) hr
      ⟨hg.capacity, hg.front, hg.responseLength, hg.filled⟩ (hl ▸ hf) (hl ▸ hm)
    exact .inl ⟨hm, s', next_of_proceed ha hcomp, hreading⟩
  · rw [if_neg hm] at ha
    exact .inr ⟨hm, s₁, next_of_done ha, hg⟩

/-- Behind a slice that was acknowledged the write is done, or the next slice is sent. -/
theorem Writing.next_acknowledged {image : Image} {pre post : List Bytes} {body : Bytes} {i : Nat}
    (h : s.Writing image pre body post i) (hc : s.command = some .write)
    (hk : statusOf raw = some (Record.sliceAck body i)) (limit : Option UInt32) :
    (∃ s', s.next limit raw = .ends s' (.ok ()) ∧ s'.responseLength = 0 ∧
      Record.behind pre body i = (image.records, 0)) ∨
    ∃ s' pre' body' post' i', s.next limit raw = .sends s' ∧
      s'.Writing image pre' body' post' i' ∧ s'.resendCount = 0 ∧
      Record.behind pre body i = (pre', i') ∧
      Record.after Record.exchange body i post =
        Record.exchange body' i' :: Record.after Record.exchange body' i' post' := by
  obtain ⟨verdict, s₁, ha, hz, hr, ⟨rfl, hbeh, -⟩ |
      ⟨s', pre', body', post', i', rfl, hcomp, hw, hbeh, hl⟩⟩ :=
    (h.congr (outgoing_of_cargo s.cargo_answering)).acknowledged hc hk
  · exact .inl ⟨s₁, next_of_done ha, hz, hbeh⟩
  · have hr' : s'.resendCount = 0 := by
      obtain ⟨_, _, hs⟩ := composed hcomp
      rw [hs]
      exact hr
    exact .inr ⟨s', pre', body', post', i', next_of_proceed ha hcomp, hw, hr', hbeh, hl⟩

/-- A command that is neither a read nor a write never goes on to a second frame. -/
theorem handleAnswer_remaining (hr : s.command ≠ some .read) (hw : s.command ≠ some .write)
    (ht : s.transfer.remaining = 0) (raw : Bytes) : (s.handleAnswer raw).1 ≠ .proceed := by
  have hk : ∀ (s : Session) (data : Bytes), (s.keepAnswer data).2.transfer = s.transfer := by
    intro s data
    obtain ⟨_, _, he⟩ := s.keepAnswer_eq data
    rw [he]
  have ha : ∀ command answer, s.command = some command →
      ({ s with resendCount := 0 }.applyAnswer command answer).2.transfer.remaining = 0 := by
    intro command answer hc
    unfold Session.applyAnswer
    split
    · exact absurd hc hw
    · exact absurd hc hr
    · split
      · rw [hk]
        exact ht
      · exact ht
  unfold Session.handleAnswer
  split
  · exact nofun
  · split <;> exact nofun
  · rename_i command _ hc
    split
    · exact nofun
    · rename_i answer _
      have ha' := ha command answer hc
      split
      · exact nofun
      · split <;> rename_i he <;> rw [he] at ha'
        · exact nofun
        · rw [if_neg (fun h => absurd h.2 (by rw [ha']; exact Nat.lt_irrefl 0))]
          exact nofun

/-- Where a session goes on behind its answer, the next frame can be built, and fewer are left. -/
theorem Loaded.proceeds (h : s.Loaded n) (ha : s.answering.handleAnswer raw = (.proceed, s₁)) :
    ∃ s' n', { s₁ with phase := .send }.compose = (.ok (), s') ∧ n' < n ∧ s'.Loaded n' := by
  have hb : ∀ {command}, s.command = some command → command.shape = .readWrite →
      statusOf raw ≠ some .memBusy := by
    intro command hc hs hb
    cases ha.symm.trans (handleAnswer_memBusy (s := s.answering) hc hs hb)
  have hn : ∀ {s'}, s.next none raw = .sends s' →
      { s₁ with phase := .send }.compose = (.ok (), s') ∧ s'.command = s.command := by
    intro s' hn
    obtain ⟨s₂, ha', hc⟩ := next_sends hn
    obtain ⟨-, rfl⟩ := Prod.mk.inj (ha.symm.trans ha')
    exact ⟨hc, (next_kept (.inl hn)).1⟩
  have hend : ∀ {s'}, s.next none raw ≠ .ends s' (.ok ()) := by
    intro s' hn
    rcases next_ends hn with ⟨ha', -⟩ | ⟨_, -, he⟩ | ⟨_, _, -, -, he⟩ | ⟨_, _, -, -, -, he⟩
    · cases ha.symm.trans ha'
    · cases he
    · cases he
    · cases he
  cases h with
  | asks hc hr hw ht =>
    have hp := handleAnswer_remaining (s := s.answering)
      (fun he => hr (Option.some.inj (hc.symm.trans he)))
      (fun he => hw (Option.some.inj (hc.symm.trans he))) ht raw
    rw [ha] at hp
    exact absurd rfl hp
  | @reads g pieces hc hr =>
    cases hp : g.piece? pieces.length raw with
    | none =>
      obtain ⟨err, s₂, he, -⟩ :=
        (hr.congr s.cargo_answering).handleAnswer_refused hc (hb hc rfl) hp
      cases ha.symm.trans he
    | some data =>
      rcases hr.next_piece hc hp none with ⟨hlt, s₂, hs, hr₂⟩ | ⟨-, s₂, hs, -⟩
      · obtain ⟨hcomp, hcmd⟩ := hn hs
        refine ⟨s₂, _, hcomp, ?_, .reads (hcmd.trans hc) hr₂⟩
        rw [List.length_append, List.length_singleton]
        omega
      · exact absurd hs hend
  | @writes image pre post body i hc hw =>
    by_cases hk : statusOf raw = some (Record.sliceAck body i)
    · rcases hw.next_acknowledged hc hk none with
        ⟨s₂, hs, -⟩ | ⟨s₂, _, body', post', i', hs, hw₂, -, -, hl⟩
      · exact absurd hs hend
      · obtain ⟨hcomp, hcmd⟩ := hn hs
        refine ⟨s₂, _, hcomp, ?_, .writes (hcmd.trans hc) hw₂⟩
        rw [hl, List.length_cons]
        omega
    · obtain ⟨err, s₂, he, -⟩ :=
        (hw.congr (outgoing_of_cargo s.cargo_answering)).handleAnswer_refused hc (hb hc rfl) hk
      cases ha.symm.trans he

theorem Loaded.sends (h : s.Loaded n) (hn : s.next limit raw = .sends s') :
    ∃ n', n' < n ∧ s'.Loaded n' := by
  obtain ⟨s₁, ha, hc⟩ := next_sends hn
  obtain ⟨s₂, n', hc', hlt, h'⟩ := h.proceeds ha
  obtain ⟨-, rfl⟩ := Prod.mk.inj (hc.symm.trans hc')
  exact ⟨n', hlt, h'⟩

theorem Loaded.holds (h : s.Loaded n) (hn : s.next limit raw = .holds s') :
    s'.Loaded n ∧ statusOf raw = some .memBusy := by
  obtain ⟨ha, -⟩ := next_holds hn
  obtain ⟨hc, -, -⟩ := next_kept (.inr hn)
  obtain ⟨rfl, hb⟩ := handleAnswer_resend ha
  exact ⟨h.congr rfl hc, hb⟩

theorem compose_remaining (hr : s.request ≠ .write) :
    s.compose.2.transfer.remaining = s.transfer.remaining := by
  have hk : ∀ (s : Session) r, (s.setFrame r).2.transfer = s.transfer := by
    intro s r
    obtain ⟨_, he⟩ := s.setFrame_eq r
    rw [he]
  unfold compose
  split
  · rfl
  · rw [hk]
  · rw [hk]
  · rw [hk]
    unfold Transfer.composeRead
    dsimp only
    split <;> rfl
  · rw [hk]
  · rename_i hw
    exact absurd hw hr
  · split
    · rfl
    · rw [hk]
  · split
    · rfl
    · rw [hk]

/-! ## First frames -/

theorem setOut_reading {g : ReadRange} (s : Session) (command : Command) (hz : 0 < g.length)
    (id : TimerId) : ∃ s', ((s.reading g.addr g.length).setOut command (.read g.addr) none g.length
      id).compose = (.ok (), s') ∧ s'.Reading g [] :=
  compose_reading rfl ⟨rfl, rfl, rfl, (Nat.zero_min _).symm⟩ (Transfer.faces_startRead g)
    (ReadRange.lt_pieceCount.2 hz)

theorem setOut_writing (s : Session) (command : Command) (image : Image) (id : TimerId) :
    ∃ s' body post, (s.writing.setOut command .write (some image.data) 0 id).compose =
      (.ok (), s') ∧ image.records = body :: post ∧ s'.Writing image [] body post 0 := by
  obtain ⟨body, post, hr⟩ := image.exists_record
  obtain ⟨s', hc, hw⟩ := compose_first hr
    (s := s.writing.setOut command .write (some image.data) 0 id) rfl rfl rfl
    ⟨rfl, rfl, .inl ⟨rfl, rfl⟩⟩
  exact ⟨s', body, post, hc, hr, hw⟩

end Session

/-! ## Calls -/

namespace Engine

variable {W : Type} [Host W] {e : Engine W} {c : Call} {s s' : Session} {p : Option Image}
  {request : Request} {userData : Option Bytes} {capacity : Nat}

/-- What a call gives the idle engine before it starts the command, and what it hands over. -/
inductive Equips (e : Engine W) (c : Call) :
    Session → Option Image → Request → Option Bytes → Nat → Prop
  | asks {request : Request} {userData : Option Bytes} {capacity : Nat} :
    c.command ≠ .read → c.command ≠ .write → request ≠ .write →
    Equips e c e.session e.primary request userData capacity
  | reads {g : ReadRange} : c.command = .read → 0 < g.length →
    Equips e c (e.session.reading g.addr g.length) e.primary (.read g.addr) none g.length
  | writes (image : Image) {p : Option Image} : c.command = .write →
    Equips e c e.session.writing p .write (some image.data) 0

/-- The engine as it is when the command starts. -/
def equipped (e : Engine W) (s : Session) (p : Option Image) : Engine W :=
  { e with session := s, primary := p }

/-- The call is refused and nothing changed, or it starts its command on an engine that differs
from the idle one in what it was given. -/
def Commences (e : Engine W) (c : Call) (r : Except DownloadError Unit × Engine W) : Prop :=
  (∃ err, r = (.error err, e)) ∨ ∃ s p request userData capacity,
    e.Equips c s p request userData capacity ∧
      r = (e.equipped s p).start c.command request userData capacity

theorem Commences.guarded {fault : ParameterFault} {P : Prop} [Decidable P]
    {r : Except DownloadError Unit × Engine W} (h : ¬ P → e.Commences c r) :
    e.Commences c (if P then e.invalid fault else r) := by
  by_cases hp : P
  · rw [if_pos hp]
    exact .inl ⟨_, rfl⟩
  · rw [if_neg hp]
    exact h hp

theorem commences_asking {request : Request} {userData : Option Bytes} {capacity : Nat}
    (hr : c.command ≠ .read) (hw : c.command ≠ .write) (hq : request ≠ .write) :
    e.Commences c (e.start c.command request userData capacity) :=
  .inr ⟨_, _, _, _, _, .asks hr hw hq, rfl⟩

theorem commences_reading {addr : UInt32} (hr : c.command = .read) (hz : ¬ capacity = 0) :
    e.Commences c (e.startRead addr capacity) := by
  refine .inr ⟨_, _, _, _, _, .reads (g := ⟨addr, capacity⟩) hr (Nat.pos_of_ne_zero hz), ?_⟩
  rw [hr]
  rfl

omit [Host W] in
theorem chooseImage_equips (e : Engine W) (recovery : Bool) :
    (∃ err, e.chooseImage recovery = (.error err, e)) ∨
      ∃ image p, e.chooseImage recovery = (.ok image, e.equipped e.session p) := by
  unfold Engine.chooseImage
  dsimp only
  split
  · exact .inr ⟨_, e.primary, rfl⟩
  · split
    · exact .inl ⟨_, rfl⟩
    · split
      · exact .inr ⟨_, _, rfl⟩
      · exact .inr ⟨_, e.primary, rfl⟩

theorem callWrite_commences (e : Engine W) (recovery : Bool) (data : Option Bytes) :
    e.Commences (.write recovery data) (e.callWrite recovery data) := by
  unfold Engine.callWrite
  split
  · exact .inl ⟨_, rfl⟩
  · split
    · exact .inl ⟨_, rfl⟩
    · rename_i image hi
      rw [← Image.data_of_ofBytes hi]
      exact .inr ⟨_, e.primary, _, _, _, .writes image rfl, rfl⟩
  · rcases e.chooseImage_equips recovery with ⟨err, he⟩ | ⟨image, p, he⟩
    · rw [he]
      exact .inl ⟨err, rfl⟩
    · rw [he]
      exact .inr ⟨_, p, _, _, _, .writes image rfl, rfl⟩

theorem call_commences (hb : e.session.busy = false) (hc : c ≠ .readPlatform) :
    e.Commences c (e.call c) := by
  rw [call_idle hb]
  cases c with
  | reset => exact commences_asking (c := .reset) nofun nofun nofun
  | getVersion n => exact .guarded fun _ => commences_asking (c := .getVersion n) nofun nofun nofun
  | getSessionState n =>
    exact .guarded fun _ => commences_asking (c := .getSessionState n) nofun nofun nofun
  | checkIntegrity revision n =>
    exact .guarded fun _ => commences_asking (c := .checkIntegrity revision n) nofun nofun nofun
  | read => exact .guarded (commences_reading rfl)
  | readLog => exact .guarded (commences_reading rfl)
  | readPlatform => exact absurd rfl hc
  | write recovery data => exact e.callWrite_commences recovery data
  | log entry => exact .guarded fun _ => commences_asking (c := .log entry) nofun nofun nofun
  | force clock => exact commences_asking (c := .force clock) nofun nofun nofun
  | raw frame n =>
    exact .guarded fun _ => .guarded fun _ =>
      commences_asking (c := .raw frame n) nofun nofun nofun

omit [Host W] in
theorem Equips.blank (h : e.Equips c s p request userData capacity) (hi : e.session.Idle) :
    s.Blank := by
  have hs : e.session.Blank := by
    rw [hi]
    exact ⟨rfl, rfl, rfl, rfl⟩
  cases h with
  | asks => exact hs
  | reads => exact ⟨hs.phase, hs.timer, hs.fresh, hs.mode⟩
  | writes => exact ⟨hs.phase, hs.timer, rfl, hs.mode⟩

omit [Host W] in
theorem Equips.loaded {id : TimerId} (h : e.Equips c s p request userData capacity)
    (hi : e.session.Idle)
    (hc : (s.setOut c.command request userData capacity id).compose = (.ok (), s')) :
    ∃ n, s'.Loaded n := by
  obtain ⟨_, _, hs⟩ := Session.composed hc
  have hcmd : s'.command = some c.command := by rw [hs]; rfl
  cases h with
  | asks hr hw hreq =>
    have hrem := Session.compose_remaining
      (s := e.session.setOut c.command request userData capacity id) hreq
    rw [hc] at hrem
    refine ⟨1, .asks hcmd hr hw (hrem.trans ?_)⟩
    show e.session.transfer.remaining = 0
    rw [hi]
    rfl
  | @reads g hread hz =>
    obtain ⟨s₁, hc₁, hg⟩ := e.session.setOut_reading c.command hz id
    obtain ⟨-, rfl⟩ := Prod.mk.inj (hc.symm.trans hc₁)
    exact ⟨_, .reads (hcmd.trans (congrArg some hread)) hg⟩
  | @writes image p hwrite =>
    obtain ⟨s₁, body, post, hc₁, -, hw⟩ := e.session.setOut_writing c.command image id
    obtain ⟨-, rfl⟩ := Prod.mk.inj (hc.symm.trans hc₁)
    exact ⟨_, .writes (hcmd.trans (congrArg some hwrite)) hw⟩

end Engine

end FirmwareDownload
