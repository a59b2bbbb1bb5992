import FirmwareDownload.Bench.Trial
import FirmwareDownload.Proofs.Controller.Answering
import FirmwareDownload.Proofs.Engine.Exchange

/-! A controller in download mode that is not silent, whatever is injected into it, stored in it or
left open by earlier frames. It has one answer ready to each frame, the frame of any bytes, and the
memory is only busy as often as that was injected. -/

namespace FirmwareDownload

namespace Controller

/-- The controller takes frames, and nothing of an earlier one is left on the link. -/
structure Serving (c : Controller) : Prop where
  normalMode : c.normalMode = false
  silent : c.silent = false
  outbox : c.outbox = []
  pendingRead : c.pendingRead = none

/-- The answer waits until it is fetched. -/
def carrying (c : Controller) (raw : Bytes) : Controller := { c with outbox := [raw] }

def counting (c : Controller) : Controller := { c with frameCount := c.frameCount + 1 }

/-- The frame has this one answer, and the controller is `c'` once that is fetched. -/
structure Answers (c : Controller) (frame raw : Bytes) (c' : Controller) : Prop where
  receive : c.counting.receive frame = c'.carrying raw
  serving : c'.Serving

/-- Statuses that are injected and did not answer a frame yet. -/
def pending (c : Controller) : Nat := c.injected.length + c.writeFaults.length

/-- How the controller stands with its link. -/
def standing (c : Controller) : Bool × Bool × List Bytes × Option Ticket × Nat :=
  (c.normalMode, c.silent, c.outbox, c.pendingRead, c.frameCount)

/-- How far a write is. -/
def progress (c : Controller) : ChipIdentity × Bool × Nat × Option Bytes :=
  (c.identity, c.inBurst, c.recordCount, c.openRecord)

/-- An injected status is taken from the controller, and nothing else. -/
structure Draws (c : Controller) (status : Status) (c' : Controller) : Prop where
  standing : c'.standing = c.standing
  progress : c'.progress = c.progress
  pending : c'.pending + 1 = c.pending
  drawn : status ∈ c.injected ++ c.writeFaults
  rest : ∀ s ∈ c'.injected ++ c'.writeFaults, s ∈ c.injected ++ c.writeFaults

/-- One answer is made, and a busy memory is an injected status that is used up. -/
def Responds (c after : Controller) : Prop :=
  ∃ (status : Status) (payload : Bytes) (c' : Controller),
    after = c'.respond status payload ∧ payload.length ≤ 251 ∧ c'.standing = c.standing ∧
    c'.pending ≤ c.pending ∧
    (Status.ofByte status.toByte = .memBusy → c'.pending + 1 ≤ c.pending)

variable {c c' c'' : Controller} {f : Frame} {status : Status} {payload raw frame body : Bytes}

theorem Serving.congr (h : c.Serving) (he : c'.standing = c.standing) : c'.Serving := by
  simp only [standing, Prod.mk.injEq] at he
  exact ⟨he.1.trans h.normalMode, he.2.1.trans h.silent, he.2.2.1.trans h.outbox,
    he.2.2.2.1.trans h.pendingRead⟩

theorem Serving.counting (h : c.Serving) : c.counting.Serving :=
  ⟨h.normalMode, h.silent, h.outbox, h.pendingRead⟩

theorem Serving.abortRead (h : c.Serving) : Link.abortRead c = c := by
  show { c with pendingRead := none } = c
  rw [← h.pendingRead]

theorem Serving.setMode (h : c.Serving) : (Link.setMode c .download).Serving :=
  ⟨rfl, h.silent, rfl, h.pendingRead⟩

/-- What is done to the controller from outside, short of silencing it. -/
theorem Serving.apply (h : c.Serving) {control : ControllerControl}
    (hs : control ≠ .silent true) : (control.apply c).Serving := by
  cases control with
  | silent on =>
    cases on with
    | true => exact absurd rfl hs
    | false => exact ⟨h.normalMode, rfl, h.outbox, h.pendingRead⟩
  | _ => exact ⟨h.normalMode, h.silent, h.outbox, h.pendingRead⟩

theorem apply_carrying (c : Controller) (raw : Bytes) (control : ControllerControl) :
    control.apply (c.carrying raw) = (control.apply c).carrying raw := by
  cases control <;> rfl

/-! ## The link -/

theorem Answers.unique {raw' : Bytes} (h : c.Answers frame raw c')
    (h' : c.Answers frame raw' c'') : raw = raw' ∧ c' = c'' := by
  have he : c'.carrying raw = c''.carrying raw' := h.receive.symm.trans h'.receive
  have hd : ∀ {d : Controller} (x : Bytes), d.Serving → { d.carrying x with outbox := [] } = d := by
    intro d x hs
    rw [← hs.outbox]
    rfl
  refine ⟨(List.cons.inj (congrArg Controller.outbox he)).1, ?_⟩
  rw [← hd raw h.serving, ← hd raw' h'.serving, he]

theorem Answers.write (h : c.Answers frame raw c') (t : Ticket) :
    Link.write c frame t = ⟨.ok (), [.written t (.ok ())], c'.carrying raw⟩ := by
  have hr : ({ c with frameCount := c.frameCount + 1 } : Controller).receive frame =
    c'.carrying raw := h.receive
  have hp : (c'.carrying raw).pendingRead = none := h.serving.pendingRead
  simp only [Link.write, Controller.write, hr, deliver, hp]

theorem Serving.read (h : c.Serving) (raw : Bytes) (t : Ticket) :
    Link.read (c.carrying raw) t = ⟨.ok (), [.received t (.ok raw)], c⟩ := by
  have he : { c with outbox := [], pendingRead := none } = c := by
    rw [← h.outbox, ← h.pendingRead]
  have hp : (c.carrying raw).pendingRead = none := h.pendingRead
  simp only [Link.read, Controller.read, hp, deliver]
  exact congrArg (fun d => (⟨.ok (), [.received t (.ok raw)], d⟩ : Answer LinkError Controller)) he

theorem Serving.responds (h : c'.Serving) (hl : payload.length ≤ 251)
    (hr : c.counting.receive frame = c'.respond status payload) :
    c.Answers frame (Frame.wire ⟨status.toByte, payload, false⟩) c' := by
  refine ⟨?_, h⟩
  rw [hr, respond_eq c' status hl, h.outbox]
  rfl

/-! ## Frames -/

theorem Serving.receive_undecodable (h : c.Serving) {err : FrameError}
    (hd : Frame.decode raw = .error err) : c.receive raw = c.respond .protocolError [] := by
  simp [receive, h.silent, h.normalMode, hd]

theorem Serving.receive_open (h : c.Serving) (ho : c.openRecord = some body)
    (hd : Frame.decode raw = .ok f) : c.receive raw = c.continueRecord body f := by
  simp [receive, h.silent, h.normalMode, hd, ho]

theorem Serving.receive_closed (h : c.Serving) (ho : c.openRecord = none)
    (hd : Frame.decode raw = .ok f) : c.receive raw = c.answerFrame f := by
  simp [receive, h.silent, h.normalMode, hd, ho]

/-- With no record open, a status that was injected for a frame is the answer to it. -/
theorem Serving.receive_injected (h : c.Serving) (ho : c.openRecord = none)
    (hl : f.payload.length < 1023)
    (ht : (c.facing (f.code = RequestId.write)).takeInjected f.code = (some status, c')) :
    c.counting.receive f.wire =
      c'.answerInjected f.code (f.code = RequestId.write && !c.inBurst) status := by
  have hf : { c.counting with inBurst := decide (f.code = RequestId.write) } =
    c.facing (f.code = RequestId.write) := rfl
  rw [h.counting.receive_closed ho (Frame.decode_wire hl), answerFrame, hf, ht]
  rfl

theorem Serving.receive_request (h : c.Serving) (ho : c.openRecord = none)
    (hl : f.payload.length < 1023)
    (ht : (c.facing (f.code = RequestId.write)).takeInjected f.code = (none, c')) :
    c.counting.receive f.wire =
      c'.answerRequest (f.code = RequestId.write && !c.inBurst) f := by
  have hf : { c.counting with inBurst := decide (f.code = RequestId.write) } =
    c.facing (f.code = RequestId.write) := rfl
  rw [h.counting.receive_closed ho (Frame.decode_wire hl), answerFrame, hf, ht]
  rfl

/-- A frame for which nothing is injected, with no record open. -/
theorem Serving.receive_plain (h : c.Serving) (ho : c.openRecord = none)
    (hi : c.injected = []) (hw : f.code = RequestId.write → c.writeFaults = [])
    (hl : f.payload.length < 1023) : c.counting.receive f.wire =
      (c.facing (f.code = RequestId.write)).answerRequest
        (f.code = RequestId.write && !c.inBurst) f := by
  have ht : (c.facing (f.code = RequestId.write)).takeInjected f.code =
      (none, c.facing (f.code = RequestId.write)) := by
    have hi' : (c.facing (f.code = RequestId.write)).injected = [] := hi
    unfold takeInjected
    split
    · rename_i hc
      have hw' : (c.facing (f.code = RequestId.write)).writeFaults = [] := hw hc
      rw [hw', hi']
    · rw [hi']
      split <;> rfl
  exact h.receive_request ho hl ht

/-- The controller behind the last fragment of the record that was open. -/
def closed (c : Controller) : Controller :=
  { c.counting with openRecord := none, sessionOpen := false, recordCount := c.recordCount + 1 }

/-- The controller behind any other fragment of the record. -/
def continued (c : Controller) (body : Bytes) : Controller :=
  { c.counting with openRecord := some body }

/-- With a record open a frame is a fragment of it, whatever its code is. -/
theorem Serving.answers_last (h : c.Serving) (ho : c.openRecord = some body)
    (hi : c.injected = []) (hl : f.payload.length < 1023) (hm : f.more = false) :
    c.Answers f.wire (Frame.wire ⟨Status.ok.toByte, [], false⟩) c.closed := by
  refine Serving.responds ⟨h.normalMode, h.silent, h.outbox, h.pendingRead⟩ (Nat.zero_le _) ?_
  rw [h.counting.receive_open ho (Frame.decode_wire hl)]
  unfold continueRecord
  rw [hm]
  split
  · rename_i hc
    cases hi.symm.trans hc
  · rfl

theorem draws_injected {rest : List Status} (h : c.injected = status :: rest) :
    c.Draws status { c with injected := rest } := by
  refine ⟨rfl, rfl, by simp [pending, h]; omega, by simp [h], fun s hs => ?_⟩
  rw [h]
  exact List.mem_cons_of_mem _ hs

theorem draws_fault {rest : List Status} (h : c.writeFaults = status :: rest) :
    c.Draws status { c with writeFaults := rest } := by
  refine ⟨rfl, rfl, by simp [pending, h]; omega, by simp [h], fun s hs => ?_⟩
  rw [h]
  rcases List.mem_append.1 hs with hs | hs
  · exact List.mem_append_left _ hs
  · exact List.mem_append_right _ (List.mem_cons_of_mem _ hs)

theorem Responds.of_natural (hl : payload.length ≤ 251) (hs : c'.standing = c.standing)
    (hp : c'.pending = c.pending) (hb : Status.ofByte status.toByte ≠ .memBusy) :
    c.Responds (c'.respond status payload) :=
  ⟨status, payload, c', rfl, hl, hs, Nat.le_of_eq hp, fun he => absurd he hb⟩

theorem Responds.of_injected (hs : c'.standing = c.standing) (hp : c'.pending + 1 = c.pending) :
    c.Responds (c'.respond status []) :=
  ⟨status, [], c', rfl, Nat.zero_le _, hs, by omega, fun _ => Nat.le_of_eq hp⟩

theorem Responds.congr (h : c'.Responds c'') (hs : c'.standing = c.standing)
    (hp : c'.pending = c.pending) : c.Responds c'' := by
  obtain ⟨status, payload, c₁, he, hl, hs', hle, hb⟩ := h
  exact ⟨status, payload, c₁, he, hl, hs'.trans hs, hp ▸ hle, hp ▸ hb⟩

theorem commit_responds (hs : c'.standing = c.standing) (hp : c'.pending = c.pending) :
    c.Responds c'.commit :=
  .of_natural (Nat.zero_le _) hs hp (by decide)

theorem continueRecord_responds (c : Controller) (body : Bytes) (f : Frame) :
    c.Responds (c.continueRecord body f) := by
  unfold continueRecord
  split
  · rename_i status rest hi
    exact .of_injected rfl (draws_injected hi).pending
  · split
    · exact .of_natural (Nat.zero_le _) rfl rfl (by decide)
    · exact commit_responds rfl rfl

theorem answerRead_responds (c : Controller) (payload : Bytes) :
    c.Responds (c.answerRead payload) := by
  unfold answerRead
  split
  · dsimp only
    split
    · exact .of_natural (Nat.zero_le _) rfl rfl (by decide)
    · rename_i hn
      split
      · exact .of_natural (Nat.zero_le _) rfl rfl (by decide)
      · exact .of_natural (by simp [Memory.load]; omega) rfl rfl (by decide)
  · exact .of_natural (Nat.zero_le _) rfl rfl (by decide)

theorem startRecord_responds (c : Controller) (firstInBurst : Bool) (f : Frame) :
    c.Responds (c.startRecord firstInBurst f) := by
  unfold startRecord
  dsimp only
  split
  · exact .of_natural (Nat.zero_le _) rfl rfl (by decide)
  · exact commit_responds rfl rfl

theorem answerRequest_responds (c : Controller) (firstInBurst : Bool) (f : Frame) :
    c.Responds (c.answerRequest firstInBurst f) := by
  have hv := length_versionReport_le c.identity
  unfold answerRequest
  split_ifs
  · exact .of_natural (Nat.zero_le _) rfl rfl (by decide)
  · exact .of_natural (by omega) rfl rfl (by decide)
  · exact .of_natural (by simp [sessionReport]) rfl rfl (by decide)
  · exact .of_natural (by simp [integrityReport]) rfl rfl (by decide)
  · exact c.answerRead_responds f.payload
  · exact .of_natural (Nat.zero_le _) rfl rfl (by decide)
  · exact .of_natural (Nat.zero_le _) rfl rfl (by decide)
  · exact c.startRecord_responds firstInBurst f
  · exact .of_natural (Nat.zero_le _) rfl rfl (by decide)

theorem takeInjected_cases (c : Controller) (code : UInt8) : c.takeInjected code = (none, c) ∨
    ∃ status c', c.takeInjected code = (some status, c') ∧ c.Draws status c' := by
  unfold takeInjected
  split
  · split
    · exact .inr ⟨_, _, rfl, draws_fault ‹_›⟩
    · exact .inr ⟨_, _, rfl, draws_injected ‹_›⟩
    · exact .inl rfl
  · split
    · split
      · exact .inr ⟨_, _, rfl, draws_injected ‹_›⟩
      · exact .inl rfl
    · exact .inl rfl

theorem answerFrame_responds (c : Controller) (f : Frame) : c.Responds (c.answerFrame f) := by
  unfold answerFrame
  dsimp only
  rcases takeInjected_cases { c with inBurst := decide (f.code = RequestId.write) } f.code with
    he | ⟨status, c', he, hd⟩
  · rw [he]
    exact (answerRequest_responds _ _ f).congr rfl rfl
  · rw [he]
    dsimp only
    unfold answerInjected
    split <;> exact .of_injected hd.standing hd.pending

theorem Serving.receive_responds (h : c.Serving) (raw : Bytes) : c.Responds (c.receive raw) := by
  cases hd : Frame.decode raw with
  | error err =>
    rw [h.receive_undecodable hd]
    exact .of_natural (Nat.zero_le _) rfl rfl (by decide)
  | ok f =>
    cases ho : c.openRecord with
    | some body =>
      rw [h.receive_open ho hd]
      exact c.continueRecord_responds body f
    | none =>
      rw [h.receive_closed ho hd]
      exact c.answerFrame_responds f

/-- Whatever the bytes of a frame are, it has one answer, and that can be decoded. -/
theorem Serving.answers (h : c.Serving) (frame : Bytes) : ∃ raw answer c',
    c.Answers frame raw c' ∧ Frame.decode raw = .ok answer ∧
      c'.frameCount = c.frameCount + 1 ∧ c'.pending ≤ c.pending ∧
      (statusOf raw = some .memBusy → c'.pending + 1 ≤ c.pending) := by
  obtain ⟨status, payload, c', hr, hl, hs, hp, hb⟩ := h.counting.receive_responds frame
  have hs' := h.counting.congr hs
  have hd := Frame.decode_wire (f := ⟨status.toByte, payload, false⟩)
    (Nat.lt_of_le_of_lt hl (by decide))
  refine ⟨_, _, c', hs'.responds hl hr, hd, ?_, hp, fun hm => hb ?_⟩
  · simp only [standing, Prod.mk.injEq] at hs
    exact hs.2.2.2.2
  · rw [statusOf_of_decode hd] at hm
    exact Option.some.inj hm

theorem Serving.of_answers (h : c.Serving) (ha : c.Answers frame raw c') :
    (∃ answer, Frame.decode raw = .ok answer) ∧ c'.frameCount = c.frameCount + 1 ∧
      c'.pending ≤ c.pending ∧ (statusOf raw = some .memBusy → c'.pending + 1 ≤ c.pending) := by
  obtain ⟨raw', answer, c'', ha', hd, hf, hp, hb⟩ := h.answers frame
  obtain ⟨rfl, rfl⟩ := ha.unique ha'
  exact ⟨⟨answer, hd⟩, hf, hp, hb⟩

end Controller

end FirmwareDownload
