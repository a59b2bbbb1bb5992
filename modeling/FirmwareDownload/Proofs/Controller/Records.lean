import FirmwareDownload.Proofs.Controller.Answering
import FirmwareDownload.Proofs.Image.Slices

/-! A controller that takes an image. It acknowledges slice after slice, counts each record behind
its last one, and takes on the version that the first record of the burst carries. -/

namespace FirmwareDownload

namespace Controller

variable {c c' : Controller} {f : Frame} {body : Bytes} {i k : Nat}

/-- Nothing fails, and the record that is on its way goes on with the next frame. -/
structure Amid (c : Controller) : Prop extends c.Sound where
  openRecord : c.openRecord.isSome = true

/-- The identity behind the first frame of a record. -/
def renamed (c : Controller) (body : Bytes) : ChipIdentity :=
  match !c.inBurst, body with
  | true, _ :: _ :: minor :: major :: _ => { c.identity with minor := minor, major := major }
  | _, _ => c.identity

/-- The controller behind the first frame of a record of several. -/
def opened (c : Controller) (body : Bytes) : Controller :=
  { c.facing true with sessionOpen := true, identity := c.renamed body, openRecord := some body }

/-- The controller behind a record of one frame. -/
def taken (c : Controller) (body : Bytes) : Controller :=
  { c.facing true with
    sessionOpen := false, identity := c.renamed body, recordCount := c.recordCount + 1 }

/-- The controller took `k` slices of the record, before which it had these contents. -/
structure Past (c : Controller) (body : Bytes) (k : Nat) (id : ChipIdentity) (m : Memory)
    (n : Nat) : Prop where
  inBurst : c.inBurst = true
  amid : k < Record.sliceCount body → c.Amid ∧ c.contents = (id, m, n)
  ready : k = Record.sliceCount body → c.Ready ∧ c.contents = (id, m, n + 1)

/-! ## Slices -/

theorem exists_slice (h : i < Record.sliceCount body) : ∃ code payload,
    Record.slice body i = code :: payload ∧ payload.length < 1023 ∧ Record.sliceFrame body i =
      Frame.wire ⟨code, payload, decide (i + 1 < Record.sliceCount body)⟩ := by
  have hl := Record.length_slice body i
  cases hs : Record.slice body i with
  | nil => exact absurd hs (Record.slice_ne_nil (Record.lt_sliceCount.1 h))
  | cons code payload =>
    rw [hs, List.length_cons] at hl
    refine ⟨code, payload, rfl, by omega, ?_⟩
    rw [Record.sliceFrame, hs, Frame.wire]

theorem exists_first_slice (hb : Record.IsBody body) : ∃ payload,
    Record.slice body 0 = RequestId.write :: payload ∧ payload.length < 1023 ∧
      Record.sliceFrame body 0 =
        Frame.wire ⟨RequestId.write, payload, decide (1 < Record.sliceCount body)⟩ := by
  obtain ⟨code, payload, hs, hl, hf⟩ := exists_slice (Record.sliceCount_pos hb)
  obtain rfl : code = RequestId.write := by
    cases body with
    | nil => cases hb.1
    | cons b body =>
      cases hs
      exact Option.some.inj hb.1
  exact ⟨payload, hs, hl, hf⟩

theorem renamed_of_inBurst (hi : c.inBurst = true) (body : Bytes) :
    c.renamed body = c.identity := by
  simp [renamed, hi]

theorem renamed_slice (c : Controller) (body : Bytes) :
    c.renamed (Record.slice body 0) = c.renamed body := by
  unfold renamed Record.slice
  cases c.inBurst
  · match body with
    | [] => rfl
    | [_] => rfl
    | [_, _] => rfl
    | [_, _, _] => rfl
    | _ :: _ :: _ :: _ :: _ => rfl
  · rfl

theorem answerRequest_opens (c : Controller) (payload : Bytes) :
    (c.facing true).answerRequest (!c.inBurst) ⟨RequestId.write, payload, true⟩ =
      (c.opened (RequestId.write :: payload)).respond .firstChunkAck [] :=
  rfl

theorem answerRequest_takes (c : Controller) (payload : Bytes) :
    (c.facing true).answerRequest (!c.inBurst) ⟨RequestId.write, payload, false⟩ =
      (c.taken (RequestId.write :: payload)).respond .ok [] :=
  rfl

/-- The first slice of a record is its whole or opens it. -/
theorem Ready.takes_first (h : c.Ready) (hb : Record.IsBody body) :
    ∃ c', Replies c (Record.exchange body 0).1 (Record.exchange body 0).2 c' ∧
      c'.Past body 1 (c.renamed body) c.memory c.recordCount := by
  obtain ⟨payload, hs, hl, hf⟩ := exists_first_slice hb
  have hid := c.renamed_slice body
  rw [hs] at hid
  by_cases hm : 1 < Record.sliceCount body
  · have ha : Record.sliceAck body 0 = .firstChunkAck := by simp [Record.sliceAck, Nat.ne_of_lt hm]
    rw [decide_eq_true hm] at hf
    have hs : (c.opened (RequestId.write :: payload)).Sound := h.congr rfl
    have hr := h.responds (f := ⟨RequestId.write, payload, true⟩) hl (Nat.zero_le _)
      (c.answerRequest_opens payload) hs
    rw [Record.exchange, hf, ha]
    refine ⟨_, hr, rfl, fun _ => ⟨⟨hs, rfl⟩, ?_⟩, fun hk => by omega⟩
    rw [← hid]
    rfl
  · have hn := Record.sliceCount_pos hb
    have ha : Record.sliceAck body 0 = .ok := by
      simp [Record.sliceAck, show 1 = Record.sliceCount body by omega]
    rw [decide_eq_false hm] at hf
    have hs : (c.taken (RequestId.write :: payload)).Sound := h.congr rfl
    have hr := h.responds (f := ⟨RequestId.write, payload, false⟩) hl (Nat.zero_le _)
      (c.answerRequest_takes payload) hs
    rw [Record.exchange, hf, ha]
    refine ⟨_, hr, rfl, fun hk => by omega, fun _ => ⟨⟨hs, rfl, h.openRecord⟩, ?_⟩⟩
    rw [← hid]
    rfl

theorem Amid.receive (h : c.Amid) (hl : f.payload.length < 1023) : ∃ body,
    ({ c with frameCount := c.frameCount + 1 } : Controller).receive f.wire =
      if f.more then { c with frameCount := c.frameCount + 1, openRecord := some body }.respond
        .nextChunkAck []
      else { c with frameCount := c.frameCount + 1, openRecord := none }.commit := by
  have hd := Frame.decode_wire hl
  obtain ⟨⟨-, hi, -, hn, hs, -, -⟩, ho⟩ := h
  obtain ⟨body, ho⟩ := Option.isSome_iff_exists.1 ho
  refine ⟨body ++ f.code :: f.payload, ?_⟩
  cases c
  cases hi
  cases hn
  cases hs
  cases ho
  simp [Controller.receive, hd, continueRecord]

theorem Amid.takes_next {id : ChipIdentity} {m : Memory} {n : Nat}
    (h : c.Past body (i + 1) id m n) (hi : i + 1 < Record.sliceCount body) :
    ∃ c', Replies c (Record.exchange body (i + 1)).1 (Record.exchange body (i + 1)).2 c' ∧
      c'.Past body (i + 2) id m n := by
  obtain ⟨ha, hc⟩ := h.amid hi
  obtain ⟨code, payload, -, hl, hf⟩ := exists_slice hi
  by_cases hm : i + 2 < Record.sliceCount body
  · have hk : Record.sliceAck body (i + 1) = .nextChunkAck := by
      simp [Record.sliceAck, Nat.ne_of_lt hm]
    rw [decide_eq_true hm] at hf
    obtain ⟨body', hr⟩ := ha.receive (f := ⟨code, payload, true⟩) hl
    rw [Record.exchange, hf, hk]
    have hs : ({ c with frameCount := c.frameCount + 1, openRecord := some body' } :
      Controller).Sound := ha.congr rfl
    exact ⟨_, hs.replies (Nat.zero_le _) hr, h.inBurst, fun _ => ⟨⟨hs, rfl⟩, hc⟩,
      fun hk => by omega⟩
  · have hk : Record.sliceAck body (i + 1) = .ok := by
      simp [Record.sliceAck, show i + 1 + 1 = Record.sliceCount body by omega]
    rw [decide_eq_false hm] at hf
    obtain ⟨_, hr⟩ := ha.receive (f := ⟨code, payload, false⟩) hl
    rw [Record.exchange, hf, hk]
    have hs : ({ c with
      frameCount := c.frameCount + 1, openRecord := none, recordCount := c.recordCount + 1,
      sessionOpen := false } : Controller).Sound := ha.congr rfl
    refine ⟨_, hs.replies (Nat.zero_le _) hr, h.inBurst, fun hk => by omega,
      fun _ => ⟨⟨hs, rfl, rfl⟩, ?_⟩⟩
    simp only [contents, Prod.mk.injEq] at hc ⊢
    exact ⟨hc.1, hc.2.1, by omega⟩

theorem Ready.takes_slices (h : c.Ready) (hb : Record.IsBody body)
    (hk : k < Record.sliceCount body) :
    ∃ c', Converses c (Record.upTo Record.exchange [] body (k + 1)) c' ∧
      c'.Past body (k + 1) (c.renamed body) c.memory c.recordCount := by
  -- Only the first slice looks at the burst; what the others carry on is `Past`.
  induction k with
  | zero =>
    obtain ⟨c', hr, hp⟩ := h.takes_first hb
    refine ⟨c', ?_, hp⟩
    rw [Record.upTo_succ _ _ hk, Record.upTo_zero]
    exact .single hr
  | succ k ih =>
    obtain ⟨c₁, hc, hp₁⟩ := ih (by omega)
    obtain ⟨c', hr, hp⟩ := Amid.takes_next hp₁ hk
    refine ⟨c', ?_, hp⟩
    rw [Record.upTo_succ _ _ hk]
    exact hc.append (.single hr)

/-! ## Records -/

theorem Ready.takes_record (h : c.Ready) (hb : Record.IsBody body) :
    ∃ c', Converses c (Record.mapSlices Record.exchange body) c' ∧ c'.Ready ∧
      c'.inBurst = true ∧ c'.contents = (c.renamed body, c.memory, c.recordCount + 1) := by
  have hn := Record.sliceCount_pos hb
  have hk : Record.sliceCount body - 1 + 1 = Record.sliceCount body := by omega
  obtain ⟨c', hc, hp⟩ := h.takes_slices hb (k := Record.sliceCount body - 1) (by omega)
  rw [hk] at hc hp
  obtain ⟨hr, hcont⟩ := hp.ready rfl
  refine ⟨c', ?_, hr, hp.inBurst, hcont⟩
  simpa [Record.upTo_sliceCount] using hc

theorem Ready.takes_records (h : c.Ready) (hi : c.inBurst = true) {bodies : List Bytes}
    (hb : ∀ body ∈ bodies, Record.IsBody body) :
    ∃ c', Converses c (bodies.flatMap (Record.mapSlices Record.exchange)) c' ∧ c'.Ready ∧
      c'.inBurst = true ∧
      c'.contents = (c.identity, c.memory, c.recordCount + bodies.length) := by
  induction bodies generalizing c with
  | nil => exact ⟨c, .nil c, h, hi, rfl⟩
  | cons body bodies ih =>
    obtain ⟨c₁, hc₁, hr₁, hi₁, hcont₁⟩ := h.takes_record (hb body (List.mem_cons_self ..))
    obtain ⟨c', hc, hr, hi', hcont⟩ := ih hr₁ hi₁ fun b hm => hb b (List.mem_cons_of_mem _ hm)
    -- Within a burst a record brings no version.
    have hn := renamed_of_inBurst hi body
    simp only [contents, Prod.mk.injEq, hn] at hcont₁ hcont
    refine ⟨c', ?_, hr, hi', ?_⟩
    · rw [List.flatMap_cons]
      exact hc₁.append hc
    · simp only [contents, Prod.mk.injEq, List.length_cons]
      exact ⟨hcont.1.trans hcont₁.1, hcont.2.1.trans hcont₁.2.1, by omega⟩

theorem exists_version {image : Image} {post : List Bytes} (hr : image.records = body :: post)
    (hl : 4 ≤ body.length) : ∃ b₀ b₁ version rest,
      body = b₀ :: b₁ :: version.minor :: version.major :: rest ∧
        image.version? = some version := by
  obtain ⟨b₀, b₁, minor, major, rest, rfl⟩ : ∃ b₀ b₁ minor major rest,
      body = b₀ :: b₁ :: minor :: major :: rest := by
    match body, hl with
    | b₀ :: b₁ :: minor :: major :: rest, _ => exact ⟨b₀, b₁, minor, major, rest, rfl⟩
  have hd := image.data_eq
  rw [hr, List.flatMap_cons, Record.encode, bigEndian16] at hd
  refine ⟨b₀, b₁, ⟨major, minor⟩, rest, rfl, ?_⟩
  simp [Image.version?, hd]

theorem renamed_version {image : Image} {post : List Bytes} {version : FirmwareVersion}
    (hi : c.inBurst = false) (hr : image.records = body :: post)
    (hv : image.version? = some version) (hl : 4 ≤ body.length) :
    c.renamed body = { c.identity with major := version.major, minor := version.minor } := by
  obtain ⟨b₀, b₁, version', rest, rfl, he⟩ := exists_version hr hl
  cases he.symm.trans hv
  simp [renamed, hi]

/-- An image is taken record by record, and the first one brings the version. -/
theorem Ready.takes_image (h : c.Ready) (hi : c.inBurst = false) {image : Image}
    {version : FirmwareVersion} {post : List Bytes} (hr : image.records = body :: post)
    (hv : image.version? = some version) (hl : 4 ≤ body.length) :
    ∃ c', Converses c image.exchanges c' ∧ c'.Ready ∧ c'.inBurst = true ∧
      c'.contents = ({ c.identity with major := version.major, minor := version.minor },
        c.memory, c.recordCount + image.recordCount) := by
  have hb : ∀ b ∈ body :: post, Record.IsBody b := hr ▸ image.isBody
  obtain ⟨c₁, hc₁, hr₁, hi₁, hcont₁⟩ := h.takes_record (hb body (List.mem_cons_self ..))
  obtain ⟨c', hc, hready, hi', hcont⟩ :=
    hr₁.takes_records hi₁ fun b hm => hb b (List.mem_cons_of_mem _ hm)
  rw [renamed_version hi hr hv hl] at hcont₁
  simp only [contents, Prod.mk.injEq] at hcont₁ hcont
  refine ⟨c', ?_, hready, hi', ?_⟩
  · rw [Image.exchanges, hr, List.flatMap_cons]
    exact hc₁.append hc
  · simp only [contents, Prod.mk.injEq, Image.recordCount, hr, List.length_cons]
    exact ⟨hcont.1.trans hcont₁.1, hcont.2.1.trans hcont₁.2.1, by omega⟩

end Controller

end FirmwareDownload
