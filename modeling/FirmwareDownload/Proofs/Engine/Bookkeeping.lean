import FirmwareDownload.Proofs.Engine.Errors

/-! What is left of a transfer and what is behind it. An answer that is refused moves neither, and
one that is taken moves both by the same number of bytes, which never is more than what is left. -/

namespace FirmwareDownload

namespace Transfer

/-- Taking the status takes nothing off a number that is smaller. -/
def CoversWrite (t : Transfer) : Status → Prop
  | .ok => t.segmented = false →
    (t.inRecord = true → t.frameLength ≤ t.remainingChunk) ∧ t.frameLength ≤ t.remaining
  | .firstChunkAck => t.segmented = true → t.inRecord = false →
    t.frameLength ≤ t.remainingChunk ∧ t.frameLength + 2 ≤ t.remaining
  | .nextChunkAck => t.segmented = true → t.inRecord = true →
    t.frameLength ≤ t.remainingChunk ∧ t.frameLength ≤ t.remaining
  | _ => True

def CoversRead (t : Transfer) : Prop := t.frameLength ≤ t.remaining

section

variable {t t' : Transfer} {data : Array UInt8} {pre post : List Bytes} {body : Bytes} {i : Nat}

/-! ## Refused answers -/

theorem acceptWrite_refused {status : Status} {err : DownloadError}
    (h : t.acceptWrite status = (.error err, t')) :
    t' = if status = .firmwareVersionError then { t with remaining := 0, offset := 0 } else t := by
  unfold acceptWrite at h
  cases status with
  | ok | firstChunkAck | nextChunkAck =>
    dsimp only at h
    split at h <;> cases h
    rfl
  | _ =>
    cases h
    rfl

theorem acceptRead_refused {answer : Frame} {response response' : ResponseBuffer}
    {err : DownloadError} (h : t.acceptRead answer response = (.error err, t', response')) :
    t' = t ∧ response' = response := by
  unfold acceptRead at h
  dsimp only at h
  split_ifs at h
  · cases h
    exact ⟨rfl, rfl⟩
  · cases h
    exact ⟨rfl, rfl⟩
  · cases h
    exact ⟨rfl, rfl⟩
  · split at h <;> cases h
    exact ⟨rfl, rfl⟩

/-! ## Slices of a write -/

theorem InFlight.coversWrite (h : t.InFlight data.size pre body i)
    (hd : data.toList = (pre ++ body :: post).flatMap Record.encode) (status : Status) :
    t.CoversWrite status := by
  have hs := size_eq hd
  have hn : t.frameLength ≤ t.remaining ∧ (t.inRecord = true → t.frameLength ≤ t.remainingChunk) ∧
      (t.segmented = true →
        t.frameLength ≤ t.remainingChunk ∧
          (t.inRecord = false → t.frameLength + 2 ≤ t.remaining)) := by
    rcases h with ⟨-, h⟩ | h
    · rw [h.frameLength, h.remaining, h.segmented, h.inRecord]
      exact ⟨by omega, nofun, nofun⟩
    · have hl := h.large
      have hm := h.more
      rw [h.frameLength, h.remaining, h.inRecord, h.remainingChunk]
      by_cases hi : i = 0
      · rw [if_pos hi]
        exact ⟨by omega, fun _ => by omega, fun _ => ⟨by omega, fun _ => by omega⟩⟩
      · rw [if_neg hi, decide_eq_true (by omega)]
        exact ⟨by omega, fun _ => by omega, fun _ => ⟨by omega, nofun⟩⟩
  obtain ⟨hr, hc, hf⟩ := hn
  cases status with
  | ok => exact fun _ => ⟨hc, hr⟩
  | firstChunkAck => exact fun hs hi => ⟨(hf hs).1, (hf hs).2 hi⟩
  | nextChunkAck => exact fun hs _ => ⟨(hf hs).1, hr⟩
  | _ => trivial

theorem Behind.remaining_add_offset (h : t.Behind data.size pre body i)
    (hd : data.toList = (pre ++ body :: post).flatMap Record.encode) :
    t.remaining + t.offset = data.size := by
  have hs := size_eq hd
  have ht := startOf_concat pre body
  rcases h with ⟨-, h, -⟩ | ⟨-, h⟩
  · rcases h.place with ⟨-, hp⟩ | ⟨-, ho, hr⟩
    · exact absurd hp (List.append_ne_nil_of_right_ne_nil _ (List.cons_ne_nil _ _))
    · rw [ho, hr]
      omega
  · have hm := h.more
    rw [h.offset, h.remaining]
    omega

theorem Behind.remaining_lt (h : t'.Behind data.size pre body i)
    (hf : t.InFlight data.size pre body i)
    (hd : data.toList = (pre ++ body :: post).flatMap Record.encode) :
    t'.remaining < t.remaining := by
  have hs := size_eq hd
  have ht := startOf_concat pre body
  have hl := hf.lt_sliceCount
  rw [Record.lt_sliceCount] at hl
  -- The slice in flight starts in front of the end of its record, and what is behind it later.
  have hb : startOf pre + (if i = 0 then 0 else 2 + 252 * i) + t.remaining = data.size := by
    rcases hf with ⟨hi, hf⟩ | hf
    · rw [if_pos hi, hf.remaining]
      omega
    · rw [hf.remaining]
      split <;> omega
  rcases h with ⟨-, -, hr⟩ | ⟨-, h⟩
  · rw [hr, ht]
    split at hb <;> omega
  · have hm := h.more
    rw [h.remaining]
    split at hb <;> omega

/-! ## Pieces of a read -/

theorem Asks.coversRead {g : ReadRange} (h : t.Asks g i) : t.CoversRead := by
  rw [CoversRead, h.frameLength, h.remaining]
  exact Nat.min_le_right ..

theorem Faces.remaining_add_offset {g : ReadRange} (h : t.Faces g i) :
    t.remaining + t.offset = g.length := by
  rw [h.remaining, h.offset]
  omega

theorem Faces.remaining_lt {g : ReadRange} (h : t'.Faces g (i + 1)) (ha : t.Asks g i) :
    t'.remaining < t.remaining := by
  have hlt := ReadRange.lt_pieceCount.1 ha.lt
  rw [h.remaining, ha.remaining]
  rw [maxRead] at hlt ⊢
  omega

end

end Transfer

/-! ## Sessions -/

namespace Session

/-- Whatever answers the frame in flight: where the session goes on, less is left of it and the
next frame can be built, and behind an answer that was taken nothing of `total` is lost. -/
structure Balances (s : Session) (total : Nat) : Prop where
  fewer {raw : Bytes} {s' : Session} : s.answering.handleAnswer raw = (.proceed, s') →
    s'.transfer.remaining < s.transfer.remaining ∧
      ∃ s'', { s' with phase := .send }.compose = (.ok (), s'')
  whole {raw : Bytes} {verdict : Verdict} {s' : Session} :
    s.answering.handleAnswer raw = (verdict, s') → verdict = .proceed ∨ verdict = .done →
    s'.transfer.remaining + s'.transfer.offset = total

variable {s s' : Session} {raw : Bytes} {verdict : Verdict}

theorem Loaded.balances {n total : Nat} (h : s.Loaded n)
    (ha : ∀ raw verdict s', s.answering.handleAnswer raw = (verdict, s') →
      verdict = .proceed ∨ verdict = .done →
      s'.transfer.remaining < s.transfer.remaining ∧
        s'.transfer.remaining + s'.transfer.offset = total) : s.Balances total := by
  refine ⟨fun hp => ?_, fun hv hd => (ha _ _ _ hv hd).2⟩
  obtain ⟨s₂, _, hc, -⟩ := h.proceeds hp
  exact ⟨(ha _ _ _ hp (.inl rfl)).1, s₂, hc⟩

theorem not_taken {s₁ : Session} {v : Verdict} (he : s.handleAnswer raw = (v, s₁))
    (ha : s.handleAnswer raw = (verdict, s')) (hn : v ≠ .proceed ∧ v ≠ .done) :
    ¬ (verdict = .proceed ∨ verdict = .done) := by
  obtain ⟨rfl, -⟩ := Prod.mk.inj (ha.symm.trans he)
  exact fun hv => hv.elim hn.1 hn.2

theorem Writing.moves {image : Image} {pre post : List Bytes} {body : Bytes} {i : Nat}
    (h : s.Writing image pre body post i) (hc : s.command = some .write)
    (ha : s.handleAnswer raw = (verdict, s')) (hv : verdict = .proceed ∨ verdict = .done) :
    s'.transfer.remaining < s.transfer.remaining ∧
      s'.transfer.remaining + s'.transfer.offset = image.data.length := by
  have hd : image.data.toArray.toList = (pre ++ body :: post).flatMap Record.encode :=
    h.records ▸ image.data_eq
  by_cases hk : statusOf raw = some (Record.sliceAck body i)
  · obtain ⟨t, he, ht⟩ := h.handleAnswer_ack hc hk
    obtain ⟨-, rfl⟩ := Prod.mk.inj (ha.symm.trans he)
    exact ⟨ht.remaining_lt h.transfer hd, ht.remaining_add_offset hd⟩
  · by_cases hb : statusOf raw = some .memBusy
    · exact absurd hv (not_taken (handleAnswer_memBusy hc rfl hb) ha ⟨nofun, nofun⟩)
    · obtain ⟨err, _, he, -⟩ := h.handleAnswer_refused hc hb hk
      exact absurd hv (not_taken he ha ⟨nofun, nofun⟩)

theorem Reading.moves {g : ReadRange} {pieces : List Bytes} (h : s.Reading g pieces)
    (hc : s.command = some .read) (ha : s.handleAnswer raw = (verdict, s'))
    (hv : verdict = .proceed ∨ verdict = .done) :
    s'.transfer.remaining < s.transfer.remaining ∧
      s'.transfer.remaining + s'.transfer.offset = g.length := by
  cases hp : g.piece? pieces.length raw with
  | some data =>
    obtain ⟨s₁, he, -, -, hf⟩ := h.handleAnswer_piece hc hp
    obtain ⟨-, rfl⟩ := Prod.mk.inj (ha.symm.trans he)
    exact ⟨hf.remaining_lt h.transfer, hf.remaining_add_offset⟩
  | none =>
    by_cases hb : statusOf raw = some .memBusy
    · exact absurd hv (not_taken (handleAnswer_memBusy hc rfl hb) ha ⟨nofun, nofun⟩)
    · obtain ⟨err, _, he, -⟩ := h.handleAnswer_refused hc hb hp
      exact absurd hv (not_taken he ha ⟨nofun, nofun⟩)

theorem Writing.balances {image : Image} {pre post : List Bytes} {body : Bytes} {i : Nat}
    (h : s.Writing image pre body post i) (hc : s.command = some .write) :
    s.Balances image.data.length :=
  (Loaded.writes hc h).balances fun _ _ _ ha hv =>
    (h.congr (outgoing_of_cargo s.cargo_answering)).moves hc ha hv

theorem Reading.balances {g : ReadRange} {pieces : List Bytes} (h : s.Reading g pieces)
    (hc : s.command = some .read) : s.Balances g.length :=
  (Loaded.reads hc h).balances fun _ _ _ ha hv => (h.congr s.cargo_answering).moves hc ha hv

end Session

namespace Engine

variable {W : Type} [Host W]

/-- An answer that is refused leaves the transfer and the response buffer alone, but for one that
tells of the version, which clears what is left and what is behind. While a write or a read is in
flight, each answer that makes it go on leaves less to transfer, what is left and what is behind add
up to the length of the image or of the buffer behind each answer that is taken, and no number is
ever made smaller by more than itself. -/
theorem refused_answer_moves_nothing (config : Config) (library : ImageLibrary) (w : W)
    (moves : List (Move W)) :
    let e := (fresh config library w).run moves
    (∀ (t t' : Transfer) (status : Status) (err : DownloadError),
      t.acceptWrite status = (.error err, t') →
      t' = if status = .firmwareVersionError then { t with remaining := 0, offset := 0 }
        else t) ∧
    (∀ (t t' : Transfer) (answer : Frame) (response response' : ResponseBuffer)
      (err : DownloadError), t.acceptRead answer response = (.error err, t', response') →
      t' = t ∧ response' = response) ∧
    (e.session.command = some .write → ∃ image : Image,
      e.session.userData = some image.data.toArray ∧
      (∀ status, e.session.transfer.CoversWrite status) ∧
      e.session.Balances image.data.length) ∧
    (e.session.command = some .read → e.session.transfer.CoversRead ∧
      e.session.Balances e.session.response.capacity) := by
  have hi₀ : (fresh config library w).session.Idle := rfl
  obtain ⟨hf, -⟩ := (furnished_idle hi₀).run (standing_fresh config library w)
    (recollects_idle hi₀) moves
  dsimp only
  generalize (fresh config library w).run moves = e at hf
  refine ⟨fun t t' _ _ h => Transfer.acceptWrite_refused h,
    fun t t' _ _ _ _ h => Transfer.acceptRead_refused h, fun hc => ?_, fun hc => ?_⟩
  · obtain ⟨n, hn⟩ := (hf .write hc).loaded_of_command hc
    cases hn with
    | asks hc' _ hw => exact absurd (Option.some.inj (hc'.symm.trans hc)) hw
    | reads hc' => cases hc'.symm.trans hc
    | @writes image pre post body i _ hw =>
      have hd : image.data.toArray.toList = (pre ++ body :: post).flatMap Record.encode :=
        hw.records ▸ image.data_eq
      exact ⟨image, hw.userData, hw.transfer.coversWrite hd, hw.balances hc⟩
  · obtain ⟨n, hn⟩ := (hf .read hc).loaded_of_command hc
    cases hn with
    | asks hc' hr => exact absurd (Option.some.inj (hc'.symm.trans hc)) hr
    | writes hc' => cases hc'.symm.trans hc
    | reads _ hr => exact ⟨hr.transfer.coversRead, hr.capacity ▸ hr.balances hc⟩

/-- While the only frame of a write is in flight, its three bytes are accounted for. -/
theorem refused_answer_moves_nothing_unlocked :
    let e := (fresh {} (ImageLibrary.ofList []) unlocked).run unlockedMoves
    e.session.command = some .write ∧ (∀ status, e.session.transfer.CoversWrite status) ∧
      e.session.Balances 3 := by
  obtain ⟨hc, hu⟩ : let e := (fresh {} (ImageLibrary.ofList []) unlocked).run unlockedMoves
      e.session.command = some .write ∧ e.session.userData = some #[0, 1, 0xC0] := by
    decide +kernel
  obtain ⟨-, -, hw, -⟩ :=
    refused_answer_moves_nothing {} (ImageLibrary.ofList []) unlocked unlockedMoves
  obtain ⟨image, hi, hcov, hb⟩ := hw hc
  have hl : image.data.length = 3 :=
    congrArg Array.size (Option.some.inj (hi.symm.trans hu))
  exact ⟨hc, hcov, hl ▸ hb⟩

end Engine

end FirmwareDownload
