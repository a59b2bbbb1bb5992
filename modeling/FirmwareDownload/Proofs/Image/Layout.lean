import FirmwareDownload.Proofs.Image.Grammar

/-! Images laid out from record bodies. The header of a record has sixteen bits for the length of
its body: bodies that fit are read back as they were given, and a longer one never is. -/

namespace FirmwareDownload

namespace Record

variable {body rest : Bytes} {bodies records : List Bytes}

/-- Where a body was laid out that fits its header, no other one can be read. -/
theorem Opens.eq_of_encode {body' rest' : Bytes}
    (h : Opens (Record.encode body ++ rest) body' rest') (hl : body.length ≤ 65535) :
    body' = body ∧ rest' = rest := by
  obtain ⟨hi, lo, he, hlen, -⟩ := h
  simp only [Record.encode, bigEndian16, List.cons_append, List.nil_append, List.cons.injEq] at he
  obtain ⟨rfl, rfl, he⟩ := he
  rw [← toNat_word, word_highByte_lowByte, Nat.toUInt16_eq,
    UInt16.toNat_ofNat_of_lt' (show body.length < 2 ^ 16 by omega)] at hlen
  obtain ⟨rfl, rfl⟩ := List.append_inj he hlen.symm
  exact ⟨rfl, rfl⟩

theorem Laid.eq_of_encode (h : Laid (bodies.flatMap encode) records)
    (hl : ∀ body ∈ bodies, body.length ≤ 65535) : records = bodies := by
  induction bodies generalizing records with
  | nil => exact h.unique .nil
  | cons body bodies ih =>
    obtain ⟨hb, hbs⟩ := List.forall_mem_cons.1 hl
    rw [List.flatMap_cons] at h
    cases h with
    | cons ho hr =>
      obtain ⟨rfl, rfl⟩ := Opens.eq_of_encode ho hb
      rw [ih hr hbs]

/-- The header of a body that is 65536 bytes too long gives the length of its front. -/
theorem opens_oversized (h : IsBody body) (hr : rest.length = 65536) :
    Opens (encode (body ++ rest)) body rest := by
  have hlen : (body ++ rest).length.toUInt16 = body.length.toUInt16 := by
    rw [List.length_append, hr, Nat.toUInt16_eq, UInt16.ofNat_add]
    exact UInt16.add_zero _
  have he : encode (body ++ rest) = encode body ++ rest := by
    rw [encode, hlen, encode, List.append_assoc]
  exact he ▸ opens_encode h rest

end Record

namespace Image

open Record

theorem ofRecords_laid {image : Image} {bodies : List Bytes} (h : ofRecords bodies = .ok image) :
    Laid (bodies.flatMap encode) image.bodies ∧ image.recordCount = image.bodies.length := by
  obtain ⟨hiff, hread, -⟩ := ofBytes_exact (bodies.flatMap encode)
  obtain ⟨-, records, hl⟩ := hiff.1 ⟨image, h⟩
  obtain ⟨-, -, hb, hc, -⟩ := hread image h records hl
  rw [hb]
  exact ⟨hl, hc⟩

/-- Bodies that fit their headers are read back just as they were laid out, and they are an image if
there are any and each opens with the write identifier. What is read of bodies that do not all fit
is never what was laid out. -/
theorem laid_out_unless_oversized (bodies : List Bytes) :
    (bodies ≠ [] → (∀ body ∈ bodies,
        1 ≤ body.length ∧ body.length ≤ 65535 ∧ body.head? = some writeId) →
      ∃ image, ofRecords bodies = .ok image) ∧
    ∀ image, ofRecords bodies = .ok image →
      ((image.bodies = bodies ∧ image.recordCount = bodies.length) ↔
        ∀ body ∈ bodies, body.length ≤ 65535) := by
  constructor
  · intro hn hb
    have hlaid : Laid (bodies.flatMap encode) bodies :=
      laid_iff.2 ⟨rfl, fun body hm => ⟨(hb body hm).2.2, by have := (hb body hm).2.1; omega⟩⟩
    obtain ⟨body, hm⟩ := List.exists_mem_of_ne_nil bodies hn
    have hd : bodies.flatMap encode ≠ [] := by
      intro hd
      cases List.flatMap_eq_nil_iff.1 hd body hm
    exact (ofBytes_exact _).1.2 ⟨hd, bodies, hlaid⟩
  · intro image hi
    obtain ⟨hl, hc⟩ := ofRecords_laid hi
    constructor
    · rintro ⟨hb, -⟩ body hm
      have hbody := (laid_iff.1 hl).2 body (hb ▸ hm)
      exact Nat.le_of_lt_succ hbody.2
    · intro hfit
      have hb := hl.eq_of_encode hfit
      exact ⟨hb, hc.trans (congrArg List.length hb)⟩

/-- With its header this body takes 65536 bytes. -/
def fittingBody : Bytes := [0xC0] ++ List.replicate 65533 0

/-- A body of one byte and a whole record behind it, 65537 bytes in all. -/
def oversizedBody : Bytes := [0xC0] ++ encode fittingBody

/-- Laid out as one body they are read as two. -/
theorem oversized_body_split :
    ∃ image, ofRecords [oversizedBody] = .ok image ∧
      image.bodies = [[0xC0], fittingBody] ∧ image.recordCount = 2 ∧
      ¬ (image.bodies = [oversizedBody] ∧ image.recordCount = 1) := by
  have hfit : fittingBody.length = 65534 := by
    rw [fittingBody, List.length_append, List.length_replicate, List.length_singleton]
  have hlen : (encode fittingBody).length = 65536 := by
    rw [encode, List.length_append, hfit]
    rfl
  have hlong : oversizedBody.length = 65537 := by
    rw [oversizedBody, List.length_append, hlen, List.length_singleton]
  have hbody : IsBody fittingBody := ⟨rfl, by omega⟩
  have hrest : Laid (encode fittingBody) [fittingBody] :=
    laid_iff.2 ⟨List.append_nil _, by simpa using hbody⟩
  have hlaid : Laid ([oversizedBody].flatMap encode) [[0xC0], fittingBody] := by
    rw [List.flatMap_cons, List.flatMap_nil, List.append_nil]
    exact .cons (opens_oversized (by decide) hlen) hrest
  obtain ⟨image, hi⟩ := (ofBytes_exact _).1.2 ⟨by simp [encode, bigEndian16], _, hlaid⟩
  obtain ⟨hl, hc⟩ := ofRecords_laid hi
  have hb := hl.unique hlaid
  refine ⟨image, hi, hb, hc.trans (congrArg List.length hb), fun hfaithful => ?_⟩
  have := ((laid_out_unless_oversized [oversizedBody]).2 image hi).1 hfaithful oversizedBody
    (List.mem_singleton_self _)
  omega

end Image

end FirmwareDownload
