import FirmwareDownload.Image

/-! The grammar of images: records in a row, each a big-endian length of two bytes and a body of
that many bytes that opens with the write identifier. Reading accepts just that, splits it in the
one way there is, and otherwise names the first record that is not well formed. -/

namespace FirmwareDownload

namespace Record

variable {data rest front body : Bytes} {bodies : List Bytes} {offset : Nat} {err : ImageError}

/-- A record with this body stands at the front of `data`, and `rest` behind it. -/
def Opens (data body rest : Bytes) : Prop :=
  ∃ hi lo, data = hi :: lo :: (body ++ rest) ∧ body.length = 256 * hi.toNat + lo.toNat ∧
    body.head? = some writeId

/-- The bytes are records in a row, with these bodies. -/
inductive Laid : Bytes → List Bytes → Prop
  | nil : Laid [] []
  | cons {data body rest : Bytes} {bodies : List Bytes} : Opens data body rest →
    Laid rest bodies → Laid data (body :: bodies)

/-- What is wrong with the record at the front of the bytes, which start at `offset`: of the tests
of its header, its length, its body and its identifier the first that fails. -/
inductive Malformed (offset : Nat) : Bytes → ImageError → Prop
  | header (b : UInt8) : Malformed offset [b] (.truncated offset 2 1)
  | length (rest : Bytes) : Malformed offset (0 :: 0 :: rest) (.emptyRecord offset)
  | body {hi lo : UInt8} {rest : Bytes} : rest.length < 256 * hi.toNat + lo.toNat →
    Malformed offset (hi :: lo :: rest)
      (.truncated offset (2 + (256 * hi.toNat + lo.toNat)) (2 + rest.length))
  | identifier {hi lo id : UInt8} {rest : Bytes} : 0 < 256 * hi.toNat + lo.toNat →
    256 * hi.toNat + lo.toNat ≤ rest.length + 1 → id ≠ writeId →
    Malformed offset (hi :: lo :: id :: rest) (.badRecordId offset id)

/-! ## One record -/

theorem Opens.isBody (h : Opens data body rest) : IsBody body := by
  obtain ⟨hi, lo, -, hl, hid⟩ := h
  have hhi : hi.toNat < 256 := hi.toNat_lt
  have hlo : lo.toNat < 256 := lo.toNat_lt
  exact ⟨hid, by omega⟩

theorem Opens.encode (h : Opens data body rest) : data = encode body ++ rest := by
  obtain ⟨hi, lo, rfl, hl, -⟩ := h
  have hw : body.length.toUInt16 = word hi lo := by
    rw [hl, ← toNat_word, Nat.toUInt16_eq, UInt16.ofNat_toNat]
  simp [Record.encode, hw, bigEndian16, highByte_word, lowByte_word]

theorem opens_encode (h : IsBody body) (rest : Bytes) : Opens (encode body ++ rest) body rest := by
  refine ⟨highByte body.length.toUInt16, lowByte body.length.toUInt16, rfl, ?_, h.1⟩
  rw [← toNat_word, word_highByte_lowByte]
  exact (UInt16.toNat_ofNat_of_lt' h.2).symm

theorem split_of_opens (h : Opens data body rest) (offset : Nat) :
    split offset data = .ok (body, rest) := by
  obtain ⟨hi, lo, rfl, hl, hid⟩ := h
  have hn : (word hi lo).toNat = body.length := by rw [toNat_word, hl]
  have hpos : body.length ≠ 0 := by
    intro h0
    rw [List.eq_nil_of_length_eq_zero h0] at hid
    cases hid
  simp [split, hn, hpos, hid]

theorem split_of_malformed (h : Malformed offset data err) : split offset data = .error err := by
  cases h with
  | header b => rfl
  | length rest => rfl
  | @body hi lo rest hl =>
    have hpos : 256 * hi.toNat + lo.toNat ≠ 0 := by omega
    simp only [split, toNat_word]
    rw [if_neg hpos, if_pos]
    simp only [List.length_take]
    omega
  | @identifier hi lo id rest hpos hl hid =>
    have hne : 256 * hi.toNat + lo.toNat ≠ 0 := by omega
    obtain ⟨n, hn⟩ := Nat.exists_eq_succ_of_ne_zero hne
    simp only [split, toNat_word, hn, List.take_succ_cons, List.headD_cons]
    rw [if_neg (Nat.succ_ne_zero n), if_neg, if_pos hid]
    simp only [List.length_cons, List.length_take]
    omega

/-- Bytes that are there open with a record, or with something that is wrong in one way. -/
theorem opens_or_malformed (hd : data ≠ []) (offset : Nat) :
    (∃ body rest, Opens data body rest) ∨ ∃ err, Malformed offset data err := by
  match data, hd with
  | [b], _ => exact .inr ⟨_, .header b⟩
  | hi :: lo :: tail, _ =>
    by_cases h0 : 256 * hi.toNat + lo.toNat = 0
    · have hhi : hi = 0 := UInt8.toNat_inj.1 (by simp; omega)
      have hlo : lo = 0 := UInt8.toNat_inj.1 (by simp; omega)
      subst hhi hlo
      exact .inr ⟨_, .length tail⟩
    · by_cases hl : tail.length < 256 * hi.toNat + lo.toNat
      · exact .inr ⟨_, .body hl⟩
      · cases tail with
        | nil =>
          simp only [List.length_nil] at hl
          omega
        | cons id tail =>
          simp only [List.length_cons] at hl
          by_cases hid : id = writeId
          · obtain ⟨n, hn⟩ := Nat.exists_eq_succ_of_ne_zero h0
            refine .inl ⟨id :: tail.take n, tail.drop n, hi, lo, ?_, ?_, by simp [hid]⟩
            · simp [List.take_append_drop]
            · simp only [List.length_cons, List.length_take]
              omega
          · exact .inr ⟨_, .identifier (by omega) (by omega) hid⟩

theorem Malformed.ne_nil (h : Malformed offset data err) : data ≠ [] := by
  cases h <;> exact List.cons_ne_nil _ _

/-- At most one of the two, and in one way. -/
theorem Malformed.not_opens (h : Malformed offset data err) : ¬ Opens data body rest := by
  intro ho
  cases (split_of_opens ho offset).symm.trans (split_of_malformed h)

/-! ## Records in a row -/

/-- Records in a row are the records of their bodies, one behind the other. -/
theorem laid_iff : Laid data bodies ↔
    bodies.flatMap encode = data ∧ ∀ body ∈ bodies, IsBody body := by
  constructor
  · intro h
    induction h with
    | nil => exact ⟨rfl, nofun⟩
    | cons ho _ ih =>
      rw [List.flatMap_cons, ih.1, ho.encode]
      exact ⟨rfl, List.forall_mem_cons.2 ⟨ho.isBody, ih.2⟩⟩
  · rintro ⟨rfl, h⟩
    induction bodies with
    | nil => exact .nil
    | cons body bodies ih =>
      obtain ⟨hb, h⟩ := List.forall_mem_cons.1 h
      exact .cons (opens_encode hb _) (ih h)

/-- There is one way to read records in a row. -/
theorem Laid.unique {bodies' : List Bytes} (h : Laid data bodies) (h' : Laid data bodies') :
    bodies = bodies' := by
  induction h generalizing bodies' with
  | nil =>
    cases h' with
    | nil => rfl
    | cons ho =>
      obtain ⟨hi, lo, hd, -⟩ := ho
      cases hd
  | cons ho _ ih =>
    cases h' with
    | nil =>
      obtain ⟨hi, lo, hd, -⟩ := ho
      cases hd
    | cons ho' hl' =>
      have hs := (split_of_opens ho 0).symm.trans (split_of_opens ho' 0)
      simp only [Except.ok.injEq, Prod.mk.injEq] at hs
      obtain ⟨rfl, rfl⟩ := hs
      rw [ih hl']

/-- Reading takes one unit of its budget for each record, and a record has more than one byte. -/
theorem Opens.length_lt (h : Opens data body rest) : rest.length < data.length := by
  obtain ⟨hi, lo, rfl, -⟩ := h
  simp only [List.length_cons, List.length_append]
  omega

theorem splitAll_of_laid {n : Nat} (h : Laid data bodies) (hn : data.length ≤ n) (offset : Nat) :
    splitAll n offset data = .ok bodies := by
  induction h generalizing n offset with
  | nil => simp [splitAll]
  | @cons data body rest bodies ho _ ih =>
    have hlt := ho.length_lt
    cases n with
    | zero => omega
    | succ n =>
      cases data with
      | nil => cases hlt
      | cons b data => simp [splitAll, split_of_opens ho, ih (n := n) (by omega) _]

theorem splitAll_of_malformed {n : Nat} (hl : Laid front bodies)
    (h : Malformed (offset + front.length) rest err) (hn : (front ++ rest).length ≤ n) :
    splitAll n offset (front ++ rest) = .error err := by
  induction hl generalizing n offset with
  | nil =>
    cases n with
    | zero => simp [h.ne_nil] at hn
    | succ n =>
      cases rest with
      | nil => exact absurd rfl h.ne_nil
      | cons b rest => simp [splitAll, split_of_malformed (show Malformed offset _ _ from h)]
  | @cons data body more bodies ho _ ih =>
    have hlt := ho.length_lt
    have hlen : data.length = 2 + body.length + more.length := by
      obtain ⟨hi, lo, rfl, -⟩ := ho
      simp only [List.length_cons, List.length_append]
      omega
    have ho' : Opens (data ++ rest) body (more ++ rest) := by
      obtain ⟨hi, lo, rfl, ho⟩ := ho
      exact ⟨hi, lo, by simp, ho⟩
    have hm : Malformed (offset + 2 + body.length + more.length) rest err := by
      rw [show offset + 2 + body.length + more.length = offset + data.length by omega]
      exact h
    cases n with
    | zero =>
      simp only [List.length_append] at hn
      omega
    | succ n =>
      have hs := ih hm (n := n) (by simp only [List.length_append] at hn ⊢; omega)
      cases data with
      | nil => cases hlt
      | cons b data =>
        rw [List.cons_append] at ho' ⊢
        simp [splitAll, split_of_opens ho', hs]

/-- All bytes are records in a row, up to one that is not well formed. -/
theorem laid_or_malformed (offset : Nat) (data : Bytes) : (∃ bodies, Laid data bodies) ∨
    ∃ bodies front rest err, data = front ++ rest ∧ Laid front bodies ∧
      Malformed (offset + front.length) rest err := by
  induction hn : data.length using Nat.strongRecOn generalizing offset data with
  | ind n ih =>
    by_cases hd : data = []
    · subst hd
      exact .inl ⟨[], .nil⟩
    · rcases opens_or_malformed hd offset with ⟨body, rest, ho⟩ | ⟨err, hm⟩
      · have hlt := ho.length_lt
        have hrest := ih rest.length (hn ▸ hlt) (offset + (2 + body.length)) rest rfl
        obtain ⟨hi, lo, rfl, hb⟩ := id ho
        rcases hrest with ⟨bodies, hl⟩ | ⟨bodies, front, tail, err, rfl, hl, hm⟩
        · exact .inl ⟨body :: bodies, .cons ho hl⟩
        · refine .inr ⟨body :: bodies, hi :: lo :: (body ++ front), tail, err, by simp, ?_, ?_⟩
          · exact .cons ⟨hi, lo, rfl, hb⟩ hl
          · have hlen : (hi :: lo :: (body ++ front)).length =
                2 + body.length + front.length := by
              simp only [List.length_cons, List.length_append]
              omega
            rw [hlen, ← Nat.add_assoc]
            exact hm
      · exact .inr ⟨[], [], data, err, rfl, .nil, hm⟩

/-! ## Going over the records again -/

theorem next?_of_opens (h : Opens rest body data) :
    next? (front ++ rest) front.length = some (body, front.length + 2 + body.length) := by
  obtain ⟨hi, lo, rfl, hl, -⟩ := h
  have hn : (word hi lo).toNat = body.length := by rw [toNat_word, hl]
  simp [next?, hn]

theorem walk_of_laid (h : Laid data bodies) (front : Bytes) :
    walk (front ++ data) front.length = bodies := by
  induction h generalizing front with
  | nil =>
    have hn : next? (front ++ []) front.length = none := by simp [next?]
    rw [walk]
    split
    · rfl
    · rename_i he
      cases hn.symm.trans he
  | @cons data body rest bodies ho _ ih =>
    have hs : front ++ data = (front ++ encode body) ++ rest := by
      rw [ho.encode, List.append_assoc]
    have hlen : front.length + 2 + body.length = (front ++ encode body).length := by
      simp only [List.length_append, encode, bigEndian16, List.length_cons, List.length_nil]
      omega
    rw [walk, next?_of_opens ho]
    dsimp only
    rw [hlen, hs, ih]

end Record

namespace Image

open Record

theorem ofBytes_laid {data : Bytes} {bodies : List Bytes} (hd : data ≠ [])
    (h : Laid data bodies) : ∃ image, ofBytes data = .ok image ∧ image.data = data ∧
      image.records = bodies := by
  have hs := splitAll_of_laid h (Nat.le_refl _) 0
  unfold ofBytes
  rw [dif_neg hd]
  split
  · rename_i err he
    cases he.symm.trans hs
  · rename_i records he
    cases he.symm.trans hs
    exact ⟨_, rfl, rfl, rfl⟩

theorem ofBytes_malformed {front rest : Bytes} {bodies : List Bytes} {err : ImageError}
    (hl : Laid front bodies) (hm : Malformed front.length rest err) :
    ofBytes (front ++ rest) = .error err := by
  have hd : front ++ rest ≠ [] := by simp [hm.ne_nil]
  rw [← Nat.zero_add front.length] at hm
  have hs := splitAll_of_malformed hl hm (Nat.le_refl _)
  unfold ofBytes
  rw [dif_neg hd]
  split
  · rename_i err' he
    cases he.symm.trans hs
    rfl
  · rename_i records he
    cases he.symm.trans hs

theorem ofBytes_nil : ofBytes [] = .error .empty := rfl

/-- Reading is decided by the grammar: there is an image just if the bytes are records in a row, and
it holds them in the one way in which they can be read; else the error is the first fault in them. -/
theorem ofBytes_exact (data : Bytes) :
    ((∃ image, ofBytes data = .ok image) ↔ data ≠ [] ∧ ∃ bodies, Laid data bodies) ∧
    (∀ image, ofBytes data = .ok image → ∀ bodies, Laid data bodies →
      image.data = data ∧ image.records = bodies ∧ image.bodies = bodies ∧
        image.recordCount = bodies.length ∧ bodies.flatMap Record.encode = data) ∧
    (∀ err, ofBytes data = .error err ↔ data = [] ∧ err = .empty ∨
      ∃ bodies front rest, data = front ++ rest ∧ Laid front bodies ∧
        Malformed front.length rest err ∧ ∀ body more, ¬ Opens rest body more) := by
  by_cases hd : data = []
  · subst hd
    refine ⟨by simp [ofBytes_nil], by simp [ofBytes_nil], fun err => ?_⟩
    rw [ofBytes_nil]
    constructor
    · rintro ⟨⟩
      exact .inl ⟨rfl, rfl⟩
    · rintro (⟨-, rfl⟩ | ⟨bodies, front, rest, he, -, hm, -⟩)
      · rfl
      · exact absurd (List.append_eq_nil_iff.1 he.symm).2 hm.ne_nil
  · rcases laid_or_malformed 0 data with ⟨bodies, hl⟩ | ⟨bodies, front, rest, err, rfl, hl, hm⟩
    · obtain ⟨image, hi, hdata, hr⟩ := ofBytes_laid hd hl
      refine ⟨by simp [hi, hd, Exists.intro bodies hl], ?_, ?_⟩
      · intro image' hi' bodies' hl'
        obtain rfl := Except.ok.inj (hi.symm.trans hi')
        obtain rfl := hl.unique hl'
        have hw : image.bodies = bodies := by
          rw [Image.bodies, hdata]
          exact walk_of_laid hl []
        exact ⟨hdata, hr, hw, congrArg List.length hr, (laid_iff.1 hl).1⟩
      · intro err
        rw [hi]
        constructor
        · rintro ⟨⟩
        · rintro (⟨he, -⟩ | ⟨bodies', front, rest, rfl, hl', hm, -⟩)
          · exact absurd he hd
          · cases hi.symm.trans (ofBytes_malformed hl' hm)
    · rw [Nat.zero_add] at hm
      have he := ofBytes_malformed hl hm
      have hno : ¬ ∃ bodies', Laid (front ++ rest) bodies' := by
        rintro ⟨bodies', hl'⟩
        obtain ⟨image, hi, -⟩ := ofBytes_laid hd hl'
        cases hi.symm.trans he
      refine ⟨by simp [he, hno], by simp [he], fun err' => ?_⟩
      rw [he]
      constructor
      · rintro ⟨⟩
        exact .inr ⟨bodies, front, rest, rfl, hl, hm, fun _ _ => hm.not_opens⟩
      · rintro (⟨hn, -⟩ | ⟨bodies', front', rest', hs, hl', hm', -⟩)
        · exact absurd hn hd
        · rw [← he, hs]
          exact ofBytes_malformed hl' hm'

end Image

end FirmwareDownload
