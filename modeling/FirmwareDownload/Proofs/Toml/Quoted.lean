import FirmwareDownload.Toml.Quoted

/-! Each text is read back from the form it is written in, whichever of the four that is. A block
may hold quotes in a row, so its proof carries along those that were written but not read yet. -/

namespace FirmwareDownload.Toml.Quoted

variable {c d q : Char} {cs body more rest : List Char} {run : Nat}

@[simp] theorem push_some (c : Char) (body rest : List Char) :
    push (some c) (some (body, rest)) = some (c :: body, rest) := rfl

/-! ## Characters that are written as they are, and escapes -/

theorem isText_of_escape (h : isText c = false) : c.toNat < 128 := by
  simp only [isText, Bool.or_eq_false_iff, Bool.and_eq_false_iff, decide_eq_false_iff_not] at h
  rcases h.2 with hlt | heq
  · have : c.toNat < 32 := Nat.lt_of_not_le hlt
    omega
  · have : c = '\x7f' := Decidable.not_not.1 heq
    subst this
    decide

theorem coded_hexByte : ∀ n < 128,
    coded? ('0' :: '0' :: hexByte true n.toUInt8) = some (Char.ofNat n) := by decide

theorem escape_cases (c : Char) :
    (escape c = [c] ∧ isText c = true ∧ c ≠ '"' ∧ c ≠ '\\') ∨
    (∃ e, escape c = ['\\', e] ∧ escaped? e = some c) ∨
    ∃ a b, escape c = ['\\', 'u', '0', '0', a, b] ∧ coded? ['0', '0', a, b] = some c := by
  unfold escape
  split
  case h_8 hq hs =>
    by_cases ht : isText c = true
    · exact .inl ⟨if_pos ht, ht, hq, hs⟩
    · have hc := coded_hexByte c.toNat (isText_of_escape (Bool.eq_false_iff.2 ht))
      rw [Char.ofNat_toNat] at hc
      exact .inr (.inr ⟨_, _, if_neg ht, hc⟩)
  all_goals exact .inr (.inl ⟨_, rfl, rfl⟩)

theorem exists_head_escape (c : Char) (rest : List Char) :
    ∃ d tail, escape c ++ rest = d :: tail ∧ isText d = true ∧ d ≠ '"' := by
  rcases escape_cases c with ⟨h, ht, hq, -⟩ | ⟨e, h, -⟩ | ⟨a, b, h, -⟩ <;> rw [h]
  · exact ⟨c, rest, rfl, ht, hq⟩
  · exact ⟨'\\', e :: rest, rfl, by decide, by decide⟩
  · exact ⟨'\\', ['u', '0', '0', a, b] ++ rest, rfl, by decide, by decide⟩

theorem ne_break_of_isText (h : isText c = true) : c ≠ '\n' ∧ c ≠ '\r' := by
  constructor <;> (rintro rfl; revert h; decide)

/-! ## Strings on one line -/

theorem basicBody_text (h : isText c = true) (hq : c ≠ '"') (hs : c ≠ '\\') (rest : List Char) :
    basicBody (c :: rest) = push (some c) (basicBody rest) := by
  rw [basicBody]
  · simp [h, hs]
  · exact hq
  all_goals intros; contradiction

theorem basicBody_escaped (h : escaped? c = some d) (rest : List Char) :
    basicBody ('\\' :: c :: rest) = push (some d) (basicBody rest) := by
  rw [basicBody, h]
  · rintro _ _ _ _ _ rfl
    cases h
  · rintro _ _ _ _ _ _ _ _ _ rfl
    cases h

theorem basicBody_escape (c : Char) (rest : List Char) :
    basicBody (escape c ++ rest) = push (some c) (basicBody rest) := by
  rcases escape_cases c with ⟨h, ht, hq, hs⟩ | ⟨e, h, he⟩ | ⟨a, b, h, hc⟩ <;> rw [h]
  · exact basicBody_text ht hq hs rest
  · exact basicBody_escaped he rest
  · show basicBody ('\\' :: 'u' :: '0' :: '0' :: a :: b :: rest) = _
    rw [basicBody, hc]

theorem basicBody_escapes (cs rest : List Char) :
    basicBody (cs.flatMap escape ++ '"' :: rest) = some (cs, rest) := by
  induction cs with
  | nil => simp [basicBody]
  | cons c cs ih => simp [basicBody_escape, ih]

theorem literalBody_text (h : ∀ c ∈ cs, isText c = true ∧ c ≠ '\'') (rest : List Char) :
    literalBody (cs ++ '\'' :: rest) = some (cs, rest) := by
  induction cs with
  | nil => simp [literalBody]
  | cons c cs ih =>
    obtain ⟨ht, hq⟩ := h c (by simp)
    have ih := ih fun d hd => h d (by simp [hd])
    rw [List.cons_append, literalBody, if_pos ht, ih, push_some]
    exact hq

/-! ## Quotes in a block -/

theorem quotes_taken {R : Reader (List Char)}
    (hR : ∀ rest, (∀ more, rest ≠ q :: q :: more) → R (q :: rest) = push (some q) (R rest))
    (hrun : run ≤ 2) (hm : more.head? ≠ some q) (h : R more = some (body, rest)) :
    R (List.replicate run q ++ more) = some (List.replicate run q ++ body, rest) := by
  have hq : ∀ tail, more ≠ q :: tail := by
    rintro tail rfl
    exact hm rfl
  have hone : R (q :: more) = some (q :: body, rest) := by
    rw [hR more fun _ => hq _, h, push_some]
  match run, hrun with
  | 0, _ => exact h
  | 1, _ => exact hone
  | 2, _ =>
    show R (q :: q :: more) = _
    rw [hR (q :: more) fun tail he => hq tail (List.cons.inj he).2, hone]
    rfl

theorem basicBlock_quote (h : ∀ more, rest ≠ '"' :: '"' :: more) :
    basicBlock false ('"' :: rest) = push (some '"') (basicBlock false rest) := by
  rw [basicBlock]
  · simp [show isText '"' = true by decide]
  all_goals simp_all

theorem basicBlock_closed (h : rest.head? ≠ some '"') (hrun : run ≤ 2) :
    basicBlock false (List.replicate run '"' ++ '"' :: '"' :: '"' :: rest) =
      some (List.replicate run '"', rest) := by
  have hq : ∀ tail, rest ≠ '"' :: tail := by
    rintro tail rfl
    exact h rfl
  match run, hrun with
  | 0, _ =>
    show basicBlock false ('"' :: '"' :: '"' :: rest) = _
    rw [basicBlock] <;> simp_all
  | 1, _ =>
    show basicBlock false ('"' :: '"' :: '"' :: '"' :: rest) = _
    rw [basicBlock] <;> simp_all
  | 2, _ =>
    show basicBlock false ('"' :: '"' :: '"' :: '"' :: '"' :: rest) = _
    rw [basicBlock]
    rfl

theorem basicBlock_text (h : isText c = true ∨ c = '\n') (hq : c ≠ '"') (hs : c ≠ '\\')
    (rest : List Char) : basicBlock false (c :: rest) = push (some c) (basicBlock false rest) := by
  have hr : c ≠ '\r' := by
    rintro rfl
    revert h
    decide
  rw [basicBlock]
  · simp [h.symm]
  all_goals intros; contradiction

theorem basicBlock_escaped (h : escaped? c = some d) (rest : List Char) :
    basicBlock false ('\\' :: c :: rest) = push (some d) (basicBlock false rest) := by
  have hb : endsLine (c :: rest) = false := by
    unfold escaped? at h
    split at h <;> first | rfl | cases h
  rw [basicBlock, hb]
  · simp [h]
  · rintro _ _ _ _ _ ⟨rfl, rfl⟩
    cases h
  · rintro _ _ _ _ _ _ _ _ _ ⟨rfl, rfl⟩
    cases h

theorem basicBlock_escape (c : Char) (rest : List Char) :
    basicBlock false (escape c ++ rest) = push (some c) (basicBlock false rest) := by
  rcases escape_cases c with ⟨h, ht, hq, hs⟩ | ⟨e, h, he⟩ | ⟨a, b, h, hc⟩ <;> rw [h]
  · exact basicBlock_text (.inl ht) hq hs rest
  · exact basicBlock_escaped he rest
  · show basicBlock false ('\\' :: 'u' :: '0' :: '0' :: a :: b :: rest) = _
    rw [basicBlock, hc]

theorem basicBlock_escapeBlock (h : rest.head? ≠ some '"') (hrun : run ≤ 2) (cs : List Char) :
    basicBlock false (List.replicate run '"' ++ (escapeBlock run cs ++ '"' :: '"' :: '"' :: rest)) =
      some (List.replicate run '"' ++ cs, rest) := by
  induction cs generalizing run with
  | nil =>
    rw [List.append_nil]
    exact basicBlock_closed h hrun
  | cons c cs ih =>
    have ih₀ := ih (Nat.zero_le 2)
    simp only [List.replicate_zero, List.nil_append] at ih₀
    by_cases hn : c = '\n'
    · subst hn
      apply quotes_taken (fun _ => basicBlock_quote) hrun
      · simp [escapeBlock]
      · rw [escapeBlock, if_pos rfl, List.cons_append,
          basicBlock_text (.inr rfl) (by decide) (by decide), ih₀, push_some]
    · by_cases hq : c = '"' ∧ run < 2
      · obtain ⟨rfl, hlt⟩ := hq
        have ih₁ := ih (show run + 1 ≤ 2 by omega)
        simpa [escapeBlock, hlt, List.replicate_succ'] using ih₁
      · have he : escapeBlock run (c :: cs) = escape c ++ escapeBlock 0 cs := by
          rw [escapeBlock, if_neg hn, if_neg (by simpa using hq)]
        obtain ⟨d, tail, hd, -, hdq⟩ :=
          exists_head_escape c (escapeBlock 0 cs ++ '"' :: '"' :: '"' :: rest)
        rw [he, List.append_assoc]
        apply quotes_taken (fun _ => basicBlock_quote) hrun
        · simpa [hd] using hdq
        · rw [basicBlock_escape, ih₀, push_some]

theorem literalBlock_quote (h : ∀ more, rest ≠ '\'' :: '\'' :: more) :
    literalBlock ('\'' :: rest) = push (some '\'') (literalBlock rest) := by
  rw [literalBlock]
  · simp [show isText '\'' = true by decide]
  all_goals simp_all

theorem literalBlock_closed (h : rest.head? ≠ some '\'') (hrun : run ≤ 2) :
    literalBlock (List.replicate run '\'' ++ '\'' :: '\'' :: '\'' :: rest) =
      some (List.replicate run '\'', rest) := by
  have hq : ∀ tail, rest ≠ '\'' :: tail := by
    rintro tail rfl
    exact h rfl
  match run, hrun with
  | 0, _ =>
    show literalBlock ('\'' :: '\'' :: '\'' :: rest) = _
    rw [literalBlock] <;> simp_all
  | 1, _ =>
    show literalBlock ('\'' :: '\'' :: '\'' :: '\'' :: rest) = _
    rw [literalBlock] <;> simp_all
  | 2, _ =>
    show literalBlock ('\'' :: '\'' :: '\'' :: '\'' :: '\'' :: rest) = _
    rw [literalBlock]
    rfl

theorem literalBlock_text (h : isText c = true ∨ c = '\n') (hq : c ≠ '\'') (rest : List Char) :
    literalBlock (c :: rest) = push (some c) (literalBlock rest) := by
  have hr : c ≠ '\r' := by
    rintro rfl
    revert h
    decide
  rw [literalBlock]
  · simp [h.symm]
  all_goals intros; contradiction

theorem literalBlock_runs (h : rest.head? ≠ some '\'') (hrun : run ≤ 2)
    (hc : ∀ c ∈ cs, isText c = true ∨ c = '\n') (hq : runsWithin '\'' 2 run cs = true) :
    literalBlock (List.replicate run '\'' ++ (cs ++ '\'' :: '\'' :: '\'' :: rest)) =
      some (List.replicate run '\'' ++ cs, rest) := by
  induction cs generalizing run with
  | nil =>
    rw [List.append_nil]
    exact literalBlock_closed h hrun
  | cons c cs ih =>
    have hcs : ∀ d ∈ cs, isText d = true ∨ d = '\n' := fun d hd => hc d (by simp [hd])
    by_cases hquote : c = '\''
    · subst hquote
      simp only [runsWithin, if_true, Bool.and_eq_true, decide_eq_true_eq] at hq
      have ih₁ := ih (show run + 1 ≤ 2 by omega) hcs hq.2
      simpa [List.replicate_succ'] using ih₁
    · simp only [runsWithin, hquote, if_false] at hq
      have ih₀ := ih (Nat.zero_le 2) hcs hq
      simp only [List.replicate_zero, List.nil_append] at ih₀
      apply quotes_taken (fun _ => literalBlock_quote) hrun
      · simpa using hquote
      · rw [List.cons_append, literalBlock_text (hc c (by simp)) hquote, ih₀, push_some]

/-! ## The form that is chosen -/

theorem not_mem_of_runsWithin (h : runsWithin q 0 run cs = true) : q ∉ cs := by
  induction cs generalizing run with
  | nil => simp
  | cons c cs ih =>
    by_cases hc : c = q
    · simp [runsWithin, hc] at h
    · simp only [runsWithin, hc, if_false] at h
      simp [Ne.symm hc, ih h]

/-- What the forms without escapes ask of a text. -/
def Style.Fits : Style → List Char → Prop
  | .literal, cs => ∀ c ∈ cs, isText c = true ∧ c ≠ '\''
  | .literalBlock, cs => (∀ c ∈ cs, isText c = true ∨ c = '\n') ∧ runsWithin '\'' 2 0 cs = true
  | .basic, _ | .basicBlock, _ => True

theorem fits_style (cs : List Char) : (style cs).Fits cs := by
  have hclean : (cs.all fun c => isText c || c = '\n') = true →
      ∀ c ∈ cs, isText c = true ∨ c = '\n' := by
    intro h c hc
    simpa using List.all_eq_true.1 h c hc
  unfold style
  dsimp only
  split
  · trivial
  split
  · rename_i h
    simp only [Bool.and_eq_true, Bool.not_eq_true', List.contains_eq_mem, decide_eq_false_iff_not]
      at h
    obtain ⟨⟨hall, hn⟩, hrun⟩ := h
    intro c hc
    refine ⟨(hclean hall c hc).resolve_right ?_, ?_⟩
    · rintro rfl
      exact hn hc
    · rintro rfl
      exact not_mem_of_runsWithin hrun hc
  split
  · trivial
  split
  · rename_i h
    rw [Bool.and_eq_true] at h
    exact ⟨hclean h.1, h.2⟩
  split <;> trivial

/-! ## Reading what was written -/

theorem skipBreak_openBlock (h : '\n' ∉ cs → ∀ c ∈ body.head?, isText c = true) :
    skipBreak (openBlock cs ++ body) = body := by
  unfold openBlock
  by_cases hn : '\n' ∈ cs
  · rw [if_pos (by simpa using hn)]
    rfl
  · rw [if_neg (by simpa using hn), List.nil_append]
    unfold skipBreak afterBreak?
    split
    · exact absurd rfl (ne_break_of_isText (h hn '\n' (by simp))).1
    · exact absurd rfl (ne_break_of_isText (h hn '\r' (by simp))).2
    · rfl

theorem isText_head_escapeBlock (h : '\n' ∉ cs) (rest : List Char) :
    ∀ c ∈ (escapeBlock 0 cs ++ '"' :: rest).head?, isText c = true := by
  cases cs with
  | nil =>
    rintro _ ⟨⟩
    decide
  | cons c cs =>
    have hn : c ≠ '\n' := fun he => h (he ▸ List.mem_cons_self)
    by_cases hq : c = '"'
    · subst hq
      rintro _ ⟨⟩
      decide
    · obtain ⟨d, tail, hd, ht, -⟩ := exists_head_escape c (escapeBlock 0 cs ++ '"' :: rest)
      have he : escapeBlock 0 (c :: cs) = escape c ++ escapeBlock 0 cs := by
        simp [escapeBlock, hn, hq]
      rw [he, List.append_assoc, hd]
      rintro _ ⟨⟩
      exact ht

/-- A text is read back from behind itself, whatever the next line is. -/
theorem read_write (cs rest : List Char) :
    read (write cs ++ '\n' :: rest) = some (cs, '\n' :: rest) := by
  have hfits := fits_style cs
  unfold write
  cases hs : style cs with
  | basic =>
    have hread : read ('"' :: (cs.flatMap escape ++ '"' :: '\n' :: rest)) =
        basicBody (cs.flatMap escape ++ '"' :: '\n' :: rest) := by
      cases cs with
      | nil => rfl
      | cons c cs =>
        obtain ⟨d, tail, hd, -, hq⟩ :=
          exists_head_escape c (cs.flatMap escape ++ '"' :: '\n' :: rest)
        rw [List.flatMap_cons, List.append_assoc, hd, read, readLine]
        · simp [hq]
        · simp
    simpa [hread] using basicBody_escapes cs ('\n' :: rest)
  | literal =>
    rw [hs] at hfits
    have hread : read ('\'' :: (cs ++ '\'' :: '\n' :: rest)) =
        literalBody (cs ++ '\'' :: '\n' :: rest) := by
      cases cs with
      | nil => rfl
      | cons c cs =>
        rw [List.cons_append, read, readLine]
        · simp
        · simp [(hfits c List.mem_cons_self).2]
    simpa [hread] using literalBody_text hfits ('\n' :: rest)
  | basicBlock =>
    have hskip := skipBreak_openBlock fun hn : '\n' ∉ cs =>
      isText_head_escapeBlock hn ('"' :: '"' :: '\n' :: rest)
    have hblock := basicBlock_escapeBlock (show ('\n' :: rest).head? ≠ some '"' by simp)
      (Nat.zero_le 2) cs
    simp only [List.replicate_zero, List.nil_append] at hblock
    simp [read, hskip, hblock]
  | literalBlock =>
    rw [hs] at hfits
    obtain ⟨hc, hrun⟩ := hfits
    have hhead : '\n' ∉ cs →
        ∀ c ∈ (cs ++ '\'' :: '\'' :: '\'' :: '\n' :: rest).head?, isText c = true := by
      intro hn c hhead
      cases cs with
      | nil =>
        cases hhead
        decide
      | cons d cs =>
        cases hhead
        exact (hc c List.mem_cons_self).resolve_right fun he => hn (he ▸ List.mem_cons_self)
    have hblock := literalBlock_runs (show ('\n' :: rest).head? ≠ some '\'' by simp)
      (Nat.zero_le 2) hc hrun
    simp only [List.replicate_zero, List.nil_append] at hblock
    simp [read, skipBreak_openBlock hhead, hblock]

end FirmwareDownload.Toml.Quoted
