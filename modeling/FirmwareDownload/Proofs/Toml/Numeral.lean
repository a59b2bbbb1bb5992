import FirmwareDownload.Toml.Reader

/-! A number in decimal digits is read as that integer, and neither as a date nor as a number with a
fraction. -/

namespace FirmwareDownload.Toml

variable {ds rest : List Char} {n bound : Nat}

theorem ne_of_class {p : Char → Bool} {c d : Char} (h : p d = true) (hc : p c = false) : d ≠ c := by
  rintro rfl
  rw [h] at hc
  cases hc

theorem ne_cons_of_digits {c : Char} (h : ∀ d ∈ ds, d.isDigit = true) (hc : c.isDigit = false)
    (tail : List Char) : ds ≠ c :: tail := by
  rintro rfl
  exact ne_of_class (h c (by simp)) hc rfl

theorem digits_eq_self (h : ∀ d ∈ ds, d.isDigit = true) (hn : ds ≠ []) :
    digits? Char.isDigit ds = some ds := by
  induction ds with
  | nil => exact absurd rfl hn
  | cons d ds ih =>
    have hd := h d (by simp)
    cases ds with
    | nil => simp [digits?, hd]
    | cons e ds =>
      have he := ne_of_class (h e (by simp)) (show '_'.isDigit = false by decide)
      have ih := ih (fun x hx => h x (by simp [hx])) (by simp)
      rw [digits?]
      · simp [hd, ih]
      · simp
      · simp [he]

/-! ## The digits of a number -/

theorem digitValue_digitChar : ∀ d < 10, digitValue (Nat.digitChar d) = d := by decide

theorem ofDigitsBelow_toDigits (h : n < bound) :
    ofDigitsBelow? bound 10 (Nat.toDigits 10 n) = some n := by
  induction n using Nat.strongRecOn with
  | ind n ih =>
    by_cases hlt : n < 10
    · rw [Nat.toDigits_of_lt_base hlt]
      simp [ofDigitsBelow?, digitValue_digitChar n hlt, h]
    · have ih := ih (n / 10) (by omega) (by omega)
      have hd : n / 10 * 10 + n % 10 = n := by omega
      rw [Nat.toDigits_of_base_le (by omega) (by omega)]
      unfold ofDigitsBelow? at ih ⊢
      rw [List.foldlM_append, ih]
      simp [digitValue_digitChar _ (Nat.mod_lt n (by omega)), hd, h]

theorem head_toDigits (h : 0 < n) : (Nat.toDigits 10 n).head? ≠ some '0' := by
  induction n using Nat.strongRecOn with
  | ind n ih =>
    by_cases hlt : n < 10
    · rw [Nat.toDigits_of_lt_base hlt]
      have : ∀ d < 10, 0 < d → [Nat.digitChar d].head? ≠ some '0' := by decide
      exact this n hlt h
    · have ih := ih (n / 10) (by omega) (by omega)
      obtain ⟨d, ds, hds⟩ :=
        List.exists_cons_of_ne_nil (Nat.toDigits_ne_nil (n := n / 10) (b := 10))
      rw [Nat.toDigits_of_base_le (by omega) (by omega), hds]
      rw [hds] at ih
      exact ih

theorem isDigit_of_mem_toDigits : ∀ d ∈ Nat.toDigits 10 n, d.isDigit = true :=
  fun _ hd => Nat.isDigit_of_mem_toDigits (by omega) (by omega) hd

theorem decimalDigits_toDigits (n : Nat) :
    decimalDigits? (Nat.toDigits 10 n) = some (Nat.toDigits 10 n) := by
  have hz : (Nat.toDigits 10 n).length = 1 ∨ (Nat.toDigits 10 n).head? ≠ some '0' := by
    by_cases h : 0 < n
    · exact .inr (head_toDigits h)
    · left
      rw [Nat.toDigits_of_lt_base (by omega)]
      rfl
  rw [decimalDigits?, digits_eq_self isDigit_of_mem_toDigits Nat.toDigits_ne_nil]
  exact if_pos hz

/-! ## What digits cannot be read as -/

theorem signed_digits (h : ∀ d ∈ ds, d.isDigit = true) : signed ds = (false, ds) := by
  unfold signed
  split
  · exact absurd (h '-' (by simp)) (by decide)
  · exact absurd (h '+' (by simp)) (by decide)
  · rfl

theorem isFloat_digits (h : ∀ d ∈ ds, d.isDigit = true) : isFloat ds = false := by
  have hgap : ∀ d ∈ ds, isDigitOrGap d = true := fun d hd => by simp [isDigitOrGap, h d hd]
  have htail : ds.dropWhile isDigitOrGap = [] := by
    rw [← List.append_nil ds, List.dropWhile_append_of_pos hgap]
    rfl
  unfold isFloat
  rw [signed_digits h]
  simp only [ne_cons_of_digits h (show 'i'.isDigit = false by decide),
    ne_cons_of_digits h (show 'n'.isDigit = false by decide), htail, or_self, if_false, digits?]
  split
  · rename_i hf _
    cases hf
  · rfl
  · rfl

theorem integer_toDigits (h : n < integerBound) :
    integer? (Nat.toDigits 10 n) = some (n : Int) := by
  have hnot : ∀ c rest, c.isDigit = false → Nat.toDigits 10 n ≠ '0' :: c :: rest := by
    intro c rest hc he
    have hd := isDigit_of_mem_toDigits (n := n)
    rw [he] at hd
    exact ne_of_class (hd c (by simp)) hc rfl
  rw [integer?]
  · simp [decimal?, signed_digits isDigit_of_mem_toDigits, decimalDigits_toDigits,
      ofDigitsBelow_toDigits h]
  · exact fun rest => hnot 'x' rest (by decide)
  · exact fun rest => hnot 'o' rest (by decide)
  · exact fun rest => hnot 'b' rest (by decide)

theorem exactDigits_behind {k : Nat} {tail : List Char} (h : ∀ d ∈ ds, d.isDigit = true)
    (he : exactDigits? k (ds ++ '\n' :: rest) = some (n, tail)) :
    ∃ ds', (∀ d ∈ ds', d.isDigit = true) ∧ tail = ds' ++ '\n' :: rest := by
  unfold exactDigits? at he
  dsimp only at he
  split at he
  · rename_i hall
    cases he
    by_cases hk : k ≤ ds.length
    · exact ⟨ds.drop k, fun d hd => h d (List.mem_of_mem_drop hd),
        List.drop_append_of_le_length hk⟩
    · obtain ⟨m, hm⟩ := Nat.exists_eq_succ_of_ne_zero (show k - ds.length ≠ 0 by omega)
      have hn : '\n' ∈ (ds ++ '\n' :: rest).take k := by
        rw [List.take_append, hm]
        simp
      exact absurd (List.all_eq_true.1 hall.2 '\n' hn) (by decide)
  · cases he

theorem sign_digits {c : Char} (h : ∀ d ∈ ds, d.isDigit = true) (hc : c.isDigit = false)
    (hn : c ≠ '\n') : sign? c (ds ++ '\n' :: rest) = none := by
  cases ds with
  | nil => simp [sign?, hn]
  | cons d ds => simp [sign?, (ne_of_class (h d (by simp)) hc).symm]

theorem afterMoment_digits (h : ∀ d ∈ ds, d.isDigit = true) :
    afterMoment? (ds ++ '\n' :: rest) = none := by
  have hdate : afterDate? (ds ++ '\n' :: rest) = none := by
    unfold afterDate?
    cases he : exactDigits? 4 (ds ++ '\n' :: rest) with
    | none => rfl
    | some read =>
      obtain ⟨ds', hd, ht⟩ := exactDigits_behind h he
      simp [ht, sign_digits hd]
  have htime : afterTime? (ds ++ '\n' :: rest) = none := by
    unfold afterTime? pair?
    cases he : exactDigits? 2 (ds ++ '\n' :: rest) with
    | none => rfl
    | some read =>
      obtain ⟨ds', hd, ht⟩ := exactDigits_behind h he
      by_cases hp : read.1 ≤ 23 <;> simp [Option.filter, hp, ht, sign_digits hd]
  rw [afterMoment?, hdate, htime]
  rfl

/-! ## Words -/

theorem readScalar_word {w : List Char} (hw : ∀ c ∈ w, isTokenChar c = true)
    (hm : afterMoment? (w ++ '\n' :: rest) = none) :
    readScalar (w ++ '\n' :: rest) = (word? w).map fun node => (node, '\n' :: rest) := by
  have hquote : ∀ q tail, isTokenChar q = false → q ≠ '\n' → w ++ '\n' :: rest ≠ q :: tail := by
    intro q tail hq hn he
    cases w with
    | nil => exact hn (List.cons.inj he).1.symm
    | cons c w =>
      have hc := hw c (by simp)
      rw [(List.cons.inj he).1, hq] at hc
      cases hc
  have hstop : isTokenChar '\n' = false := by decide
  rw [readScalar, hm]
  · simp [readWord, List.takeWhile_append_of_pos hw, List.dropWhile_append_of_pos hw, hstop]
  · exact fun tail => hquote '"' tail (by decide) (by decide)
  · exact fun tail => hquote '\'' tail (by decide) (by decide)

theorem readScalar_toDigits (h : n < integerBound) (rest : List Char) :
    readScalar (Nat.toDigits 10 n ++ '\n' :: rest) = some (.integer n, '\n' :: rest) := by
  have hdigit := isDigit_of_mem_toDigits (n := n)
  have hw : word? (Nat.toDigits 10 n) = some (.integer n) := by
    rw [word?, if_neg (ne_cons_of_digits hdigit (show 't'.isDigit = false by decide) _),
      if_neg (ne_cons_of_digits hdigit (show 'f'.isDigit = false by decide) _),
      isFloat_digits hdigit, integer_toDigits h]
    rfl
  rw [readScalar_word _ (afterMoment_digits hdigit), hw]
  · rfl
  · intro d hd
    simp [isTokenChar, Char.isAlphanum, hdigit d hd]

theorem readScalar_bool (b : Bool) (rest : List Char) :
    readScalar ((toString b).toList ++ '\n' :: rest) = some (.boolean b, '\n' :: rest) := by
  cases b with
  | false => rfl
  | true => rfl

end FirmwareDownload.Toml
