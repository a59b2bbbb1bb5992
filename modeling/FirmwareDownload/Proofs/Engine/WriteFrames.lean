import FirmwareDownload.Proofs.Engine.LastFailure

/-! The frames that writes send. A frame belongs to the command that was started last: no other
command sends a frame of a write, and a write that is accepted has sent one. -/

namespace FirmwareDownload

/-- The frames that writes sent, those sent again too, oldest first. -/
def writeFrames : List Notice → List Bytes
  | [] => []
  | .sent frame :: ns =>
    writeFrames ns ++ (if currentCommand ns = some .write then [frame] else [])
  | _ :: ns => writeFrames ns

def Startless (ns : List Notice) : Prop := ∀ command, .started command ∉ ns

variable {ns ns' : List Notice}

theorem startless_of_brackets (h : brackets ns = []) : Startless ns := fun _ hm =>
  absurd rfl (List.filter_eq_nil_iff.1 h _ hm)

theorem Startless.tail {n : Notice} (h : Startless (n :: ns)) : Startless ns :=
  fun command hm => h command (List.mem_cons_of_mem n hm)

theorem Startless.append (h : Startless ns) (h' : Startless ns') : Startless (ns ++ ns') :=
  fun command hm => (List.mem_append.1 hm).elim (h command) (h' command)

theorem Startless.finished (h : Startless ns) (command : Command) (error : Option DownloadError) :
    Startless (.finished command error :: ns) := by
  intro c hm
  rcases List.mem_cons.1 hm with he | hm
  · cases he
  · exact h c hm

theorem Startless.sameCommand (h : Startless ns) (ns' : List Notice) :
    currentCommand (ns ++ ns') = currentCommand ns' := by
  induction ns with
  | nil => rfl
  | cons n ns ih =>
    have ih := ih h.tail
    cases n <;> first | exact ih | exact (h _ (List.mem_cons_self ..)).elim

/-- While another command is in flight, no frame is that of a write. -/
theorem Startless.writeFrames (h : Startless ns) (hc : currentCommand ns' ≠ some .write) :
    writeFrames (ns ++ ns') = writeFrames ns' := by
  induction ns with
  | nil => rfl
  | cons n ns ih =>
    have ih := ih h.tail
    cases n <;> try exact ih
    rw [List.cons_append, FirmwareDownload.writeFrames, h.tail.sameCommand, if_neg hc,
      List.append_nil]
    exact ih

theorem Plain.writeFrames (h : Plain ns) (ns' : List Notice) :
    writeFrames (ns ++ ns') = writeFrames ns' := by
  induction ns with
  | nil => rfl
  | cons n ns ih =>
    have ih := ih h.tail
    have hn := h n (List.mem_cons_self ..)
    cases n <;> first | exact ih | cases hn

theorem isPrefix_writeFrames (ns ns' : List Notice) :
    writeFrames ns' <+: writeFrames (ns ++ ns') := by
  induction ns with
  | nil => exact List.prefix_rfl
  | cons n ns ih =>
    cases n <;> try exact ih
    exact ih.trans (List.prefix_append ..)

theorem writeFrames_ne_nil (h : writeFrames ns' ≠ []) (ns : List Notice) :
    writeFrames (ns ++ ns') ≠ [] :=
  fun he => h (List.prefix_nil.1 (he ▸ isPrefix_writeFrames ns ns'))

namespace Engine

variable {W : Type} [Host W] {e e₁ e₂ e' : Engine W} {c : Call} {r : Except DownloadError Unit}

/-- From `e` to `e'` no write sent a frame. -/
def Unwritten (e e' : Engine W) : Prop :=
  ∃ ns, e'.journal = ns ++ e.journal ∧ ∀ ns', writeFrames (ns ++ ns') = writeFrames ns'

/-- From `e` to `e'` a write sent a frame. -/
def Wrote (e e' : Engine W) : Prop :=
  ∃ ns, e'.journal = ns ++ e.journal ∧ ∀ ns', writeFrames (ns ++ ns') ≠ []

omit [Host W] in
theorem Unwritten.of_eq (h : e'.journal = e.journal) : e.Unwritten e' := ⟨[], h, fun _ => rfl⟩

omit [Host W] in
theorem Unwritten.trans (h : e.Unwritten e₁) (h' : e₁.Unwritten e₂) : e.Unwritten e₂ := by
  obtain ⟨ns, hj, hn⟩ := h
  obtain ⟨ns', hj', hn'⟩ := h'
  refine ⟨ns' ++ ns, by rw [hj', hj, List.append_assoc], fun ns₀ => ?_⟩
  rw [List.append_assoc, hn', hn]

omit [Host W] in
theorem Wrote.later (h : e.Wrote e₁) (hj : e₁.journal <:+ e₂.journal) : e.Wrote e₂ := by
  obtain ⟨ns, hj₁, hn⟩ := h
  obtain ⟨ns', hj⟩ := hj
  refine ⟨ns' ++ ns, by rw [← hj, hj₁, List.append_assoc], fun ns₀ => ?_⟩
  rw [List.append_assoc]
  exact writeFrames_ne_nil (hn ns₀) ns'

omit [Host W] in
theorem Wrote.earlier (h : e₁.Wrote e₂) (hj : e.journal <:+ e₁.journal) : e.Wrote e₂ := by
  obtain ⟨ns, hj₂, hn⟩ := h
  obtain ⟨ns', hj⟩ := hj
  refine ⟨ns ++ ns', by rw [hj₂, ← hj, List.append_assoc], fun ns₀ => ?_⟩
  rw [List.append_assoc]
  exact hn _

omit [Host W] in
theorem Unwritten.isSuffix (h : e.Unwritten e') : e.journal <:+ e'.journal := by
  obtain ⟨ns, hj, -⟩ := h
  exact ⟨ns, hj.symm⟩

/-! ## Commands in flight -/

theorem Handles.startless (h : e.Handles e') :
    ∃ ns, e'.journal = ns ++ e.journal ∧ Startless ns := by
  cases h with
  | nothing => exact ⟨[], rfl, fun _ => List.not_mem_nil⟩
  | ignores => exact ⟨[], rfl, fun _ => List.not_mem_nil⟩
  | @reacts _ _ command _ s _ outcome _ _ _ _ hr ht =>
    have hn := startless_of_brackets hr.brackets_eq_nil
    cases outcome with
    | none => exact ⟨_, ht.journal, hn⟩
    | some result =>
      have he := startless_of_brackets s.plain_endNotices.brackets_eq_nil
      exact ⟨_, ht.journal, (he.append hn).finished command (errorOf result)⟩

theorem Standing.served_startless (hs : e.Standing) (h : e.Served e') :
    ∃ ns, e'.journal = ns ++ e.journal ∧ Startless ns := by
  obtain ⟨moves, hm, rfl⟩ := h
  induction moves generalizing e with
  | nil => exact ⟨[], rfl, fun _ => List.not_mem_nil⟩
  | cons m moves ih =>
    have hone : ∃ ns, (e.move m).journal = ns ++ e.journal ∧ Startless ns := by
      cases hm m (List.mem_cons_self ..) with
      | handleNext => exact hs.handleNext_handles.startless
      | arrive signals => exact ⟨[], rfl, fun _ => List.not_mem_nil⟩
      | pass w => exact ⟨[], rfl, fun _ => List.not_mem_nil⟩
    obtain ⟨ns, hj, hn⟩ := hone
    obtain ⟨ns', hj', hn'⟩ := ih ((hs.move_advances m).standing hs)
      fun m' hm' => hm m' (List.mem_cons_of_mem m hm')
    refine ⟨ns' ++ ns, ?_, hn'.append hn⟩
    rw [run_cons, hj', hj, List.append_assoc]

/-! ## Calls -/

/-- The call of another command than a write sends no frame of one, and nor will the command. -/
theorem Calls.unwritten (h : e.Calls c r e') (hc : c.command ≠ .write) :
    ∃ ns, e'.journal = ns ++ e.journal ∧ (∀ ns', writeFrames (ns ++ ns') = writeFrames ns') ∧
      (r = .ok () → ∀ ns', currentCommand (ns ++ ns') = some c.command) := by
  have hcurrent : ∀ ns', currentCommand (.started c.command :: ns') ≠ some .write :=
    fun _ he => hc (Option.some.inj he)
  cases h with
  | @refused _ ns _ hn hp =>
    have hplain : Plain ns := by
      rcases hn with rfl | rfl
      · exact .of_all rfl
      · exact .of_all rfl
    exact ⟨ns, hp.journal, hplain.writeFrames, nofun⟩
  | @starts _ _ ns₀ ns _ _ _ _ _ hpre hl hp =>
    have hn := startless_of_brackets hl.brackets_eq_nil
    refine ⟨_, hp.journal, fun ns' => ?_, fun _ ns' => ?_⟩
    · rw [List.append_assoc, List.cons_append, hn.writeFrames (hcurrent _)]
      exact hpre.plain_notices.writeFrames ns'
    · rw [List.append_assoc, List.cons_append, hn.sameCommand]
      rfl
  | @undone _ s ns₀ ns _ _ _ err _ _ hpre hl hp =>
    have hn := (startless_of_brackets s.plain_releaseNotices.brackets_eq_nil).append
      (startless_of_brackets hl.brackets_eq_nil)
    refine ⟨.finished c.command (some err) :: (s.releaseNotices ++ ns) ++
      .started c.command :: ns₀, ?_, fun ns' => ?_, nofun⟩
    · rw [hp.journal]
      simp only [List.append_assoc, List.cons_append]
    · rw [List.append_assoc, List.cons_append (a := Notice.started c.command),
        (hn.finished _ _).writeFrames (hcurrent _)]
      exact hpre.plain_notices.writeFrames ns'

theorem Calls.wrote (h : e.Calls c (.ok ()) e') (hc : c.command = .write) : e.Wrote e' := by
  cases h with
  | @starts _ _ ns₀ _ _ _ _ _ _ _ hl hp =>
    refine ⟨_, hp.journal, fun ns' => ?_⟩
    cases hl with
    | @sends id _ s =>
      refine List.append_ne_nil_of_right_ne_nil _ ?_
      rw [if_pos (show currentCommand _ = some .write from hc ▸ rfl)]
      exact List.cons_ne_nil _ _

end Engine

end FirmwareDownload
