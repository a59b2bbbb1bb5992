import FirmwareDownload.Proofs.Engine.Starting

/-! Kinds of notices. Those that open and close commands, those that carry frames, and the statuses
of the answers say what a command is about; all others are plain. -/

namespace FirmwareDownload

/-- The notice neither opens or closes a command nor carries a frame or a status. -/
def Notice.isPlain : Notice → Bool
  | .started _ => false
  | .finished _ _ => false
  | .sent _ => false
  | .received _ => false
  | .answered _ => false
  | _ => true

def Plain (ns : List Notice) : Prop := ∀ n ∈ ns, n.isPlain = true

theorem Plain.of_all {ns : List Notice} (h : ns.all Notice.isPlain = true) : Plain ns :=
  List.all_eq_true.1 h

theorem Plain.cons {n : Notice} {ns : List Notice} (h : Plain ns) (hn : n.isPlain = true) :
    Plain (n :: ns) := by
  intro n' hn'
  rcases List.mem_cons.1 hn' with rfl | hn'
  · exact hn
  · exact h n' hn'

theorem Plain.tail {n : Notice} {ns : List Notice} (h : Plain (n :: ns)) : Plain ns :=
  fun n' hn' => h n' (List.mem_cons_of_mem n hn')

theorem Plain.append {ns ns' : List Notice} (h : Plain ns) (h' : Plain ns') :
    Plain (ns ++ ns') := by
  intro n hn
  rcases List.mem_append.1 hn with hn | hn
  · exact h n hn
  · exact h' n hn

namespace Session

theorem plain_moveNotices (s : Session) (p : Phase) : Plain (s.moveNotices p) := by
  unfold Session.moveNotices
  split
  · exact .of_all rfl
  · exact .of_all rfl

theorem plain_haltNotices (s : Session) : Plain s.haltNotices := by
  unfold Session.haltNotices
  split
  · exact .of_all rfl
  · split
    · exact .of_all rfl
    · exact .of_all rfl

theorem plain_releaseNotices (s : Session) : Plain s.releaseNotices := by
  have ht : Plain s.timerReleaseNotices := by
    unfold Session.timerReleaseNotices
    split
    · exact .of_all rfl
    · split
      · exact .of_all rfl
      · exact .of_all rfl
  unfold Session.releaseNotices
  refine (ht.append ?_).append (.of_all rfl)
  split
  · exact .of_all rfl
  · exact .of_all rfl

theorem plain_endNotices (s : Session) : Plain (s.moveNotices .init ++ s.releaseNotices) :=
  (s.plain_moveNotices .init).append s.plain_releaseNotices

theorem plain_venResetNotices (s : Session) (config : Config) :
    Plain (s.venResetNotices config) := by
  unfold Session.venResetNotices
  split
  · exact .of_all rfl
  · exact .of_all rfl

theorem statusNotices_cases (s : Session) (raw : Bytes) :
    s.statusNotices raw = [] ∨ ∃ status, s.statusNotices raw = [.answered status] := by
  unfold Session.statusNotices
  split
  · exact .inl rfl
  · split
    · exact .inr ⟨_, rfl⟩
    · exact .inl rfl

theorem plain_progressNotices (s : Session) : Plain s.progressNotices := by
  unfold Session.progressNotices
  split
  · exact .of_all rfl
  · exact .of_all rfl
  · exact .of_all rfl

/-- Around an answer and its status only plain notices are taken. -/
theorem answerNotices_eq (s : Session) (raw : Bytes) :
    ∃ after before, Plain after ∧ Plain before ∧
      s.answerNotices raw = after ++ (s.statusNotices raw ++ .received raw :: before) :=
  ⟨_, _, plain_progressNotices _, (s.plain_moveNotices .response).append s.plain_haltNotices, rfl⟩

end Session

/-! ## Notices of commands -/

def Notice.isBracket : Notice → Bool
  | .started _ => true
  | .finished _ _ => true
  | _ => false

def brackets (ns : List Notice) : List Notice := ns.filter Notice.isBracket

theorem brackets_append (ns ns' : List Notice) :
    brackets (ns ++ ns') = brackets ns ++ brackets ns' :=
  List.filter_append _ _

theorem brackets_behind {ns ns' : List Notice} (h : brackets ns' = []) :
    brackets (ns' ++ ns) = brackets ns := by
  rw [brackets_append, h]
  rfl

theorem Plain.brackets_eq_nil {ns : List Notice} (h : Plain ns) : brackets ns = [] := by
  refine List.filter_eq_nil_iff.2 fun n hn => ?_
  have hp := h n hn
  cases n <;> first | exact Bool.false_ne_true | cases hp

namespace Engine

variable {W : Type} [Host W] {e e' : Engine W} {command : Command} {id : TimerId} {signal : Signal}
  {s : Session} {ns : List Notice} {outcome : Option (Except DownloadError Unit)}

theorem Reacts.brackets_eq_nil (h : e.Reacts e' command id signal s ns outcome) :
    brackets ns = [] := by
  have ha : ∀ raw, brackets (e.session.answerNotices raw) = [] := by
    intro raw
    obtain ⟨after, before, hp, hp', he⟩ := e.session.answerNotices_eq raw
    rw [he, brackets_append, hp.brackets_eq_nil]
    rcases e.session.statusNotices_cases raw with hs | ⟨status, hs⟩ <;> rw [hs] <;>
      exact hp'.brackets_eq_nil
  cases h with
  | writeFailed => rfl
  | timerRefused => rfl
  | listens => rfl
  | readFailed => exact e.session.plain_haltNotices.brackets_eq_nil
  | silent =>
    rw [brackets_append, (Session.plain_venResetNotices _ _).brackets_eq_nil]
    rfl
  | resends => rfl
  | _ => exact ha _

omit [Host W] in
theorem Prepares.brackets_eq_nil {c : Call} {request : Request} {userData : Option Bytes}
    {capacity : Nat} (h : e.Prepares c s ns request userData capacity) : brackets ns = [] := by
  cases h <;> rfl

theorem Launches.brackets_eq_nil {failure : Option DownloadError} {armed : Session}
    (h : e.Launches e' armed s ns failure) : brackets ns = [] := by
  cases h <;> rfl

/-- A launch opens its command and no other. -/
theorem Launches.brackets_started {failure : Option DownloadError} {armed : Session}
    {ns₀ : List Notice} (h : e.Launches e' armed s ns failure) (h₀ : brackets ns₀ = [])
    (command : Command) : brackets (ns ++ .started command :: ns₀) = [.started command] :=
  (brackets_behind h.brackets_eq_nil).trans (congrArg (_ :: ·) h₀)

/-! ## What an answer leads to, by its verdict -/

section

variable {r : Ticket} {raw : Bytes} {s₁ : Session} {err : DownloadError}

theorem Reacts.of_done (hv : e.session.answering.handleAnswer raw = (.done, s₁))
    (h : e.Reacts e' command id (.received r (.ok raw)) s ns outcome) :
    s = s₁ ∧ ns = e.session.answerNotices raw ∧ outcome = some (.ok ()) := by
  obtain ⟨hv, rfl⟩ := Prod.ext_iff.1 hv
  cases h with
  | done => exact ⟨rfl, rfl, rfl⟩
  | _ => cases hv.symm.trans ‹_›

theorem Reacts.of_failed (hv : e.session.answering.handleAnswer raw = (.failed err, s₁))
    (h : e.Reacts e' command id (.received r (.ok raw)) s ns outcome) :
    s = s₁ ∧ ns = e.session.answerNotices raw ∧ outcome = some (.error err) := by
  obtain ⟨hv, rfl⟩ := Prod.ext_iff.1 hv
  cases h with
  | failed h' => exact ⟨rfl, rfl, by cases hv.symm.trans h'; rfl⟩
  | _ => cases hv.symm.trans ‹_›

theorem Reacts.of_resend (hv : e.session.answering.handleAnswer raw = (.resend, s₁))
    (h : e.Reacts e' command id (.received r (.ok raw)) s ns outcome) :
    ∃ after, Plain after ∧ ns = after ++ e.session.answerNotices raw ∧
      ((s = s₁.countBusy ∧ ∃ err, outcome = some (.error err)) ∨
        ∃ t, s = s₁.holding t ∧ outcome = none) := by
  obtain ⟨hv, rfl⟩ := Prod.ext_iff.1 hv
  cases h with
  | exhausted => exact ⟨[], .of_all rfl, rfl, .inl ⟨rfl, _, rfl⟩⟩
  | waitRefused => exact ⟨[_], .of_all rfl, rfl, .inl ⟨rfl, _, rfl⟩⟩
  | holds => exact ⟨[_, _, _], .of_all rfl, rfl, .inr ⟨_, rfl, rfl⟩⟩
  | _ => cases hv.symm.trans ‹_›

theorem Reacts.of_proceed (hv : e.session.answering.handleAnswer raw = (.proceed, s₁))
    (h : e.Reacts e' command id (.received r (.ok raw)) s ns outcome) :
    (∃ err, { s₁ with phase := .send }.compose = (.error err, s) ∧
      ns = .moved .response .send :: e.session.answerNotices raw ∧ outcome = some (.error err)) ∨
    ∃ s₂ t, { s₁ with phase := .send }.compose = (.ok (), s₂) ∧ s = s₂.sending t ∧
      ns = .sent s₂.frame.bytes :: .moved .send .recv :: .moved .response .send ::
        e.session.answerNotices raw ∧ Unhindered W outcome := by
  obtain ⟨hv, rfl⟩ := Prod.ext_iff.1 hv
  cases h with
  | frameRefused _ hc => exact .inl ⟨_, hc, rfl, rfl⟩
  | proceeds _ hc _ ho => exact .inr ⟨_, _, hc, rfl, rfl, ho⟩
  | _ => cases hv.symm.trans ‹_›

end

end Engine

end FirmwareDownload
