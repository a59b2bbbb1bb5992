import FirmwareDownload.Proofs.Engine.Notices

/-! What goes over the link in a session, read off its notices, newest first: the frames that were
sent for the first time, and the answers they got in the end. -/

namespace FirmwareDownload

def statusOf (raw : Bytes) : Option Status :=
  match Frame.decode raw with
  | .ok answer => some answer.status
  | .error _ => none

theorem statusOf_eq_some {raw : Bytes} {status : Status} (h : statusOf raw = some status) :
    ∃ answer, Frame.decode raw = .ok answer ∧ answer.status = status := by
  unfold statusOf at h
  split at h
  · rename_i answer hd
    exact ⟨answer, hd, Option.some.inj h⟩
  · cases h

theorem statusOf_of_decode {raw : Bytes} {answer : Frame} (h : Frame.decode raw = .ok answer) :
    statusOf raw = some answer.status := by
  rw [statusOf, h]

/-- A busy memory has any command resend that may. -/
theorem Session.handleAnswer_memBusy {s : Session} {command : Command} {raw : Bytes}
    (hc : s.command = some command) (hs : command.shape = .readWrite)
    (hb : statusOf raw = some .memBusy) :
    s.handleAnswer raw = (.resend, { s with lastStatus := some .memBusy }) := by
  have hr : command ≠ .raw := by
    rintro rfl
    cases hs
  obtain ⟨answer, hd, ha⟩ := statusOf_eq_some hb
  rw [handleAnswer_framed hc hr, hd]
  exact if_pos ⟨ha, hs⟩

def lastSent : List Notice → Option Bytes
  | [] => none
  | .sent frame :: _ => some frame
  | _ :: ns => lastSent ns

/-- The last frame was answered by a busy memory and was not sent again yet. -/
def owesResend : List Notice → Bool
  | [] => false
  | .sent _ :: _ => false
  | .received raw :: _ => statusOf raw = some .memBusy
  | _ :: ns => owesResend ns

/-- The frame, handed over after `ns`, is the last one again, behind a busy memory. -/
def Retransmits (ns : List Notice) (frame : Bytes) : Prop :=
  owesResend ns = true ∧ lastSent ns = some frame

instance (ns : List Notice) (frame : Bytes) : Decidable (Retransmits ns frame) := by
  unfold Retransmits
  infer_instance

/-- The frames sent but those sent again, oldest first. -/
def freshFrames : List Notice → List Bytes
  | [] => []
  | .sent frame :: ns => freshFrames ns ++ (if Retransmits ns frame then [] else [frame])
  | _ :: ns => freshFrames ns

/-- The statuses of the answers but those of a busy memory, oldest first. -/
def answers : List Notice → List (Option Status)
  | [] => []
  | .received raw :: ns =>
    answers ns ++ (if statusOf raw = some .memBusy then [] else [statusOf raw])
  | _ :: ns => answers ns

/-- The answers as they came, but those of a busy memory, oldest first. -/
def replies : List Notice → List Bytes
  | [] => []
  | .received raw :: ns =>
    replies ns ++ (if statusOf raw = some .memBusy then [] else [raw])
  | _ :: ns => replies ns

structure SameExchange (ns ns' : List Notice) : Prop where
  lastSent : lastSent ns = lastSent ns'
  owesResend : owesResend ns = owesResend ns'
  freshFrames : freshFrames ns = freshFrames ns'
  answers : answers ns = answers ns'

theorem SameExchange.trans {ns₁ ns₂ ns₃ : List Notice} (h : SameExchange ns₁ ns₂)
    (h' : SameExchange ns₂ ns₃) : SameExchange ns₁ ns₃ :=
  ⟨h.lastSent.trans h'.lastSent, h.owesResend.trans h'.owesResend,
    h.freshFrames.trans h'.freshFrames, h.answers.trans h'.answers⟩

theorem SameExchange.received {ns ns' : List Notice} (h : SameExchange ns ns') (raw : Bytes) :
    SameExchange (.received raw :: ns) (.received raw :: ns') :=
  ⟨h.lastSent, rfl, h.freshFrames, congrArg (· ++ _) h.answers⟩

theorem SameExchange.sent {ns ns' : List Notice} (h : SameExchange ns ns') (frame : Bytes) :
    SameExchange (.sent frame :: ns) (.sent frame :: ns') := by
  have hr : Retransmits ns frame ↔ Retransmits ns' frame := by
    rw [Retransmits, Retransmits, h.owesResend, h.lastSent]
  refine ⟨rfl, rfl, ?_, h.answers⟩
  simp only [FirmwareDownload.freshFrames, hr, h.freshFrames]

theorem SameExchange.answered {ns ns' : List Notice} (h : SameExchange ns ns') (status : Status) :
    SameExchange (.answered status :: ns) ns' :=
  ⟨h.lastSent, h.owesResend, h.freshFrames, h.answers⟩

theorem SameExchange.finished {ns ns' : List Notice} (h : SameExchange ns ns') (command : Command)
    (error : Option DownloadError) : SameExchange (.finished command error :: ns) ns' :=
  ⟨h.lastSent, h.owesResend, h.freshFrames, h.answers⟩

theorem Plain.sameExchange {ns : List Notice} (h : Plain ns) (ns' : List Notice) :
    SameExchange (ns ++ ns') ns' := by
  induction ns with
  | nil => exact ⟨rfl, rfl, rfl, rfl⟩
  | cons n ns ih =>
    have ih := ih h.tail
    have hn := h n (List.mem_cons_self ..)
    cases n <;> first | exact ⟨ih.lastSent, ih.owesResend, ih.freshFrames, ih.answers⟩ | cases hn

theorem Plain.replies {ns : List Notice} (h : Plain ns) (ns' : List Notice) :
    replies (ns ++ ns') = replies ns' := by
  induction ns with
  | nil => rfl
  | cons n ns ih =>
    have ih := ih h.tail
    have hn := h n (List.mem_cons_self ..)
    cases n <;> first | exact ih | cases hn

theorem Session.sameExchange_answerNotices (s : Session) (raw : Bytes) (ns : List Notice) :
    SameExchange (s.answerNotices raw ++ ns) (.received raw :: ns) := by
  obtain ⟨after, before, hp, hp', he⟩ := s.answerNotices_eq raw
  have hr := (hp'.sameExchange ns).received raw
  rw [he, List.append_assoc, List.append_assoc]
  refine (hp.sameExchange _).trans ?_
  rcases s.statusNotices_cases raw with hs | ⟨status, hs⟩
  · rw [hs]
    exact hr
  · rw [hs]
    exact hr.answered status

theorem Session.replies_answerNotices (s : Session) (raw : Bytes) (ns : List Notice) :
    replies (s.answerNotices raw ++ ns) = replies (.received raw :: ns) := by
  obtain ⟨after, before, hp, hp', he⟩ := s.answerNotices_eq raw
  have hr : replies (.received raw :: (before ++ ns)) = replies (.received raw :: ns) := by
    rw [replies, replies, hp'.replies]
  rw [he, List.append_assoc, List.append_assoc, hp.replies]
  rcases s.statusNotices_cases raw with hs | ⟨status, hs⟩
  · rw [hs]
    exact hr
  · rw [hs]
    exact hr

end FirmwareDownload
