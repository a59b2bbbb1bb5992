import FirmwareDownload.Proofs.Bench.Writes
import FirmwareDownload.Proofs.Engine.BusyMemory

/-! The frames of a write to a controller with which nothing is injected: each slice of the image is
handed over once, in order, and nothing else is. -/

namespace FirmwareDownload

theorem filterMap_sent_filter {p : Notice → Bool} (hp : ∀ frame, p (.sent frame) = true)
    (ns : List Notice) : (ns.filter p).filterMap Notice.sent? = ns.filterMap Notice.sent? := by
  rw [List.filterMap_filter]
  congr
  funext n
  cases n with
  | sent frame => rw [if_pos (hp frame)]
  | _ => exact ite_self none

/-- The frames that were handed over are those of the traffic. -/
theorem sentFrames_journal {W : Type} (e : Engine W) :
    sentFrames e.journal = (traffic e.notices).filterMap Notice.sent? := by
  rw [sentFrames, marks, traffic, Engine.notices, filterMap_sent_filter fun _ => rfl,
    List.filterMap_reverse, List.filterMap_reverse, filterMap_sent_filter fun _ => rfl]

namespace Controller

/-- Nothing is injected into the controller, and its last frame was not part of a write. -/
structure Undisturbed (c : Controller) : Prop where
  openRecord : c.openRecord = none
  inBurst : c.inBurst = false
  pending : c.pending = 0

theorem Undisturbed.onlyBusy {c : Controller} (h : c.Undisturbed) : c.OnlyBusy := by
  intro status hs
  have hp := h.pending
  rw [Controller.pending, ← List.length_append] at hp
  rw [List.length_eq_zero_iff.1 hp] at hs
  cases hs

end Controller

namespace Session

variable {s : Session} {image : Image} {pre post : List Bytes} {body raw : Bytes} {i : Nat}
  {c c₀ : Controller}

/-- With nothing injected the slice was acknowledged. The next one is sent, or the write is done. -/
theorem WritesTo.next_taken (h : s.WritesTo c₀ image pre body post i 0 raw c)
    (hz : c₀.pending = 0) (limit : Option UInt32) :
    (∃ s', s.next limit raw = .ends s' (.ok ()) ∧ s'.responseLength = 0 ∧
      Record.upTo Record.sliceFrame pre body (i + 1) = image.writeFrames) ∨
    ∃ s' pre' body' post' i', s.next limit raw = .sends s' ∧
      s'.WritesOn c₀ image pre' body' post' i' 0 c ∧
      Record.upTo Record.sliceFrame pre' body' (i' + 1) =
        Record.upTo Record.sliceFrame pre body (i + 1) ++ [s'.frame.bytes] := by
  rcases h.answer with ⟨-, -, hp⟩ | ⟨hk, hp, ht, -⟩
  · omega
  · rcases h.writing.next_acknowledged h.command hk limit with
      ⟨s₁, hn, hr, hbeh⟩ | ⟨s₁, pre', body', post', i', hn, hw, hr, hbeh, -⟩
    · exact .inl ⟨s₁, hn, hr, Record.upTo_behind_all Record.sliceFrame hbeh⟩
    · rw [hbeh] at ht
      have hcmd := (next_kept (.inl hn)).1.trans h.command
      have hrec := h.writing.records.symm.trans hw.records
      have hp' : s₁.resendCount.toNat + c.pending ≤ c₀.pending + 0 := by
        rw [hr, UInt32.toNat_zero]
        omega
      refine .inr ⟨s₁, pre', body', post', i', hn, ⟨hcmd, hw, ht, hp'⟩, ?_⟩
      rw [Record.upTo_succ _ _ hw.transfer.lt_sliceCount, Record.upTo_behind _ hrec hbeh, hw.frame]

end Session

namespace Talk

variable {T T' : Talk} {c₀ : Controller} {image : Image} {old done done' : List Completion}
  {before : List Bytes} {limit : Option UInt32} {heard heard' : List Notice} {m : BenchMove}

/-- A write is under way that found the controller like `c₀`, or it is over and was delivered.
Behind the frames `before` it handed over all slices up to the one in flight. -/
def Hands (c₀ : Controller) (image : Image) (old : List Completion) (before : List Bytes) :
    Talk → List Notice → List Completion → Prop
  | idle _, heard, done => done = ⟨.write, .ok (), []⟩ :: old ∧
    heard.filterMap Notice.sent? = before ++ image.writeFrames
  | out s raw c, heard, done | due s raw c, heard, done => done = old ∧
    ∃ pre body post i, s.WritesTo c₀ image pre body post i 0 raw c ∧
      heard.filterMap Notice.sent? = before ++ Record.upTo Record.sliceFrame pre body (i + 1)
  | held _ _, _, _ => False

theorem Hands.goes (h : T.Hands c₀ image old before heard done) (hc : T.controller.Serving)
    (hu : c₀.Undisturbed) (hg : Goes limit T heard' done' T') :
    T'.Hands c₀ image old before (heard ++ heard') (done' ++ done) := by
  cases hg with
  | hears =>
    obtain ⟨hd, pre, body, post, i, h, hh⟩ := h
    exact ⟨hd, pre, body, post, i, h.congr rfl rfl rfl, (List.append_nil heard).symm ▸ hh⟩
  | ends hcmd hn =>
    obtain ⟨rfl, pre, body, post, i, h, hh⟩ := h
    obtain rfl := Option.some.inj (hcmd.symm.trans h.command)
    rcases h.next_taken hu.pending limit with ⟨s₁, hn', hr, ha⟩ | ⟨s₁, _, _, _, _, hn', -⟩
    · obtain ⟨rfl, rfl⟩ := Session.Next.ends.inj (hn.symm.trans hn')
      refine ⟨?_, ?_⟩
      · simp [hr, ResponseBuffer.take_eq]
      · simp [hh, ha, Notice.sent?]
    · cases hn.symm.trans hn'
  | sends hn ha =>
    obtain ⟨rfl, pre, body, post, i, h, hh⟩ := h
    rcases h.next_taken hu.pending limit with
      ⟨s₁, hn', -⟩ | ⟨s₁, pre', body', post', i', hn', h', hs⟩
    · cases hn.symm.trans hn'
    · obtain rfl := Session.Next.sends.inj (hn.symm.trans hn')
      refine ⟨rfl, pre', body', post', i', (h'.answered hc hu.inBurst ha).congr rfl rfl rfl, ?_⟩
      rw [List.filterMap_append, hh, hs, List.append_assoc]
      rfl
  | holds hn =>
    obtain ⟨-, pre, body, post, i, h, -⟩ := h
    rcases h.next_taken hu.pending limit with ⟨s₁, hn', -⟩ | ⟨s₁, _, _, _, _, hn', -⟩ <;>
      cases hn.symm.trans hn'
  | resends => exact h.elim

theorem Hands.step (h : T.Hands c₀ image old before heard done) (hc : T.controller.Serving)
    (hu : c₀.Undisturbed) (hm : m = .handleNext ∨ ∃ ticket, m = .expire ticket)
    (hs : T.Step limit m heard' done' T') :
    T'.Hands c₀ image old before (heard ++ heard') (done' ++ done) := by
  cases hs with
  | rests => exact (List.append_nil heard).symm ▸ h
  | goes hg => exact h.goes hc hu hg
  | _ => rcases hm with hm | ⟨_, hm⟩ <;> cases hm

end Talk

namespace Engine

variable {e : Engine (Bench Controller)} {c : Controller} {recovery : Bool} {wanted : Option Bytes}
  {image : Image}

/-- A write hands over the frames of its image one after the other and succeeds. -/
theorem InStep.handsOver (h : e.InStep (.idle c)) (hu : c.Undisturbed)
    (hp : e.Picks recovery image wanted) :
    ∃ e₁, e.call (.write recovery wanted) = (.ok (), e₁) ∧
      ∀ moves, (∀ m ∈ moves, m = .handleNext ∨ ∃ ticket, m = .expire ticket) →
        (∃ k, (attend^[k] (e₁.plays moves)).session.Idle) ∧
        ((e₁.plays moves).session.Idle →
          (e₁.plays moves).delivered = ⟨.write, .ok (), []⟩ :: e.delivered ∧
          sentFrames (e₁.plays moves).journal = sentFrames e.journal ++ image.writeFrames) := by
  obtain ⟨e₁, s, raw, c', body, post, hcall, h₁, hw, ht, hd, -⟩ :=
    h.startsWriting hu.openRecord hu.inBurst hu.onlyBusy hp
  have hfirst : (traffic e₁.notices).filterMap Notice.sent? =
      sentFrames e.journal ++ Record.upTo Record.sliceFrame [] body (0 + 1) := by
    rw [ht, List.filterMap_append, ← sentFrames_journal,
      Record.upTo_succ _ _ hw.writing.transfer.lt_sliceCount, Record.upTo_zero]
    rfl
  refine ⟨e₁, hcall, fun moves hm => ?_⟩
  obtain ⟨hk, hend⟩ := h₁.attended
    (fun T heard done => T.Hands c image e.delivered (sentFrames e.journal) heard done)
    (.writes hw.command hw.writing) ⟨hd, [], body, post, 0, hw, hfirst⟩
    (fun hinv hs hm hstep => hinv.step hs hu hm hstep) hm
  refine ⟨hk, fun hidle => ?_⟩
  obtain ⟨_, -, hdone, hsent⟩ := hend hidle
  exact ⟨hdone, sentFrames_journal (e₁.plays moves) ▸ hsent⟩

end Engine

end FirmwareDownload
