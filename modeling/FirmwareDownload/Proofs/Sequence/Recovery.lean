import FirmwareDownload.Bench.Rehearsal
import FirmwareDownload.Proofs.Engine.LastFailure
import FirmwareDownload.Proofs.Engine.Stock
import FirmwareDownload.Proofs.Sequence.Course

/-! What a recover step sends: the image that mends the last failed write, or the primary one if
a busy memory came between. -/

namespace FirmwareDownload

/-- The frames are the first ones of the image of that kind. Without such an image there are
none. -/
def ImageLibrary.Covers (library : ImageLibrary) (kind : ImageKind) (frames : List Bytes) : Prop :=
  frames = [] ∨ ∃ image, library kind = .ok image ∧ frames <+: image.writeFrames

namespace Sequencer

variable {W : Type} [Host W] {s s' : Sequencer W} {library : ImageLibrary}

theorem recover_engine (s : Sequencer W) : s.recover.2.engine =
    if s.flags.recovery then (s.attempt (.write true none)).2.engine else s.engine := by
  unfold Sequencer.recover
  by_cases hr : s.flags.recovery = true
  · have ha : (({ s.withFlags { s.flags with recovery := false } with
        attempts := s.attempts + 1 } : Sequencer W).attempt (.write true none)).2.engine =
        (s.attempt (.write true none)).2.engine := rfl
    rw [if_pos hr, if_neg (by simp [hr]), ← ha]
    dsimp only
    split <;> rename_i he <;> rw [he] <;> rfl
  · rw [if_neg hr, if_pos (by simp [hr])]

theorem takeStep_recover_engine (s : Sequencer W) : (s.takeStep .recover).2.engine =
    if s.flags.recovery then (s.attempt (.write true none)).2.engine else s.engine :=
  recover_engine { s with history := .step .recover :: s.history }

/-- Whatever the recover step sends is of the image that is selected. -/
theorem recover_frames (hs : s.engine.Standing) (hl : s.engine.Stocked library) :
    ∃ ns, (s.takeStep .recover).2.engine.journal = ns ++ s.engine.journal ∧
      library.Covers (.select true s.engine.session.lastStatus) (freshFrames ns) ∧
      (s.flags.recovery = true → (s.engine.call (.write true none)).1 = .ok () →
        freshFrames ns ≠ []) := by
  rw [takeStep_recover_engine]
  split
  · have hc := hs.call_calls (.write true none)
    rcases s.attempt_cases (.write true none) with ⟨err, he⟩ | ⟨e, he, moves, hm, hr⟩
    · rw [he] at hc
      obtain ⟨ns, hj, hf⟩ := hc.frames hs
      refine ⟨ns, hj, hf.imp_right ?_, fun _ hok => ?_⟩
      · rintro ⟨image, hi, hp⟩
        exact ⟨image, hl.takes hi, hp⟩
      · rw [he] at hok
        cases hok
    · rw [he] at hc
      obtain ⟨image, hi, hco⟩ := hc.course hs
      obtain ⟨ns, hj, hn, hp⟩ := (hco.run hm).frames
      exact ⟨ns, hr ▸ hj, .inr ⟨image, hl.takes hi, hp⟩, fun _ _ => hn⟩
  · rename_i hf
    exact ⟨[], rfl, .inl rfl, fun ht => (hf ht).elim⟩

theorem Comes.recalls {step : Step} (h : s.Comes step s') (hf : s.flags = {})
    (hs : s.engine.Standing) : ∃ ns, s'.engine.journal = ns ++ s.engine.journal ∧
      s'.engine.session.Recalls ns := by
  obtain ⟨⟨moves, he⟩, hb⟩ := h.moves hf
  have hr := (Engine.recollects_idle (hs.idle_of_not_busy hb)).run hs moves
  rw [he]
  exact hr

/-- The recovery write takes the image that mends the last write that failed, unless a command
since then was held up by a busy memory: then it takes the primary image. -/
theorem recovery_mends_unless_busy (config : Config) (library : ImageLibrary) (w : W)
    (moves : List (Move W)) (options : SequenceOptions) :
    let s : Sequencer W :=
      { engine := (Engine.fresh config library w).run moves, options := options }
    (∀ budget report s₁ pre, s.run budget = some (report, s₁) → s₁.Notes .recover pre →
      ∃ s', s.Comes .recover s' ∧ s'.history = pre) ∧
    ∀ s', s.Comes .recover s' → ∃ ns ns', s'.engine.journal = ns ++ s.engine.journal ∧
      (s'.takeStep .recover).2.engine.journal = ns' ++ s'.engine.journal ∧
      (s'.flags.recovery = true → (s'.engine.call (.write true none)).1 = .ok () →
        freshFrames ns' ≠ []) ∧
      (failedWrite ns = some .rejected →
        library.Covers (if busySince ns then .primary else .productionKey) (freshFrames ns')) ∧
      (failedWrite ns = some .writeFailed →
        library.Covers (if busySince ns then .primary else .platformRecovery)
          (freshFrames ns')) := by
  intro s
  have hs := (Engine.standing_fresh config library w).run moves
  have hl := (Engine.stocked_fresh config library w).run (Engine.standing_fresh config library w)
    moves
  refine ⟨fun budget report s₁ pre hr hn => ?_, fun s' hc => ?_⟩
  · exact (run_notes hr hn).resolve_left fun hn => List.cons_ne_nil _ _ (List.suffix_nil.1 hn)
  · obtain ⟨⟨later, he⟩, -⟩ := hc.moves rfl
    obtain ⟨ns, hj, hrec⟩ := hc.recalls rfl hs
    have hs' : s'.engine.Standing := he ▸ hs.run later
    have hl' : s'.engine.Stocked library := he ▸ hl.run hs later
    obtain ⟨ns', hj', hf, hn⟩ := recover_frames hs' hl'
    refine ⟨ns, ns', hj, hj', hn, fun hw => ?_, fun hw => ?_⟩
    · rw [hrec.status _ _ hw rfl] at hf
      cases hb : busySince ns <;> rw [hb] at hf <;> exact hf
    · rw [hrec.status _ _ hw rfl] at hf
      cases hb : busySince ns <;> rw [hb] at hf <;> exact hf

def threeImages : ImageLibrary
  | .primary => Image.ofBytes [0x00, 0x05, 0xC0, 0x11, 0x1A, 0x08, 0x11]
  | .platformRecovery => Image.ofBytes [0x00, 0x05, 0xC0, 0x22, 0x22, 0x22, 0x22]
  | .productionKey => Image.ofBytes [0x00, 0x05, 0xC0, 0x33, 0x33, 0x33, 0x33]

/-- A sequence with the controller that the script plays, and with three images. -/
def rehearsed (script : Script) (options : SequenceOptions) : Sequencer Rehearsal where
  engine := .fresh {} threeImages
    { stage := .mock {} script .none false
      responseTimeout := ({} : Config).responseTimeout.toNat }
  options := options

/-- The controller rejects the signature of what is written. For the log command after the first
write its memory is busy. -/
def rejectedThenBusy : Script where
  answers := [
    (some 0xF2, [.status 0x00 [0x00, 0x00, 0x11]]),
    (some 0xF1, [.status 0x00 [0x08, 0x10, 0x00, 0x00, 0x00, 0x00, 0x00, 0x19, 0x08]]),
    (some 0xA2, [.status 0x00 ([0x00, 0x0D, 0x00, 0x00] ++ List.replicate 12 0)]),
    (some 0xC0, [.status 0x21 []]),
    (some 0xA7, [.status 0x20 [], .status 0x00 []]),
    (some 0xF0, [.status 0x00 []])]

def firstFrame (kind : ImageKind) : Option Bytes :=
  (threeImages kind).toOption.bind fun image => image.writeFrames.head?

def heldUp : Sequencer Rehearsal where
  engine := .fresh {} threeImages
    { stage := .mock {} rejectedThenBusy .none false
      responseTimeout := ({} : Config).responseTimeout.toNat }
  options := { maxAttempts := 2, stepLimit := 0 }

def heldUpLogged : Sequencer Rehearsal :=
  ((heldUp.start.2.react (.error .rejected)).runNext (.error .rejected) .log).2

def heldUpEntered : Sequencer Rehearsal :=
  ((heldUpLogged.react (.error .rejected)).prepared .recovery).entered .recovery

def heldUpAtRecover : Sequencer Rehearsal :=
  ((heldUpEntered.takeStep .reset).2.takeStep .force).2

theorem eq_of_errorOf {α : Type} {r : Except DownloadError Unit × α}
    (result : Except DownloadError Unit) (h : errorOf r.1 = errorOf result) :
    r = (result, r.2) := by
  obtain ⟨_ | _, s⟩ := r <;> cases result <;> cases h <;> rfl

theorem heldUp_comes : heldUp.Comes .recover heldUpAtRecover := by
  obtain ⟨hs, hl, hr, h₁, h₂⟩ : errorOf heldUp.start.1 = some .rejected ∧
      (heldUp.start.2.react (.error .rejected)).next? = some .log ∧
      (heldUpLogged.react (.error .rejected)).next? = some .recovery ∧
      errorOf (heldUpEntered.takeStep .reset).1 = none ∧
      errorOf ((heldUpEntered.takeStep .reset).2.takeStep .force).1 = none := by decide +kernel
  have hlog : ∀ s : Sequencer Rehearsal, s.runNext (.error .rejected) .log =
      (.error .rejected, (s.runNext (.error .rejected) .log).2) := fun _ => rfl
  have h₁ := eq_of_errorOf (.ok ()) h₁
  have h₂ := eq_of_errorOf (.ok ()) h₂
  have hw : heldUpEntered.Walks [.reset, .force, .recover, .coreReset] .recover heldUpAtRecover :=
    .next h₁ (.next h₂ .here)
  exact .later (eq_of_errorOf (.error .rejected) hs) (.next hl (hlog _) (.here hr hw))

/-- After a rejected signature and a busy memory the primary image is written again, and not the
one with the production key. -/
theorem rejected_then_busy_sends_primary : ∃ s' ns ns', heldUp.Comes .recover s' ∧
    s'.engine.journal = ns ++ heldUp.engine.journal ∧
    (s'.takeStep .recover).2.engine.journal = ns' ++ s'.engine.journal ∧
    failedWrite ns = some .rejected ∧ threeImages.Covers .primary (freshFrames ns') ∧
    ¬ threeImages.Covers .productionKey (freshFrames ns') := by
  obtain ⟨ns, ns', hj, hj', hn, hr, -⟩ := (recovery_mends_unless_busy {} threeImages
    heldUp.engine.world [] heldUp.options).2 heldUpAtRecover heldUp_comes
  rw [show (Engine.fresh {} threeImages heldUp.engine.world).run [] = heldUp.engine from rfl,
    show heldUp.engine.journal = [] from rfl, List.append_nil] at hj
  obtain ⟨hflag, hcall, hfail, hbusy, hfirst⟩ : heldUpAtRecover.flags.recovery = true ∧
      errorOf (heldUpAtRecover.engine.call (.write true none)).1 = none ∧
      failedWrite heldUpAtRecover.engine.journal = some .rejected ∧
      busySince heldUpAtRecover.engine.journal = true ∧
      firstFrame .primary ≠ firstFrame .productionKey := by decide +kernel
  rw [hj] at hfail hbusy
  have hcall := congrArg Prod.fst (eq_of_errorOf (.ok ()) hcall)
  obtain ⟨frame, rest, hf⟩ := List.exists_cons_of_ne_nil (hn hflag hcall)
  have hk : ∀ kind, threeImages.Covers kind (freshFrames ns') → firstFrame kind = some frame := by
    rintro kind (he | ⟨image, hi, later, hp⟩)
    · rw [hf] at he
      cases he
    · rw [hf] at hp
      rw [firstFrame, hi]
      exact congrArg List.head? hp.symm
  have hp := hr hfail
  rw [hbusy, if_pos rfl] at hp
  refine ⟨heldUpAtRecover, ns, ns', heldUp_comes, ?_, hj', hfail, hp, fun hc => ?_⟩
  · exact hj.trans (List.append_nil ns).symm
  · exact hfirst ((hk _ hp).trans (hk _ hc).symm)

end Sequencer

end FirmwareDownload
