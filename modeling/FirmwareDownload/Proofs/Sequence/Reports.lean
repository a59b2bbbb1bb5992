import Mathlib.Tactic.SplitIfs
import FirmwareDownload.Proofs.Sequence.Spelling
import FirmwareDownload.Sequence.Sequencer

/-! What the steps make of the reports of the controller. None of these reports leads to a failure
that an image may mend. -/

namespace FirmwareDownload

/-- The version in a report that has the length for its revision. -/
def reportedVersion (report : Bytes) : FirmwareVersion :=
  ⟨report.byteAt (report.length - 1), report.byteAt (report.length - 2)⟩

theorem RegionFlags.isOk_iff {flags : RegionFlags} :
    flags.isOk = true ↔ ∀ region, flags.passed region = true := by
  have hall : ∀ b : BitVec 8,
      (RegionFlags.mk ⟨b⟩).isOk = Region.all.all (RegionFlags.mk ⟨b⟩).passed := by decide +kernel
  have hb := hall flags.byte.toBitVec
  have hm : ∀ region, region ∈ Region.all := by
    intro region
    cases region <;> decide
  rw [show flags.isOk = Region.all.all flags.passed from hb, List.all_eq_true]
  exact ⟨fun h region => h region (hm region), fun h region _ => h region⟩

namespace Sequencer

variable {W : Type} {s : Sequencer W} {report : Bytes} {err : DownloadError}

/-- A session report of three bytes and the operational life cycle tells whether a session is
open; after a write none may be. -/
theorem takeSessionState_cases (s : Sequencer W) (report : Bytes) :
    (∃ err, s.takeSessionState report = (.error err, s) ∧ err.isRecoverable = false) ∨
    ∃ isOpen, report.length = 3 ∧ report.byteAt 2 = 17 ∧ isOpen = decide (report.byteAt 0 = 1) ∧
      ((isOpen = true ∧ s.flags.unlogged = true ∧
          ∃ err, s.takeSessionState report = (.error err, s.withFlags
            { s.flags with sessionOpen := true, retry := s.mayTry }) ∧ err.isRecoverable = false) ∨
        (isOpen = false ∨ s.flags.unlogged = false) ∧ s.takeSessionState report =
          (.ok (), s.withFlags { s.flags with sessionOpen := isOpen })) := by
  unfold Sequencer.takeSessionState
  dsimp only
  split_ifs with hl hc hu
  · exact .inl ⟨_, rfl, rfl⟩
  · exact .inl ⟨_, rfl, rfl⟩
  · refine .inr ⟨_, Decidable.not_not.1 hl, Decidable.not_not.1 hc, rfl, .inl ?_⟩
    obtain ⟨ho, hu⟩ := Bool.and_eq_true_iff.1 hu
    rw [ho]
    exact ⟨rfl, hu, _, rfl, rfl⟩
  · refine .inr ⟨_, Decidable.not_not.1 hl, Decidable.not_not.1 hc, rfl, .inr ⟨?_, rfl⟩⟩
    exact Bool.and_eq_false_iff.1 (Bool.eq_false_iff.2 hu)

def revised (s : Sequencer W) (revision : UInt8) : Sequencer W :=
  { s with chipVersion := some revision }

/-- A version report is of a known revision. Of the right length, its version is checked. -/
theorem takeVersion_cases (s : Sequencer W) (report : Bytes) :
    (∃ err chip, s.takeVersion report = (.error err, { s with chipVersion := chip }) ∧
      err.isRecoverable = false) ∨
    ∃ hardware expected, report.head? = some hardware ∧
      reportLength? (hardware &&& 0x0F) = some expected ∧
      (report.length ≠ expected ∧
          s.takeVersion report = (.ok (), s.revised (hardware &&& 0x0F)) ∨
        report.length = expected ∧ s.takeVersion report =
          if s.flags.unlogged then (s.revised (hardware &&& 0x0F)).checkAfter
            (s.imageVersion.getD ⟨0, 0⟩) (reportedVersion report)
          else (s.revised (hardware &&& 0x0F)).checkBefore
            (s.imageVersion.getD ⟨0, 0⟩) (reportedVersion report)) := by
  unfold Sequencer.takeVersion
  cases report with
  | nil => exact .inl ⟨_, s.chipVersion, rfl, rfl⟩
  | cons hardware rest =>
    dsimp only
    cases hl : reportLength? (hardware &&& 0x0F) with
    | none => exact .inl ⟨_, s.chipVersion, rfl, rfl⟩
    | some expected =>
      dsimp only
      by_cases he : (hardware :: rest).length = expected
      · rw [if_neg (not_not_intro he)]
        subst he
        by_cases hv : Bytes.byteAt (hardware :: rest) 1 = 0x07 ∧
            (s.imageVersion.getD ⟨0, 0⟩).major ≠ 0x01
        · rw [if_pos hv]
          exact .inl ⟨_, _, rfl, rfl⟩
        · rw [if_neg hv]
          exact .inr ⟨hardware, _, rfl, hl, .inr ⟨rfl, rfl⟩⟩
      · rw [if_pos he]
        exact .inr ⟨hardware, expected, rfl, hl, .inl ⟨he, rfl⟩⟩

theorem checkAfter_cases (s : Sequencer W) (image current : FirmwareVersion) :
    (∃ err, s.checkAfter image current = (.error err, s) ∧ err.isRecoverable = false) ∨
    current = image ∧ s.checkAfter image current = (.ok (), { s with statistics :=
      { s.statistics with
        middleware := s.options.middleware
        firmware := word current.major current.minor } }) := by
  unfold Sequencer.checkAfter
  split_ifs with h
  · exact .inl ⟨_, rfl, rfl⟩
  · exact .inr ⟨(Decidable.not_not.1 h).symm, rfl⟩

theorem checkBefore_cases (s : Sequencer W) (image current : FirmwareVersion) :
    (∃ err, s.checkBefore image current = (.error err, s) ∧ err.isRecoverable = false) ∨
    s.checkBefore image current = (.ok (), s) ∨
    s.options.forceDownload = true ∧
      s.checkBefore image current = (.ok (), s.withFlags { s.flags with forced := true }) ∨
    s.checkBefore image current =
      (.ok (), { s.withFlags { s.flags with skipRest := true } with upToDate := true }) := by
  unfold Sequencer.checkBefore
  split_ifs with _ _ hf
  · exact .inl ⟨_, rfl, rfl⟩
  · exact .inr (.inr (.inl ⟨hf, rfl⟩))
  · exact .inr (.inr (.inr rfl))
  · exact .inr (.inl rfl)

/-- An integrity report of the right length has to say that all regions passed. -/
theorem takeIntegrity_ok (h : (s.takeIntegrity report).1 = .ok ()) :
    report.length ≠ 31 ∨ ∃ flags, RegionFlags.ofReport? report = some flags ∧
      ∀ region, flags.passed region = true := by
  unfold Sequencer.takeIntegrity at h
  by_cases hl : report.length ≠ 31
  · exact .inl hl
  · rw [if_neg hl] at h
    cases report with
    | nil => exact .inl (by decide)
    | cons byte rest =>
      refine .inr ⟨⟨byte⟩, rfl, RegionFlags.isOk_iff.1 ?_⟩
      cases hok : (RegionFlags.mk byte).isOk with
      | true => rfl
      | false => simp [RegionFlags.ofReport?, hok] at h

end Sequencer

end FirmwareDownload
