import Mathlib.Tactic.SplitIfs
import FirmwareDownload.Proofs.Controller.Service
import FirmwareDownload.Proofs.Sequence.Deeds
import FirmwareDownload.Proofs.Sequence.Reports

/-! The steps of the main table in front of a controller of which nothing fails. Each gets its
command answered, so what it leads to is told by what the sequencer knows. -/

namespace FirmwareDownload

open Controller (versionReport sessionReport integrityReport)

namespace Sequencer

variable {s s' t : Sequencer (Bench Controller)} {e e' : Engine (Bench Controller)}
  {history : List SequenceEntry} {image : Image} {inBurst inBurst' : Bool}
  {id id' : ChipIdentity} {m m' : Memory} {n n' : Nat} {call : Call} {signals : Nat}
  {payload : Bytes} {r : Except DownloadError Unit}

def holding (s : Sequencer (Bench Controller)) (e : Engine (Bench Controller))
    (history : List SequenceEntry) : Sequencer (Bench Controller) :=
  { s with engine := e, history := history }

/-- But for the history and the engine, which faces the image and a controller with these contents,
`s'` is `s`. -/
def Knows (s' s : Sequencer (Bench Controller)) (image : Image) (inBurst : Bool)
    (id : ChipIdentity) (m : Memory) (n : Nat) : Prop :=
  ∃ e history, s' = s.holding e history ∧ e.Faces image inBurst id m n

theorem attempt_gets (h : e.Gets call signals payload e') (hp : signals ≤ s.options.patience) :
    (s.holding e history).attempt call = (.ended (.ok payload),
      s.holding e' (.command call (.ended (.ok payload)) :: history)) := by
  obtain ⟨d, ha, hends, hsettles⟩ := h
  rcases hc : e.call call with ⟨r, e₁⟩
  rw [hc] at ha hends
  obtain rfl : r = .ok () := ha
  have hd : completionSince e' e.delivered.length = some ⟨call.command, .ok (), payload⟩ := by
    simp [completionSince, hsettles.delivered]
  simp only [Sequencer.attempt, holding, hc, hends _ _ hp, hd]
  rfl

theorem Knows.note (h : s'.Knows s image inBurst id m n) (entry : SequenceEntry) :
    Knows { s' with history := entry :: s'.history } s image inBurst id m n := by
  obtain ⟨e, history, rfl, hf⟩ := h
  exact ⟨e, entry :: history, rfl, hf⟩

theorem Knows.attempts (h : s'.Knows s image inBurst id m n)
    (hg : ∀ e : Engine (Bench Controller), e.Faces image inBurst id m n →
      ∃ e', e.Gets call signals payload e' ∧ e'.Faces image inBurst' id' m' n')
    (hp : signals ≤ s.options.patience) :
    ∃ s'', s'.attempt call = (.ended (.ok payload), s'') ∧
      s''.Knows s image inBurst' id' m' n' := by
  obtain ⟨e, history, rfl, hf⟩ := h
  obtain ⟨e', hg, hf'⟩ := hg e hf
  exact ⟨_, attempt_gets hg hp, e', _, rfl, hf'⟩

/-- A step whose command is answered makes of the answer what the sequencer knows. -/
theorem Knows.performs {step : Step} {f : Sequencer (Bench Controller) → Bytes →
      Except DownloadError Unit × Sequencer (Bench Controller)}
    (h : s'.Knows s image inBurst id m n)
    (hg : ∀ e : Engine (Bench Controller), e.Faces image inBurst id m n →
      ∃ e', e.Gets call signals payload e' ∧ e'.Faces image inBurst' id' m' n')
    (hp : signals ≤ s.options.patience)
    (hs : ∀ e history, (s.holding e history).takeStep step =
      (s.holding e (.step step :: history)).performThen call f)
    (ht : ∀ e history, f (s.holding e history) payload = (r, t.holding e history)) :
    ∃ s'', s'.takeStep step = (r, s'') ∧ s''.Knows t image inBurst' id' m' n' := by
  obtain ⟨s₁, ha, e, history, rfl, hf⟩ := (h.note (.step step)).attempts hg hp
  refine ⟨t.holding e history, ?_, e, history, rfl, hf⟩
  obtain ⟨e₀, history₀, rfl, -⟩ := h
  have ha' : (s.holding e₀ (.step step :: history₀)).attempt call =
    (.ended (.ok payload), s.holding e history) := ha
  rw [← ht e history, hs]
  simp only [performThen, perform, ha']
  rfl

theorem Knows.normal (h : s'.Knows s image inBurst id m n) (hp : 2 ≤ s.options.patience)
    (hk : s.flags.skipForce = false) (hr : s.flags.recovery = false) :
    ∃ s'', s'.takeStep .normal = (.ok (), s'') ∧ s''.Knows s image false id m n := by
  obtain ⟨s'', ha, h'⟩ := (h.note (.step .normal)).attempts
    (fun e hf => hf.asks (.force s.options.clock) rfl trivial (Nat.zero_le _)) hp
  refine ⟨s'', ?_, h'⟩
  obtain ⟨e, history, rfl, -⟩ := h
  simp only [takeStep, Sequencer.normal, forceClock, holding] at ha ⊢
  simp [hk, hr, ha]
  rfl

theorem Knows.getSessionState (h : s'.Knows s image inBurst id m n) (hp : 2 ≤ s.options.patience)
    (hk : s.flags.skipRest = false) (ho : s.flags.sessionOpen = false) :
    ∃ s'', s'.takeStep .getSessionState = (.ok (), s'') ∧ s''.Knows s image false id m n := by
  have hflags : { s.flags with sessionOpen := false } = s.flags := by rw [← ho]
  refine h.performs
    (fun e hf => hf.asks (.getSessionState 3) rfl (Nat.succ_ne_zero 2) (by decide)) hp
    (fun e history => if_neg (by simp [holding, hk])) fun e history => ?_
  exact congrArg (fun f => (Except.ok (), (s.holding e history).withFlags f)) hflags

theorem takeVersion_holding (s : Sequencer (Bench Controller)) (report : Bytes)
    (e : Engine (Bench Controller)) (history : List SequenceEntry) :
    (s.holding e history).takeVersion report =
      ((s.takeVersion report).1, (s.takeVersion report).2.holding e history) := by
  unfold Sequencer.takeVersion Sequencer.checkAfter Sequencer.checkBefore
  cases report with
  | nil => rfl
  | cons hardware rest =>
    dsimp only [holding]
    cases reportLength? (hardware &&& 0x0F) with
    | none => rfl
    | some expected =>
      dsimp only
      split_ifs <;> rfl

theorem Knows.getVersion (h : s'.Knows s image inBurst id m n) (hp : 2 ≤ s.options.patience)
    (hk : s.flags.skipRest = false) (ho : s.flags.sessionOpen = false)
    (ht : s.takeVersion (versionReport id) = (r, t)) :
    ∃ s'', s'.takeStep .getVersion = (r, s'') ∧ s''.Knows t image false id m n := by
  refine h.performs
    (fun e hf => hf.asks (.getVersion 11) rfl (Nat.succ_ne_zero 10)
      (Controller.length_versionReport_le id)) hp
    (fun e history => if_neg (by simp [holding, hk, ho])) fun e history => ?_
  rw [takeVersion_holding, ht]

theorem Knows.logRead {record : Statistics} (h : s'.Knows s image inBurst id m n)
    (hp : 2 ≤ s.options.patience) (hk : s.flags.skipRest = false) (hf : s.flags.forced = false)
    (ho : s.flags.sessionOpen = false)
    (hr : Statistics.ofBytes? (m.load logAreaStart Statistics.size) = some record) :
    ∃ s'', s'.takeStep .logRead = (.ok (), s'') ∧
      s''.Knows { s with statistics := record } image false id m n := by
  refine h.performs (fun e hf => hf.readsLog Statistics.size (by decide) (by decide)) hp
    (fun e history => if_neg (by simp [holding, hk, hf, ho])) fun e history => ?_
  rw [takeStatistics, hr]
  rfl

theorem Knows.log (h : s'.Knows s image inBurst id m n) (hp : 2 ≤ s.options.patience)
    (hu : s.flags.unlogged = true) :
    ∃ s'', s'.takeStep .log = (.ok (), s'') ∧
      s''.Knows (s.withFlags { s.flags with unlogged := false }) image false id
        (m.store logAreaStart s.statistics.toBytes) n := by
  have hl : s.statistics.toBytes.length = 13 := s.statistics.length_toBytes
  have hz : s.statistics.toBytes.length ≤ logAreaSize := by rw [hl]; decide
  have hn : s.statistics.toBytes ≠ [] := List.ne_nil_of_length_pos (by omega)
  exact h.performs (fun e hf => hf.logs hn hz) hp
    (fun e history => if_neg (by simp [holding, hu])) fun _ _ => rfl

theorem Knows.checkIntegrity (h : s'.Knows s image inBurst id m n) (hp : 2 ≤ s.options.patience)
    (hk : s.flags.skipRest = false) (ho : s.flags.sessionOpen = false) :
    ∃ s'', s'.takeStep .checkIntegrity = (.ok (), s'') ∧
      s''.Knows { s with integrity := some ⟨RegionFlags.allPassed⟩ } image false id m n :=
  h.performs
    (fun e hf => hf.asks (.checkIntegrity (s.chipVersion.getD 0) 31) rfl
      (Nat.succ_ne_zero 30) (Nat.le_refl 31)) hp
    (fun e history => if_neg (by simp [holding, hk, ho])) fun _ _ => rfl

/-! ## The write -/

/-- The sequencer behind a write that ended well. -/
def wrote (s : Sequencer (Bench Controller)) : Sequencer (Bench Controller) :=
  if s.writing.flags.unlogged then
    { s.writing with statistics := s.writing.statistics.countSuccess }
  else s.writing

theorem writing_holding (s : Sequencer (Bench Controller)) (e : Engine (Bench Controller))
    (history : List SequenceEntry) :
    (s.holding e history).writing = s.writing.holding e history := by
  unfold writing
  split <;> rename_i h
  · exact (if_pos h).symm ▸ rfl
  · exact (if_neg h).symm ▸ rfl

theorem Knows.write {body : Bytes} {post : List Bytes} {version : FirmwareVersion}
    (h : s'.Knows s image false id m n) (hp : 2 * image.writeFrames.length ≤ s.options.patience)
    (hr : image.records = body :: post) (hv : image.version? = some version)
    (hl : 4 ≤ body.length) (hk : s.flags.skipRest = false) (ht : s.flags.retry = false) :
    ∃ s'', s'.takeStep .write = (.ok (), s'') ∧ s''.Knows s.wrote image true
      { id with major := version.major, minor := version.minor } m (n + image.recordCount) := by
  obtain ⟨e, history, rfl, hf⟩ := h
  -- A write is counted before it is tried, so it is tried by the sequencer that counted it.
  have hw : (s.writing.holding e (.step .write :: history)).Knows s.writing image false id m n :=
    ⟨e, _, rfl, hf⟩
  have ho : s.writing.options = s.options := s.alike_writing.options
  obtain ⟨s'', ha, e', history', rfl, hf'⟩ := hw.attempts
    (fun e hf => hf.writes hr hv hl) (ho ▸ hp)
  refine ⟨s.wrote.holding e' history', ?_, e', history', rfl, hf'⟩
  have hflags : { s.flags with retry := false } = s.flags := by rw [← ht]
  have htrying : (s.holding e (.step .write :: history)).withFlags { s.flags with retry := false } =
      s.holding e (.step .write :: history) :=
    congrArg (fun f => (s.holding e (.step .write :: history)).withFlags f) hflags
  have hwrite : (s.holding e history).takeStep .write =
      (s.holding e (.step .write :: history)).writePrimary :=
    (if_neg (by simp [holding, withFlags, hk])).trans (congrArg writePrimary htrying)
  rw [hwrite, writePrimary_eq, writing_holding, ha]
  unfold wrote
  dsimp only
  congr 1
  split <;> rename_i hu
  · exact (if_pos hu).symm ▸ rfl
  · exact (if_neg hu).symm ▸ rfl

/-! ## Steps that are passed over -/

/-- With the chip up to date, or the write forced, these steps do nothing. -/
def passesOver (s : Sequencer (Bench Controller)) : Step → Bool
  | .logRead | .log => s.flags.skipRest || s.flags.forced
  | .getSessionState | .getVersion | .write | .checkIntegrity => s.flags.skipRest
  | _ => false

theorem Knows.passes (h : s'.Knows s image inBurst id m n) (step : Step)
    (hs : s.passesOver step = true) (ho : s.flags.sessionOpen = false)
    (hu : s.flags.unlogged = false) (ht : s.flags.retry = false) :
    ∃ s'', s'.takeStep step = (.ok (), s'') ∧ s''.Knows s image inBurst id m n := by
  obtain ⟨e, history, rfl, hf⟩ := h
  refine ⟨s.holding e (.step step :: history), ?_, e, _, rfl, hf⟩
  cases step with
  | getSessionState => exact if_pos hs
  | getVersion => exact if_pos (by simpa [passesOver, holding, ho] using hs)
  | logRead => exact if_pos (by simpa [passesOver, holding, ho] using hs)
  | write =>
    have hflags : { s.flags with retry := false } = s.flags := by rw [← ht]
    have htrying := congrArg (fun f => (s.holding e (.step .write :: history)).withFlags f) hflags
    refine (if_pos ?_).trans (congrArg (Except.ok (), ·) htrying)
    simpa [passesOver, holding, withFlags, ho] using hs
  | log => exact if_pos (by simpa [passesOver, holding, hu] using hs)
  | checkIntegrity => exact if_pos (by simpa [passesOver, holding, ho] using hs)
  | _ => cases hs

theorem Knows.passes_all (h : s'.Knows s image inBurst id m n) (steps : List Step)
    (hs : ∀ step ∈ steps, s.passesOver step = true) (ho : s.flags.sessionOpen = false)
    (hu : s.flags.unlogged = false) (ht : s.flags.retry = false) :
    ∃ s'', s'.takeSteps steps = (.ok (), s'') ∧ s''.Knows s image inBurst id m n := by
  induction steps generalizing s' with
  | nil => exact ⟨s', rfl, h⟩
  | cons step steps ih =>
    obtain ⟨s₁, he, h₁⟩ := h.passes step (hs step (List.mem_cons_self ..)) ho hu ht
    obtain ⟨s'', he', h'⟩ := ih h₁ fun step hm => hs step (List.mem_cons_of_mem _ hm)
    refine ⟨s'', ?_, h'⟩
    rw [takeSteps, he]
    exact he'

/-! ## The version -/

theorem reportedVersion_versionReport (id : ChipIdentity) :
    reportedVersion (versionReport id) = ⟨id.major, id.minor⟩ := by
  simp [reportedVersion, versionReport, Bytes.byteAt]

theorem reportLength?_versionReport (h : id.hardware &&& 0x0F ∈ [1, 2, 3, 4, 5, 8]) :
    reportLength? (id.hardware &&& 0x0F) = some (versionReport id).length := by
  have hall : ([1, 2, 3, 4, 5, 8] : Bytes).all (fun revision => (reportLength? revision).isSome) :=
    rfl
  obtain ⟨length, hl⟩ := Option.isSome_iff_exists.1 (List.all_eq_true.1 hall _ h)
  rw [Controller.length_versionReport, hl]
  rfl

theorem takeVersion_versionReport (s : Sequencer (Bench Controller))
    (h : id.hardware &&& 0x0F ∈ [1, 2, 3, 4, 5, 8]) : s.takeVersion (versionReport id) =
      if id.rom = 0x07 ∧ (s.imageVersion.getD ⟨0, 0⟩).major ≠ 0x01 then
        (.error .versionError, s.revised (id.hardware &&& 0x0F))
      else if s.flags.unlogged then (s.revised (id.hardware &&& 0x0F)).checkAfter
        (s.imageVersion.getD ⟨0, 0⟩) ⟨id.major, id.minor⟩
      else (s.revised (id.hardware &&& 0x0F)).checkBefore
        (s.imageVersion.getD ⟨0, 0⟩) ⟨id.major, id.minor⟩ := by
  have hl := reportLength?_versionReport h
  have hrom : (versionReport id).byteAt 1 = id.rom := rfl
  rw [← reportedVersion_versionReport, ← hrom]
  obtain ⟨rest, hr⟩ : ∃ rest, versionReport id = id.hardware :: rest := ⟨_, rfl⟩
  rw [hr] at hl ⊢
  simp only [Sequencer.takeVersion, hl]
  exact if_neg (not_not_intro rfl)

/-- The chip runs the version of the image, and the rest of the table is passed over. -/
def current (s : Sequencer (Bench Controller)) : Sequencer (Bench Controller) :=
  { s.withFlags { s.flags with skipRest := true } with upToDate := true }

/-- The image is written although the chip runs its version. -/
def compelled (s : Sequencer (Bench Controller)) : Sequencer (Bench Controller) :=
  s.withFlags { s.flags with forced := true }

/-- The version that the record names is the one that the chip came to run. -/
def verified (s : Sequencer (Bench Controller)) (version : FirmwareVersion) :
    Sequencer (Bench Controller) :=
  { s with statistics := { s.statistics with
    middleware := s.options.middleware
    firmware := word version.major version.minor } }

section Version

variable {version : FirmwareVersion} (hv : s.imageVersion = some version)
  (hid : id.hardware &&& 0x0F ∈ [1, 2, 3, 4, 5, 8])
include hv hid

theorem takeVersion_refuses (hu : s.flags.unlogged = false)
    (hc : id.rom = 0x07 ∧ version.major ≠ 0x01 ∨ version.major < id.major) :
    s.takeVersion (versionReport id) =
      (.error .versionError, s.revised (id.hardware &&& 0x0F)) := by
  rw [takeVersion_versionReport s hid, hv, hu]
  by_cases hr : id.rom = 0x07 ∧ version.major ≠ 0x01
  · exact if_pos hr
  · have hm := hc.resolve_left hr
    refine (if_neg hr).trans ((if_neg Bool.false_ne_true).trans ?_)
    exact if_pos hm

theorem takeVersion_allows (hu : s.flags.unlogged = false)
    (hc : ¬ (id.rom = 0x07 ∧ version.major ≠ 0x01 ∨ version.major < id.major)) :
    s.takeVersion (versionReport id) = (.ok (),
      if version = ⟨id.major, id.minor⟩ then
        if s.options.forceDownload then (s.revised (id.hardware &&& 0x0F)).compelled
        else (s.revised (id.hardware &&& 0x0F)).current
      else s.revised (id.hardware &&& 0x0F)) := by
  obtain ⟨hr, hm⟩ := not_or.1 hc
  rw [takeVersion_versionReport s hid, hv, hu]
  refine (if_neg hr).trans ((if_neg Bool.false_ne_true).trans ((if_neg hm).trans ?_))
  have ho : (s.revised (id.hardware &&& 0x0F)).options = s.options := rfl
  simp only [Option.getD_some, ho]
  split_ifs <;> rfl

theorem takeVersion_verifies (hu : s.flags.unlogged = true)
    (hr : ¬ (id.rom = 0x07 ∧ version.major ≠ 0x01)) (he : version = ⟨id.major, id.minor⟩) :
    s.takeVersion (versionReport id) =
      (.ok (), (s.revised (id.hardware &&& 0x0F)).verified version) := by
  rw [takeVersion_versionReport s hid, hv, hu]
  refine (if_neg hr).trans ((if_pos rfl).trans ((if_neg (not_not_intro he)).trans ?_))
  rw [he]
  rfl

end Version

end Sequencer

end FirmwareDownload
