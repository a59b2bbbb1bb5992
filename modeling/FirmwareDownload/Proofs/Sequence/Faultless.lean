import FirmwareDownload.Proofs.Sequence.Undisturbed
import FirmwareDownload.Proofs.Sequence.UpToDate

/-! A whole sequence on a calm bench with a controller of which nothing fails. The versions of the
chip and the image decide how it ends. -/

namespace FirmwareDownload

open Controller (versionReport)

theorem Image.two_le_signals (image : Image) : 2 ≤ 2 * image.writeFrames.length := by
  obtain ⟨body, post, hr⟩ := image.exists_record
  have hb := Record.sliceCount_pos (image.isBody body (by rw [hr]; exact List.mem_cons_self ..))
  have hl : Record.sliceCount body ≤ image.writeFrames.length := by
    simp [Image.writeFrames, hr, Record.frames, Record.mapSlices]
  omega

namespace Statistics

/-- The record behind a counted write that ended well. -/
def updated (record : Statistics) (middleware : UInt16) (version : FirmwareVersion) : Statistics :=
  { record.countTrigger.countSuccess with
    middleware := middleware
    firmware := word version.major version.minor }

theorem load_store_toBytes (record : Statistics) (m : Memory) (addr : UInt32) :
    (m.store addr record.toBytes).load addr size = record.toBytes := by
  rw [← record.length_toBytes]
  exact Controller.load_store m addr (by rw [record.length_toBytes]; decide)

end Statistics

namespace Sequencer

variable {s s' t : Sequencer (Bench Controller)} {image : Image} {inBurst : Bool}
  {id : ChipIdentity} {m m' : Memory} {n : Nat} {version : FirmwareVersion} {step : Step}
  {r : Except DownloadError Unit}

/-! ## The main table -/

theorem takeSteps_of_ok {W : Type} [Host W] {s s₁ : Sequencer W}
    (h : s.takeStep step = (.ok (), s₁)) (steps : List Step) :
    s.takeSteps (step :: steps) = s₁.takeSteps steps := by
  rw [takeSteps, h]

theorem Knows.leading (h : s'.Knows s image false id m n) (hp : 2 ≤ s.options.patience)
    (hf : s.flags = {}) (chip : ChipFamily) :
    ∃ s'', s'.takeSteps (leadingSteps chip) = (.ok (), s'') ∧ s''.Knows s image false id m n := by
  cases chip with
  | pn548ad =>
    obtain ⟨s₁, he, h₁⟩ := h.getSessionState hp (by rw [hf]) (by rw [hf])
    exact ⟨s₁, takeSteps_of_ok he [], h₁⟩
  | pn547c2 =>
    obtain ⟨s₁, he₁, h₁⟩ := h.normal hp (by rw [hf]) (by rw [hf])
    obtain ⟨s₂, he₂, h₂⟩ := h₁.normal hp (by rw [hf]) (by rw [hf])
    obtain ⟨s₃, he₃, h₃⟩ := h₂.getSessionState hp (by rw [hf]) (by rw [hf])
    refine ⟨s₃, ?_, h₃⟩
    exact (takeSteps_of_ok he₁ _).trans ((takeSteps_of_ok he₂ _).trans (takeSteps_of_ok he₃ []))

/-- A main table comes to its version check, which decides on the rest of it. -/
theorem Knows.compares (h : s'.Knows s image false id m n) (hp : 2 ≤ s.options.patience)
    (hf : s.flags = {}) (chip : ChipFamily)
    (ht : s.takeVersion (versionReport id) = (r, t)) :
    ∃ s'', s''.Knows t image false id m n ∧ s'.takeSteps (primarySteps chip) =
      match r with
      | .ok () => s''.takeSteps (.logRead :: .write :: closingSteps)
      | .error err => (.error err, s'') := by
  obtain ⟨s₁, he₁, h₁⟩ := h.leading hp hf chip
  obtain ⟨s₂, he₂, h₂⟩ := h₁.getVersion hp (by rw [hf]) (by rw [hf]) ht
  refine ⟨s₂, h₂, ?_⟩
  rw [primarySteps_eq, openingSteps_eq, List.append_assoc, takeSteps_append, he₁]
  show s₁.takeSteps (.getVersion :: .logRead :: .write :: closingSteps) = _
  rw [takeSteps, he₂]
  cases r <;> rfl

/-- Behind a write the version is checked once more, and the log and the integrity follow. -/
theorem Knows.closes {u : Sequencer (Bench Controller)} (h : s'.Knows s image inBurst id m n)
    (hp : 2 ≤ s.options.patience) (hk : s.flags.skipRest = false)
    (ho : s.flags.sessionOpen = false) (ht : s.takeVersion (versionReport id) = (.ok (), t))
    (hlog : ∀ s₁ : Sequencer (Bench Controller), s₁.Knows t image false id m n →
      ∃ s₂, s₁.takeStep .log = (.ok (), s₂) ∧ s₂.Knows u image false id m' n)
    (hpu : 2 ≤ u.options.patience) (hku : u.flags.skipRest = false)
    (hou : u.flags.sessionOpen = false) :
    ∃ s'', s'.takeSteps closingSteps = (.ok (), s'') ∧
      s''.Knows { u with integrity := some ⟨RegionFlags.allPassed⟩ } image false id m' n := by
  obtain ⟨s₁, he₁, h₁⟩ := h.getSessionState hp hk ho
  obtain ⟨s₂, he₂, h₂⟩ := h₁.getVersion hp hk ho ht
  obtain ⟨s₃, he₃, h₃⟩ := hlog s₂ h₂
  obtain ⟨s₄, he₄, h₄⟩ := h₃.checkIntegrity hpu hku hou
  refine ⟨s₄, ?_, h₄⟩
  simp only [closingSteps, takeSteps, he₁, he₂, he₃, he₄]

section Main

variable {body : Bytes} {post : List Bytes} (h : s'.Knows s image false id m n)
  (hp : 2 * image.writeFrames.length ≤ s.options.patience) (hf : s.flags = {})
  (hv : s.imageVersion = some version) (hid : id.hardware &&& 0x0F ∈ [1, 2, 3, 4, 5, 8])
  (chip : ChipFamily)
include h hp hf hv hid

theorem Knows.main_refuses
    (hc : id.rom = 0x07 ∧ version.major ≠ 0x01 ∨ version.major < id.major) :
    ∃ s'', s'.takeSteps (primarySteps chip) = (.error .versionError, s'') ∧
      s''.Knows (s.revised (id.hardware &&& 0x0F)) image false id m n := by
  obtain ⟨s'', h', he⟩ := h.compares (image.two_le_signals.trans hp) hf chip
    (takeVersion_refuses hv hid (by rw [hf]) hc)
  exact ⟨s'', he, h'⟩

theorem Knows.main_current
    (hc : ¬ (id.rom = 0x07 ∧ version.major ≠ 0x01 ∨ version.major < id.major))
    (he : version = ⟨id.major, id.minor⟩) (hd : s.options.forceDownload = false) :
    ∃ s'', s'.takeSteps (primarySteps chip) = (.ok (), s'') ∧
      s''.Knows (s.revised (id.hardware &&& 0x0F)).current image false id m n := by
  have ht := takeVersion_allows (s := s) hv hid (by rw [hf]) hc
  rw [if_pos he, hd, if_neg Bool.false_ne_true] at ht
  obtain ⟨s₁, h₁, he₁⟩ := h.compares (image.two_le_signals.trans hp) hf chip ht
  have hflags : (s.revised (id.hardware &&& 0x0F)).current.flags = { skipRest := true } := by
    simp [current, withFlags, revised, hf]
  obtain ⟨s₂, he₂, h₂⟩ := h₁.passes_all (.logRead :: .write :: closingSteps)
    (by simp [closingSteps, passesOver, hflags]) (by rw [hflags]) (by rw [hflags]) (by rw [hflags])
  exact ⟨s₂, he₁.trans he₂, h₂⟩

variable (hr : image.records = body :: post) (hver : image.version? = some version)
  (hl : 4 ≤ body.length)
  (hc : ¬ (id.rom = 0x07 ∧ version.major ≠ 0x01 ∨ version.major < id.major))
include hr hver hl hc

theorem Knows.main_forced (he : version = ⟨id.major, id.minor⟩)
    (hd : s.options.forceDownload = true) :
    ∃ s'', s'.takeSteps (primarySteps chip) = (.ok (), s'') ∧ s''.Knows
      { (s.revised (id.hardware &&& 0x0F)).compelled with
        integrity := some ⟨RegionFlags.allPassed⟩ } image false id m (n + image.recordCount) := by
  have hallows : ∀ u : Sequencer (Bench Controller), u.imageVersion = some version →
      u.flags.unlogged = false → u.options.forceDownload = true →
      u.takeVersion (versionReport id) =
        (.ok (), (u.revised (id.hardware &&& 0x0F)).compelled) := by
    intro u huv huu hud
    rw [takeVersion_allows huv hid huu hc, if_pos he, if_pos hud]
  have hf₁ : (s.revised (id.hardware &&& 0x0F)).compelled.flags = { forced := true } := by
    simp [compelled, withFlags, revised, hf]
  have ht := hallows s hv (by rw [hf]) hd
  have ht₁ := hallows (s.revised (id.hardware &&& 0x0F)).compelled hv (by rw [hf₁]) hd
  have hp₁ : 2 * image.writeFrames.length ≤
    (s.revised (id.hardware &&& 0x0F)).compelled.options.patience := hp
  -- The version is compared twice, and the second time makes no difference.
  have htwice : ((s.revised (id.hardware &&& 0x0F)).compelled.revised
      (id.hardware &&& 0x0F)).compelled = (s.revised (id.hardware &&& 0x0F)).compelled := rfl
  rw [htwice] at ht₁
  generalize (s.revised (id.hardware &&& 0x0F)).compelled = s₁ at ht ht₁ hf₁ hp₁ ⊢
  have hp₂ : 2 ≤ s₁.options.patience := image.two_le_signals.trans hp₁
  have hw : s₁.wrote = s₁ := by simp [wrote, writing, hf₁]
  have hsame : ({ id with major := version.major, minor := version.minor } : ChipIdentity) = id := by
    rw [he]
  have hpass : ∀ step ∈ [Step.logRead, .log], s₁.passesOver step = true := by
    simp [passesOver, hf₁]
  obtain ⟨s₂, h₂, he₂⟩ := h.compares (image.two_le_signals.trans hp) hf chip ht
  obtain ⟨s₃, he₃, h₃⟩ := h₂.passes .logRead (hpass _ (by decide)) (by rw [hf₁]) (by rw [hf₁])
    (by rw [hf₁])
  obtain ⟨s₄, he₄, h₄⟩ := h₃.write hp₁ hr hver hl (by rw [hf₁]) (by rw [hf₁])
  rw [hw, hsame] at h₄
  obtain ⟨s₅, he₅, h₅⟩ := h₄.closes hp₂ (by rw [hf₁]) (by rw [hf₁]) ht₁
    (fun s h => h.passes .log (hpass _ (by decide)) (by rw [hf₁]) (by rw [hf₁]) (by rw [hf₁]))
    hp₂ (by rw [hf₁]) (by rw [hf₁])
  refine ⟨s₅, ?_, h₅⟩
  rw [he₂]
  dsimp only
  rw [takeSteps_of_ok he₃, takeSteps_of_ok he₄, he₅]

/-- The sequencer behind a main table that wrote, checked and logged. -/
def updated (s : Sequencer (Bench Controller)) (revision : UInt8) (version : FirmwareVersion)
    (record : Statistics) : Sequencer (Bench Controller) :=
  { s with
    flags := {}
    attempts := s.attempts + 1
    chipVersion := some revision
    statistics := record.updated s.options.middleware version
    integrity := some ⟨RegionFlags.allPassed⟩ }

theorem Knows.main_updates {record : Statistics} (he : version ≠ ⟨id.major, id.minor⟩)
    (hlog : Statistics.ofBytes? (m.load logAreaStart Statistics.size) = some record) :
    ∃ s'', s'.takeSteps (primarySteps chip) = (.ok (), s'') ∧
      s''.Knows (s.updated (id.hardware &&& 0x0F) version record) image false
        { id with major := version.major, minor := version.minor }
        (m.store logAreaStart (record.updated s.options.middleware version).toBytes)
        (n + image.recordCount) := by
  have ht := takeVersion_allows (s := s) hv hid (by rw [hf]) hc
  rw [if_neg he] at ht
  generalize hs₁ : s.revised (id.hardware &&& 0x0F) = s₁ at ht
  have hf₁ : s₁.flags = {} := by rw [← hs₁]; exact hf
  have hp₁ : 2 * image.writeFrames.length ≤ s₁.options.patience := hs₁ ▸ hp
  have hp₂ : 2 ≤ s₁.options.patience := image.two_le_signals.trans hp₁
  obtain ⟨s₂, h₂, he₂⟩ := h.compares (image.two_le_signals.trans hp) hf chip ht
  obtain ⟨s₃, he₃, h₃⟩ := h₂.logRead hp₂ (by rw [hf₁]) (by rw [hf₁]) (by rw [hf₁]) hlog
  obtain ⟨s₄, he₄, h₄⟩ := h₃.write hp₁ hr hver hl (by rw [hf₁]) (by rw [hf₁])
  generalize hu : wrote { s₁ with statistics := record } = u at h₄
  obtain ⟨hfu, hvu, hpu, hsu, hend⟩ : u.flags = { unlogged := true } ∧
      u.imageVersion = some version ∧ 2 ≤ u.options.patience ∧
      (∀ revision, ((u.revised revision).verified version).statistics =
        record.updated s.options.middleware version) ∧
      ∀ revision, { ((u.revised revision).verified version).withFlags
        { u.flags with unlogged := false } with integrity := some ⟨RegionFlags.allPassed⟩ } =
          s.updated revision version record := by
    rw [← hu, ← hs₁]
    have hpatient : 2 ≤ s.options.patience := image.two_le_signals.trans hp
    simp [wrote, writing, countWrite, withFlags, verified, Statistics.updated, updated, revised,
      hf, hv, hpatient]
  -- The controller took on the version of the image, and that is what the check finds.
  obtain ⟨s₅, he₅, h₅⟩ := h₄.closes hpu (by rw [hfu]) (by rw [hfu])
    (takeVersion_verifies hvu hid (by rw [hfu]) (not_or.1 hc).1 rfl)
    (fun s h => h.log hpu (congrArg SequenceFlags.unlogged hfu))
    hpu (congrArg SequenceFlags.skipRest hfu) (congrArg SequenceFlags.sessionOpen hfu)
  rw [hsu] at h₅
  refine ⟨s₅, ?_, hend _ ▸ h₅⟩
  rw [he₂]
  dsimp only
  rw [takeSteps_of_ok he₃, takeSteps_of_ok he₄, he₅]

end Main

/-! ## The sequence -/

theorem Knows.setMode (h : s'.Knows s image inBurst id m n) (mode : DeviceMode) :
    ∃ e history, s'.setMode mode = (.ok (), s.holding e history) ∧
      e.world.link.contents = (id, m, n) := by
  obtain ⟨e, history, rfl, -, c, hrest, -, -, hc⟩ := h
  obtain ⟨e', he, hrest', -⟩ := hrest.setMode mode
  refine ⟨e', history, ?_, ?_⟩
  · simp only [Sequencer.setMode, holding, he]
  · rw [hrest'.calm.link]
    exact hc

/-- If nothing is left to log and nothing to recover from, no table follows. -/
theorem Knows.ends (h : s'.Knows s image inBurst id m n) (hu : s.flags.unlogged = false)
    (hc : s.flags.recovery = false) (ht : s.flags.retry = false)
    (hr : ∀ err, r = .error err → err.isRecoverable = false) (budget : Nat) :
    ∃ s'', s'.runTables budget r = some (r, s') ∧ s'.leave r = (r, s'') ∧
      s''.report r = s.report r ∧ s''.engine.world.link.contents = (id, m, n) := by
  obtain ⟨e, history, he, hlink⟩ := h.setMode .normal
  have hreact : s'.react r = s' := by
    cases r with
    | ok => rfl
    | error err => exact s'.react_unrecoverable (hr err rfl)
  have hnext : s'.next? = none := by
    obtain ⟨e, history, rfl, -⟩ := h
    simp [next?, holding, hu, hc, ht]
  refine ⟨s.holding e history, ?_, ?_, rfl, hlink⟩
  · cases budget <;> simp [runTables, hreact, hnext]
  · unfold Sequencer.leave
    rw [he]

section Run

variable {config : Config} {library : ImageLibrary} {bench : Bench Controller}
  {options : SequenceOptions} {id' : ChipIdentity} {n' : Nat}

def unbegun (config : Config) (library : ImageLibrary) (bench : Bench Controller)
    (options : SequenceOptions) : Sequencer (Bench Controller) :=
  { engine := .fresh config library bench, options := options }

theorem start_faces (config : Config) (options : SequenceOptions)
    (hb : bench.Calm { identity := id, memory := m })
    (hl : library .primary = .ok image) : ∃ s₁ : Sequencer (Bench Controller),
      (unbegun config library bench options).start = s₁.takeSteps (primarySteps config.chip) ∧
      s₁.Knows { unbegun config library bench options with imageVersion := image.version? }
        image false id m 0 := by
  let e : Engine (Bench Controller) :=
    { Engine.fresh config library bench with primary := some image }
  have hload : (Engine.fresh config library bench).loadPrimary = (.ok image.version?, e) := by
    simp [Engine.loadPrimary, Engine.fresh, hl, e]
  have hrest : e.Rests { identity := id, memory := m } := ⟨rfl, rfl, hb⟩
  obtain ⟨e', he, hrest', hconfig, hprimary⟩ := hrest.setMode .download
  let s : Sequencer (Bench Controller) :=
    { unbegun config library bench options with imageVersion := image.version? }
  refine ⟨s.holding e' [.table .main], ?_, e', _, rfl, hprimary, _, hrest', ?_, rfl, rfl⟩
  · have hc : e'.config = config := hconfig
    simp only [Sequencer.start, unbegun, hload, Sequencer.setMode, he, runTable, hc]
    rfl
  · exact ⟨⟨rfl, rfl, rfl, rfl, rfl, rfl, rfl⟩, rfl, rfl⟩

theorem run_ends (hb : bench.Calm { identity := id, memory := m })
    (hl : library .primary = .ok image)
    (hmain : ∀ s₁ : Sequencer (Bench Controller),
      s₁.Knows { unbegun config library bench options with imageVersion := image.version? }
        image false id m 0 → ∃ s₂, s₁.takeSteps (primarySteps config.chip) = (r, s₂) ∧
          s₂.Knows t image inBurst id' m' n')
    (hu : t.flags.unlogged = false) (hc : t.flags.recovery = false) (ht : t.flags.retry = false)
    (hr : ∀ err, r = .error err → err.isRecoverable = false) (budget : Nat) :
    ∃ s', (unbegun config library bench options).run budget = some (t.report r, s') ∧
      s'.engine.world.link.contents = (id', m', n') := by
  obtain ⟨s₁, hstart, h₁⟩ := start_faces config options hb hl
  obtain ⟨s₂, he, h₂⟩ := hmain s₁ h₁
  obtain ⟨s₃, htables, hleave, hreport, hlink⟩ := h₂.ends hu hc ht hr budget
  refine ⟨s₃, ?_, hlink⟩
  rw [Sequencer.run, hstart, he]
  dsimp only
  rw [htables]
  dsimp only
  rw [hleave, hreport]

section Outcomes

variable {body : Bytes} {post : List Bytes} (hb : bench.Calm { identity := id, memory := m })
  (hl : library .primary = .ok image) (hid : id.hardware &&& 0x0F ∈ [1, 2, 3, 4, 5, 8])
  (hp : 2 * image.writeFrames.length ≤ options.patience)
  (hver : image.version? = some version) (budget : Nat)
include hb hl hid hp hver

theorem run_refuses
    (hc : id.rom = 0x07 ∧ version.major ≠ 0x01 ∨ version.major < id.major) :
    ∃ report s', (unbegun config library bench options).run budget = some (report, s') ∧
      report.result = .error .versionError ∧ s'.engine.world.link.recordCount = 0 := by
  obtain ⟨s', hrun, hlink⟩ := run_ends hb hl
    (fun s₁ h₁ => h₁.main_refuses hp rfl hver hid config.chip hc) rfl rfl rfl
    (by rintro _ ⟨⟩; rfl) budget
  exact ⟨_, s', hrun, rfl, congrArg (·.2.2) hlink⟩

variable (hc : ¬ (id.rom = 0x07 ∧ version.major ≠ 0x01 ∨ version.major < id.major))
include hc

theorem run_current (he : version = ⟨id.major, id.minor⟩) (hd : options.forceDownload = false) :
    ∃ report s', (unbegun config library bench options).run budget = some (report, s') ∧
      report.result = .ok () ∧ report.attempts = 0 ∧ report.upToDate = true ∧
      s'.engine.world.link.recordCount = 0 := by
  obtain ⟨s', hrun, hlink⟩ := run_ends hb hl
    (fun s₁ h₁ => h₁.main_current hp rfl hver hid config.chip hc he hd) rfl rfl rfl
    (by rintro _ ⟨⟩) budget
  exact ⟨_, s', hrun, rfl, rfl, rfl, congrArg (·.2.2) hlink⟩

variable (hr : image.records = body :: post) (hbody : 4 ≤ body.length)
include hr hbody

theorem run_forced (he : version = ⟨id.major, id.minor⟩) (hd : options.forceDownload = true) :
    ∃ report s', (unbegun config library bench options).run budget = some (report, s') ∧
      report.result = .ok () ∧ report.attempts = 0 ∧
      s'.engine.world.link.recordCount = image.recordCount ∧ s'.engine.world.link.memory = m := by
  obtain ⟨s', hrun, hlink⟩ := run_ends hb hl
    (fun s₁ h₁ => h₁.main_forced hp rfl hver hid config.chip hr hver hbody hc he hd) rfl rfl rfl
    (by rintro _ ⟨⟩) budget
  simp only [Controller.contents, Prod.mk.injEq] at hlink
  exact ⟨_, s', hrun, rfl, rfl, by rw [hlink.2.2, Nat.zero_add], hlink.2.1⟩

theorem run_updates {record : Statistics} (he : version ≠ ⟨id.major, id.minor⟩)
    (hlog : Statistics.ofBytes? (m.load logAreaStart Statistics.size) = some record) :
    ∃ report s', (unbegun config library bench options).run budget = some (report, s') ∧
      report.result = .ok () ∧ report.attempts = 1 ∧
      s'.engine.world.link.recordCount = image.recordCount ∧
      s'.engine.world.link.identity =
        { id with major := version.major, minor := version.minor } ∧
      report.integrity = some ⟨RegionFlags.allPassed⟩ ∧
      s'.engine.world.link.memory =
        m.store logAreaStart (record.updated options.middleware version).toBytes := by
  obtain ⟨s', hrun, hlink⟩ := run_ends hb hl
    (fun s₁ h₁ => h₁.main_updates hp rfl hver hid config.chip hr hver hbody hc he hlog) rfl rfl rfl
    (by rintro _ ⟨⟩) budget
  simp only [Controller.contents, Prod.mk.injEq] at hlink
  exact ⟨_, s', hrun, rfl, rfl, by rw [hlink.2.2, Nat.zero_add], hlink.1, rfl, hlink.2.1⟩

end Outcomes

/-- A download of which nothing fails, with patience for the two signals that each frame of the write
takes. Unless the version of the image is refused or the chip runs it already, the image is written
and the record of the downloads counts one more. -/
theorem faultless_download (config : Config) (library : ImageLibrary) (bench : Bench Controller)
    (options : SequenceOptions) (id : ChipIdentity) (m : Memory) (image : Image) (budget : Nat)
    (hb : bench.Calm { identity := id, memory := m }) (hl : library .primary = .ok image)
    (hbody : 4 ≤ (image.records.headD []).length)
    (hid : id.hardware &&& 0x0F ∈ [1, 2, 3, 4, 5, 8])
    (hp : 2 * image.writeFrames.length ≤ options.patience) :
    ∃ version record report s', image.version? = some version ∧
      Statistics.ReadFrom record (m.load logAreaStart 13) ∧
      Sequencer.run budget { engine := .fresh config library bench, options := options } =
        some (report, s') ∧
      let chip := s'.engine.world.link
      if id.rom = 0x07 ∧ version.major ≠ 0x01 ∨ version.major < id.major then
        report.result = .error .versionError ∧ chip.recordCount = 0
      else if version = ⟨id.major, id.minor⟩ then
        report.result = .ok () ∧ report.attempts = 0 ∧
          if options.forceDownload then
            chip.recordCount = image.recordCount ∧
              chip.peek logAreaStart 13 = m.load logAreaStart 13
          else report.upToDate = true ∧ chip.recordCount = 0
      else
        report.result = .ok () ∧ report.attempts = 1 ∧ chip.recordCount = image.recordCount ∧
          reportedVersion (versionReport chip.identity) = version ∧
          (∃ flags, report.integrity = some flags ∧ flags.isOk = true) ∧
          chip.peek logAreaStart 13 = Statistics.spelled {
            middleware := options.middleware
            firmware := word version.major version.minor
            triggered := record.triggered + 1
            succeeded := record.succeeded + 1
            failed := record.failed
            consecutive := 0
            pending := true } := by
  obtain ⟨body, post, hr⟩ : ∃ body post, image.records = body :: post := by
    cases hr : image.records with
    | nil => simp [hr] at hbody
    | cons body post => exact ⟨body, post, rfl⟩
  have hl4 : 4 ≤ body.length := by simpa [hr] using hbody
  obtain ⟨version, hver⟩ : ∃ version, image.version? = some version := by
    obtain ⟨_, _, version, _, -, hver⟩ := Controller.exists_version hr hl4
    exact ⟨version, hver⟩
  obtain ⟨record, hlog⟩ : ∃ record,
      Statistics.ofBytes? (m.load logAreaStart Statistics.size) = some record := by
    simp [Statistics.ofBytes?, Memory.load]
  have hread : record.ReadFrom (m.load logAreaStart 13) := Statistics.ofBytes?_eq_some_iff.1 hlog
  refine ⟨version, record, ?_⟩
  by_cases hc : id.rom = 0x07 ∧ version.major ≠ 0x01 ∨ version.major < id.major
  · obtain ⟨report, s', hrun, hresult, hcount⟩ := run_refuses hb hl hid hp hver budget hc
    refine ⟨report, s', hver, hread, hrun, ?_⟩
    simp only [if_pos hc]
    exact ⟨hresult, hcount⟩
  by_cases he : version = ⟨id.major, id.minor⟩
  · cases hd : options.forceDownload with
    | true =>
      obtain ⟨report, s', hrun, hresult, hattempts, hcount, hmemory⟩ :=
        run_forced hb hl hid hp hver budget hc hr hl4 he hd
      refine ⟨report, s', hver, hread, hrun, ?_⟩
      simp only [if_neg hc, if_pos he, if_true]
      refine ⟨hresult, hattempts, hcount, ?_⟩
      rw [Controller.peek, hmemory]
    | false =>
      obtain ⟨report, s', hrun, hresult, hattempts, hcurrent, hcount⟩ :=
        run_current hb hl hid hp hver budget hc he hd
      refine ⟨report, s', hver, hread, hrun, ?_⟩
      simp only [if_neg hc, if_pos he, if_neg Bool.false_ne_true]
      exact ⟨hresult, hattempts, hcurrent, hcount⟩
  · obtain ⟨report, s', hrun, hresult, hattempts, hcount, hidentity, hintegrity, hmemory⟩ :=
      run_updates hb hl hid hp hver budget hc hr hl4 he hlog
    refine ⟨report, s', hver, hread, hrun, ?_⟩
    simp only [if_neg hc, if_neg he]
    refine ⟨hresult, hattempts, hcount, ?_, ⟨_, hintegrity, rfl⟩, ?_⟩
    · rw [hidentity, reportedVersion_versionReport]
    · have hstored := record.updated options.middleware version
        |>.load_store_toBytes m logAreaStart
      rw [Controller.peek, hmemory]
      exact hstored.trans (Statistics.toBytes_eq_spelled _)

end Run

/-- Two records, the first of them in two fragments. -/
def splitUpdate : Image where
  records := [[0xC0, 0x00, 0x1A, 0x08] ++ List.replicate 300 0x55, [0xC0, 0x00]]
  data := [[0xC0, 0x00, 0x1A, 0x08] ++ List.replicate 300 0x55, [0xC0, 0x00]].flatMap Record.encode
  data_eq := rfl
  data_ne := by decide +kernel
  isBody := by decide +kernel

/-- A chip that one download of two failed on. -/
def outdated : Controller where
  memory := Memory.erased.store logAreaStart
    (Statistics.toBytes { triggered := 2, succeeded := 1, failed := 1, consecutive := 1 })

def outdatedDownload : Sequencer (Bench Controller) :=
  unbegun {} (fun _ => .ok splitUpdate) { link := outdated } {}

theorem faultless_download_updates : ∃ report s', outdatedDownload.run 0 = some (report, s') ∧
    report.result = .ok () ∧ report.attempts = 1 ∧ s'.engine.world.link.recordCount = 2 ∧
    s'.engine.world.link.peek logAreaStart 13 = Statistics.spelled {
      firmware := 0x081A, triggered := 3, succeeded := 2, failed := 1, pending := true } := by
  obtain ⟨version, record, report, s', hv, hl, hrun, h⟩ := faultless_download {}
    (fun _ => .ok splitUpdate) { link := outdated } {} {} outdated.memory splitUpdate 0
    ⟨rfl, rfl, rfl, rfl, fun _ => ⟨rfl, rfl⟩⟩ rfl (by decide +kernel) (by decide)
    (by decide +kernel)
  have hv' : splitUpdate.version? = some ⟨0x08, 0x1A⟩ := by decide +kernel
  have hl' : Statistics.ofBytes? (outdated.memory.load logAreaStart Statistics.size) =
      some { triggered := 2, succeeded := 1, failed := 1, consecutive := 1 } := by decide +kernel
  cases hv.symm.trans hv'
  cases (Statistics.ofBytes?_eq_some_iff.2 hl).symm.trans hl'
  obtain ⟨hr, ha, hn, -, -, hp⟩ := h
  exact ⟨report, s', hrun, hr, ha, hn, hp⟩

end Sequencer

end FirmwareDownload
