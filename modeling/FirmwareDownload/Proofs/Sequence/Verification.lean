import FirmwareDownload.Proofs.Engine.Stock
import FirmwareDownload.Proofs.Sequence.Recovery
import FirmwareDownload.Proofs.Sequence.Success

/-! What the success of a sequence stands for. If the last table counted a write, then the
controller reported the new version and sound regions after it, and took the record of a success. -/

namespace FirmwareDownload

variable {W : Type} [Host W]

/-- The step's command ended well on an answer of the controller, with that payload if the command
asks for one. -/
def Visit.Hears (v : Visit W) (c : Call) (report : Bytes) : Prop :=
  v.command? = some (c, .ended (.ok report)) ∧
    ∃ ns raw answer, v.after.engine.journal = ns ++ v.before.engine.journal ∧
      .received raw ∈ ns ∧ Frame.decode raw = .ok answer ∧ answer.status = .ok ∧
      (c.capacity ≠ 0 → report = answer.payload)

/-- The controller runs the version and is sound, and the record of a success is in its log. -/
structure Verifies (version : FirmwareVersion) (revision : UInt8) (g v l i : Visit W) : Prop where
  session : ∃ report, g.Hears (.getSessionState 3) report ∧ report.length = 3 ∧
    report.byteAt 2 = 17 ∧ report.byteAt 0 ≠ 1
  chip : ∃ report hardware expected, v.Hears (.getVersion 11) report ∧
    report.head? = some hardware ∧ revision = hardware &&& 0x0F ∧
    reportLength? revision = some expected ∧
    (report.length ≠ expected ∨ reportedVersion report = version)
  record : ∃ (record : Statistics) (answer : Bytes), l.Hears (.log record.spelled) answer ∧
    record.consecutive = 0 ∧ record.pending = true
  regions : ∃ report, i.Hears (.checkIntegrity revision 31) report ∧ (report.length ≠ 31 ∨
    ∃ flags, RegionFlags.ofReport? report = some flags ∧ ∀ region, flags.passed region = true)

namespace Visit

variable {v : Visit W} {c : Call}
  {take : Sequencer W → Bytes → Except DownloadError Unit × Sequencer W}

/-- A query that goes well has been answered by the controller. -/
theorem hears (hs : v.before.engine.Standing) (ha : c.command.asks = true)
    (he : v.before.takeStep v.step = v.noted.performThen c take)
    (ht : ∀ s answer, Sequencer.Alike s (take s answer).2) (hr : v.result = .ok ()) :
    ∃ report, v.Hears c report ∧ take (v.noted.attempt c).2 report = (.ok (), v.after) := by
  obtain ⟨hc, hen, ⟨err, -, hr', -⟩ | ⟨report, hatt, htake⟩⟩ := performs he ht
  · cases hr.symm.trans hr'
  · rw [hr] at htake
    have hf := Sequencer.attempt_fares hs c
    rw [hatt] at hc hf
    refine ⟨report, ⟨hc, ?_⟩, htake.symm⟩
    generalize hres : Except.ok report = answered at hf
    rw [hen]
    cases hf with
    | cutOff => cases hres
    | @ends ns result response _ _ _ hj hacc =>
      cases result with
      | error err => cases hres
      | ok =>
        obtain ⟨raw, answer, hrecv, hdec, hst, hp⟩ := hacc.answer ha rfl
        cases hres
        exact ⟨ns, raw, answer, hj, hrecv, hdec, hst, hp⟩

end Visit

/-! ## After a counted write -/

namespace Sequencer

/-- A counted write went well, and the table goes on to verify it. -/
structure Written (s : Sequencer W) : Prop where
  unlogged : s.flags.unlogged = true
  onward : s.flags.skipRest = false
  counted : s.flags.forced = false
  success : s.statistics.consecutive = 0 ∧ s.statistics.pending = true

variable {s : Sequencer W} {w g v l i : Visit W} {revision : UInt8} {retry : Bool}

theorem written (hs : w.before.engine.Standing) (hb : w.before.Opening retry)
    (hc : w.counted = true) (hr : w.result = .ok ()) : w.after.Written := by
  obtain ⟨-, hforced, -⟩ := Visit.counted_iff.1 hc
  obtain ⟨-, ⟨-, hf, hst⟩ | ⟨err, he, -⟩⟩ := Visit.counted_cases hs hc
  · exact ⟨by rw [hf], by rw [hf]; exact Visit.counted_onward hb hc, by rw [hf]; exact hforced,
      by rw [hst]; exact ⟨rfl, rfl⟩⟩
  · cases hr.symm.trans he

theorem Written.session (h : g.before.Written) (hg : g.step = .getSessionState)
    (hs : g.before.engine.Standing) (hr : g.result = .ok ()) :
    (∃ report, g.Hears (.getSessionState 3) report ∧ report.length = 3 ∧
      report.byteAt 2 = 17 ∧ report.byteAt 0 ≠ 1) ∧
    g.after.Written ∧ g.after.flags.sessionOpen = false := by
  have he : g.before.takeStep g.step =
      g.noted.performThen (.getSessionState 3) takeSessionState := by
    rw [g.takeStep_eq, hg]
    exact if_neg (Bool.eq_false_iff.1 h.onward)
  obtain ⟨report, hears, ht⟩ := Visit.hears hs rfl he alike_takeSessionState hr
  let s := (g.noted.attempt (.getSessionState 3)).2
  rcases takeSessionState_cases s report with ⟨err, he, -⟩ |
    ⟨isOpen, hlen, hcycle, hopen, ⟨-, -, err, he, -⟩ | ⟨hclosed, he⟩⟩
  · cases ht.symm.trans he
  · cases ht.symm.trans he
  · have hafter : g.after = s.withFlags { s.flags with sessionOpen := isOpen } :=
      congrArg Prod.snd (ht.symm.trans he)
    obtain rfl : isOpen = false := hclosed.resolve_right fun hu => by
      cases hu.symm.trans h.unlogged
    rw [hafter]
    refine ⟨⟨report, hears, hlen, hcycle, of_decide_eq_false hopen.symm⟩, ?_, rfl⟩
    exact ⟨h.unlogged, h.onward, h.counted, h.success⟩

theorem Written.chip (h : v.before.Written) (ho : v.before.flags.sessionOpen = false)
    (hv : v.step = .getVersion) (hs : v.before.engine.Standing) (hr : v.result = .ok ()) :
    ∃ revision, (∃ report hardware expected, v.Hears (.getVersion 11) report ∧
      report.head? = some hardware ∧ revision = hardware &&& 0x0F ∧
      reportLength? revision = some expected ∧ (report.length ≠ expected ∨
        reportedVersion report = v.before.imageVersion.getD ⟨0, 0⟩)) ∧
    v.after.Written ∧ v.after.flags.sessionOpen = false ∧
      v.after.chipVersion = some revision := by
  have he : v.before.takeStep v.step = v.noted.performThen (.getVersion 11) takeVersion := by
    rw [v.takeStep_eq, hv]
    refine if_neg (Bool.eq_false_iff.1 ?_)
    exact Bool.or_eq_false_iff.2 ⟨h.onward, ho⟩
  obtain ⟨report, hears, ht⟩ := Visit.hears hs rfl he alike_takeVersion hr
  let s := (v.noted.attempt (.getVersion 11)).2
  rcases takeVersion_cases s report with ⟨err, chip, he, -⟩ |
    ⟨hardware, expected, hh, hl, ⟨hne, he⟩ | ⟨heq, he⟩⟩
  · cases ht.symm.trans he
  · have hafter := congrArg Prod.snd (ht.symm.trans he)
    refine ⟨_, ⟨report, hardware, expected, hears, hh, rfl, hl, .inl hne⟩, ?_⟩
    rw [show v.after = s.revised (hardware &&& 0x0F) from hafter]
    exact ⟨⟨h.unlogged, h.onward, h.counted, h.success⟩, ho, rfl⟩
  · rw [if_pos (show s.flags.unlogged = true from h.unlogged)] at he
    rcases checkAfter_cases (s.revised (hardware &&& 0x0F)) (s.imageVersion.getD ⟨0, 0⟩)
      (reportedVersion report) with ⟨err, hc, -⟩ | ⟨hver, hc⟩
    · cases (ht.symm.trans he).trans hc
    · have hafter := congrArg Prod.snd ((ht.symm.trans he).trans hc)
      refine ⟨_, ⟨report, hardware, expected, hears, hh, rfl, hl, .inr hver⟩, ?_⟩
      rw [show v.after = _ from hafter]
      exact ⟨⟨h.unlogged, h.onward, h.counted, h.success⟩, ho, rfl⟩

theorem Written.record (h : l.before.Written) (hl : l.step = .log)
    (hs : l.before.engine.Standing) (hr : l.result = .ok ()) :
    (∃ (record : Statistics) (answer : Bytes), l.Hears (.log record.spelled) answer ∧
      record.consecutive = 0 ∧ record.pending = true) ∧
    l.after.flags.skipRest = false ∧ l.after.flags.sessionOpen = l.before.flags.sessionOpen ∧
      l.after.chipVersion = l.before.chipVersion := by
  rcases Visit.log_cases hl with ⟨hk, -⟩ | ⟨-, he⟩
  · rw [h.unlogged, Bool.not_true, Bool.and_false] at hk
    cases hk
  · obtain ⟨answer, hears, ht⟩ := Visit.hears hs rfl he (fun s _ => alike_withFlags s _) hr
    obtain ⟨-, hafter⟩ := Prod.mk.inj ht
    rw [← hafter]
    exact ⟨⟨_, answer, Statistics.toBytes_eq_spelled _ ▸ hears, h.success⟩, h.onward, rfl, rfl⟩

theorem regions_passed (hi : i.step = .checkIntegrity) (hs : i.before.engine.Standing)
    (hr : i.result = .ok ()) (hk : i.before.flags.skipRest = false)
    (ho : i.before.flags.sessionOpen = false) (hc : i.before.chipVersion = some revision) :
    ∃ report, i.Hears (.checkIntegrity revision 31) report ∧ (report.length ≠ 31 ∨
      ∃ flags, RegionFlags.ofReport? report = some flags ∧
        ∀ region, flags.passed region = true) := by
  have hrev : i.noted.chipVersion.getD 0 = revision :=
    congrArg (Option.getD · 0) (show i.noted.chipVersion = some revision from hc)
  have he : i.before.takeStep i.step =
      i.noted.performThen (.checkIntegrity revision 31) takeIntegrity := by
    rw [i.takeStep_eq, hi, ← hrev]
    exact if_neg (Bool.eq_false_iff.1 (Bool.or_eq_false_iff.2 ⟨ho, hk⟩))
  obtain ⟨report, hears, ht⟩ := Visit.hears hs rfl he alike_takeIntegrity hr
  exact ⟨report, hears, takeIntegrity_ok (congrArg Prod.fst ht)⟩

/-- A main table that counted a write and went well has verified it. -/
theorem finishes_verifies {lap : Lap W} (hf : lap.Finishes w g v l i)
    (hs : ∀ u ∈ lap.visits, u.before.engine.Standing) (hb : w.before.Opening retry)
    (hc : w.counted = true) :
    ∃ revision, Verifies (lap.entry.imageVersion.getD ⟨0, 0⟩) revision g v l i := by
  have hkeeps := (takeSteps_keeps lap.entry lap.steps v
    (show v ∈ lap.visits from hf.visits ▸ List.mem_append_right _ (by simp))).2
  have hmem : ∀ u ∈ [w, g, v, l, i], u.before.engine.Standing := fun u hu =>
    hs u (hf.visits ▸ List.mem_append_right _ hu)
  simp only [List.mem_cons, List.not_mem_nil, or_false, forall_eq_or_imp, forall_eq] at hmem
  obtain ⟨hsw, hsg, hsv, hsl, hsi⟩ := hmem
  obtain ⟨hg, hgb, hgr⟩ := hf.session
  obtain ⟨hv, hvb, hvr⟩ := hf.version
  obtain ⟨hl, hlb, hlr⟩ := hf.log
  obtain ⟨hi, hib, hir⟩ := hf.integrity
  have hwritten := written hsw hb hc hf.write.2
  rw [← hgb] at hwritten
  obtain ⟨hsession, hwritten, hopen⟩ := hwritten.session hg hsg hgr
  rw [← hvb] at hwritten hopen
  obtain ⟨revision, hchip, hwritten, hopen, hrev⟩ := hwritten.chip hopen hv hsv hvr
  rw [← hlb] at hwritten hopen hrev
  obtain ⟨hrecord, hskip, hopen', hrev'⟩ := hwritten.record hl hsl hlr
  rw [← hib] at hskip hopen' hrev'
  have hregions := regions_passed hi hsi hir hskip (hopen'.trans hopen) (hrev'.trans hrev)
  rw [hkeeps] at hchip
  exact ⟨revision, hsession, hchip, hrecord, hregions⟩

/-! ## The whole sequence -/

variable {s₁ : Sequencer W} {status : Except DownloadError Unit} {lap : Lap W}
  {laps : List (Lap W)}

theorem Begins.image (h : s.Begins s₁) :
    ∃ image, s.engine.library .primary = .ok image ∧ s₁.imageVersion = image.version? := by
  obtain ⟨version, e, hl, hm⟩ := h
  obtain rfl := congrArg Prod.snd hm
  unfold Engine.loadPrimary at hl
  cases hi : s.engine.library .primary with
  | error err =>
    rw [hi] at hl
    cases hl
  | ok image =>
    rw [hi] at hl
    cases hl
    exact ⟨image, rfl, rfl⟩

theorem Completes.image (hf : s.flags = {}) (h : s.Completes (lap :: laps) status s₁) :
    ∃ image, s.engine.library .primary = .ok image ∧ lap.entry.imageVersion = image.version? := by
  refine (h.along (P := fun _ s₁ => ∃ image, s.engine.library .primary = .ok image ∧
    s₁.imageVersion = image.version?) hf (fun s₁ hb => hb.image) (fun vs s₁ status t _ hi => ?_)
    (fun _ _ _ _ v vs _ _ hi => ?_)).1
  · rw [(lapAfter_keeps s₁ status t).2.1]
    exact hi
  · rw [v.does.1.keeps.2]
    exact hi

theorem leave_ok (h : (s.leave status).1 = .ok ()) : status = .ok () := by
  cases status with
  | ok => rfl
  | error err =>
    unfold Sequencer.leave at h
    rcases hm : s.setMode .normal with ⟨_ | _, s₁⟩ <;> rw [hm] at h <;> cases h

/-- A sequence that succeeds ends with a main table. If that counted a write, then the controller
has reported the version of the image and sound regions after it, and taken the record. -/
theorem success_is_verified (config : Config) (library : ImageLibrary) (w : W)
    (moves : List (Move W)) (options : SequenceOptions) :
    let s : Sequencer W :=
      { engine := (Engine.fresh config library w).run moves, options := options }
    ∀ budget report s', s.run budget = some (report, s') → report.result = .ok () →
      ∃ lap laps s₁ image, s.Completes (lap :: laps) (.ok ()) s₁ ∧
        (s₁.react (.ok ())).next? = none ∧ s'.history = s₁.history ∧
        lap.table = .main ∧ library .primary = .ok image ∧
        ∀ u ∈ lap.visits, u.counted = true → ∃ before g v l i revision,
          lap.visits = before ++ [u, g, v, l, i] ∧
          Verifies (image.version?.getD ⟨0, 0⟩) revision g v l i := by
  intro s budget report s' hrun hok
  have hs : s.engine.Standing := (Engine.standing_fresh config library w).run moves
  have hlib : s.engine.library = library := ((Engine.stocked_fresh config library w).run
    (Engine.standing_fresh config library w) moves).source
  obtain ⟨laps, status, s₁, h, hn, hh, hl⟩ := run_completes hrun
  obtain rfl := leave_ok ((congrArg Prod.fst hl).trans hok)
  obtain ⟨-, lap, laps, rfl, hres, ht⟩ := h.last_table rfl
  have hmain : lap.table = .main := ht.resolve_right fun hd => by
    cases hd.symm.trans hn
  obtain ⟨image, hi, hversion⟩ := h.image rfl
  refine ⟨lap, laps, s₁, image, h, hn, hh, hmain, hlib ▸ hi, fun u hu hc => ?_⟩
  obtain ⟨w, g, v, l, i, hf⟩ := Lap.finishes hmain hres
  have hstep := (Visit.counted_iff.1 hc).1
  obtain ⟨retry, hb, -⟩ := h.write_opening hs rfl hu hstep
  -- The table has one write, so the counted one is the one that the table finishes from.
  have huw : u = w := by
    obtain ⟨-, hopening, -⟩ := write_visit hu hstep
    have hbefore : u.before = w.before :=
      congrArg Prod.snd (hopening.symm.trans hf.opening)
    cases u
    cases w
    exact congr (congrArg Visit.mk (hstep.trans hf.write.1.symm)) hbefore
  subst huw
  obtain ⟨revision, hv⟩ := finishes_verifies hf
    (fun v hv => (h.visit_moves (List.mem_cons_self ..) hv).standing hs) hb hc
  rw [hversion] at hv
  exact ⟨_, g, v, l, i, revision, hf.visits, hv⟩

def allWell : Script where
  answers := [
    (some 0xF2, [.status 0x00 [0x00, 0x00, 0x11]]),
    (some 0xF1, [.status 0x00 [0x08, 0x10, 0x00, 0x00, 0x00, 0x00, 0x00, 0x19, 0x08],
      .status 0x00 [0x08, 0x10, 0x00, 0x00, 0x00, 0x00, 0x00, 0x1A, 0x08]]),
    (some 0xA2, [.status 0x00 ([0x00, 0x0D, 0x00, 0x00] ++ List.replicate 12 0)]),
    (some 0xC0, [.status 0x00 []]),
    (some 0xA7, [.status 0x00 []]),
    (some 0xE0, [.status 0x00 (0x7F :: List.replicate 30 0)])]

def lucky : Sequencer Rehearsal := rehearsed allWell { stepLimit := 0 }

theorem lucky_is_verified : ∃ report s' lap u before g v l i revision,
    lucky.run 0 = some (report, s') ∧ report.result = .ok () ∧
    lucky.Completes [lap] (.ok ()) lap.exit ∧ u.counted = true ∧
    lap.visits = before ++ [u, g, v, l, i] ∧ Verifies ⟨0x08, 0x1A⟩ revision g v l i := by
  obtain ⟨hrun, hstart, hend, hcounted, himage⟩ :
      (lucky.run 0).map (fun r => errorOf r.1.result) = some none ∧
      lucky.start.2.history.length ≠ lucky.history.length ∧
      (lucky.firstLap.exit.react lucky.firstLap.result).next? = none ∧
      (lucky.firstLap.visits.any fun u => u.counted) = true ∧
      (threeImages .primary).toOption.bind Image.version? = some ⟨0x08, 0x1A⟩ := by decide +kernel
  obtain ⟨⟨report, s'⟩, hr, hres⟩ := Option.map_eq_some_iff.1 hrun
  have hok : report.result = .ok () := by
    cases hx : report.result with
    | ok => rfl
    | error err => rw [hx] at hres; cases hres
  obtain ⟨u, hu, hc⟩ := List.any_eq_true.1 hcounted
  obtain ⟨lap, laps, s₁, image, h, hn, -, -, hi, hverified⟩ :=
    success_is_verified {} threeImages lucky.engine.world [] lucky.options 0 report s' hr hok
  have h : lucky.Completes (lap :: laps) (.ok ()) s₁ := h
  have hlaps : lap :: laps = [lucky.firstLap] :=
    (h.eq_of_ended hn (completes_firstLap hstart) hend).1
  obtain ⟨rfl, rfl⟩ := List.cons.inj hlaps
  rw [h.eq_exit.1] at h
  obtain ⟨before, g, v, l, i, revision, hvis, hv⟩ := hverified u hu hc
  rw [hi] at himage
  rw [show image.version? = some ⟨0x08, 0x1A⟩ from himage] at hv
  exact ⟨report, s', _, u, before, g, v, l, i, revision, hr, hok, h, hc, hvis, hv⟩

end Sequencer

end FirmwareDownload
