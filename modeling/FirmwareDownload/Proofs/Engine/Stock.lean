import FirmwareDownload.Proofs.Engine.Writing

/-! The images at hand. An engine takes its images from one library, and keeps of them the primary
one; a write without data of its own takes the image that is selected for it. -/

namespace FirmwareDownload

namespace Engine

variable {W : Type} [Host W] {e e' : Engine W}

/-- The engine takes its images from the library, the primary one too. -/
structure Stocked (e : Engine W) (library : ImageLibrary) : Prop where
  source : e.library = library
  primary : ∀ image, e.primary = some image → library .primary = .ok image

omit [Host W] in
theorem Stocked.keeps {library : ImageLibrary} (h : e.Stocked library)
    (hl : e'.library = e.library) (hk : e.KeepsPrimary e') : e'.Stocked library := by
  refine ⟨hl.trans h.source, fun image hi => ?_⟩
  rcases hk with hp | ⟨image', hi', hp⟩
  · exact h.primary image (hp ▸ hi)
  · obtain rfl := Option.some.inj (hp.symm.trans hi)
    exact h.source ▸ hi'

theorem Stocked.advance {library : ImageLibrary} {cs : List Command} (h : e.Stocked library)
    (ha : e.Advances cs e') : e'.Stocked library := by
  cases ha with
  | keeps _ hp => exact h.keeps hp.library hp.primary
  | calls hc =>
    cases hc with
    | refused _ hp => exact h.keeps hp.library hp.primary
    | starts _ _ _ hp => exact h.keeps hp.library hp.primary
    | undone _ _ _ hp => exact h.keeps hp.library hp.primary
  | ignores => exact ⟨h.source, h.primary⟩
  | @reacts _ rest _ _ _ _ outcome _ _ _ _ _ ht =>
    have h' : (e.popped rest).Stocked library := ⟨h.source, h.primary⟩
    cases outcome with
    | none => exact h'.keeps ht.library ht.primary
    | some result => exact h'.keeps ht.library ht.primary

theorem Stocked.run {library : ImageLibrary} (h : e.Stocked library) (hs : e.Standing)
    (moves : List (Move W)) : (e.run moves).Stocked library := by
  induction moves generalizing e with
  | nil => exact h
  | cons m moves ih =>
    have ha := hs.move_advances m
    exact ih (h.advance ha) (ha.standing hs)

omit [Host W] in
theorem stocked_fresh (config : Config) (library : ImageLibrary) (w : W) :
    (fresh config library w).Stocked library :=
  ⟨rfl, nofun⟩

omit [Host W] in
theorem Stocked.takes {library : ImageLibrary} {recovery : Bool} {image : Image}
    (h : e.Stocked library) (ht : e.Takes recovery image none) :
    library (.select recovery e.session.lastStatus) = .ok image := by
  rcases ht with hi | ⟨hk, hi⟩
  · exact h.source ▸ hi
  · exact hk ▸ h.primary image hi

end Engine

end FirmwareDownload
