import FirmwareDownload.Proofs.Engine.Following
import FirmwareDownload.Proofs.Engine.Pursuit
import FirmwareDownload.Proofs.Engine.Refusals

/-! The lifetime of a session, whatever else is done to its engine. Until the session ends every
call is refused; what comes behind its end leaves its notices and its completion where they are. -/

namespace FirmwareDownload

namespace Engine

variable {W : Type} [Host W] {e e₀ : Engine W} {command : Command} {id : TimerId}
  {ns : List Notice}

/-- Since `e₀` a session of the command was started, and these are its notices. It is still under
way, or it was completed with a result and a response. -/
inductive Lifetime (e₀ e : Engine W) (command : Command) (ns : List Notice) :
    Option (Except DownloadError Unit × Bytes) → Prop
  | underway : e.session.command = some command → brackets ns = [.started command] →
    e.journal = ns ++ e₀.journal → e.delivered = e₀.delivered → Lifetime e₀ e command ns none
  | over {result : Except DownloadError Unit} {response : Bytes} {more : List Notice}
      {further : List Completion} : brackets ns = [.started command] →
    e.journal = more ++ .finished command (errorOf result) :: (ns ++ e₀.journal) →
    e.delivered = further ++ ⟨command, result, response⟩ :: e₀.delivered →
    Lifetime e₀ e command ns (some (result, response))

/-- While a session is under way, nothing but the handling of signals touches it. -/
theorem move_under_way (hw : e.session.Waiting command id) {m : Move W} (hm : ¬ m.Serves) :
    (e.move m).session = e.session ∧ (e.move m).journal = e.journal ∧
      (e.move m).delivered = e.delivered := by
  cases m with
  | call c =>
    rw [Engine.move, call_busy hw.busy]
    exact ⟨rfl, rfl, rfl⟩
  | setMode mode =>
    rw [Engine.move, Engine.setMode, if_pos hw.busy]
    exact ⟨rfl, rfl, rfl⟩
  | loadPrimary =>
    have hp := Passes.loadPrimary e
    exact ⟨hp.session, hp.journal, hp.delivered⟩
  | handleNext => exact absurd .handleNext hm
  | arrive signals => exact absurd (.arrive signals) hm
  | pass w => exact absurd (.pass w) hm

section

variable {Holds : Session → List Notice → Prop}
  {Ends : Except DownloadError Unit → Bytes → List Notice → Prop}

/-- Behind any moves the session is under way, or its end lies behind it. -/
theorem Follows.lasts (hk : Steady W command Holds Ends) (h : e₀.Follows command Holds Ends e)
    (moves : List (Move W)) :
    (∃ ns id, (e.run moves).journal = ns ++ e₀.journal ∧ (e.run moves).delivered = e₀.delivered ∧
      (e.run moves).session.Waiting command id ∧ Holds (e.run moves).session ns) ∨
    ∃ closing ns result response, Plain closing ∧ Ends result response ns ∧
      .finished command (errorOf result) :: (closing ++ ns) ++ e₀.journal <:+
        (e.run moves).journal ∧
      ⟨command, result, response⟩ :: e₀.delivered <:+ (e.run moves).delivered := by
  induction moves generalizing e with
  | nil =>
    cases h with
    | underway hj hd hw hh => exact .inl ⟨_, _, hj, hd, hw, hh⟩
    | ended hj hc _ hd he =>
      exact .inr ⟨_, _, _, _, hc, he, hj ▸ List.suffix_rfl, hd ▸ List.suffix_rfl⟩
  | cons m moves ih =>
    cases h with
    | ended hj hc hi hd he =>
      obtain ⟨more, hmore⟩ := Standing.run_journal (.inl hi) (m :: moves)
      exact .inr ⟨_, _, _, _, hc, he, hj ▸ ⟨more, hmore.symm⟩,
        hd ▸ Standing.delivered_run (.inl hi) (m :: moves)⟩
    | underway hj hd hw hh =>
      by_cases hm : m.Serves
      · exact ih ((Follows.underway hj hd hw hh).move hk hm)
      · obtain ⟨hs, hj', hd'⟩ := move_under_way hw hm
        exact ih (.underway (hj'.trans hj) (hd'.trans hd) (hs ▸ hw) (hs ▸ hh))

theorem Steady.bracketed (hk : Steady W command Holds Ends) :
    Steady W command (fun s ns => brackets ns = [.started command] ∧ Holds s ns)
      (fun result response ns => brackets ns = [.started command] ∧ Ends result response ns) := by
  rintro e e' id signal s ns ns' outcome hw ha ⟨hb, hh⟩ h
  have hb' := (brackets_behind h.brackets_eq_nil).trans hb
  have ht := hk hw ha hh h
  cases outcome with
  | none => exact ⟨hb', ht⟩
  | some result => exact ⟨hb', ht⟩

/-- What holds of a session at its start and is steady tells about all its lifetime, if its end
bears plain notices. -/
theorem Steady.lifetime (hk : Steady W command Holds Ends)
    (hplain : ∀ {result response ns closing}, Plain closing → Ends result response ns →
      Ends result response (closing ++ ns))
    (hj : e.journal = ns ++ e₀.journal) (hd : e.delivered = e₀.delivered)
    (hw : e.session.Waiting command id) (hb : brackets ns = [.started command])
    (hh : Holds e.session ns) (moves : List (Move W)) :
    ∃ ns outcome, e₀.Lifetime (e.run moves) command ns outcome ∧
      (outcome = none → ∃ s, Holds s ns) ∧
      ∀ result response, outcome = some (result, response) → Ends result response ns := by
  have hstart : e₀.Follows command (fun s ns => brackets ns = [.started command] ∧ Holds s ns)
      (fun result response ns => brackets ns = [.started command] ∧ Ends result response ns) e :=
    .underway hj hd hw ⟨hb, hh⟩
  rcases hstart.lasts hk.bracketed moves with
    ⟨ns, id, hj, hd, hw, hb, hh⟩ | ⟨closing, ns, result, response, hc, ⟨hb, he⟩, ⟨more, hj⟩,
      ⟨further, hd⟩⟩
  · exact ⟨ns, none, .underway hw.command hb hj hd, fun _ => ⟨_, hh⟩, nofun⟩
  · have hb' := (brackets_behind hc.brackets_eq_nil).trans hb
    refine ⟨closing ++ ns, some (result, response), .over hb' hj.symm hd.symm, nofun, ?_⟩
    rintro _ _ ⟨⟩
    exact hplain hc he

end

end Engine

end FirmwareDownload
