import Trusca.Store.RowLaws
import Trusca.Store.Session

/-! Sessions on one row that never write over a final version keep it through every run. -/

namespace Store.Sessions

variable {τ α κ π ε : Type*}

/-- Nobody holds the row and every session stands at a phase it can start from. -/
structure Fresh (initial : π → Bool) (world : Sessions (Row τ α) τ π) : Prop where
  unlocked : world.store.held = none
  initial : ∀ tx, initial (world.phase tx) = true

/-- The obligations of a family of sessions that respects final versions.

What a session relies on survives undisturbed rows, every allowed action is harmless and
re-establishes it, and the key tells whether a version is final. -/
structure Discipline (act : τ → ε → Row τ α → π → Option (Row τ α × π))
    (own : τ → Row τ α → π → Prop) (ok : Row τ α → ε → π → Prop) (initial : π → Bool)
    (key : Option α → κ) (final : α → Prop) : Prop where
  starts : ∀ tx row phase, initial phase = true → (∀ version, ¬row.HeldBy tx version) →
    own tx row phase
  undisturbed : ∀ tx row next phase, own tx row phase → Row.Undisturbed tx row next →
    own tx next phase
  harmless : ∀ tx event row phase next after, own tx row phase → ok row event phase →
    act tx event row phase = some (next, after) →
    Row.Harmless key final tx row next ∧ own tx next after
  determined : ∀ current other, final current → key other = key (some current) →
    ∃ same, other = some same ∧ final same

variable [DecidableEq τ] {act : τ → ε → Row τ α → π → Option (Row τ α × π)}
  {own : τ → Row τ α → π → Prop} {ok : Row τ α → ε → π → Prop} {initial : π → Bool}
  {key : Option α → κ} {final : α → Prop} {start middle last : Sessions (Row τ α) τ π}

omit [DecidableEq τ] in
/-- A fresh system is settled and every session can rely on it. -/
theorem Discipline.fresh (discipline : Discipline act own ok initial key final)
    (fresh : start.Fresh initial) : Annotated (Row.Settled key final) own start := by
  refine ⟨.of_unheld fresh.unlocked, fun tx => ?_⟩
  exact discipline.starts tx _ _ (fresh.initial tx) (Row.not_heldBy_of_unlocked fresh.unlocked)

/-- Each allowed step keeps the system annotated and the key of a final version. -/
theorem Discipline.step (discipline : Discipline act own ok initial key final)
    (world : Sessions (Row τ α) τ π) (event : τ × ε) (next : Sessions (Row τ α) τ π)
    (sound : Annotated (Row.Settled key final) own world) (met : Allows ok world event)
    (taken : Sessions.step act world event = some next) :
    Annotated (Row.Settled key final) own next ∧
      ∀ current, world.store.committed = some current → final current →
        key next.store.committed = key (some current) := by
  obtain ⟨tx, event⟩ := event
  have acting : ∀ store phase, act tx event world.store (world.phase tx) = some (store, phase) →
      Row.Harmless key final tx world.store store ∧ own tx store phase :=
    fun _ _ acted => discipline.harmless tx event _ _ _ _ (sound.own tx) met acted
  refine ⟨Annotated.step sound taken ?_ ?_, ?_⟩
  · -- The acting session leaves a settled row and what it relies on next.
    intro store phase acted
    exact ⟨(acting store phase acted).1.settled sound.shared, (acting store phase acted).2⟩
  · -- Every other session finds what it relied on undisturbed.
    intro store phase other progress acted different relies
    exact discipline.undisturbed other _ _ _ relies
      ((acting store phase acted).1.undisturbed other different)
  · -- On a settled row a harmless action keeps the key of a final version.
    intro current published ended
    obtain ⟨store, phase, acted, rfl⟩ := step_eq_some.mp taken
    rw [← published]
    exact (acting store phase acted).1.kept sound.shared current published ended

/-- Once a final version is committed, its key stays through every allowed continuation. -/
theorem Discipline.permanent (discipline : Discipline act own ok initial key final)
    {before after : List (τ × ε)} (fresh : start.Fresh initial)
    (met : Guarded (Sessions.step act) (Allows ok) start (before ++ after))
    (reached : run (Sessions.step act) start before = some middle)
    (continued : run (Sessions.step act) middle after = some last) {current : α}
    (published : middle.store.committed = some current) (ended : final current) :
    key last.store.committed = key (some current) := by
  obtain ⟨early, late⟩ := met.append reached
  -- The first part of the run establishes the annotation at the state in the middle.
  have sound : Annotated (Row.Settled key final) own middle :=
    run_invariant (fun _ _ _ holds allowed taken => (discipline.step _ _ _ holds allowed taken).1)
      (discipline.fresh fresh) early reached
  -- From there on, each step relates the keys of the committed versions at its two ends.
  have kept := run_relation (Annotated (Row.Settled key final) own)
    (fun first second => ∀ version, first.store.committed = some version → final version →
      key second.store.committed = key (some version))
    (fun _ _ found _ => congrArg key found) ?_ discipline.step sound late continued
  · exact kept current published ended
  · -- The key of a final version determines that the next version is final as well.
    intro first second third earlier later version found finished
    have same := earlier version found finished
    obtain ⟨next, stored, alike⟩ := discipline.determined version _ finished same
    rw [later next stored alike, ← stored, same]

end Store.Sessions
