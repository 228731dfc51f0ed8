import Trusca.Store.Run

/-! Concurrent sessions over one shared store, and invariants free of interference. -/

namespace Store

/-- A shared store together with the progress of every session. -/
structure Sessions (ρ τ π : Type*) where
  store : ρ
  phase : τ → π

namespace Sessions

variable {ρ τ π ε : Type*}

/-- One session takes one event; the other sessions keep their progress. -/
def step [DecidableEq τ] (act : τ → ε → ρ → π → Option (ρ × π)) (world : Sessions ρ τ π)
    (event : τ × ε) : Option (Sessions ρ τ π) :=
  -- The action reads the store and its own session's progress, and nothing of the others.
  (act event.1 event.2 world.store (world.phase event.1)).map fun after =>
    { store := after.1, phase := Function.update world.phase event.1 after.2 }

/-- A side condition on the store and the acting session, read in a whole system. -/
def Allows (ok : ρ → ε → π → Prop) (world : Sessions ρ τ π) (event : τ × ε) : Prop :=
  ok world.store event.2 (world.phase event.1)

instance (ok : ρ → ε → π → Prop) [∀ store event phase, Decidable (ok store event phase)]
    (world : Sessions ρ τ π) (event : τ × ε) : Decidable (Allows ok world event) :=
  inferInstanceAs (Decidable (ok _ _ _))

variable [DecidableEq τ] {act : τ → ε → ρ → π → Option (ρ × π)} {world next : Sessions ρ τ π}
  {tx : τ} {event : ε}

/-- A step is an action of the session it belongs to. -/
theorem step_eq_some :
    step act world (tx, event) = some next ↔
      ∃ store phase, act tx event world.store (world.phase tx) = some (store, phase) ∧
        next = { store := store, phase := Function.update world.phase tx phase } := by
  simp only [step, Option.map_eq_some_iff, Prod.exists]
  constructor
  · rintro ⟨store, phase, taken, rfl⟩
    exact ⟨store, phase, taken, rfl⟩
  · rintro ⟨store, phase, taken, rfl⟩
    exact ⟨store, phase, taken, rfl⟩

/-- What the store satisfies on its own, and what each session may rely on about it. -/
structure Annotated (shared : ρ → Prop) (own : τ → ρ → π → Prop) (world : Sessions ρ τ π) :
    Prop where
  shared : shared world.store
  own : ∀ tx, own tx world.store (world.phase tx)

/-- An annotation survives a step that re-establishes it for the acting session and does not
interfere with the others where they stand. -/
theorem Annotated.step_at {shared : ρ → Prop} {own : τ → ρ → π → Prop}
    (annotated : Annotated shared own world) (taken : step act world (tx, event) = some next)
    (acting : ∀ store phase, act tx event world.store (world.phase tx) = some (store, phase) →
      shared store ∧ own tx store phase)
    (others : ∀ store phase other,
      act tx event world.store (world.phase tx) = some (store, phase) → other ≠ tx →
      own other world.store (world.phase other) → own other store (world.phase other)) :
    Annotated shared own next := by
  obtain ⟨store, phase, acted, rfl⟩ := step_eq_some.mp taken
  refine ⟨(acting store phase acted).1, ?_⟩
  intro other
  by_cases same : other = tx
  · -- The acting session re-established its own condition.
    subst same
    simpa using (acting store phase acted).2
  · -- Any other session stands where it stood, over a store that did not interfere.
    simp only [Function.update_of_ne same]
    exact others store phase other acted same (annotated.own other)

/-- An annotation survives a step that re-establishes it for the acting session and does not
interfere with the others, wherever they stand. -/
theorem Annotated.step {shared : ρ → Prop} {own : τ → ρ → π → Prop}
    (annotated : Annotated shared own world) (taken : step act world (tx, event) = some next)
    (acting : ∀ store phase, act tx event world.store (world.phase tx) = some (store, phase) →
      shared store ∧ own tx store phase)
    (others : ∀ store phase other progress,
      act tx event world.store (world.phase tx) = some (store, phase) → other ≠ tx →
      own other world.store progress → own other store progress) :
    Annotated shared own next :=
  annotated.step_at taken acting fun store phase other => others store phase other _

end Sessions

end Store
