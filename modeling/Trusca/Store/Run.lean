import Mathlib.Logic.Function.Basic
import Mathlib.Data.List.Basic

/-! Runs of a partial step function, the invariants they keep, and the side conditions they meet. -/

namespace Store

variable {σ ε : Type*}

/-- Take the events in order; a run exists only when every event is enabled where it is taken. -/
def run (step : σ → ε → Option σ) : σ → List ε → Option σ
  | state, [] => some state
  -- An event that is not enabled leaves the whole run without a result.
  | state, event :: rest => (step state event).bind fun next => run step next rest

/-- Every event of the run is taken in a state that meets the side condition. -/
def Guarded (step : σ → ε → Option σ) (ok : σ → ε → Prop) : σ → List ε → Prop
  | _, [] => True
  | state, event :: rest =>
      ok state event ∧ ∀ next, step state event = some next → Guarded step ok next rest

variable {step : σ → ε → Option σ} {ok : σ → ε → Prop}

/-- Whether a run meets its side condition is found by taking it. -/
instance Guarded.decide [∀ state event, Decidable (ok state event)] :
    ∀ (state : σ) (events : List ε), Decidable (Guarded step ok state events)
  | _, [] => .isTrue trivial
  | state, event :: rest =>
      match taken : step state event with
      -- Past an event that is not enabled, nothing is asked any more.
      | none => decidable_of_iff (ok state event) (by simp [Guarded, taken])
      | some next =>
          letI := Guarded.decide next rest
          decidable_of_iff (ok state event ∧ Guarded step ok next rest) (by simp [Guarded, taken])

/-- No events leave the state. -/
@[simp] theorem run_nil (state : σ) : run step state [] = some state := rfl

/-- A nonempty run takes its first event and continues from the state that event leaves. -/
theorem run_cons {state final : σ} {event : ε} {rest : List ε} :
    run step state (event :: rest) = some final ↔
      ∃ next, step state event = some next ∧ run step next rest = some final := by
  simp [run, Option.bind_eq_some_iff]

/-- A run continues from where its first events lead. -/
theorem run_append (state : σ) (first second : List ε) :
    run step state (first ++ second) =
      (run step state first).bind fun middle => run step middle second := by
  induction first generalizing state with
  | nil => rfl
  | cons event rest ih =>
    simp only [List.cons_append, run, Option.bind_assoc]
    congr 1
    funext next
    exact ih next

/-- A side condition that is met throughout a run is met throughout its continuation. -/
theorem Guarded.append {state middle : σ} {first second : List ε}
    (met : Guarded step ok state (first ++ second)) (before : run step state first = some middle) :
    Guarded step ok state first ∧ Guarded step ok middle second := by
  induction first generalizing state with
  | nil =>
    cases before
    exact ⟨trivial, met⟩
  | cons event rest ih =>
    obtain ⟨next, taken, before⟩ := run_cons.mp before
    obtain ⟨here, later⟩ := met
    obtain ⟨front, back⟩ := ih (later next taken) before
    refine ⟨⟨here, ?_⟩, back⟩
    -- The step is a function, so the state it leaves is the one the run passes through.
    intro other same
    cases Option.some.inj (taken.symm.trans same)
    exact front

/-- A run meets a side condition that asks nothing. -/
theorem Guarded.trivially (state : σ) (events : List ε) :
    Guarded step (fun _ _ => True) state events := by
  induction events generalizing state with
  | nil => trivial
  | cons event rest ih => exact ⟨trivial, fun next _ => ih next⟩

/-- What every guarded step preserves, every guarded run preserves. -/
theorem run_invariant {inv : σ → Prop}
    (preserved : ∀ state event next, inv state → ok state event → step state event = some next →
      inv next)
    {state final : σ} {events : List ε} (holds : inv state) (met : Guarded step ok state events)
    (ran : run step state events = some final) : inv final := by
  induction events generalizing state with
  | nil =>
    cases ran
    exact holds
  | cons event rest ih =>
    obtain ⟨next, taken, ran⟩ := run_cons.mp ran
    -- The first step hands the invariant to the state the rest of the run starts from.
    exact ih (preserved _ _ _ holds met.1 taken) (met.2 next taken) ran

/-- A reflexive and transitive relation between the ends of each guarded step relates the ends of
every guarded run. -/
theorem run_relation (inv : σ → Prop) (rel : σ → σ → Prop) (refl : ∀ state, rel state state)
    (trans : ∀ {first second third}, rel first second → rel second third → rel first third)
    (preserved : ∀ state event next, inv state → ok state event → step state event = some next →
      inv next ∧ rel state next)
    {state final : σ} {events : List ε} (holds : inv state) (met : Guarded step ok state events)
    (ran : run step state events = some final) : rel state final := by
  induction events generalizing state with
  | nil =>
    cases ran
    exact refl _
  | cons event rest ih =>
    obtain ⟨next, taken, ran⟩ := run_cons.mp ran
    -- The first step relates its ends, and the hypothesis relates those of the rest.
    obtain ⟨kept, related⟩ := preserved _ _ _ holds met.1 taken
    exact trans related (ih kept (met.2 next taken) ran)

end Store
