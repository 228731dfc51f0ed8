import Mathlib.Logic.Function.Basic
import Mathlib.Data.List.Basic

/-! A sequence of calls to another system, each of which may fail or be the last one, with or without the
other system having acted on it. -/

namespace Store

variable {ω : Type*}

/-- How a call comes out for the caller, and whether it was acted on when it did not return. -/
inductive CallOutcome where
  | returns
  /-- The caller sees an error that it handles. -/
  | fails (acted : Bool)
  /-- The caller sees an error that it does not handle. -/
  | escapes (acted : Bool)
  /-- The process of the caller ends. -/
  | dies (acted : Bool)
  deriving Repr, DecidableEq

/-- How a sequence of calls ends. -/
inductive CallsEnd where
  | done
  | failed
  /-- Nothing is left to clean up after the calls. -/
  | abandoned
  deriving Repr, DecidableEq

/-- Make the calls in order; the other system refuses a call that it has no action for. -/
def makeCalls (world : ω) : List (CallOutcome × (ω → Option ω)) → ω × CallsEnd
  | [] => (world, .done)
  | (outcome, action) :: rest =>
      match action world, outcome with
      -- An action that cannot be taken fails as the call does.
      | none, .dies _ => (world, .abandoned)
      | none, _ => (world, .failed)
      -- Only a call that returns lets the next one start.
      | some next, .returns => makeCalls next rest
      | some next, .fails acted => (if acted then next else world, .failed)
      | some next, .escapes acted => (if acted then next else world, .abandoned)
      | some next, .dies acted => (if acted then next else world, .abandoned)

/-- Further calls are made only when the first ones are done. -/
theorem makeCalls_append (first second : List (CallOutcome × (ω → Option ω))) (world : ω) :
    makeCalls world (first ++ second) =
      match makeCalls world first with
      | (next, .done) => makeCalls next second
      | ended => ended := by
  -- A call that raises ends the list in both, one that returns goes on to the rest.
  induction first generalizing world with
  | nil => rfl
  | cons call rest ih =>
    obtain ⟨outcome, action⟩ := call
    rw [List.cons_append]
    cases acted : action world with
    | none => cases outcome <;> simp only [makeCalls, acted]
    | some next =>
      cases outcome with
      | returns =>
        simp only [makeCalls, acted]
        exact ih next
      | _ => simp only [makeCalls, acted]

/-- What every action keeps, the calls keep. -/
theorem makeCalls_invariant {inv : ω → Prop} {calls : List (CallOutcome × (ω → Option ω))} {world : ω}
    (kept : ∀ call ∈ calls, ∀ before after, inv before → call.2 before = some after → inv after)
    (holds : inv world) : inv (makeCalls world calls).1 := by
  induction calls generalizing world with
  | nil => exact holds
  | cons call rest ih =>
    obtain ⟨outcome, action⟩ := call
    unfold makeCalls
    cases acted : action world with
    | none => cases outcome <;> exact holds
    -- A call that is cut off may have acted or not.
    | some next =>
      have after := kept (outcome, action) List.mem_cons_self world next holds acted
      cases outcome with
      | returns => exact ih (fun call member => kept call (List.mem_cons_of_mem _ member)) after
      | fails taken =>
        cases taken
        · exact holds
        · exact after
      | escapes taken =>
        cases taken
        · exact holds
        · exact after
      | dies taken =>
        cases taken
        · exact holds
        · exact after

end Store
