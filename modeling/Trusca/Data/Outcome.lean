import Mathlib.Data.List.Basic

/-! Chains of steps that may fail. -/

namespace Trusca

/-- A chain of two steps succeeds exactly when both do. -/
theorem bind_ok {ε α β : Type} {first : Except ε α} {next : α → Except ε β} {result : β} :
    first >>= next = .ok result ↔ ∃ middle, first = .ok middle ∧ next middle = .ok result := by
  cases first with
  | error reason => simp [Bind.bind, Except.bind]
  | ok middle => simp [Bind.bind, Except.bind]

/-- A step for every item succeeds exactly when each of them does. -/
theorem mapM_ok {ε α β : Type} {step : α → Except ε β} {items : List α} :
    (∃ results, items.mapM step = .ok results) ↔ ∀ item ∈ items, ∃ result, step item = .ok result := by
  induction items with
  | nil => simp [pure, Except.pure]
  | cons first rest ih =>
    rw [List.forall_mem_cons, ← ih]
    simp only [List.mapM_cons, bind_ok, pure, Except.pure, Except.ok.injEq]
    -- All results are there exactly if the first one is and then the rest.
    constructor
    · rintro ⟨_, result, here, results, there, _⟩
      exact ⟨⟨result, here⟩, results, there⟩
    · rintro ⟨⟨result, here⟩, results, there⟩
      exact ⟨_, result, here, results, there, rfl⟩

/-- A pass over a list succeeds when every step of it does. -/
theorem forM_ok {ε α : Type} {step : α → Except ε Unit} {items : List α} :
    items.forM step = .ok () ↔ ∀ item ∈ items, step item = .ok () := by
  induction items with
  | nil => simp [pure, Except.pure]
  | cons item rest ih =>
    have first : (item :: rest).forM step = step item >>= fun _ => rest.forM step := rfl
    rw [first, bind_ok, List.forall_mem_cons, ← ih]
    exact ⟨fun both => both.elim fun _ => id, fun both => ⟨(), both⟩⟩

end Trusca
