import Mathlib.Data.List.Nodup
import Trusca.Store.Final

/-! Sessions that each publish their own change of the committed row run as if one after the
other, in the order of their commits. -/

namespace Store.Sessions

variable {τ α κ π ε : Type*}

/-- Serve the completed calls of the sessions one after the other. -/
def serially (completed : π → Option κ) (serve : κ → α → Option α) (phase : τ → π)
    (order : List τ) (initial : α) : Option α :=
  -- A session without an outcome has no call to serve, so the whole order has no result.
  order.foldlM (fun row tx => (completed (phase tx)).bind fun call => serve call row) initial

/-- The obligations of a family of sessions that serialises by its commits.

What a session relies on survives undisturbed rows, and every allowed action either leaves the
committed row and the outcome of its call alone, or completes the call by publishing what the call
makes of the committed row. -/
structure Serialising (act : τ → ε → Row τ α → π → Option (Row τ α × π))
    (own : τ → Row τ α → π → Prop) (ok : Row τ α → ε → π → Prop) (initial : π → Bool)
    (completed : π → Option κ) (serve : κ → α → Option α) : Prop where
  starts : ∀ tx row phase, initial phase = true → (∀ version, ¬row.HeldBy tx version) →
    own tx row phase ∧ completed phase = none
  undisturbed : ∀ tx row next phase, own tx row phase → Row.Undisturbed tx row next →
    own tx next phase
  acts : ∀ tx event row phase next after current, row.committed = some current →
    own tx row phase → ok row event phase → act tx event row phase = some (next, after) →
    (∀ other, other ≠ tx → Row.Undisturbed other row next) ∧ own tx next after ∧
      (next.committed = some current ∧ completed after = completed phase ∨
        ∃ call later, completed phase = none ∧ completed after = some call ∧
          serve call current = some later ∧ next.committed = some later)

/-- The committed row is what the completed calls make of the initial one, in some order. -/
structure InOrder (completed : π → Option κ) (serve : κ → α → Option α) (initial : α)
    (world : Sessions (Row τ α) τ π) (order : List τ) : Prop where
  distinct : order.Nodup
  complete : ∀ tx, tx ∈ order ↔ (completed (world.phase tx)).isSome = true
  result : world.store.committed = serially completed serve world.phase order initial

variable {act : τ → ε → Row τ α → π → Option (Row τ α × π)} {own : τ → Row τ α → π → Prop}
  {ok : Row τ α → ε → π → Prop} {initial : π → Bool} {completed : π → Option κ}
  {serve : κ → α → Option α} {world next start last : Sessions (Row τ α) τ π} {origin : α}

/-- Serving depends only on the outcomes of the sessions it serves. -/
theorem serially_congr {first second : τ → π} {order : List τ}
    (same : ∀ tx ∈ order, completed (first tx) = completed (second tx)) (initial : α) :
    serially completed serve first order initial = serially completed serve second order initial := by
  induction order generalizing initial with
  | nil => rfl
  | cons tx rest ih =>
    -- The first session contributes the same call, whatever row it is served on.
    simp only [serially, List.foldlM_cons, same tx (by simp)]
    congr 1
    funext row
    exact ih (fun other member => same other (by simp [member])) row

/-- A further session is served after the others. -/
theorem serially_append {phase : τ → π} {order : List τ} {tx : τ} {call : κ} {row later : α}
    (served : serially completed serve phase order origin = some row)
    (done : completed (phase tx) = some call) (serves : serve call row = some later) :
    serially completed serve phase (order ++ [tx]) origin = some later := by
  unfold serially at served ⊢
  rw [List.foldlM_append, served]
  simp [done, serves]

variable [DecidableEq τ]

/-- A step that changes neither the row nor an outcome keeps the order. -/
theorem InOrder.unchanged {order : List τ} {tx : τ} {store : Row τ α} {after : π}
    (ordered : InOrder completed serve origin world order)
    (kept : store.committed = world.store.committed)
    (same : completed after = completed (world.phase tx)) :
    InOrder completed serve origin ⟨store, Function.update world.phase tx after⟩ order := by
  -- No session's outcome differs from before, the acting one's included.
  have outcomes : ∀ other, completed (Function.update world.phase tx after other) =
      completed (world.phase other) := by
    intro other
    by_cases mine : other = tx
    · subst mine
      rw [Function.update_self, same]
    · rw [Function.update_of_ne mine]
  refine ⟨ordered.distinct, fun other => ?_, ?_⟩
  · rw [outcomes]
    exact ordered.complete other
  · rw [serially_congr fun other _ => outcomes other]
    exact kept.trans ordered.result

/-- A step that completes a call puts its session at the end of the order. -/
theorem InOrder.completes {order : List τ} {tx : τ} {store : Row τ α} {after : π} {call : κ}
    {current later : α} (ordered : InOrder completed serve origin world order)
    (committed : world.store.committed = some current)
    (pending : completed (world.phase tx) = none) (done : completed after = some call)
    (serves : serve call current = some later) (published : store.committed = some later) :
    InOrder completed serve origin ⟨store, Function.update world.phase tx after⟩
      (order ++ [tx]) := by
  -- A session whose call is still open is not in the order yet.
  have fresh : tx ∉ order := by
    intro member
    rw [ordered.complete, pending] at member
    cases member
  -- The sessions already in the order keep their outcomes.
  have outcomes : ∀ other ∈ order, completed (world.phase other) =
      completed (Function.update world.phase tx after other) := by
    intro other member
    have different : other ≠ tx := fun same => fresh (same ▸ member)
    rw [Function.update_of_ne different]
  refine ⟨?_, fun other => ?_, ?_⟩
  · refine List.nodup_append.mpr ⟨ordered.distinct, List.nodup_singleton tx, ?_⟩
    intro first member second single same
    rw [List.mem_singleton] at single
    exact fresh (single ▸ same ▸ member)
  · -- The completed sessions are those of before and the acting one.
    by_cases mine : other = tx
    · subst mine
      simp [done]
    · simp only [List.mem_append, List.mem_singleton, mine, or_false,
        Function.update_of_ne mine]
      exact ordered.complete other
  · -- Serving the earlier calls gives the row that this call was served on.
    have served := ordered.result
    rw [committed, serially_congr outcomes] at served
    have appended := serially_append served.symm
      (show completed (Function.update world.phase tx after tx) = some call by
        rw [Function.update_self]
        exact done) serves
    rw [appended]
    exact published

/-- Each allowed step of a serialising family keeps the committed row in order. -/
theorem Serialising.step (serialising : Serialising act own ok initial completed serve)
    (world : Sessions (Row τ α) τ π) (event : τ × ε) (next : Sessions (Row τ α) τ π)
    (sound : Annotated (fun row => row.committed.isSome = true) own world ∧
      ∃ order, InOrder completed serve origin world order)
    (met : Allows ok world event) (taken : Sessions.step act world event = some next) :
    Annotated (fun row => row.committed.isSome = true) own next ∧
      ∃ order, InOrder completed serve origin next order := by
  obtain ⟨tx, event⟩ := event
  obtain ⟨annotated, order, ordered⟩ := sound
  obtain ⟨current, committed⟩ := Option.isSome_iff_exists.mp annotated.shared
  have acting : ∀ store phase, act tx event world.store (world.phase tx) = some (store, phase) →
      _ := fun store phase acted =>
    serialising.acts tx event _ _ store phase current committed (annotated.own tx) met acted
  refine ⟨Annotated.step annotated taken ?_ ?_, ?_⟩
  · -- Either way a committed row remains.
    intro store phase acted
    obtain ⟨_, relies, outcome⟩ := acting store phase acted
    refine ⟨?_, relies⟩
    rcases outcome with ⟨kept, _⟩ | ⟨_, _, _, _, _, published⟩
    · rw [kept]
      rfl
    · rw [published]
      rfl
  · intro store phase other progress acted different relies
    exact serialising.undisturbed other _ _ _ relies ((acting store phase acted).1 other different)
  · -- The order grows exactly when the action completes its call.
    obtain ⟨store, phase, acted, rfl⟩ := step_eq_some.mp taken
    rcases (acting store phase acted).2.2 with
      ⟨kept, same⟩ | ⟨call, later, pending, done, serves, published⟩
    · exact ⟨order, ordered.unchanged (kept.trans committed.symm) same⟩
    · exact ⟨order ++ [tx], ordered.completes committed pending done serves published⟩

/-- After every allowed run the committed row is what the completed calls make of the initial row,
served one after the other. -/
theorem Serialising.serializable (serialising : Serialising act own ok initial completed serve)
    {events : List (τ × ε)} (fresh : start.Fresh initial)
    (present : start.store.committed = some origin)
    (met : Guarded (Sessions.step act) (Allows ok) start events)
    (ran : run (Sessions.step act) start events = some last) :
    ∃ order, InOrder completed serve origin last order := by
  have begin : ∀ tx, own tx start.store (start.phase tx) ∧ completed (start.phase tx) = none :=
    fun tx => serialising.starts tx _ _ (fresh.initial tx)
      (Row.not_heldBy_of_unlocked fresh.unlocked)
  have annotated : Annotated (fun row => row.committed.isSome = true) own start :=
    ⟨by simp [present], fun tx => (begin tx).1⟩
  -- No call has completed yet, so the order starts empty.
  have ordered : InOrder completed serve origin start [] :=
    ⟨List.nodup_nil, fun tx => by simp [(begin tx).2], present⟩
  exact (run_invariant (fun world event next sound met taken =>
    serialising.step world event next sound met taken) ⟨annotated, [], ordered⟩ met ran).2

end Store.Sessions
