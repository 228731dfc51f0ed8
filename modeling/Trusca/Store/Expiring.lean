import Mathlib.Data.Option.Basic

/-! Keys that vanish at a moment which is set with their value. -/

namespace Store

/-- A value and the moment at which its key vanishes. -/
structure Entry (α : Type*) where
  value : α
  expires : Nat
  deriving Repr, DecidableEq

/-- A key, as it was last written. -/
abbrev Key (α : Type*) := Option (Entry α)

namespace Key

variable {α : Type*} {key : Key α} {now later : Nat}

/-- What is left of a key at a moment. -/
def at? (key : Key α) (now : Nat) : Option (Entry α) := key.filter fun entry => now < entry.expires

/-- The time until the key vanishes; zero for a key that is not there. -/
def remaining (key : Key α) (now : Nat) : Nat := (key.at? now).elim 0 fun entry => entry.expires - now

/-- A key that was never set has no value. -/
@[simp] theorem at?_none : at? (none : Key α) now = none := rfl

/-- A key is there as long as its moment has not come. -/
theorem at?_eq_some {entry : Entry α} :
    key.at? now = some entry ↔ key = some entry ∧ now < entry.expires := by
  unfold at?
  rw [Option.filter_eq_some_iff, decide_eq_true_eq]

/-- Some time is left exactly when the key is there. -/
theorem remaining_pos : 0 < key.remaining now ↔ ∃ entry, key.at? now = some entry := by
  unfold remaining
  cases found : key.at? now with
  | none => simp
  | some entry =>
    have later := (at?_eq_some.mp found).2
    simp only [Option.elim_some, Option.some.injEq, exists_eq', iff_true]
    omega

end Key

end Store
