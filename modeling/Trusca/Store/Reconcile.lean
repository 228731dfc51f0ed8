import Mathlib.Data.Option.Basic

/-! Keyed reconciliation: what a report makes of the rows it is compared with, key by key. -/

namespace Store

section

variable {ε ρ : Type*} (update : ε → ρ → ρ) (create : ε → ρ) (keep : Bool)

/-- What a reconciliation makes of one key, from the report's entry for it and the row it has.

A row the report does not name stays only when deletion is withheld. -/
def reconciled : Option ε → Option ρ → Option ρ
  | some entry, some row => some (update entry row)
  | some entry, none => some (create entry)
  | none, some row => if keep then some row else none
  | none, none => none

/-- A key has a row afterwards when the report names it, or when a row of it was kept. -/
theorem isSome_reconciled (entry : Option ε) (row : Option ρ) :
    (reconciled update create keep entry row).isSome =
      (entry.isSome || (keep && row.isSome)) := by
  cases entry <;> cases row <;> cases keep <;> rfl

/-- An entry leaves a row that a second entry of the same content finds settled, when an update
and a creation both settle the row they write. -/
theorem reconciled_settled {ι : Type*} (same : ε → ι → Prop) (Settled : ι → ρ → Prop)
    (updated : ∀ first second row, same first second → Settled second (update first row))
    (created : ∀ first second, same first second → Settled second (create first))
    {first : ε} {second : ι} (related : same first second) (row : Option ρ) :
    ∃ made, reconciled update create keep (some first) row = some made ∧ Settled second made := by
  cases row with
  | none => exact ⟨create first, rfl, created first second related⟩
  | some row => exact ⟨update first row, rfl, updated first second row related⟩

end

end Store
