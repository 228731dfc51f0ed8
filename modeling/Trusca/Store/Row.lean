import Mathlib.Logic.Function.Basic
import Mathlib.Data.Option.Basic

/-! One database row under READ COMMITTED: its committed version and the version its lock holder
sees. -/

namespace Store

/-- A row as its transactions see it.

An uncommitted version exists only together with the transaction that locked the row for it, so
two transactions never hold versions of one row at once. A missing version is a missing row. -/
structure Row (τ α : Type*) where
  committed : Option α
  held : Option (τ × Option α)
  deriving Repr, DecidableEq

namespace Row

variable {τ α : Type*} [DecidableEq τ]

/-- A row nobody has locked. -/
def free (committed : Option α) : Row τ α := ⟨committed, none⟩

/-- Whether a transaction other than the given one has locked the row. -/
def lockedByOther (row : Row τ α) (tx : τ) : Bool :=
  match row.held with
  | none => false
  | some (owner, _) => owner != tx

/-- A plain SELECT sees the reader's own uncommitted version, else the last committed one. -/
def view (row : Row τ α) (tx : τ) : Option α :=
  match row.held with
  | none => row.committed
  | some (owner, version) => if owner = tx then version else row.committed

/-- SELECT ... FOR UPDATE: wait for another holder, then lock the newest version.

The result is absent while the statement waits. A missing row is not locked. -/
def lock (row : Row τ α) (tx : τ) : Option (Row τ α) :=
  match row.view tx with
  | none => some row
  | some version =>
      -- Absence here stands for the wait; the statement is tried again later.
      if row.lockedByOther tx then none else some { row with held := some (tx, some version) }

/-- UPDATE or DELETE with a condition on the row.

The statement touches the row only when the newest version meets the condition, and waits for
another holder only when the version it sees does. The change maps a version to the next one, or
to absence for a DELETE. The flag tells whether a row was matched. -/
def change (row : Row τ α) (tx : τ) (matched : α → Bool) (edit : α → Option α) :
    Option (Row τ α × Bool) :=
  match row.view tx with
  -- No version is seen: the statement matches nothing.
  | none => some (row, false)
  | some version =>
      if matched version then
        -- The row is another transaction's, so the statement waits for it.
        if row.lockedByOther tx then none
        else some ({ row with held := some (tx, edit version) }, true)
      else some (row, false)

/-- INSERT of a row that does not exist yet, visible to the inserting transaction alone. -/
def insert (row : Row τ α) (tx : τ) (version : α) : Option (Row τ α) :=
  match row.committed, row.held with
  | none, none => some { row with held := some (tx, some version) }
  | _, _ => none

/-- COMMIT publishes the transaction's version and releases its lock. -/
def commit (row : Row τ α) (tx : τ) : Row τ α :=
  match row.held with
  | none => row
  -- The uncommitted version, or its absence after a DELETE, becomes the committed one.
  | some (owner, version) => if owner = tx then ⟨version, none⟩ else row

/-- ROLLBACK drops the transaction's version and releases its lock. -/
def rollback (row : Row τ α) (tx : τ) : Row τ α :=
  match row.held with
  | none => row
  | some (owner, _) => if owner = tx then ⟨row.committed, none⟩ else row

end Row

/-- An object-relational flush writes a column only when its new value differs from the value the
session loaded; otherwise the column keeps whatever the row holds. -/
def flushColumn {β : Type*} [DecidableEq β] (loaded assigned current : β) : β :=
  if assigned = loaded then current else assigned

/-- A flush over the row it loaded stores what was assigned. -/
@[simp] theorem flushColumn_self {β : Type*} [DecidableEq β] (loaded assigned : β) :
    flushColumn loaded assigned loaded = assigned := by
  unfold flushColumn
  split
  · -- Nothing was assigned, and the row already holds that value.
    rename_i same
    exact same.symm
  · rfl

end Store
