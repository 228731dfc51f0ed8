import Mathlib.Data.List.Sort
import Trusca.Group.Tree
import Trusca.Store.Rows
import Trusca.Store.Session

/-! Writing the group tree: new subgroups, and groups that move with everything below them. -/

namespace Trusca

open Store

/-- A call on the tree. -/
inductive TreeCall where
  | createSubgroup (parent : GroupId) (slug : String)
  | reparent (group : GroupId) (newParent : Option GroupId)
  deriving Repr, DecidableEq

/-- How far a call has come. -/
inductive TreePhase where
  | start (call : TreeCall) (fresh : GroupId)
  /-- The parent has been read, and its other children come next. -/
  | sibling (child : GroupRow)
  /-- The INSERT begins with its trigger, which has yet to read the path of the parent. -/
  | trigger (child : GroupRow)
  | inserting (child : GroupRow)
  /-- The row is in the table, and the foreign key has yet to be checked. -/
  | checking (child : GroupRow)
  | created (child : GroupRow)
  /-- The groups that are still to be locked, in the order of their ids. -/
  | locking (group : GroupId) (newParent : Option GroupId) (rest : List GroupId)
  | moving (group : GroupId) (newParent : Option GroupId)
  | splicing (group : GroupId)
  /-- The rows that the splice has found and not yet come to. -/
  | visiting (group : GroupId) (base : List GroupId) (rest : List GroupId)
  | done
  deriving Repr, DecidableEq

/-- A call takes its next step, its splice comes to a row, or it is cut off. -/
inductive TreeEvent where
  | advance
  | visit (group : GroupId)
  | abort
  deriving Repr, DecidableEq

/-- The groups with their row locks.

A row that is locked for update cannot be referred to by a new foreign key, and one that is
referred to cannot be locked for update. A row that was only updated can be referred to. -/
structure GroupStore (τ : Type*) where
  rows : Rows GroupId τ GroupRow
  forUpdate : List (τ × GroupId)
  keyShare : List (τ × GroupId)

namespace GroupStore

variable {τ : Type*} [DecidableEq τ] (store : GroupStore τ) (tx : τ)

/-- COMMIT publishes the rows of the transaction and releases its locks. -/
def commit : GroupStore τ where
  rows := store.rows.commit tx
  forUpdate := store.forUpdate.filter fun lock => lock.1 ≠ tx
  keyShare := store.keyShare.filter fun lock => lock.1 ≠ tx

/-- ROLLBACK drops the rows of the transaction and releases its locks. -/
def rollback : GroupStore τ where
  rows := store.rows.rollback tx
  forUpdate := store.forUpdate.filter fun lock => lock.1 ≠ tx
  keyShare := store.keyShare.filter fun lock => lock.1 ≠ tx

/-- SELECT ... FOR UPDATE of one group; a missing one is not locked. -/
def lockGroup (group : GroupId) : Option (GroupStore τ) :=
  if store.rows.view tx group = none then some store
  -- A reference that another transaction has made holds the group in place.
  else if store.keyShare.any fun lock => lock.1 ≠ tx ∧ lock.2 = group then none
  else
    (store.rows.lock tx group).map fun rows =>
      { store with rows := rows, forUpdate := (tx, group) :: store.forUpdate }

/-- A group that the transaction has locked. -/
def lockedGroup (group : GroupId) : Option GroupRow :=
  if store.rows.ownedBy tx group then store.rows.view tx group else none

/-- The check of a foreign key takes a share of the key of the row that it refers to. -/
def shareKey (group : GroupId) : Option (GroupStore τ) :=
  if store.forUpdate.any fun lock => lock.1 ≠ tx ∧ lock.2 = group then none
  else some { store with keyShare := (tx, group) :: store.keyShare }

/-- The path of a child of the given parent, as the trigger derives it; a missing parent leaves it
null. -/
def groupsDerivePath : Option GroupId → Option (List GroupId)
  | none => some []
  | some parent => (store.rows.view tx parent).map fun row => row.path ++ [parent]

/-- Whether a committed group of the organisation has the slug. -/
def duplicate (child : GroupRow) : Bool :=
  store.rows.keys.any fun id => (store.rows.committed id).any fun row =>
    row.organizationId == child.organizationId && row.slug == child.slug

/-- Whether another transaction is about to add such a group, which the constraint waits for. -/
def contested (child : GroupRow) : Bool :=
  store.rows.keys.any fun id => (store.rows.row id).held.any fun lock =>
    lock.1 != tx && lock.2.any fun row =>
      row.organizationId == child.organizationId && row.slug == child.slug

end GroupStore

/-- No group may be its own ancestor. -/
def GroupRow.selfAncestor (row : GroupRow) : Bool := row.path.contains row.id

/-- What a move does to the path of a row below: everything up to the group is replaced. -/
def GroupRow.splice (group : GroupId) (base : List GroupId) (row : GroupRow) : GroupRow :=
  { row with path := base ++ (row.path.dropWhile (· ≠ group)).drop 1 }

namespace TreePhase

variable {τ : Type*} [DecidableEq τ]

/-- The refusals of a move, read from the locked rows. -/
def refuses (store : GroupStore τ) (tx : τ) (group : GroupId) (newParent : Option GroupId) : Bool :=
  match store.lockedGroup tx group with
  -- The group has gone since the call began.
  | none => true
  | some moved =>
      newParent.any fun parent =>
        match store.lockedGroup tx parent with
        | none => true
        | some above =>
            -- Another organisation, itself, or one below it.
            above.organizationId != moved.organizationId || parent == group ||
              above.path.contains group

/-- Whether the group is under the parent already. -/
def unmoved (store : GroupStore τ) (tx : τ) (group : GroupId) (newParent : Option GroupId) : Bool :=
  (store.lockedGroup tx group).any fun moved => moved.parentGroupId == newParent

/-- The next statement of a call; absent while the statement waits for a lock. -/
def advance (tx : τ) (store : GroupStore τ) : TreePhase → Option (GroupStore τ × TreePhase)
  | .start (.createSubgroup parent slug) fresh =>
      match store.rows.view tx parent with
      | none => some (store, .done)
      | some above => some (store, .sibling ⟨fresh, above.organizationId, slug, some parent, []⟩)
  | .sibling child =>
      let siblings := store.rows.select tx fun row =>
        row.parentGroupId == child.parentGroupId && row.slug == child.slug
      if siblings = [] then some (store, .trigger child) else some (store, .done)
  | .trigger child =>
      match store.groupsDerivePath tx child.parentGroupId with
      | none => some (store.rollback tx, .done)
      | some path => some (store, .inserting { child with path := path })
  | .inserting child =>
      if child.selfAncestor then some (store.rollback tx, .done)
      else if store.contested tx child then none
      else if store.duplicate child then some (store.rollback tx, .done)
      else (store.rows.insert tx child.id child).map fun rows =>
        ({ store with rows := rows }, .checking child)
  | .checking child =>
      match child.parentGroupId with
      | none => some (store, .created child)
      | some parent => (store.shareKey tx parent).map fun store => (store, .created child)
  | .created _ => some (store.commit tx, .done)
  | .start (.reparent group newParent) _ =>
      -- The descendants are read without a lock, to be locked with the rest.
      let descendants := store.rows.select tx fun row => row.path.contains group
      let targets := (group :: descendants ++ newParent.toList).dedup
      some (store, .locking group newParent (targets.insertionSort (· ≤ ·)))
  | .locking group newParent (next :: rest) =>
      (store.lockGroup tx next).map fun store => (store, .locking group newParent rest)
  | .locking group newParent [] =>
      if refuses store tx group newParent then some (store.rollback tx, .done)
      -- A move to where the group is ends without a write.
      else if unmoved store tx group newParent then some (store.rollback tx, .done)
      else some (store, .moving group newParent)
  | .moving group newParent =>
      match store.groupsDerivePath tx newParent with
      | none => some (store.rollback tx, .done)
      | some path =>
          if path.contains group then some (store.rollback tx, .done)
          else (store.rows.change tx group (fun _ => true) fun row =>
            some { row with parentGroupId := newParent, path := path }).map fun (rows, _) =>
              ({ store with rows := rows }, .splicing group)
  | .splicing group =>
      match store.rows.view tx group with
      | none => some (store.rollback tx, .done)
      | some moved =>
          some (store, .visiting group (moved.path ++ [group])
            (store.rows.select tx fun row => row.path.contains group))
  | .visiting _ _ [] => some (store.commit tx, .done)
  -- The rows of a splice come in any order, each by an event of its own.
  | .visiting .. => none
  | .done => none

/-- The splice comes to one of its rows: the newest version is rewritten if the group is still on its
path. -/
def visit (tx : τ) (store : GroupStore τ) (next : GroupId) : TreePhase →
    Option (GroupStore τ × TreePhase)
  | .visiting group base rest =>
      if next ∈ rest then
        if (store.rows.view tx next).any fun row =>
            row.path.contains group && (row.splice group base).selfAncestor then
          -- The constraint on ancestors refuses the new version once it can be written.
          (store.rows.change tx next (fun row => row.path.contains group) some).map fun _ =>
            (store.rollback tx, .done)
        else
          (store.rows.change tx next (fun row => row.path.contains group) fun row =>
            some (row.splice group base)).map fun (rows, _) =>
              ({ store with rows := rows }, .visiting group base (rest.erase next))
      else none
  | _ => none

/-- One event of one call. -/
def act (tx : τ) : TreeEvent → GroupStore τ → TreePhase → Option (GroupStore τ × TreePhase)
  | .advance, store, phase => advance tx store phase
  | .visit next, store, phase => visit tx store next phase
  | .abort, _, .done => none
  | .abort, store, _ => some (store.rollback tx, .done)

end TreePhase

/-- The groups and every call on them. -/
abbrev TreeSystem (τ : Type*) := Sessions (GroupStore τ) τ TreePhase

/-- The next state of the groups and the calls. -/
def treeStep {τ : Type*} [DecidableEq τ] (system : TreeSystem τ) (event : τ × TreeEvent) :
    Option (TreeSystem τ) :=
  Sessions.step TreePhase.act system event

end Trusca
