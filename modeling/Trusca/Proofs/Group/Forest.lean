import Trusca.Group.Hierarchy

/-! The group tree by its parent column: what a new group and a moved group make of the ancestors. -/

namespace Trusca

open Store

/-- The parent column of some groups. -/
def parentColumn (groups : GroupId → Option GroupRow) (group : GroupId) : Option (Option GroupId) :=
  (groups group).map GroupRow.parentGroupId

/-- Every group is under a parent of its own organisation, and its stored path is the list of its
ancestors. -/
structure Hierarchy (groups : GroupId → Option GroupRow) : Prop where
  named : ∀ key row, groups key = some row → row.id = key
  inside : ∀ key row parent, groups key = some row → row.parentGroupId = some parent →
    ∃ above, groups parent = some above ∧ above.organizationId = row.organizationId
  derived : ∀ key row, groups key = some row →
    Lineage (parentColumn groups) row.parentGroupId row.path

/-- The groups form a tree: in addition, no group is above itself. -/
structure GroupTree (groups : GroupId → Option GroupRow) : Prop extends Hierarchy groups where
  acyclic : ∀ group, ¬Relation.TransGen
    (fun child parent => parentColumn groups child = some (some parent)) group group

variable {groups next : GroupId → Option GroupRow}

/-- The parent of a stored group is the one in its row. -/
theorem parentColumn_of_stored {key : GroupId} {row : GroupRow} (stored : groups key = some row) :
    parentColumn groups key = some row.parentGroupId := by
  rw [parentColumn, stored]
  rfl

/-- A group and its ancestors. -/
theorem Hierarchy.lineage (hierarchy : Hierarchy groups) {key : GroupId} {row : GroupRow}
    (stored : groups key = some row) :
    Lineage (parentColumn groups) (some key) (row.path ++ [key]) :=
  .child (parentColumn_of_stored stored) (hierarchy.derived key row stored)

/-- No group is below itself. -/
theorem Hierarchy.not_below {key : GroupId} {row : GroupRow}
    (tree : Hierarchy groups) (stored : groups key = some row) : key ∉ row.path := fun member =>
  List.disjoint_of_nodup_append (tree.lineage stored).nodup member (List.mem_singleton.mpr rfl)

/-- Ancestors by a list that ends leave no room for a cycle. -/
theorem Hierarchy.tree (hierarchy : Hierarchy groups) : GroupTree groups where
  toHierarchy := hierarchy
  acyclic := by
    intro group cycle
    obtain ⟨parent, first, above⟩ := Relation.TransGen.head'_iff.mp cycle
    obtain ⟨row, stored, named⟩ := Option.map_eq_some_iff.mp first
    -- The group would stand in the list of its own ancestors.
    have member : group ∈ row.path :=
      (hierarchy.derived group row stored).mem_iff.mpr ⟨parent, named, above⟩
    exact hierarchy.not_below stored member

/-- A new group under a stored one joins the tree. -/
theorem Hierarchy.join (hierarchy : Hierarchy groups) {child above : GroupRow} {parent : GroupId}
    (under : child.parentGroupId = some parent) (stored : groups parent = some above)
    (organisation : above.organizationId = child.organizationId)
    (path : child.path = above.path ++ [parent]) (fresh : groups child.id = none)
    (added : ∀ key, next key = if key = child.id then some child else groups key) :
    Hierarchy next := by
  -- The id is new, so no row is replaced.
  have kept : ∀ key row, groups key = some row → next key = some row := by
    intro key row old
    have other : key ≠ child.id := by
      rintro rfl
      cases fresh.symm.trans old
    rw [added, if_neg other, old]
  -- Nobody is under the new group yet, so every list of ancestors stays.
  have steady : ∀ node path, Lineage (parentColumn groups) node path →
      Lineage (parentColumn next) node path := by
    intro node path lineage
    refine lineage.congr fun other member => ?_
    obtain ⟨higher, found⟩ := lineage.stored member
    obtain ⟨row, old, _⟩ := Option.map_eq_some_iff.mp found
    rw [parentColumn_of_stored old, parentColumn_of_stored (kept other row old)]
  -- The three clauses, for the new group and for an old one.
  refine ⟨fun key row found => ?_, fun key row higher found placed => ?_, fun key row found => ?_⟩
  · rw [added] at found
    split at found
    · next same =>
      cases found
      exact same.symm
    · exact hierarchy.named key row found
  · -- The new group's parent is `above`, in the same organisation.
    rw [added] at found
    split at found
    · cases found
      cases under.symm.trans placed
      exact ⟨above, kept _ _ stored, organisation⟩
    · obtain ⟨row_above, old, same⟩ := hierarchy.inside key row higher found placed
      exact ⟨row_above, kept _ _ old, same⟩
  · -- Its ancestors are those of its parent, and the parent itself.
    rw [added] at found
    split at found
    · cases found
      rw [under, path]
      exact steady _ _ (hierarchy.lineage stored)
    · exact steady _ _ (hierarchy.derived key row found)

/-- What stands behind the first place of a member. -/
theorem dropWhile_ne_drop {group : GroupId} {front back : List GroupId} (absent : group ∉ front) :
    ((front ++ group :: back).dropWhile (· ≠ group)).drop 1 = back := by
  have skipped : ∀ other ∈ front, decide (other ≠ group) = true := by
    intro other member
    simpa using fun same : other = group => absent (same ▸ member)
  rw [List.dropWhile_append_of_pos skipped, List.dropWhile_cons_of_neg (by simp)]
  rfl

/-- The place of a moved group: at the root, or under a parent that is not below it. -/
inductive Arrival (groups : GroupId → Option GroupRow) (group : GroupId)
    (organisation : OrganizationId) : Option GroupId → List GroupId → Prop where
  | root : Arrival groups group organisation none []
  | under {parent : GroupId} {above : GroupRow} (stored : groups parent = some above)
      (same : above.organizationId = organisation) (other : parent ≠ group)
      (apart : group ∉ above.path) :
      Arrival groups group organisation (some parent) (above.path ++ [parent])

/-- What becomes of a row when a group moves. -/
def relocated (group : GroupId) (parent : Option GroupId) (path : List GroupId) (key : GroupId)
    (row : GroupRow) : GroupRow :=
  if key = group then { row with parentGroupId := parent, path := path }
  else if group ∈ row.path then row.splice group (path ++ [group])
  else row

/-- Relocating a row leaves its id. -/
@[simp] theorem relocated_id {group key : GroupId} {parent : Option GroupId} {path : List GroupId}
    {row : GroupRow} : (relocated group parent path key row).id = row.id := by
  unfold relocated
  split
  · rfl
  · split <;> rfl

/-- Relocating a row leaves its organisation. -/
@[simp] theorem relocated_organizationId {group key : GroupId} {parent : Option GroupId}
    {path : List GroupId} {row : GroupRow} :
    (relocated group parent path key row).organizationId = row.organizationId := by
  unfold relocated
  split
  · rfl
  · split <;> rfl

/-- Relocating a subtree changes no parent but that of its top. -/
theorem relocated_parentGroupId {group key : GroupId} {parent : Option GroupId}
    {path : List GroupId} {row : GroupRow} (other : key ≠ group) :
    (relocated group parent path key row).parentGroupId = row.parentGroupId := by
  rw [relocated, if_neg other]
  split <;> rfl

/-- A group that moves with everything below it stays in the tree. -/
theorem Hierarchy.move (hierarchy : Hierarchy groups) {group : GroupId} {old : GroupRow}
    {parent : Option GroupId} {path : List GroupId} (stored : groups group = some old)
    (arrival : Arrival groups group old.organizationId parent path)
    (after : ∀ key, next key = (groups key).map (relocated group parent path key)) :
    Hierarchy next := by
  have column : ∀ key, key ≠ group → parentColumn next key = parentColumn groups key := by
    intro key other
    rw [parentColumn, parentColumn, after]
    cases groups key with
    | none => rfl
    | some row => exact congrArg some (relocated_parentGroupId other)
  have apart : ∀ above list, Lineage (parentColumn groups) above list → group ∉ list →
      Lineage (parentColumn next) above list := fun above list lineage absent =>
    lineage.congr fun other member => column other fun same => absent (same ▸ member)
  -- The ancestors of the new place are not below the group, so the move does not touch them.
  have placed : Lineage (parentColumn next) parent path := by
    cases arrival with
    | root => exact .root
    | @under parent above under _ other absent =>
      refine apart _ _ (hierarchy.lineage under) ?_
      simp [absent, Ne.symm other]
  have arrived : Lineage (parentColumn next) (some group) (path ++ [group]) := by
    refine .child ?_ placed
    rw [parentColumn, after, stored]
    simp [relocated]
  refine ⟨fun key row found => ?_, fun key row higher found under => ?_, fun key row found => ?_⟩
  · rw [after] at found
    obtain ⟨before, old_row, rfl⟩ := Option.map_eq_some_iff.mp found
    rw [relocated_id]
    exact hierarchy.named key before old_row
  · rw [after] at found
    obtain ⟨before, old_row, rfl⟩ := Option.map_eq_some_iff.mp found
    rw [relocated_organizationId]
    -- The row above was there before, in the same organisation.
    have above : ∃ above, groups higher = some above ∧
        above.organizationId = before.organizationId := by
      by_cases same : key = group
      · subst same
        cases stored.symm.trans old_row
        rw [relocated, if_pos rfl] at under
        cases arrival with
        | root => cases under
        | under stands organisation _ _ =>
          cases under
          exact ⟨_, stands, organisation⟩
      · rw [relocated_parentGroupId same] at under
        exact hierarchy.inside key before higher old_row under
    obtain ⟨above, stands, organisation⟩ := above
    exact ⟨_, by rw [after, stands]; rfl, by rw [relocated_organizationId, organisation]⟩
  · rw [after] at found
    obtain ⟨before, old_row, rfl⟩ := Option.map_eq_some_iff.mp found
    have lineage := hierarchy.derived key before old_row
    by_cases same : key = group
    · rw [relocated, if_pos same]
      exact placed
    · rw [relocated_parentGroupId same, relocated, if_neg same]
      split
      · next below =>
        -- The group stands once in the list, and what is behind it stays.
        obtain ⟨front, back, split⟩ := List.append_of_mem below
        have distinct := lineage.nodup
        rw [split] at distinct
        have ahead : group ∉ front := fun member =>
          List.disjoint_of_nodup_append distinct member List.mem_cons_self
        have behind : group ∉ back :=
          (List.nodup_cons.mp (List.nodup_append.mp distinct).2.1).1
        have spliced : (before.splice group (path ++ [group])).path = path ++ group :: back := by
          rw [GroupRow.splice, split, dropWhile_ne_drop ahead, List.append_assoc]
          rfl
        rw [spliced]
        exact lineage.splice split
          (fun other member => column other fun same => behind (same ▸ member)) arrived
      · next elsewhere => exact apart _ _ lineage elsewhere

end Trusca
