import Mathlib.Data.Fintype.Basic
import Trusca.Proofs.Group.Forest

/-! When the stored paths of the groups stay those of the tree, over whole runs of the calls. -/

namespace Trusca

open Store

section Calls

variable {τ : Type*} [DecidableEq τ] {rows next : Rows GroupId τ GroupRow} {tx : τ}

/-- The transaction holds nothing. -/
def HoldsNothing (tx : τ) (rows : Rows GroupId τ GroupRow) : Prop :=
  ∀ key version, ¬rows.HeldBy tx key version

/-- The transaction has locked groups and changed none of them. -/
def OnlyLocks (tx : τ) (rows : Rows GroupId τ GroupRow) : Prop :=
  ∀ key version, rows.HeldBy tx key version →
    ∃ row, rows.committed key = some row ∧ version = some row

/-- The parent of a new group is stored, in the same organisation. -/
def UnderParent (rows : Rows GroupId τ GroupRow) (child : GroupRow) : Prop :=
  ∃ parent above, child.parentGroupId = some parent ∧ rows.committed parent = some above ∧
    above.organizationId = child.organizationId

/-- The path of a new group goes on from that of its parent as it stands. -/
def UpToDate (rows : Rows GroupId τ GroupRow) (child : GroupRow) : Prop :=
  ∃ parent above, child.parentGroupId = some parent ∧ rows.committed parent = some above ∧
    above.organizationId = child.organizationId ∧ child.path = above.path ++ [parent]

/-- A new group waits to be published. -/
structure Inserted (tx : τ) (rows : Rows GroupId τ GroupRow) (child : GroupRow) : Prop where
  held : rows.HeldBy tx child.id (some child)
  only : ∀ key version, rows.HeldBy tx key version → key = child.id
  fresh : rows.committed child.id = none
  current : UpToDate rows child

/-- A move has passed its checks on the rows that it has locked. -/
structure MayMove (tx : τ) (rows : Rows GroupId τ GroupRow) (group : GroupId)
    (newParent : Option GroupId) : Prop where
  locked : OnlyLocks tx rows
  allowed : ∃ row, rows.HeldBy tx group (some row) ∧ ∀ parent, newParent = some parent →
    ∃ above, rows.HeldBy tx parent (some above) ∧ above.organizationId = row.organizationId ∧
      parent ≠ group ∧ group ∉ above.path

/-- A move has written its group, and maybe some rows below it. -/
structure Relocating (tx : τ) (rows : Rows GroupId τ GroupRow) (group : GroupId)
    (parent : Option GroupId) (path : List GroupId) : Prop where
  moved : ∃ old, rows.committed group = some old ∧
    rows.HeldBy tx group (some { old with parentGroupId := parent, path := path }) ∧
    Arrival rows.committed group old.organizationId parent path
  above : ∀ key, parent = some key → ∃ version, rows.HeldBy tx key version
  others : ∀ key version, key ≠ group → rows.HeldBy tx key version →
    ∃ row, rows.committed key = some row ∧ (version = some row ∨
      group ∈ row.path ∧ version = some (row.splice group (path ++ [group])))

/-- Every row below the moved group has been rewritten, or its turn is still to come. -/
def Covered (tx : τ) (rows : Rows GroupId τ GroupRow) (group : GroupId) (base rest : List GroupId) :
    Prop :=
  ∀ key row, rows.committed key = some row → group ∈ row.path →
    key ∈ rest ∨ rows.HeldBy tx key (some (row.splice group base))

/-- What a call holds and knows where it stands. -/
def TreeHolds (tx : τ) (rows : Rows GroupId τ GroupRow) : TreePhase → Prop
  | .start .. | .done => HoldsNothing tx rows
  | .sibling child | .trigger child => HoldsNothing tx rows ∧ UnderParent rows child
  | .inserting child => HoldsNothing tx rows ∧ UpToDate rows child
  | .checking child | .created child => Inserted tx rows child
  | .locking .. => OnlyLocks tx rows
  | .moving group newParent => MayMove tx rows group newParent
  | .splicing group => ∃ parent path, Relocating tx rows group parent path ∧
      ∀ key version, key ≠ group → rows.HeldBy tx key version →
        ∃ row, rows.committed key = some row ∧ version = some row
  | .visiting group base rest => ∃ parent path, base = path ++ [group] ∧
      Relocating tx rows group parent path ∧ Covered tx rows group base rest

/-- A transaction that has changed nothing sees what is committed. -/
theorem OnlyLocks.view_eq (locks : OnlyLocks tx rows) (key : GroupId) :
    rows.view tx key = rows.committed key := by
  rcases Row.heldBy_or_unheld (rows.row key) tx with ⟨version, held⟩ | unheld
  · obtain ⟨row, stored, rfl⟩ := locks key version held
    exact held.view_eq.trans stored.symm
  · exact Row.view_eq_committed unheld

omit [DecidableEq τ] in
/-- A transaction that holds nothing holds only locks. -/
theorem HoldsNothing.onlyLocks (nothing : HoldsNothing tx rows) : OnlyLocks tx rows :=
  fun key version held => absurd held (nothing key version)

/-- The group is not on its own new path. -/
theorem Arrival.not_mem {groups : GroupId → Option GroupRow} {group : GroupId}
    {organisation : OrganizationId} {parent : Option GroupId} {path : List GroupId}
    (arrival : Arrival groups group organisation parent path) : group ∉ path := by
  cases arrival with
  | root => simp
  | under _ _ other apart => simp [apart, Ne.symm other]

/-- A row that was rewritten stays as it is when it is rewritten again. -/
theorem splice_splice {group : GroupId} {path : List GroupId} (absent : group ∉ path)
    (row : GroupRow) : (row.splice group (path ++ [group])).splice group (path ++ [group]) =
      row.splice group (path ++ [group]) := by
  simp only [GroupRow.splice, List.append_assoc, List.singleton_append, dropWhile_ne_drop absent]

/-- A group is on the path of every row spliced below it. -/
theorem mem_splice_path {group : GroupId} {path : List GroupId} {row : GroupRow} :
    group ∈ (row.splice group (path ++ [group])).path := by
  simp [GroupRow.splice]

end Calls

/-- Whether an event publishes what a call has written. -/
def TreePhase.commits : TreePhase → TreeEvent → Bool
  | .created _, .advance | .visiting _ _ [], .advance => true
  | _, _ => false

section Steps

variable {τ : Type*} [DecidableEq τ] {store after : GroupStore τ} {tx : τ} {commits : Bool}
  {reached : TreePhase}

/-- What a step of a call leaves: the other calls are not disturbed, the call holds what it should,
and only a commit publishes anything. -/
structure TreeAdvanced (tx : τ) (store : GroupStore τ) (commits : Bool) (after : GroupStore τ)
    (reached : TreePhase) : Prop where
  others : ∀ other, other ≠ tx → Rows.Undisturbed other store.rows after.rows
  holds : TreeHolds tx after.rows reached
  published : (commits = true ∧ after.rows = store.rows.commit tx) ∨
    ∀ key, after.rows.committed key = store.rows.committed key

/-- A statement that only reads. -/
theorem TreeAdvanced.reads (same : after.rows = store.rows)
    (holds : TreeHolds tx store.rows reached) : TreeAdvanced tx store commits after reached where
  others := fun other _ => same ▸ .refl other _
  holds := same ▸ holds
  published := .inr fun key => by rw [same]

/-- A call that is refused or cut off drops what it has written. -/
theorem TreeAdvanced.ends : TreeAdvanced tx store commits (store.rollback tx) .done where
  others := fun _ different => Rows.rollback_undisturbed different
  holds := fun _ version => Row.rollback_unheld version
  published := .inr fun key => by
    show (store.rows.rollback tx).committed key = store.rows.committed key
    rw [Rows.rollback_committed]

/-- A commit. -/
theorem TreeAdvanced.publishes : TreeAdvanced tx store true (store.commit tx) .done where
  others := fun _ different => Rows.commit_undisturbed different
  holds := fun _ version => Row.commit_unheld version
  published := .inl ⟨rfl, rfl⟩

/-- The first step of a call. -/
theorem TreeAdvanced.start {call : TreeCall} {fresh : GroupId} (holds : HoldsNothing tx store.rows)
    (advanced : TreePhase.advance tx store (.start call fresh) = some (after, reached)) :
    TreeAdvanced tx store commits after reached := by
  cases call with
  | createSubgroup parent slug =>
    simp only [TreePhase.advance] at advanced
    cases seen : store.rows.view tx parent with
    | none =>
      rw [seen] at advanced
      cases advanced
      exact .reads rfl holds
    | some above =>
      rw [seen] at advanced
      cases advanced
      -- Without a lock of its own, the call has read the committed parent.
      rw [holds.onlyLocks.view_eq] at seen
      exact .reads rfl ⟨holds, parent, above, rfl, seen, rfl⟩
  | reparent group newParent =>
    cases advanced
    exact .reads rfl holds.onlyLocks

/-- The look for a sibling of that name. -/
theorem TreeAdvanced.sibling {child : GroupRow}
    (holds : HoldsNothing tx store.rows ∧ UnderParent store.rows child)
    (advanced : TreePhase.advance tx store (.sibling child) = some (after, reached)) :
    TreeAdvanced tx store commits after reached := by
  simp only [TreePhase.advance] at advanced
  split at advanced
  · cases advanced
    exact .reads rfl holds
  · cases advanced
    exact .reads rfl holds.1

/-- The trigger that fills in the path. -/
theorem TreeAdvanced.trigger {child : GroupRow}
    (holds : HoldsNothing tx store.rows ∧ UnderParent store.rows child)
    (advanced : TreePhase.advance tx store (.trigger child) = some (after, reached)) :
    TreeAdvanced tx store commits after reached := by
  obtain ⟨nothing, parent, above, under, stored, organisation⟩ := holds
  have path : store.groupsDerivePath tx child.parentGroupId = some (above.path ++ [parent]) := by
    rw [under, GroupStore.groupsDerivePath, nothing.onlyLocks.view_eq, stored]
    rfl
  simp only [TreePhase.advance, path] at advanced
  cases advanced
  exact .reads rfl ⟨nothing, parent, above, under, stored, organisation, rfl⟩

/-- The insertion of the row. -/
theorem TreeAdvanced.inserting {child : GroupRow}
    (holds : HoldsNothing tx store.rows ∧ UpToDate store.rows child)
    (advanced : TreePhase.advance tx store (.inserting child) = some (after, reached)) :
    TreeAdvanced tx store commits after reached := by
  simp only [TreePhase.advance] at advanced
  -- The unique name can be taken, the parent can be gone; then the insert refuses.
  split at advanced
  · cases advanced
    exact .ends
  · split at advanced
    · cases advanced
    · split at advanced
      · cases advanced
        exact .ends
      · -- The row is put in: held by this transaction, and in nobody else's view.
        obtain ⟨next, inserted, same⟩ := Option.map_eq_some_iff.mp advanced
        cases same
        obtain ⟨nothing, current⟩ := holds
        -- What stands committed stays as it is until the commit.
        have steady := Rows.insert_committed inserted
        refine ⟨fun other different => Rows.insert_undisturbed inserted different, ?_, .inr steady⟩
        obtain ⟨_, row, taken, rfl⟩ := Rows.insert_cases inserted
        obtain ⟨missing, _, _, mine⟩ := Row.insert_cases taken
        refine ⟨?_, fun key version held => (Rows.insert_heldBy nothing inserted held).1, ?_, ?_⟩
        · unfold Rows.HeldBy
          rw [Rows.set_row, if_pos rfl]
          exact mine
        · -- The new key was free in the committed rows.
          rw [steady]
          exact missing
        · -- The path the trigger read is still its parent's.
          obtain ⟨parent, above, under, stored, rest⟩ := current
          exact ⟨parent, above, under, (steady parent).trans stored, rest⟩

/-- The check of the constraint behind the insertion. -/
theorem TreeAdvanced.checking {child : GroupRow} (holds : Inserted tx store.rows child)
    (advanced : TreePhase.advance tx store (.checking child) = some (after, reached)) :
    TreeAdvanced tx store commits after reached := by
  simp only [TreePhase.advance] at advanced
  -- No parent was named, so nothing is to be checked.
  split at advanced
  · cases advanced
    exact .reads rfl holds
  · -- With one, its key share is taken, or another transaction holds the row.
    obtain ⟨shared, taken, same⟩ := Option.map_eq_some_iff.mp advanced
    cases same
    unfold GroupStore.shareKey at taken
    split at taken
    · cases taken
    · cases taken
      exact .reads rfl holds

/-- A lock adds no change to what the transaction holds. -/
theorem OnlyLocks.lock {rows next : Rows GroupId τ GroupRow} {group : GroupId}
    (locks : OnlyLocks tx rows) (seen : rows.view tx group ≠ none)
    (locked : rows.lock tx group = some next) : OnlyLocks tx next := by
  intro key version held
  rw [Rows.lock_committed locked]
  rcases Rows.lock_heldBy locked held with before | ⟨rfl, rfl⟩
  · exact locks key version before
  · rw [locks.view_eq] at seen ⊢
    obtain ⟨row, stored⟩ := Option.ne_none_iff_exists'.mp seen
    exact ⟨row, stored, stored⟩

/-- One more row of those a move locks. -/
theorem TreeAdvanced.locking {group key : GroupId} {newParent : Option GroupId} {rest : List GroupId}
    (holds : OnlyLocks tx store.rows)
    (advanced : TreePhase.advance tx store (.locking group newParent (key :: rest)) =
      some (after, reached)) : TreeAdvanced tx store commits after reached := by
  obtain ⟨next, locked, same⟩ := Option.map_eq_some_iff.mp advanced
  cases same
  unfold GroupStore.lockGroup at locked
  -- A key that is not there needs no lock.
  split at locked
  · cases locked
    exact .reads rfl holds
  · next seen =>
    split at locked
    · cases locked
    · -- The lock is taken, which changes nobody's version.
      obtain ⟨rows, taken, same⟩ := Option.map_eq_some_iff.mp locked
      cases same
      exact ⟨fun other different => Rows.lock_undisturbed taken different, holds.lock seen taken,
        .inr (Rows.lock_committed taken)⟩

/-- A locked group is held in the version that is seen. -/
theorem lockedGroup_eq_some {group : GroupId} {row : GroupRow}
    (locked : store.lockedGroup tx group = some row) : store.rows.HeldBy tx group (some row) := by
  unfold GroupStore.lockedGroup at locked
  split at locked
  · next owned =>
    obtain ⟨version, held⟩ := Rows.ownedBy_iff.mp owned
    cases held.view_eq.symm.trans locked
    exact held
  · cases locked

/-- The step behind the last row a move locks. -/
theorem TreeAdvanced.locked {group : GroupId} {newParent : Option GroupId}
    (holds : OnlyLocks tx store.rows)
    (advanced : TreePhase.advance tx store (.locking group newParent []) = some (after, reached)) :
    TreeAdvanced tx store commits after reached := by
  simp only [TreePhase.advance] at advanced
  -- The move is checked under the locks: a refusal ends the transaction.
  split at advanced
  · cases advanced
    exact .ends
  · next passed =>
    split at advanced
    · cases advanced
      exact .ends
    · cases advanced
      refine .reads rfl ⟨holds, ?_⟩
      -- Not refused means that the group is there and that the parent does not lie below it.
      rw [Bool.not_eq_true] at passed
      unfold TreePhase.refuses at passed
      cases moved : store.lockedGroup tx group with
      | none =>
        rw [moved] at passed
        cases passed
      | some row =>
        rw [moved] at passed
        refine ⟨row, lockedGroup_eq_some moved, ?_⟩
        -- Under a parent, the locked row is the one the check has read.
        rintro parent rfl
        cases found : store.lockedGroup tx parent with
        | none => simp [found] at passed
        | some above =>
          refine ⟨above, lockedGroup_eq_some found, ?_⟩
          simpa [found, and_assoc] using passed

/-- The group and its path are written, and the rows below it come next. -/
theorem TreeAdvanced.moving {group : GroupId} {newParent : Option GroupId}
    (holds : MayMove tx store.rows group newParent)
    (advanced : TreePhase.advance tx store (.moving group newParent) = some (after, reached)) :
    TreeAdvanced tx store commits after reached := by
  obtain ⟨locks, row, mine, allowed⟩ := holds
  -- The moved group is locked, so it is what it was when the call read it.
  have stored : store.rows.committed group = some row := by
    rw [← locks.view_eq]
    exact mine.view_eq
  simp only [TreePhase.advance] at advanced
  -- No path, or a move below itself: the call ends with an error.
  cases derived : store.groupsDerivePath tx newParent with
  | none =>
    rw [derived] at advanced
    cases advanced
    exact .ends
  | some path =>
    rw [derived] at advanced
    dsimp only at advanced
    split at advanced
    · cases advanced
      exact .ends
    · obtain ⟨⟨next, matched⟩, changed, same⟩ := Option.map_eq_some_iff.mp advanced
      cases same
      have steady := Rows.change_committed changed
      -- The parent is locked, so the path that was derived is that of the parent as it stands.
      have arrival : Arrival next.committed group row.organizationId newParent path := by
        cases newParent with
        | none =>
          cases derived
          exact .root
        | some parent =>
          obtain ⟨above, held, organisation, other, apart⟩ := allowed parent rfl
          have found : store.rows.view tx parent = some above := held.view_eq
          rw [GroupStore.groupsDerivePath, found] at derived
          cases derived
          refine .under ?_ organisation other apart
          rw [steady, ← locks.view_eq]
          exact found
      -- The statement touches only the moved group.
      have unchanged : ∀ key version, key ≠ group → next.HeldBy tx key version →
          ∃ row, next.committed key = some row ∧ version = some row := by
        intro key version other held
        unfold Rows.HeldBy at held
        rw [Rows.change_elsewhere changed other] at held
        rw [steady]
        exact locks key version held
      refine ⟨fun other different => Rows.change_undisturbed changed different,
        ⟨newParent, path, ⟨?_, ?_, ?_⟩, unchanged⟩, .inr steady⟩
      · refine ⟨row, by rw [steady]; exact stored, ?_, arrival⟩
        have written := Row.HeldBy.change mine (Rows.change_here changed)
        exact written
      · -- The parent's lock is still held.
        rintro parent rfl
        obtain ⟨above, held, _, other, _⟩ := allowed parent rfl
        refine ⟨some above, ?_⟩
        unfold Rows.HeldBy
        rw [Rows.change_elsewhere changed other]
        exact held
      · intro key version other held
        obtain ⟨row, stands, same⟩ := unchanged key version other held
        exact ⟨row, stands, .inl same⟩

/-- The splice finds every row below the group as it is committed then. -/
theorem TreeAdvanced.splicing {group : GroupId} {parent : Option GroupId} {path : List GroupId}
    (tree : Hierarchy store.rows.committed) (holds : Relocating tx store.rows group parent path)
    (unchanged : ∀ key version, key ≠ group → store.rows.HeldBy tx key version →
      ∃ row, store.rows.committed key = some row ∧ version = some row)
    (advanced : TreePhase.advance tx store (.splicing group) = some (after, reached)) :
    TreeAdvanced tx store commits after reached := by
  -- The group's own row is written already; its path has the arrival's.
  obtain ⟨old, stored, mine, arrival⟩ := holds.moved
  have seen := mine.view_eq
  change store.rows.view tx group = _ at seen
  simp only [TreePhase.advance, seen] at advanced
  cases advanced
  -- The rows below the group are selected in this transaction's own view.
  refine .reads rfl ⟨parent, path, rfl, holds, fun key row found below => .inl ?_⟩
  -- The group does not lie below itself.
  have other : key ≠ group := by
    rintro rfl
    exact tree.not_below found below
  refine Rows.mem_select.mpr ⟨row, ?_, by simpa using below⟩
  -- A row this transaction holds is still as committed, every other one is committed.
  rcases Row.heldBy_or_unheld (store.rows.row key) tx with ⟨version, held⟩ | unheld
  · obtain ⟨row', found', rfl⟩ := unchanged key version other held
    cases found.symm.trans found'
    exact held.view_eq
  · exact (Row.view_eq_committed unheld).trans found

/-- What the splice sees of a row below the group is the committed row or the rewritten one. -/
theorem Relocating.view_cases {rows : Rows GroupId τ GroupRow} {group key : GroupId}
    {parent : Option GroupId} {path : List GroupId} (holds : Relocating tx rows group parent path)
    (other : key ≠ group) {version : GroupRow} (seen : rows.view tx key = some version) :
    ∃ row, rows.committed key = some row ∧ (version = row ∨
      group ∈ row.path ∧ version = row.splice group (path ++ [group])) := by
  rcases Row.heldBy_or_unheld (rows.row key) tx with ⟨found, held⟩ | unheld
  · cases held.view_eq.symm.trans seen
    obtain ⟨row, stored, same⟩ := holds.others key _ other held
    simp only [Option.some.injEq] at same
    exact ⟨row, stored, same⟩
  · exact ⟨version, (Row.view_eq_committed unheld).symm.trans seen, .inl rfl⟩

omit [DecidableEq τ] in
/-- What a move relies on stays while others act. -/
theorem Relocating.kept {rows next : Rows GroupId τ GroupRow} {group : GroupId}
    {parent : Option GroupId} {path : List GroupId} (holds : Relocating tx rows group parent path)
    (quiet : Rows.Undisturbed tx rows next) : Relocating tx next group parent path := by
  -- A quiet step of this transaction touches no committed row it holds.
  obtain ⟨old, stored, mine, arrival⟩ := holds.moved
  have steady : ∀ key version, rows.HeldBy tx key version →
      next.committed key = rows.committed key := fun key version held =>
    (quiet key).committed version held
  refine ⟨⟨old, (steady _ _ mine).trans stored, ((quiet group).heldBy _).mpr mine, ?_⟩, ?_, ?_⟩
  · -- The arrival stands: at the root, or under a parent that this transaction holds.
    cases arrival with
    | root => exact .root
    | under under same other apart =>
      obtain ⟨version, held⟩ := holds.above _ rfl
      exact .under ((steady _ _ held).trans under) same other apart
  · -- The parent is still held, and so are the rows written so far.
    intro key placed
    obtain ⟨version, held⟩ := holds.above key placed
    exact ⟨version, ((quiet key).heldBy version).mpr held⟩
  · intro key version other held
    have before := ((quiet key).heldBy version).mp held
    obtain ⟨row, found, same⟩ := holds.others key version other before
    exact ⟨row, (steady _ _ before).trans found, same⟩

/-- What the splice does to a row: it is left as it is where the group is not on its path, or
rewritten from what is committed of it. -/
theorem Relocating.visited {rows next : Rows GroupId τ GroupRow} {group key : GroupId}
    {parent : Option GroupId} {path : List GroupId} {matched : Bool}
    (holds : Relocating tx rows group parent path)
    (changed : rows.change tx key (fun row => row.path.contains group)
      (fun row => some (row.splice group (path ++ [group]))) = some (next, matched)) :
    (next.row key = rows.row key ∧
        ∀ version, rows.view tx key = some version → group ∉ version.path) ∨
      key ≠ group ∧ ∃ row, rows.committed key = some row ∧ group ∈ row.path ∧
        next.HeldBy tx key (some (row.splice group (path ++ [group]))) := by
  -- The UPDATE leaves the row or writes it, by whether its path has the group.
  obtain ⟨old, stored, mine, arrival⟩ := holds.moved
  rcases Row.change_cases (Rows.change_here changed) with
    ⟨_, same, refused⟩ | ⟨version, _, seen, accepted, _, _, written⟩
  · -- Left: no version of the row this transaction sees has the group in its path.
    refine .inl ⟨same, fun version seen member => ?_⟩
    have missed := refused version seen
    simp [member] at missed
  · -- Written: the row lies below the group, and the group's own row is not met here.
    rw [List.contains_iff_mem] at accepted
    have other : key ≠ group := by
      rintro rfl
      cases mine.view_eq.symm.trans seen
      exact arrival.not_mem accepted
    refine .inr ⟨other, ?_⟩
    -- A row spliced before is spliced to the same path again.
    obtain ⟨row, found, rfl | ⟨below, rfl⟩⟩ := holds.view_cases other seen
    · exact ⟨version, found, accepted, written⟩
    · rw [splice_splice arrival.not_mem] at written
      exact ⟨row, found, below, written⟩

/-- A row below the group is seen below it. -/
theorem Relocating.view_below {rows : Rows GroupId τ GroupRow} {group key : GroupId}
    {parent : Option GroupId} {path : List GroupId} {row : GroupRow}
    (holds : Relocating tx rows group parent path) (other : key ≠ group)
    (stored : rows.committed key = some row) (below : group ∈ row.path) :
    ∃ version, rows.view tx key = some version ∧ group ∈ version.path := by
  rcases Row.heldBy_or_unheld (rows.row key) tx with ⟨version, held⟩ | unheld
  · obtain ⟨found, stands, rfl | ⟨_, rfl⟩⟩ := holds.others key version other held
    · cases stored.symm.trans stands
      exact ⟨row, held.view_eq, below⟩
    · exact ⟨_, held.view_eq, mem_splice_path⟩
  · exact ⟨row, (Row.view_eq_committed unheld).trans stored, below⟩

/-- The splice comes to a row: one that is still below the group is rewritten. -/
theorem Relocating.visit {rows next : Rows GroupId τ GroupRow} {group key : GroupId}
    {parent : Option GroupId} {path rest : List GroupId} {matched : Bool}
    (tree : Hierarchy rows.committed) (holds : Relocating tx rows group parent path)
    (covered : Covered tx rows group (path ++ [group]) rest)
    (changed : rows.change tx key (fun row => row.path.contains group)
      (fun row => some (row.splice group (path ++ [group]))) = some (next, matched)) :
    Relocating tx next group parent path ∧
      Covered tx next group (path ++ [group]) (rest.erase key) := by
  have steady := Rows.change_committed changed
  rcases holds.visited changed with ⟨same, apart⟩ | ⟨other, row, stored, below, written⟩
  · -- Nothing is written, so every row is as it was.
    -- No path changes hands here, so nothing moves.
    have quiet : Rows.Undisturbed tx rows next := by
      intro found
      by_cases here : found = key
      · rw [here, same]
        exact .refl tx _
      · rw [Rows.change_elsewhere changed here]
        exact .refl tx _
    refine ⟨holds.kept quiet, fun found row stored below => ?_⟩
    rw [steady] at stored
    -- A row below the group was waiting or held, and the visited one has nothing to be written.
    rcases covered found row stored below with waiting | held
    · refine .inl ((List.mem_erase_of_ne ?_).mpr waiting)
      rintro rfl
      have other : found ≠ group := by
        rintro rfl
        exact tree.not_below stored below
      obtain ⟨version, seen, member⟩ := holds.view_below other stored below
      exact apart version seen member
    · exact .inr (((quiet found).heldBy _).mpr held)
  · -- The visited row is written, and every other is what it was.
    have elsewhere : ∀ found version, found ≠ key →
        (next.HeldBy tx found version ↔ rows.HeldBy tx found version) := by
      intro found version different
      unfold Rows.HeldBy
      rw [Rows.change_elsewhere changed different]
    obtain ⟨old, kept, mine, arrival⟩ := holds.moved
    have column : next.committed = rows.committed := funext steady
    refine ⟨⟨⟨old, ?_, ?_, ?_⟩, fun found placed => ?_, fun found version different held => ?_⟩, ?_⟩
    · rw [column]
      exact kept
    · exact (elsewhere group _ (Ne.symm other)).mpr mine
    · rw [column]
      exact arrival
    · -- The rows above the group are held, the visited one by this write.
      by_cases here : found = key
      · exact ⟨_, here ▸ written⟩
      · obtain ⟨version, held⟩ := holds.above found placed
        exact ⟨version, (elsewhere found version here).mpr held⟩
    · -- What is held is as stored, or has the new path.
      rw [column]
      by_cases here : found = key
      · subst here
        exact ⟨row, stored, .inr ⟨below, (held.unique written).2⟩⟩
      · exact holds.others found version different ((elsewhere found version here).mp held)
    · -- One row less is waiting, and it is held instead.
      intro found row' stored' below'
      rw [column] at stored'
      by_cases here : found = key
      · subst here
        cases stored.symm.trans stored'
        exact .inr written
      · rcases covered found row' stored' below' with waiting | held
        · exact .inl ((List.mem_erase_of_ne here).mpr waiting)
        · exact .inr ((elsewhere found _ here).mpr held)

/-- One more row of those a move splices. -/
theorem TreeAdvanced.visit {group key : GroupId} {parent : Option GroupId}
    {path rest : List GroupId} (tree : Hierarchy store.rows.committed)
    (holds : Relocating tx store.rows group parent path)
    (covered : Covered tx store.rows group (path ++ [group]) rest)
    (visited : TreePhase.visit tx store key (.visiting group (path ++ [group]) rest) =
      some (after, reached)) : TreeAdvanced tx store commits after reached := by
  simp only [TreePhase.visit] at visited
  split at visited
  · -- The row is visited: the trigger refuses, or its path is spliced.
    split at visited
    · obtain ⟨_, _, same⟩ := Option.map_eq_some_iff.mp visited
      cases same
      exact .ends
    · obtain ⟨⟨next, matched⟩, changed, same⟩ := Option.map_eq_some_iff.mp visited
      cases same
      -- What is still to come is covered by the rest of the keys.
      obtain ⟨relocating, rest_covered⟩ := holds.visit tree covered changed
      exact ⟨fun other different => Rows.change_undisturbed changed different,
        ⟨parent, path, rfl, relocating, rest_covered⟩, .inr (Rows.change_committed changed)⟩
  · -- A key that is not to be visited is no event.
    cases visited

/-- Every step of a call that holds what it should. -/
theorem TreeAdvanced.of_act {phase : TreePhase} {event : TreeEvent}
    (tree : Hierarchy store.rows.committed) (holds : TreeHolds tx store.rows phase)
    (acted : TreePhase.act tx event store phase = some (after, reached)) :
    TreeAdvanced tx store (phase.commits event) after reached := by
  -- One case a phase, each by the lemma that says what its step does.
  cases event with
  | abort =>
    cases phase <;> first | cases acted; exact .ends | cases acted
  | visit key =>
    cases phase with
    | visiting group base rest =>
      obtain ⟨parent, path, rfl, relocating, covered⟩ := holds
      exact .visit tree relocating covered acted
    | start | sibling | trigger | inserting | checking | created | locking | moving | splicing
    | done => cases acted
  -- Create, move and splice end in a commit; the phases before it only read and lock.
  | advance =>
    cases phase with
    | start call fresh => exact .start holds acted
    | sibling child => exact .sibling holds acted
    | trigger child => exact .trigger holds acted
    | inserting child => exact .inserting holds acted
    | checking child => exact .checking holds acted
    | created child =>
      cases acted
      exact .publishes
    | locking group newParent rest =>
      cases rest with
      | nil => exact .locked holds acted
      | cons key rest => exact .locking holds acted
    | moving group newParent => exact .moving holds acted
    | splicing group =>
      obtain ⟨parent, path, relocating, unchanged⟩ := holds
      exact .splicing tree relocating unchanged acted
    | visiting group base rest =>
      cases rest with
      | nil =>
        cases acted
        exact .publishes
      | cons => cases acted
    | done => cases acted

end Steps

section Commits

variable {τ : Type*} [DecidableEq τ] {rows : Rows GroupId τ GroupRow} {tx : τ}

/-- What a commit publishes: the versions that the transaction holds. -/
theorem commit_committed_cases (rows : Rows GroupId τ GroupRow) (tx : τ) (key : GroupId) :
    (rows.commit tx).committed key = rows.committed key ∨
      ∃ version, rows.HeldBy tx key version ∧ (rows.commit tx).committed key = version := by
  rcases Row.heldBy_or_unheld (rows.row key) tx with ⟨version, held⟩ | unheld
  · exact .inr ⟨version, held, Rows.commit_committed_of_heldBy held⟩
  · exact .inl (Rows.commit_committed_of_unheld unheld)

/-- A new group joins the tree. -/
theorem Inserted.committed {child : GroupRow} (holds : Inserted tx rows child) (key : GroupId) :
    (rows.commit tx).committed key = if key = child.id then some child else rows.committed key := by
  split
  · next same =>
    subst same
    exact Rows.commit_committed_of_heldBy holds.held
  · next other =>
    exact Rows.commit_committed_of_unheld fun version held => other (holds.only key version held)

/-- A move that has come to every row below its group publishes the moved tree. -/
theorem Relocating.committed {group : GroupId} {parent : Option GroupId} {path : List GroupId}
    (holds : Relocating tx rows group parent path)
    (covered : Covered tx rows group (path ++ [group]) []) (key : GroupId) :
    (rows.commit tx).committed key =
      (rows.committed key).map (relocated group parent path key) := by
  -- What is committed is what this transaction held, and that is relocated row by row.
  obtain ⟨old, stored, mine, _⟩ := holds.moved
  -- The group's own row has the new parent and path.
  by_cases same : key = group
  · subst same
    rw [Rows.commit_committed_of_heldBy mine, stored, Option.map_some, relocated, if_pos rfl]
  · cases found : rows.committed key with
    -- A free key is written by nobody here.
    | none =>
      rw [Rows.commit_committed_of_unheld, found]
      · rfl
      · intro version held
        obtain ⟨row, stands, _⟩ := holds.others key version same held
        cases found.symm.trans stands
    | some row =>
      rw [Option.map_some, relocated, if_neg same]
      -- Below the group every row is covered by the splice.
      split
      · next below =>
        have held := (covered key row found below).resolve_left List.not_mem_nil
        exact Rows.commit_committed_of_heldBy held
      · -- Apart from it the row is untouched, or held as it stood.
        next apart =>
        rcases Row.heldBy_or_unheld (rows.row key) tx with ⟨version, held⟩ | unheld
        · obtain ⟨row', stands, rfl | ⟨below, _⟩⟩ := holds.others key version same held
          · rw [Rows.commit_committed_of_heldBy held, ← stands, found]
          · cases found.symm.trans stands
            exact absurd below apart
        · exact (Rows.commit_committed_of_unheld unheld).trans found

/-- Only a new group and a move publish anything. -/
theorem TreePhase.commits_cases {phase : TreePhase} {event : TreeEvent}
    (commits : phase.commits event = true) :
    (∃ child, phase = .created child) ∨ ∃ group base, phase = .visiting group base [] := by
  -- A create commits once it is created, a move once nothing is left to visit.
  cases phase with
  | created child => exact .inl ⟨child, rfl⟩
  | visiting group base rest =>
    cases rest with
    | nil => exact .inr ⟨group, base, rfl⟩
    | cons => cases event <;> cases commits
  | start | sibling | trigger | inserting | checking | locking | moving | splicing | done =>
    cases event <;> cases commits

/-- A commit of either call keeps the tree. -/
theorem TreeHolds.commit_tree {phase : TreePhase} {event : TreeEvent}
    (tree : Hierarchy rows.committed) (holds : TreeHolds tx rows phase)
    (commits : phase.commits event = true) : Hierarchy (rows.commit tx).committed := by
  rcases TreePhase.commits_cases commits with ⟨child, rfl⟩ | ⟨group, base, rfl⟩
  · have inserted : Inserted tx rows child := holds
    obtain ⟨parent, above, under, stored, organisation, path⟩ := inserted.current
    exact tree.join under stored organisation path inserted.fresh inserted.committed
  · obtain ⟨parent, path, rfl, relocating, covered⟩ := holds
    obtain ⟨old, stored, _, arrival⟩ := relocating.moved
    exact tree.move stored arrival (relocating.committed covered)

/-- The new group whose path a call has derived and not yet published. -/
def TreePhase.derived : TreePhase → Option GroupRow
  | .inserting child | .checking child | .created child => some child
  | _ => none

/-- The group whose rows below a call has found, and those that it has yet to come to. -/
def TreePhase.spliced : TreePhase → Option (GroupId × List GroupId)
  | .visiting group _ rest => some (group, rest)
  | _ => none

/-- What a commit does to a group that was stored before: it stays in its organisation, and its path
stays unless the commit moves a group on it, or the group itself. -/
theorem TreeHolds.commit_keeps {phase : TreePhase} {event : TreeEvent} (key : GroupId)
    (row : GroupRow) (holds : TreeHolds tx rows phase) (commits : phase.commits event = true)
    (stored : rows.committed key = some row) : ∃ row', (rows.commit tx).committed key = some row' ∧
      row'.organizationId = row.organizationId ∧
      ((∀ splice ∈ phase.spliced, splice.1 ∉ row.path ++ [key]) → row'.path = row.path) := by
  -- By the two commits.
  rcases TreePhase.commits_cases commits with ⟨child, rfl⟩ | ⟨group, base, rfl⟩
  · have inserted : Inserted tx rows child := holds
    -- The created key was free, so it is another one.
    have other : key ≠ child.id := by
      rintro rfl
      cases inserted.fresh.symm.trans stored
    exact ⟨row, by rw [inserted.committed, if_neg other, stored], rfl, fun _ => rfl⟩
  · -- The move relocates, and a row that lies apart keeps its path.
    obtain ⟨parent, path, rfl, relocating, covered⟩ := holds
    refine ⟨_, by rw [relocating.committed covered, stored]; rfl, relocated_organizationId, ?_⟩
    intro apart
    have absent := apart (group, []) rfl
    simp only [List.mem_append, List.mem_singleton, not_or] at absent
    rw [relocated, if_neg (Ne.symm absent.2), if_neg absent.1]

omit [DecidableEq τ] in
/-- What a call relies on stays while others act: the groups stay in their organisations, the parent
of a new group keeps its path, and no row slips below a moved group behind its splice. -/
theorem TreeHolds.kept {next : Rows GroupId τ GroupRow} {phase : TreePhase}
    (holds : TreeHolds tx rows phase) (quiet : Rows.Undisturbed tx rows next)
    (organisation : ∀ key row, rows.committed key = some row →
      ∃ row', next.committed key = some row' ∧ row'.organizationId = row.organizationId)
    (current : ∀ child ∈ phase.derived, UpToDate rows child → UpToDate next child)
    (below : ∀ splice ∈ phase.spliced, ∀ key row, next.committed key = some row →
      splice.1 ∈ row.path → rows.committed key = some row ∨ key ∈ splice.2) :
    TreeHolds tx next phase := by
  -- What a transaction holds is what it held before another's quiet step.
  have nothing : HoldsNothing tx rows → HoldsNothing tx next := fun free key version held =>
    free key version (((quiet key).heldBy version).mp held)
  -- A parent keeps its organisation, so a child stays under it.
  have under : ∀ child, UnderParent rows child → UnderParent next child := by
    rintro child ⟨parent, above, placed, stored, same⟩
    obtain ⟨above', stands, equal⟩ := organisation parent above stored
    exact ⟨parent, above', placed, stands, equal.trans same⟩
  -- A row that was only locked still has its committed content.
  have locks : OnlyLocks tx rows → OnlyLocks tx next := by
    intro only key version held
    have before := ((quiet key).heldBy version).mp held
    obtain ⟨row, stored, same⟩ := only key version before
    exact ⟨row, ((quiet key).committed version before).trans stored, same⟩
  -- The inserted row is held, alone, and its key still free in the committed rows.
  have inserted : ∀ child, phase.derived = some child → Inserted tx rows child →
      Inserted tx next child := by
    intro child named before
    exact ⟨((quiet child.id).heldBy _).mpr before.held,
      fun key version held => before.only key version (((quiet key).heldBy version).mp held),
      ((quiet child.id).committed _ before.held).trans before.fresh,
      current child named before.current⟩
  -- Each phase holds one of these four things, or the move's own.
  cases phase with
  | start | done => exact nothing holds
  | sibling child | trigger child => exact ⟨nothing holds.1, under child holds.2⟩
  | inserting child => exact ⟨nothing holds.1, current child rfl holds.2⟩
  | checking child | created child => exact inserted child rfl holds
  | locking => exact locks holds
  -- The locked parent of a move is still locked and not below the group.
  | moving group newParent =>
    obtain ⟨only, row, mine, allowed⟩ := holds
    refine ⟨locks only, row, ((quiet group).heldBy _).mpr mine, fun parent placed => ?_⟩
    obtain ⟨above, held, rest⟩ := allowed parent placed
    exact ⟨above, ((quiet parent).heldBy _).mpr held, rest⟩
  -- Before the visits, the rows held besides the group's are as committed.
  | splicing group =>
    obtain ⟨parent, path, relocating, unchanged⟩ := holds
    refine ⟨parent, path, relocating.kept quiet, fun key version other held => ?_⟩
    have before := ((quiet key).heldBy version).mp held
    obtain ⟨row, stored, same⟩ := unchanged key version other before
    exact ⟨row, ((quiet key).committed version before).trans stored, same⟩
  -- A row that came below the group since then is among those to be visited, which `below` says.
  | visiting group base rest =>
    obtain ⟨parent, path, rfl, relocating, covered⟩ := holds
    refine ⟨parent, path, rfl, relocating.kept quiet, fun key row stored member => ?_⟩
    rcases below (group, rest) rfl key row stored member with before | waiting
    · rcases covered key row before member with waiting | held
      · exact .inl waiting
      · exact .inr (((quiet key).heldBy _).mpr held)
    · exact .inl waiting

end Commits

section Runs

variable {τ : Type*} [DecidableEq τ] {system next : TreeSystem τ}

/-- A commit overtakes nobody: it moves no group on a path that another call has derived and not yet
published, and it publishes no row below a group that another call is moving, once the splice of
that move has found its rows and this one is not among those still to come. -/
def TreeSystem.OvertakesNobody (system : TreeSystem τ) (event : τ × TreeEvent) : Prop :=
  (system.phase event.1).commits event.2 = true → ∀ other, other ≠ event.1 →
    (∀ splice ∈ (system.phase event.1).spliced, ∀ child ∈ (system.phase other).derived,
      splice.1 ∉ child.path) ∧
    ∀ splice ∈ (system.phase other).spliced, ∀ key ∈ system.store.rows.keys,
      ∀ row ∈ system.store.lockedGroup event.1 key, splice.1 ∈ row.path → key ∈ splice.2

/-- With finitely many calls, whether a commit overtakes another call can be computed. -/
instance [Fintype τ] (system : TreeSystem τ) (event : τ × TreeEvent) :
    Decidable (system.OvertakesNobody event) :=
  inferInstanceAs (Decidable (_ → ∀ other, other ≠ event.1 →
    (∀ splice ∈ (system.phase event.1).spliced, ∀ child ∈ (system.phase other).derived,
      splice.1 ∉ child.path) ∧
    ∀ splice ∈ (system.phase other).spliced, ∀ key ∈ system.store.rows.keys,
      ∀ row ∈ system.store.lockedGroup event.1 key, splice.1 ∈ row.path → key ∈ splice.2))

/-- No call has begun, and no group is locked. -/
structure TreeSystem.Fresh (system : TreeSystem τ) : Prop where
  unlocked : ∀ key, (system.store.rows.row key).held = none
  unbegun : ∀ tx, system.phase tx = .done ∨ ∃ call fresh, system.phase tx = .start call fresh

/-- The committed groups form a tree, and every call holds what it should. -/
abbrev TreeSystem.Stand (system : TreeSystem τ) : Prop :=
  Sessions.Annotated (fun store => Hierarchy store.rows.committed)
    (fun tx store phase => TreeHolds tx store.rows phase) system

omit [DecidableEq τ] in
/-- A system in which no call has begun stands on its tree. -/
theorem TreeSystem.Fresh.stand (fresh : system.Fresh)
    (tree : Hierarchy system.store.rows.committed) : system.Stand := by
  refine ⟨tree, fun tx => ?_⟩
  have nothing : HoldsNothing tx system.store.rows := fun key version =>
    Row.not_heldBy_of_unlocked (fresh.unlocked key) version
  -- Past or at its start, a call holds nothing.
  rcases fresh.unbegun tx with past | ⟨call, id, begun⟩
  · rw [past]
    exact nothing
  · rw [begun]
    exact nothing

/-- A step that overtakes nobody leaves the tree and every call standing. -/
theorem TreeSystem.Stand.step {event : τ × TreeEvent} (stand : system.Stand)
    (overtakes : system.OvertakesNobody event) (taken : treeStep system event = some next) :
    next.Stand := by
  obtain ⟨tx, event⟩ := event
  refine stand.step_at taken (fun store phase acted => ?_)
    fun store phase other acted different holds => ?_
  · -- The own transaction: the tree changes when it commits, and not before.
    have advanced := TreeAdvanced.of_act stand.shared (stand.own tx) acted
    refine ⟨?_, advanced.holds⟩
    rcases advanced.published with ⟨commits, same⟩ | steady
    · rw [same]
      exact (stand.own tx).commit_tree stand.shared commits
    · rw [funext steady]
      exact stand.shared
  · -- Another one keeps what it relies on, as this step overtakes nobody.
    have advanced := TreeAdvanced.of_act stand.shared (stand.own tx) acted
    have quiet := advanced.others other different
    rcases advanced.published with ⟨commits, same⟩ | steady
    · have keeps := fun key row => (stand.own tx).commit_keeps key row commits
      obtain ⟨current, waiting⟩ := overtakes commits other different
      rw [same] at quiet ⊢
      refine holds.kept quiet (fun key row stored => ?_) (fun child named before => ?_)
        fun splice found key row stored member => ?_
      · obtain ⟨row', stands, organisation, _⟩ := keeps key row stored
        exact ⟨row', stands, organisation⟩
      · -- The moved group is not on the path of the child, so the parent keeps its own.
        obtain ⟨parent, above, under, stored, organisation, path⟩ := before
        obtain ⟨above', stands, equal, kept⟩ := keeps parent above stored
        refine ⟨parent, above', under, stands, equal.trans organisation, ?_⟩
        rw [path, kept fun splice moved => path ▸ current splice moved child named]
      · -- The row was there before the commit, or is one of those the move has written.
        rcases commit_committed_cases system.store.rows tx key with unchanged | ⟨version, held, new⟩
        · exact .inl (unchanged.symm.trans stored)
        · cases new.symm.trans stored
          refine .inr (waiting splice found key ?_ row ?_ member)
          · exact Rows.mem_keys_of_view held.view_eq
          · have owned := Rows.ownedBy_iff.mpr ⟨_, held⟩
            rw [GroupStore.lockedGroup, if_pos owned]
            exact held.view_eq
    · -- Without a commit nothing that others see has moved.
      refine holds.kept quiet (fun key row stored => ⟨row, (steady key).trans stored, rfl⟩)
        (fun child _ before => ?_) fun splice _ key row stored _ =>
          .inl ((steady key).symm.trans stored)
      obtain ⟨parent, above, under, stored, rest⟩ := before
      exact ⟨parent, above, under, (steady parent).trans stored, rest⟩

/-- In every order of steps in which no commit overtakes another call, the committed groups form a
tree within their organisations, and every stored path is the list of the group's ancestors. -/
theorem group_paths_kept {start : TreeSystem τ} {events : List (τ × TreeEvent)}
    (fresh : start.Fresh) (tree : GroupTree start.store.rows.committed)
    (overtakes : Guarded treeStep TreeSystem.OvertakesNobody start events)
    (ran : run treeStep start events = some system) : GroupTree system.store.rows.committed := by
  have stand : system.Stand := run_invariant (fun _ _ _ stand condition step =>
    stand.step condition step) (fresh.stand tree.toHierarchy) overtakes ran
  exact stand.shared.tree

/-- Two groups at the root, a new group under the first, and the first on its way under the second. -/
def twoCalls : TreeSystem (Fin 2) where
  store := ⟨.stored [(1, ⟨1, 1, "first", none, []⟩), (2, ⟨2, 1, "second", none, []⟩)], [], []⟩
  phase := fun tx =>
    if tx = 0 then .start (.createSubgroup 1 "third") 3 else .start (.reparent 1 (some 2)) 4

/-- The two calls start fresh. -/
theorem twoCalls_fresh : twoCalls.Fresh := by
  refine ⟨fun _ => rfl, fun tx => .inr ?_⟩
  by_cases first : tx = 0
  · exact ⟨_, _, if_pos first⟩
  · exact ⟨_, _, if_neg first⟩

/-- The two calls start on a tree. -/
theorem twoCalls_tree : GroupTree twoCalls.store.rows.committed := by
  -- Two rows are stored, both of them roots with an empty path.
  have roots : ∀ key row, twoCalls.store.rows.committed key = some row →
      row.id = key ∧ row.parentGroupId = none ∧ row.path = [] := by
    intro key row stored
    have member := Rows.mem_of_stored stored
    simp only [List.mem_cons, Prod.mk.injEq, List.not_mem_nil, or_false] at member
    rcases member with ⟨rfl, rfl⟩ | ⟨rfl, rfl⟩
    · exact ⟨rfl, rfl, rfl⟩
    · exact ⟨rfl, rfl, rfl⟩
  -- A tree of roots: no parent has to be there, and each path is the one of a root.
  refine Hierarchy.tree ⟨fun key row stored => (roots key row stored).1, ?_, ?_⟩
  · intro key row parent stored under
    cases (roots key row stored).2.1.symm.trans under
  · intro key row stored
    obtain ⟨_, root, empty⟩ := roots key row stored
    rw [root, empty]
    exact .root

/-- The move reads the groups below before the new one is there, and still takes it along. -/
theorem group_paths_kept_behind_read : ∃ system,
    run treeStep twoCalls ((1, TreeEvent.advance) :: List.replicate 6 (0, TreeEvent.advance) ++
      List.replicate 5 (1, TreeEvent.advance) ++ [(1, TreeEvent.visit 3), (1, .advance)]) = some system ∧
    system.store.rows.committed 3 = some ⟨3, 1, "third", some 1, [2, 1]⟩ ∧
    GroupTree system.store.rows.committed := by
  have overtakes : Guarded treeStep TreeSystem.OvertakesNobody twoCalls
      ((1, TreeEvent.advance) :: List.replicate 6 (0, TreeEvent.advance) ++
        List.replicate 5 (1, TreeEvent.advance) ++
          [(1, TreeEvent.visit 3), (1, .advance)]) := by decide
  exact ⟨_, rfl, rfl, group_paths_kept twoCalls_fresh twoCalls_tree overtakes rfl⟩

/-- The path of the new group is derived, the move is committed, and only then the foreign key lets
the new group pass, with the path that its parent had before. -/
theorem group_path_overtaken : twoCalls.Fresh ∧ GroupTree twoCalls.store.rows.committed ∧
    ∃ system, run treeStep twoCalls (List.replicate 4 (0, TreeEvent.advance) ++
      List.replicate 7 (1, TreeEvent.advance) ++ List.replicate 2 (0, TreeEvent.advance)) = some system ∧
    ¬GroupTree system.store.rows.committed := by
  refine ⟨twoCalls_fresh, twoCalls_tree, _, rfl, fun tree => ?_⟩
  have moved := @Hierarchy.lineage _ tree.toHierarchy 1 ⟨1, 1, "first", some 2, [2]⟩ (by decide)
  have derived := tree.derived 3 ⟨3, 1, "third", some 1, [1]⟩ (by decide)
  cases moved.unique derived

end Runs

end Trusca
