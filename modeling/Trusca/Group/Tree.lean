import Trusca.Gate.ActionQueue
import Trusca.Store.Lineage

/-! The group tree: its rows, the ancestors they store, and the queries that read them. -/

namespace Trusca

/-- One row of the groups table. -/
structure GroupRow where
  id : GroupId
  organizationId : OrganizationId
  slug : String
  /-- Absent for a root group. -/
  parentGroupId : Option GroupId
  /-- The ancestors from the root down, the group itself left out. -/
  path : List GroupId
  deriving Repr, DecidableEq

/-- One row of the organizations table. -/
structure Organization where
  id : OrganizationId
  slug : String
  deriving Repr, DecidableEq

/-- The slug of the organisation the demo is seeded with. -/
def demoOrgSlug : String := "demo-org"

/-- The parent column of the stored groups. -/
def parentOf (groups : Store.Table GroupRow.id) (group : GroupId) : Option (Option GroupId) :=
  (groups.find? group).map GroupRow.parentGroupId

/-- A group tree whose stored paths are the ancestors by the parent column. -/
structure GroupForest where
  groups : Store.Table GroupRow.id
  organizations : Store.Table Organization.id
  derived : ∀ group ∈ groups.rows, Store.Lineage (parentOf groups) group.parentGroupId group.path

/-- The deployment flags that access checks read. -/
structure AccessSettings where
  demoReadOnly : Bool
  groupCascadeEnabled : Bool
  deriving Repr, DecidableEq

/-- The clause on a row of the groups table: a direct group or, with the cascade on, one whose
path shares a member with the direct groups. -/
def subtreeScopeFilter (settings : AccessSettings) (directGroupIds : List GroupId)
    (group : GroupRow) : Bool :=
  -- No membership sees nothing.
  if directGroupIds.isEmpty then false
  -- Without the cascade only the groups themselves.
  else if !settings.groupCascadeEnabled then directGroupIds.contains group.id
  else
    directGroupIds.contains group.id ||
      group.path.any fun ancestor => directGroupIds.contains ancestor

namespace GroupForest

variable (forest : GroupForest) (settings : AccessSettings)

/-- The clause on a foreign key into the groups table. A null column is in no subquery. -/
def groupScopedSubqueryPredicate (directGroupIds : List GroupId) (column : Option GroupId) :
    Bool :=
  let selected := forest.groups.rows.filter (subtreeScopeFilter settings directGroupIds)
  column.any fun group => (selected.map GroupRow.id).contains group

/-- The clause on the group of a project. -/
def projectSubtreePredicate (directGroupIds : List GroupId) (group : GroupId) : Bool :=
  forest.groupScopedSubqueryPredicate settings directGroupIds (some group)

/-- The groups joined with the demo organisation. -/
def demoGroupIds : List GroupId :=
  (forest.groups.rows.filter fun group =>
    forest.organizations.rows.any fun organization =>
      organization.id == group.organizationId && organization.slug == demoOrgSlug).map GroupRow.id

/-- Whether the group is one of the demo organisation. -/
def isDemoGroup (group : GroupId) : Bool :=
  forest.groups.rows.any fun row =>
    row.id == group &&
      forest.organizations.rows.any fun organization =>
        organization.id == row.organizationId && organization.slug == demoOrgSlug

/-- What a check of a single group reads. -/
def directory : Directory where
  path := fun group => (forest.groups.find? group).map GroupRow.path
  isDemoGroup := forest.isDemoGroup
  demoReadOnly := settings.demoReadOnly
  groupCascadeEnabled := settings.groupCascadeEnabled

/-- The rows a super admin reaches. -/
def superAdminReachPredicate (column : Option GroupId) : Bool :=
  -- On the demo a null column compares as null, and its row is dropped.
  if settings.demoReadOnly then column.any fun group => forest.demoGroupIds.contains group
  else true

/-- The list form of the super-admin reach; no clause for anybody else. -/
def superAdminGroupFilter (actor : CurrentUser) : Option (Option GroupId → Bool) :=
  if !isSuperAdmin actor then none else some (forest.superAdminReachPredicate settings)

/-- The clause on a list of rows owned by groups; none at all when every row is visible. -/
def groupVisibilityFilter (actor : CurrentUser) : Option (Option GroupId → Bool) :=
  let member := forest.groupScopedSubqueryPredicate settings actor.teamIds
  match forest.superAdminGroupFilter settings actor with
  | none => some member
  | some reach =>
      if !settings.demoReadOnly then none
      -- A demo super admin also sees the rows of its own groups.
      else some fun column => reach column || member column

/-- The isolation of reads that fan out over projects, as a clause on the group of a project. -/
def teamScopeFilter (actor : CurrentUser) (group : GroupId) : Bool :=
  -- The flag alone counts here, not the role derived from the memberships.
  if actor.isSuperuser then forest.superAdminReachPredicate settings (some group)
  else forest.projectSubtreePredicate settings actor.teamIds group

end GroupForest

/-- Whether a row passes the clause of a list; without a clause every row does. -/
def selects (filter : Option (Option GroupId → Bool)) (column : Option GroupId) : Bool :=
  filter.all fun clause => clause column

end Trusca
