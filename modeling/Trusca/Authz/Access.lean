import Mathlib.Logic.Function.Basic

/-! Who may reach a group: memberships, the group cascade, and the reach of a super admin. -/

namespace Trusca

abbrev UserId := Nat
abbrev GroupId := Nat
abbrev ProjectId := Nat
abbrev ScanId := Nat
abbrev ComponentVersionId := Nat

/-- A point on the UTC clock. -/
abbrev Time := Int

/-- The roles a membership can grant. -/
inductive Role where
  | superAdmin
  | groupAdmin
  | developer
  | viewer
  deriving Repr, DecidableEq

/-- The order of the grades. -/
def Role.priority : Role → Nat
  | .viewer => 1
  | .developer => 2
  | .groupAdmin => 3
  | .superAdmin => 4

/-- The authenticated principal of a request. -/
structure CurrentUser where
  id : UserId
  role : Role
  teamIds : List GroupId
  teamRoles : GroupId → Option Role
  isSuperuser : Bool

/-- What the group tables and the deployment configuration show to one request. -/
structure Directory where
  /-- The ancestors of an existing group, from the root down. -/
  path : GroupId → Option (List GroupId)
  isDemoGroup : GroupId → Bool
  demoReadOnly : Bool
  groupCascadeEnabled : Bool

/-- Whether the actor holds the super-admin grade. -/
def isSuperAdmin (actor : CurrentUser) : Bool :=
  actor.isSuperuser || actor.role == .superAdmin

/-- Whether the actor's super-admin authority covers the group. -/
def superAdminReaches (directory : Directory) (actor : CurrentUser) (group : Option GroupId) :
    Bool :=
  if !isSuperAdmin actor then false
  else if !directory.demoReadOnly then true
  else
    match group with
    -- On the public demo an organisation-wide target is out of reach.
    | none => false
    | some group => directory.isDemoGroup group

/-- Whether the group lies among the direct memberships or, with the cascade on, below one. -/
def memberReaches (directory : Directory) (directGroupIds : List GroupId) (group : GroupId) :
    Bool :=
  match directory.path group with
  -- A group that does not exist is reached by nobody.
  | none => false
  | some path =>
      if directGroupIds.contains group then true
      else if !directory.groupCascadeEnabled then false
      else path.any fun ancestor => directGroupIds.contains ancestor

/-- Whether the actor can reach the group. -/
def canAccessGroup (directory : Directory) (actor : CurrentUser) (group : GroupId) : Bool :=
  -- A super admin's own memberships do not widen the reach on a demo deployment.
  if isSuperAdmin actor then superAdminReaches directory actor (some group)
  else memberReaches directory actor.teamIds group

/-- The actor's role in a team. -/
def roleInTeam (directory : Directory) (actor : CurrentUser) (team : GroupId) : Option Role :=
  if superAdminReaches directory actor (some team) then some .superAdmin
  else actor.teamRoles team

/-- Whether the actor administers the team. -/
def hasTeamAdmin (directory : Directory) (actor : CurrentUser) (team : GroupId) : Bool :=
  match roleInTeam directory actor team with
  | some .groupAdmin => true
  | some .superAdmin => true
  | _ => false

end Trusca
