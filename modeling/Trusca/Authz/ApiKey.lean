import Trusca.Account.SecondFactor
import Trusca.Group.Tree

/-! API keys: the principal that a key stands for, narrowed to the scope of the key. -/

namespace Trusca

/-- What a key may reach. -/
inductive KeyScope where
  | org
  | team
  | project
  deriving Repr, DecidableEq

/-- What a key may do. -/
inductive PermissionBreadth where
  | readWrite
  | readOnly
  deriving Repr, DecidableEq

/-- The columns of a key that its principal is made of. -/
structure ApiKey where
  scope : KeyScope
  permissionBreadth : PermissionBreadth
  teamId : Option GroupId
  projectId : Option ProjectId
  /-- Absent when the issuer was deleted. -/
  createdByUserId : Option UserId
  deriving Repr, DecidableEq

/-- A user with its memberships, one for each group it belongs to. -/
structure KeyIssuer where
  id : UserId
  isActive : Bool
  isSuperuser : Bool
  memberships : List (GroupId × Role)
  deriving Repr, DecidableEq

/-- The principal of a request that was made with a key. -/
structure KeyPrincipal extends CurrentUser where
  apiKeyProjectId : Option ProjectId
  apiKeyReadOnly : Bool

/-- The most privileged of the roles, the first one among equals. -/
def highestRole (roles : List Role) (isSuperuser : Bool) : Role :=
  if isSuperuser then .superAdmin
  else
    match roles with
    -- Nobody without a membership is more than a developer.
    | [] => .developer
    | first :: rest =>
        -- The first of the highest, since only a greater priority replaces it.
        rest.foldl (fun best role => if best.priority < role.priority then role else best) first

/-- The principal of a user over some of its memberships. -/
def principalOf (user : KeyIssuer) (memberships : List (GroupId × Role)) : CurrentUser where
  id := user.id
  role := highestRole (memberships.map Prod.snd) user.isSuperuser
  teamIds := memberships.map Prod.fst
  teamRoles := fun team => memberships.lookup team
  isSuperuser := user.isSuperuser

/-- The principal of a user who has signed in. -/
def currentUser (user : KeyIssuer) : CurrentUser := principalOf user user.memberships

/-- The methods that change nothing. -/
def safeMethods : List String := ["GET", "HEAD", "OPTIONS"]

/-- The upper case of a method. -/
def upperMethod (method : String) : String := String.ofList (method.toList.flatMap upperChars)

/-- Whether a key may use a method. -/
def breadthAllows (method : String) (readOnly : Bool) : Bool :=
  !readOnly || safeMethods.contains (upperMethod method)

/-- Why a request with a valid key is refused. -/
inductive KeyRefusal where
  | readOnlyKey
  deriving Repr, DecidableEq

/-- The principal of a request made with a key that was authenticated, if any was. -/
def getApiKeyPrincipal (users : UserId → Option KeyIssuer) (teamIdForProject : ProjectId → Option GroupId)
    (method : String) (apiKey : Option ApiKey) : Except KeyRefusal (Option KeyPrincipal) :=
  match apiKey with
  | none => .ok none
  | some key =>
      match key.createdByUserId.bind users with
      -- The issuer was deleted.
      | none => .ok none
      | some user =>
          if !user.isActive then .ok none
          -- A key without the id that its scope asks for gets nothing.
          else if key.scope = .project && key.projectId.isNone then .ok none
          else if key.scope = .team && key.teamId.isNone then .ok none
          else
            let allowed : List GroupId :=
              match key.scope with
              | .project => (key.projectId.bind teamIdForProject).toList
              | .team => key.teamId.toList
              | .org => user.memberships.map Prod.fst
            let kept := user.memberships.filter fun (team, _) => allowed.contains team
            let principal : KeyPrincipal :=
              { principalOf user kept with
                apiKeyProjectId := if key.scope = .project then key.projectId else none
                apiKeyReadOnly := key.permissionBreadth != .readWrite }
            if breadthAllows method principal.apiKeyReadOnly then .ok (some principal)
            else .error .readOnlyKey

/-- The groups in the scope of a key: the group of its project, its team with what lies below while the
cascade is on, or every group. -/
def keyScopeHas (forest : GroupForest) (settings : AccessSettings)
    (teamIdForProject : ProjectId → Option GroupId) (key : ApiKey) (group : GroupId) : Bool :=
  match key.scope with
  | .org => true
  -- A team key covers its team, and below it only with the cascade switched on.
  | .team => key.teamId.any fun team => decide (group = team) ||
      settings.groupCascadeEnabled &&
        ((forest.groups.find? group).any fun row => row.path.contains team)
  | .project => key.projectId.any fun project => teamIdForProject project == some group

end Trusca
