import Trusca.Authz.Access
import Trusca.Data.Text

/-! The triage statuses of a finding, the moves between them, and who may make a move. -/

namespace Trusca

/-- The triage status of a finding. -/
inductive FindingStatus where
  | new
  | analyzing
  | exploitable
  | notAffected
  | falsePositive
  | fixed
  | suppressed
  deriving Repr, DecidableEq

namespace FindingStatus

/-- The text the database and the documents use for a status. -/
def value : FindingStatus → String
  -- The words of the column.
  | .new => "new"
  | .analyzing => "analyzing"
  | .exploitable => "exploitable"
  | .notAffected => "not_affected"
  | .falsePositive => "false_positive"
  | .fixed => "fixed"
  | .suppressed => "suppressed"

/-- The moves the workflow allows; a closed finding reopens through `analyzing`. -/
def transitions : FindingStatus → List FindingStatus
  -- Every way out of a verdict leads back to the analysis.
  | .new => [.analyzing, .suppressed]
  | .analyzing => [.exploitable, .falsePositive, .fixed, .notAffected, .suppressed]
  | .exploitable => [.analyzing]
  | .notAffected => [.analyzing]
  | .falsePositive => [.analyzing]
  | .fixed => [.analyzing]
  | .suppressed => [.analyzing]

/-- The targets that need an administrator of the project's team. -/
def requiresTeamAdmin : FindingStatus → Bool
  | .suppressed => true
  | _ => false

/-- The targets whose rationale a regulator reads. -/
def requiresJustification : FindingStatus → Bool
  | .exploitable | .notAffected | .falsePositive => true
  | _ => false

end FindingStatus

/-- The fewest characters of a substantive justification. -/
def minJustificationLen : Nat := 10

/-- The errors of the vulnerability service on its status paths. -/
inductive VulnerabilityError where
  | notFound
  | forbidden (target : FindingStatus)
  | invalidTransition (current target : FindingStatus) (allowedTo : List FindingStatus)
  | justificationRequired (target : FindingStatus)
  | conflict
  | approvalRequired (target : FindingStatus)
  | bulkInput (message : String)
  | projectNotFound
  deriving Repr, DecidableEq

/-- The actor's role in a team, once the reach of a super admin has been judged elsewhere. -/
def triageRoleInTeam (actor : CurrentUser) (team : GroupId) : Option Role :=
  if isSuperAdmin actor then some .superAdmin else actor.teamRoles team

/-- Whether the actor administers the team for triage. -/
def triageHasTeamAdmin (actor : CurrentUser) (team : GroupId) : Bool :=
  match triageRoleInTeam actor team with
  | some .groupAdmin => true
  | some .superAdmin => true
  | _ => false

/-- A move into a status with a rationale needs a justification of at least ten characters. -/
def assertJustificationSufficient (target : FindingStatus) (justification : Option String) :
    Except VulnerabilityError Unit :=
  if !target.requiresJustification then .ok ()
  -- Blanks at the ends do not count, and a missing justification is empty.
  else if (strip (justification.getD "")).length < minJustificationLen then
    .error (.justificationRequired target)
  else .ok ()

/-- The transition matrix and its role policy. -/
def assertCanTransition (actor : CurrentUser) (current target : FindingStatus) (team : GroupId) :
    Except VulnerabilityError Unit :=
  -- The matrix comes first, so an impossible move is never reported as a missing grade.
  if !current.transitions.contains target then
    .error (.invalidTransition current target current.transitions)
  else if target.requiresTeamAdmin && !triageHasTeamAdmin actor team then
    .error (.forbidden target)
  else .ok ()

/-- A status the policy names needs a second person. -/
def assertNoApprovalRequired (required : List FindingStatus) (target : FindingStatus) :
    Except VulnerabilityError Unit :=
  if required.contains target then .error (.approvalRequired target) else .ok ()

end Trusca
