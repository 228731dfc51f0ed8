import Trusca.Triage.Finding

/-! Requesting and deciding a status change that one person may not make alone. -/

namespace Trusca

/-- The errors of the transition approval service. -/
inductive TransitionApprovalError where
  | notFound
  | forbidden (reason : String)
  | selfDecision
  | notRequired (target : FindingStatus)
  | alreadyOpen
  | alreadyDecided (state : DecisionState)
  /-- The status update behind the decision refused the change. -/
  | update (reason : VulnerabilityError)
  /-- The request ended early: its connection or its process was lost. -/
  | aborted
  deriving Repr, DecidableEq

/-- Report an error of the vulnerability service. -/
def liftUpdate {α : Type} : Except VulnerabilityError α → Except TransitionApprovalError α
  | .ok value => .ok value
  | .error reason => .error (.update reason)

/-- A request to open an approval for a change. -/
structure TransitionRequest where
  actor : CurrentUser
  finding : FindingId
  target : FindingStatus
  justification : String
  /-- The id the database gives the new row. -/
  newId : TransitionApprovalId

/-- The row a request opens. -/
def TransitionRequest.row (request : TransitionRequest) (team : GroupId) : TransitionApproval where
  id := request.newId
  findingId := request.finding
  teamId := team
  targetStatus := request.target
  justification := request.justification
  requestedByUserId := some request.actor.id
  -- A request starts undecided, and nothing is applied.
  state := .pending
  decidedByUserId := none
  decisionNote := none
  decidedAt := none
  appliedAt := none

/-- Record a request and leave the finding where it is; one request per finding may be open. -/
def openRequest (db : TriageDb) (row : TransitionApproval) :
    Except TransitionApprovalError TriageDb :=
  if db.approvals.rows.any fun other =>
      other.findingId == row.findingId && other.state == .pending then .error .alreadyOpen
  else
    match db.approvals.insert row with
    -- The database hands out fresh ids, so a taken one ends the request with an error.
    | none => .error .aborted
    | some approvals => .ok { db with approvals := approvals }

/-- Ask for a change the policy puts behind a second person. -/
def requestTransition (scope : TriageScope) (db : TriageDb) (request : TransitionRequest) :
    Except TransitionApprovalError TriageDb := do
  match loadFindingWithProject scope db request.finding with
  | none => throw .notFound
  | some (finding, project) =>
      if !canAccessGroup scope.directory request.actor project.teamId then
        throw .notFound
      -- A change that needs no second person is made directly, not asked for.
      if !(scope.statusesRequiringApproval project.id).contains request.target then
        throw (.notRequired request.target)
      liftUpdate (assertCanTransition request.actor finding.status request.target project.teamId)
      liftUpdate (assertJustificationSufficient request.target (some request.justification))
      openRequest db (request.row project.teamId)

/-- A decision on a request. -/
structure Decision where
  actor : CurrentUser
  approve : Bool
  note : Option String
  now : Time

/-- Who may decide a request at all. -/
def assertMayDecide (scope : TriageScope) (decision : Decision) (row : TransitionApproval) :
    Except TransitionApprovalError Unit :=
  -- Who cannot see the project is not told that there is a request.
  if !canAccessGroup scope.directory decision.actor row.teamId then .error .notFound
  else if !triageHasTeamAdmin decision.actor row.teamId then
    .error (.forbidden
      "deciding a transition request requires role >= team_admin in the project's team")
  else .ok ()

/-- An approval is checked against the finding as it stands before it is recorded. -/
def assertStillPossible (decision : Decision) (row : TransitionApproval)
    (finding : VulnerabilityFinding) : Except VulnerabilityError Unit :=
  -- Somebody may have moved the finding there meanwhile, which leaves nothing to refuse.
  if finding.status = row.targetStatus then .ok ()
  else assertCanTransition decision.actor finding.status row.targetStatus row.teamId

/-- Only an approval looks at the finding; a rejection needs no finding. -/
def assertApplicable (scope : TriageScope) (db : TriageDb) (decision : Decision)
    (row : TransitionApproval) : Except TransitionApprovalError Unit :=
  -- A rejection applies nothing, so it is not asked whether it could.
  if decision.approve then
    match loadFindingWithProject scope db row.findingId with
    | none => .error .notFound
    | some (finding, _) => liftUpdate (assertStillPossible decision row finding)
  else .ok ()

/-- The request is open, names its requester, and the requester is somebody else. -/
def assertDecidable (decision : Decision) (row : TransitionApproval) :
    Except TransitionApprovalError Unit :=
  if row.state ≠ .pending then .error (.alreadyDecided row.state)
  else
    match row.requestedByUserId with
    -- The requester's account was deleted, so nobody can tell the two persons apart.
    | none => .error (.forbidden "this request no longer names who asked for it; open a new one")
    | some requester =>
        if requester = decision.actor.id then .error .selfDecision else .ok ()

/-- The state a decision leaves. -/
def Decision.state (decision : Decision) : DecisionState :=
  if decision.approve then .approved else .rejected

/-- What a decision assigns to the request. -/
def TransitionApproval.decide (row : TransitionApproval) (decision : Decision) :
    TransitionApproval :=
  { row with
    -- The decision and its time, and the target as it was requested.
    state := decision.state
    decidedByUserId := some decision.actor.id
    decisionNote := decision.note
    decidedAt := some decision.now }

/-- The status update an approved request is applied through. -/
def Decision.update (decision : Decision) (row : TransitionApproval) : StatusUpdate where
  actor := decision.actor
  finding := row.findingId
  -- No precondition: the request stands in its place.
  target := row.targetStatus
  justification := some row.justification
  ifMatch := none
  approvedRequest := some row.id
  now := decision.now

/-- Make the change an approved request asks for, and stamp the request as used. -/
def applyDecision (scope : TriageScope) (db : TriageDb) (decision : Decision)
    (row : TransitionApproval) : Except TransitionApprovalError TriageDb := do
  let applied ← liftUpdate (updateVulnerabilityStatus scope db (decision.update row))
  let spent := { row with appliedAt := some decision.now }
  return { applied with approvals := applied.approvals.put spent }

/-- Record the decision and, when it is yes, make the change, in one transaction. -/
def decideAndApply (scope : TriageScope) (db : TriageDb) (id : TransitionApprovalId)
    (decision : Decision) : Except TransitionApprovalError TriageDb := do
  match db.approvals.find? id with
  | none => throw .notFound
  | some row =>
      -- The finding is looked at before the state of the request is.
      assertMayDecide scope decision row
      assertApplicable scope db decision row
      assertDecidable decision row
      let decided := row.decide decision
      let recorded := { db with approvals := db.approvals.put decided }
      if decision.approve then applyDecision scope recorded decision decided
      else return recorded

end Trusca
