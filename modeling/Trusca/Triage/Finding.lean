import Trusca.Data.Json
import Trusca.Store.Table
import Trusca.Triage.Status

/-! Vulnerability findings, the tables their triage reads, and the two direct status updates. -/

namespace Trusca

abbrev FindingId := Nat
abbrev VulnerabilityId := Nat
abbrev TransitionApprovalId := Nat

/-- One row of the vulnerability findings table, less the columns no modelled function touches. -/
structure VulnerabilityFinding where
  id : FindingId
  scanId : ScanId
  componentVersionId : ComponentVersionId
  vulnerabilityId : VulnerabilityId
  status : FindingStatus
  analysisState : Option String
  analysisJustification : Option String
  analysisSource : Option String
  vexOrigin : Option Json
  analystUserId : Option UserId
  analyzedAt : Option Time
  updatedAt : Time
  deriving DecidableEq

/-- What the services read of a project. -/
structure Project where
  id : ProjectId
  name : String
  teamId : GroupId
  latestScanId : Option ScanId
  defaultBranch : Option String
  deriving Repr, DecidableEq

/-- The decision states of a transition approval. -/
inductive DecisionState where
  | pending
  | approved
  | rejected
  deriving Repr, DecidableEq

/-- One row of the transition approvals table. -/
structure TransitionApproval where
  id : TransitionApprovalId
  findingId : FindingId
  teamId : GroupId
  targetStatus : FindingStatus
  justification : String
  requestedByUserId : Option UserId
  state : DecisionState
  decidedByUserId : Option UserId
  decisionNote : Option String
  decidedAt : Option Time
  appliedAt : Option Time
  deriving Repr, DecidableEq

/-- One recorded change of a finding's status, as the audit listener sees it in a flush.

The approval is the one the change was made under, when the caller named one that holds. -/
structure StatusChange where
  finding : FindingId
  before : FindingStatus
  after : FindingStatus
  approval : Option TransitionApprovalId
  deriving Repr, DecidableEq

/-- What triage reads besides findings and approvals, and never writes. -/
structure TriageScope where
  directory : Directory
  projects : Store.Table Project.id
  /-- The project a scan belongs to. -/
  scanProject : ScanId → ProjectId
  /-- A project's latest scan is one of its own. -/
  latestScanOwn : ∀ project ∈ projects.rows, ∀ scan, project.latestScanId = some scan →
    scanProject scan = project.id
  externalId : VulnerabilityId → String
  purlWithVersion : ComponentVersionId → String
  /-- The statuses the effective gate policy puts behind a second person. -/
  statusesRequiringApproval : ProjectId → List FindingStatus

/-- The tables triage writes, with the audit trail of status changes. -/
structure TriageDb where
  findings : Store.Table VulnerabilityFinding.id
  approvals : Store.Table TransitionApproval.id
  audit : List StatusChange

namespace TriageDb

/-- Flush a finding: the row is stored, and a change of status is recorded. -/
def flush (db : TriageDb) (finding : VulnerabilityFinding)
    (approval : Option TransitionApprovalId) : TriageDb :=
  match db.findings.find? finding.id with
  -- An UPDATE of a row that is gone matches nothing.
  | none => db
  | some stored =>
      { db with
        findings := db.findings.put finding
        audit :=
          if stored.status = finding.status then db.audit
          else db.audit ++ [⟨finding.id, stored.status, finding.status, approval⟩] }

/-- The status of every finding. -/
def status? (db : TriageDb) (id : FindingId) : Option FindingStatus :=
  (db.findings.find? id).map VulnerabilityFinding.status

end TriageDb

/-- A finding together with the project that decides who may see it. -/
def loadFindingWithProject (scope : TriageScope) (db : TriageDb) (id : FindingId) :
    Option (VulnerabilityFinding × Project) :=
  (db.findings.find? id).bind fun finding =>
    (scope.projects.find? (scope.scanProject finding.scanId)).map fun project => (finding, project)

/-- What a status update assigns to the finding. -/
def VulnerabilityFinding.transition (finding : VulnerabilityFinding) (target : FindingStatus)
    (justification : Option String) (actor : UserId) (now : Time) : VulnerabilityFinding :=
  { finding with
    status := target
    analysisState := some target.value
    -- A move without a justification keeps the one the finding has.
    analysisJustification := justification.or finding.analysisJustification
    analystUserId := some actor
    analyzedAt := some now
    updatedAt := now }

/-- Whether an approval permits exactly this change: approved, unspent, same finding and status. -/
def TransitionApproval.authorises (row : TransitionApproval) (finding : FindingId)
    (target : FindingStatus) : Bool :=
  row.state == .approved && row.findingId == finding && row.targetStatus == target &&
    row.appliedAt.isNone

/-- Whether the named approval, read back, permits exactly this change. -/
def approvalAuthorises (db : TriageDb) (approval : Option TransitionApprovalId)
    (finding : FindingId) (target : FindingStatus) : Bool :=
  match approval.bind db.approvals.find? with
  | none => false
  | some row => row.authorises finding target

/-- A request to change the status of one finding. -/
structure StatusUpdate where
  actor : CurrentUser
  finding : FindingId
  target : FindingStatus
  justification : Option String
  ifMatch : Option Time
  approvedRequest : Option TransitionApprovalId
  now : Time

/-- The guards of a status update on the finding it loaded: the row to write, or none when the
finding already has the status. -/
def checkStatusUpdate (scope : TriageScope) (call : StatusUpdate) (finding : VulnerabilityFinding)
    (project : Project) (authorised : Bool) :
    Except VulnerabilityError (Option VulnerabilityFinding) := do
  if !canAccessGroup scope.directory call.actor project.teamId then
    throw .notFound
  if call.ifMatch.any (· ≠ finding.updatedAt) then
    throw .conflict
  -- Asking for the status a finding has is a success that writes nothing.
  if call.target = finding.status then
    return none
  assertCanTransition call.actor finding.status call.target project.teamId
  assertJustificationSufficient call.target call.justification
  -- The second-person rule gives way only to an approval of exactly this change.
  if !authorised then
    assertNoApprovalRequired (scope.statusesRequiringApproval project.id) call.target
  return some (finding.transition call.target call.justification call.actor.id call.now)

/-- Change the status of one finding, recording who did it and why. -/
def updateVulnerabilityStatus (scope : TriageScope) (db : TriageDb) (call : StatusUpdate) :
    Except VulnerabilityError TriageDb := do
  match loadFindingWithProject scope db call.finding with
  | none => throw .notFound
  | some (finding, project) =>
      let authorised :=
        -- A request authorises only the move it was made for.
        approvalAuthorises db call.approvedRequest finding.id call.target
      match ← checkStatusUpdate scope call finding project authorised with
      -- The same status with nothing to write is no error.
      | none => return db
      | some changed =>
          -- The request is spent with the write, and not without it.
          return db.flush changed (if authorised then call.approvedRequest else none)

/-- The most findings one bulk call may name. -/
def bulkTransitionMax : Nat := 200

/-- A request to change the status of many findings of one project. -/
structure BulkUpdate where
  actor : CurrentUser
  project : ProjectId
  findings : List FindingId
  target : FindingStatus
  justification : Option String
  now : Time

/-- What a bulk call reports about one finding. -/
inductive BulkRowResult where
  | notFound (finding : FindingId)
  | alreadyAtTarget (finding : FindingId)
  | invalidTransition (finding : FindingId) (allowedTo : List FindingStatus)
  | forbidden (finding : FindingId)
  | changed (finding : FindingId)
  deriving Repr, DecidableEq

/-- The ids without repetition, in the order of their first occurrence. -/
def firstOccurrences (ids : List FindingId) : List FindingId :=
  ids.foldl (fun unique id => if unique.contains id then unique else unique ++ [id]) []

/-- One row of a bulk call, on the finding as it was loaded. -/
def bulkRow (scope : TriageScope) (call : BulkUpdate) (project : Project) (db : TriageDb)
    (id : FindingId) : TriageDb × BulkRowResult :=
  match db.findings.find? id with
  | none => (db, .notFound id)
  | some finding =>
      -- The load keeps only the findings of the project's own scans.
      if scope.scanProject finding.scanId ≠ call.project then (db, .notFound id)
      else if finding.status = call.target then (db, .alreadyAtTarget id)
      else
        match assertCanTransition call.actor finding.status call.target project.teamId with
        -- A refused row is reported and the call goes on with the next one.
        | .error (.invalidTransition _ _ allowedTo) => (db, .invalidTransition id allowedTo)
        | .error _ => (db, .forbidden id)
        | .ok () =>
            (db.flush (finding.transition call.target call.justification call.actor.id call.now) none,
              .changed id)

/-- The rows of a bulk call, in the caller's order. -/
def bulkRows (scope : TriageScope) (call : BulkUpdate) (project : Project) :
    TriageDb → List FindingId → TriageDb × List BulkRowResult
  | db, [] => (db, [])
  | db, id :: rest =>
      -- Each row is judged against what the rows before have left.
      let row := bulkRow scope call project db id
      let rows := bulkRows scope call project row.1 rest
      (rows.1, row.2 :: rows.2)

/-- Apply one status to many findings of one project: the envelope guards, then row by row. -/
def bulkTransitionStatus (scope : TriageScope) (db : TriageDb) (call : BulkUpdate) :
    Except VulnerabilityError (TriageDb × List BulkRowResult) := do
  if call.findings.isEmpty then
    throw (.bulkInput "finding_ids cannot be empty")
  if call.findings.length > bulkTransitionMax then
    throw (.bulkInput "too many findings (max 200)")
  match scope.projects.find? call.project with
  | none => throw .projectNotFound
  | some project =>
      if !canAccessGroup scope.directory call.actor project.teamId then
        throw .notFound
      -- The policy is asked once for the whole call, and no approval is taken into account.
      assertNoApprovalRequired (scope.statusesRequiringApproval call.project) call.target
      return bulkRows scope call project db (firstOccurrences call.findings)

end Trusca
