import Trusca.Triage.Finding

/-! What a scan's findings inherit from the other scans of the project: the time of the first
detection, the verdict, and the assignment. -/

namespace Trusca

abbrev Date := Nat

/-- The identity of a finding inside one scan. -/
abbrev FindingKey := ComponentVersionId × VulnerabilityId

/-- Who owns a finding, by when, and where the work is tracked. -/
structure AssignmentState where
  assigneeUserId : Option UserId
  dueOn : Option Date
  ticketUrl : Option String
  ticketKey : Option String
  deriving Repr, DecidableEq

/-- What reachability analysis says about a finding. -/
structure ReachabilityState where
  reachable : Option Bool
  reachabilitySource : Option String
  reachabilityAnalyzedAt : Option Time
  deriving Repr, DecidableEq

/-- A finding with the columns a scan writes: what the report says about the pair, when it was
first detected, and who works on it. -/
structure ReportedFinding extends VulnerabilityFinding where
  /-- The report's own entry, each object with its fields in the order the column type keeps them,
  so that equal entries are equal values. -/
  analysisResponse : Json
  fixedVersion : Option String
  firstDetectedAt : Option Time
  assignment : AssignmentState
  reachability : ReachabilityState
  createdAt : Time
  deriving DecidableEq

namespace ReportedFinding

/-- The pair the finding is about. -/
def key (row : ReportedFinding) : FindingKey := (row.componentVersionId, row.vulnerabilityId)

/-- The unique key of the table: the scan and the pair. -/
def scanKey (row : ReportedFinding) : ScanId × FindingKey := (row.scanId, row.key)

/-- The first observation the row itself records; a legacy row records its insertion. -/
def firstObserved (row : ReportedFinding) : Time := row.firstDetectedAt.getD row.createdAt

end ReportedFinding

/-- The fields of a verdict that travel together, less the report's own entry. Only a decided row
carries a verdict. -/
structure TriageState where
  status : FindingStatus
  analysisState : Option String
  analysisJustification : Option String
  analysisSource : Option String
  vexOrigin : Option Json
  analystUserId : Option UserId
  analyzedAt : Option Time
  decided : status ≠ .new
  deriving DecidableEq

/-- The verdict of a row that somebody ruled on. -/
def triageStateOf (row : ReportedFinding) : Option TriageState :=
  -- A row at `new` holds no decision, so there is nothing to carry.
  if fresh : row.status = .new then none
  else some
    { status := row.status
      analysisState := row.analysisState
      analysisJustification := row.analysisJustification
      analysisSource := row.analysisSource
      vexOrigin := row.vexOrigin
      analystUserId := row.analystUserId
      analyzedAt := row.analyzedAt
      decided := fresh }

/-- What the reconciler reads of a transition approval. -/
structure FindingApproval where
  id : TransitionApprovalId
  findingId : FindingId
  createdAt : Time
  deriving Repr, DecidableEq

/-- An audit row of the scan pipeline, which acts without a user. -/
inductive FindingAudit where
  | create (team : Option GroupId) (finding : FindingId) (scan : ScanId) (key : FindingKey)
      (status : FindingStatus)
  | carriedForward (team : Option GroupId) (finding : FindingId) (status previous : FindingStatus)
  | noLongerReported (team : Option GroupId) (finding : FindingId) (scan : ScanId)
      (key : FindingKey) (status : FindingStatus) (approvals : List TransitionApprovalId)
  deriving Repr, DecidableEq

/-- The tables matching reads and writes. -/
structure MatchingDb where
  /-- The project of a scan, and the team that owns the project. -/
  scanProject : ScanId → Option (ProjectId × GroupId)
  findings : Store.Table ReportedFinding.scanKey
  approvals : List FindingApproval
  audit : List FindingAudit

namespace MatchingDb

/-- The project of a scan, absent when the scan cannot be resolved. -/
def projectOf (db : MatchingDb) (scan : ScanId) : Option ProjectId :=
  (db.scanProject scan).map Prod.fst

/-- The finding a scan has for a pair. -/
def finding? (db : MatchingDb) (scan : ScanId) (key : FindingKey) : Option ReportedFinding :=
  db.findings.find? (scan, key)

/-- The findings of the other scans of a project. -/
def inheritedRows (db : MatchingDb) (project : ProjectId) (excluded : ScanId) :
    List ReportedFinding :=
  db.findings.rows.filter fun row =>
    db.projectOf row.scanId == some project && row.scanId != excluded

end MatchingDb

/-- The earliest detection of every pair on the other scans of the project. -/
def buildInheritedFirstDetected (db : MatchingDb) (project : ProjectId) (excluded : ScanId)
    (key : FindingKey) : Option Time :=
  (((db.inheritedRows project excluded).filter (·.key == key)).map
    ReportedFinding.firstObserved).min?

/-- Ascending by the time of analysis, an absent one last, and then by the time of insertion. -/
def compareAnalyzed (first second : ReportedFinding) : Ordering :=
  -- NULLS LAST, as the query asks for.
  let analyzed : Ordering :=
    match first.analyzedAt, second.analyzedAt with
    | none, none => .eq
    | none, some _ => .gt
    | some _, none => .lt
    | some time, some other => compare time other
  analyzed.then (compare first.createdAt second.createdAt)

/-- Ascending by the time of insertion, and then by the id. -/
def compareInserted (first second : ReportedFinding) : Ordering :=
  (compare first.createdAt second.createdAt).then (compare first.id second.id)

/-- Plain assignment to a mapping, row after row: the last row of a pair wins. -/
def lastOf (rows : List ReportedFinding) (key : FindingKey) : Option ReportedFinding :=
  (rows.filter (·.key == key)).getLast?

/-- The verdict of every pair on the other scans of the project; undecided rows carry none. -/
def buildInheritedTriage (db : MatchingDb) (project : ProjectId) (excluded : ScanId)
    (key : FindingKey) : Option TriageState :=
  let decided := (db.inheritedRows project excluded).filter (·.status != .new)
  -- Sorted ascending, so the last row of a pair is the latest ruling.
  (lastOf (decided.mergeSort fun first second => (compareAnalyzed first second).isLE) key).bind
    triageStateOf

/-- The assignment of every pair on the other scans of the project, empty ones included. -/
def buildInheritedAssignment (db : MatchingDb) (project : ProjectId) (excluded : ScanId)
    (key : FindingKey) : Option AssignmentState :=
  let rows := db.inheritedRows project excluded
  (lastOf (rows.mergeSort fun first second => (compareInserted first second).isLE) key).map
    ReportedFinding.assignment

/-- The maps a caller took from rows of the scan that it removed itself. -/
structure PriorState where
  firstDetected : FindingKey → Option Time
  triage : FindingKey → Option TriageState
  assignment : FindingKey → Option AssignmentState

/-- A caller that removed nothing. -/
def PriorState.none : PriorState := ⟨fun _ => .none, fun _ => .none, fun _ => .none⟩

/-- The caller's map over the inherited one: the earlier time wins. -/
def overlayPriorFirstDetected (inherited prior : FindingKey → Option Time) (key : FindingKey) :
    Option Time :=
  match prior key, inherited key with
  -- The clock may only move back, so a later entry of the caller changes nothing.
  | some time, some existing => some (min existing time)
  | some time, none => some time
  | none, existing => existing

/-- The caller's map over the inherited one: the caller's entry wins outright. -/
def overlayPrior {α : Type} (inherited prior : FindingKey → Option α) (key : FindingKey) :
    Option α :=
  (prior key).or (inherited key)

/-- The three maps a pass carries forward. -/
structure CarryForward where
  firstDetected : FindingKey → Option Time
  triage : FindingKey → Option TriageState
  assignment : FindingKey → Option AssignmentState

/-- What the project has for a pair, empty when the scan cannot be resolved. -/
def inheritedFrom {α : Type} (db : MatchingDb) (scan : ScanId)
    (build : MatchingDb → ProjectId → ScanId → FindingKey → Option α) (key : FindingKey) :
    Option α :=
  (db.projectOf scan).bind fun project => build db project scan key

/-- Resolve the three maps; a container scan carries no assignment. -/
def resolveMaps (db : MatchingDb) (scan : ScanId) (prior : PriorState) (carryAssignment : Bool) :
    CarryForward where
  -- Of the two times the earlier, of the two verdicts the caller's own.
  firstDetected :=
    overlayPriorFirstDetected (inheritedFrom db scan buildInheritedFirstDetected)
      prior.firstDetected
  triage := overlayPrior (inheritedFrom db scan buildInheritedTriage) prior.triage
  assignment :=
    -- Whether assignees are carried is for the caller to say.
    if carryAssignment then
      overlayPrior (inheritedFrom db scan buildInheritedAssignment) prior.assignment
    else fun _ => none

end Trusca
