import Trusca.Matching.CarryForward
import Trusca.Store.Reconcile

/-! Bringing the findings of one scan in line with a report without replacing them. -/

namespace Trusca

/-- One matched entry of a report: the pair it resolves to and what it says about it. -/
structure ReportEntry where
  key : FindingKey
  /-- The entry itself, in the same form as the column holds it. -/
  analysisResponse : Json
  fixedVersion : Option String
  deriving DecidableEq

/-- What the outside supplies while an entry is applied: the clock, and the id and the default
timestamps the database gives a row inserted for it. -/
structure Moment where
  now : Time
  newId : FindingId
  insertedAt : Time
  deriving Repr, DecidableEq

/-- One step of a refresh: the changed row, or none when the row already agrees. -/
abbrev RefreshStep := ReportedFinding → Option ReportedFinding

namespace ReportedFinding

/-- The row takes the report's own entry. -/
def takeResponse (entry : ReportEntry) : RefreshStep := fun row =>
  if row.analysisResponse ≠ entry.analysisResponse then
    some { row with analysisResponse := entry.analysisResponse }
  else none

/-- The row takes the fixed version the report names. -/
def takeFixedVersion (entry : ReportEntry) : RefreshStep := fun row =>
  if row.fixedVersion ≠ entry.fixedVersion then
    some { row with fixedVersion := entry.fixedVersion }
  else none

/-- The earlier of the row's own first observation and the project's. -/
def earliest (row : ReportedFinding) : Option Time → Time
  | some inherited => min row.firstObserved inherited
  | none => row.firstObserved

/-- The clock takes the earlier of the row's own time and the project's. -/
def takeEarliest (inherited : Option Time) : RefreshStep := fun row =>
  if some (row.earliest inherited) ≠ row.firstDetectedAt then
    some { row with firstDetectedAt := some (row.earliest inherited) }
  else none

/-- The row with all the fields of a verdict set. -/
def withVerdict (row : ReportedFinding) (verdict : TriageState) : ReportedFinding :=
  -- The verdict's columns, with who gave it and when.
  { row with
    status := verdict.status
    analysisState := verdict.analysisState
    analysisJustification := verdict.analysisJustification
    analysisSource := verdict.analysisSource
    vexOrigin := verdict.vexOrigin
    analystUserId := verdict.analystUserId
    analyzedAt := verdict.analyzedAt }

/-- A row nobody has ruled on takes the project's verdict. -/
def takeVerdict (carried : Option TriageState) : RefreshStep := fun row =>
  match carried with
  | some verdict => if row.status = .new then some (row.withVerdict verdict) else none
  | none => none

/-- Do one step, remembering whether anything has changed so far. -/
def refreshBy (step : RefreshStep) (state : ReportedFinding × Bool) : ReportedFinding × Bool :=
  match step state.1 with
  | some changed => (changed, true)
  | none => state

/-- Bring a row the scan already has in line with an entry; the flag says whether it changed. -/
def refresh (carry : CarryForward) (now : Time) (entry : ReportEntry) (row : ReportedFinding) :
    ReportedFinding × Bool :=
  -- Read from the inside out: the response, the fixed version, the clock, the verdict.
  let state :=
    refreshBy (takeVerdict (carry.triage entry.key))
      (refreshBy (takeEarliest (carry.firstDetected entry.key))
        (refreshBy (takeFixedVersion entry)
          (refreshBy (takeResponse entry) (row, false))))
  if state.2 then ({ state.1 with updatedAt := now }, true) else state

end ReportedFinding

/-- The row a pair new to the scan gets, with what the project has already decided about it. -/
def newFinding (carry : CarryForward) (scan : ScanId) (moment : Moment) (entry : ReportEntry) :
    ReportedFinding :=
  let finding : ReportedFinding :=
    { id := moment.newId
      scanId := scan
      componentVersionId := entry.key.1
      vulnerabilityId := entry.key.2
      -- The columns the insert leaves to their defaults start empty.
      status := .new
      analysisState := none
      analysisJustification := none
      analysisSource := none
      vexOrigin := none
      analystUserId := none
      analyzedAt := none
      updatedAt := moment.insertedAt
      analysisResponse := entry.analysisResponse
      fixedVersion := entry.fixedVersion
      firstDetectedAt := some ((carry.firstDetected entry.key).getD moment.now)
      assignment := ⟨none, none, none, none⟩
      reachability := ⟨none, none, none⟩
      createdAt := moment.insertedAt }
  -- The project's decision on the pair stands; asking again would reopen the finding.
  let finding :=
    match carry.triage entry.key with
    | some verdict => finding.withVerdict verdict
    | none => finding
  -- An empty assignment is an answer too, and is applied like any other.
  match carry.assignment entry.key with
  | some assignment => { finding with assignment := assignment }
  | none => finding

/-- The reconciler between its construction and its end. -/
structure FindingReconciler where
  scan : ScanId
  carry : CarryForward
  /-- The rows the scan had at the start, changed in place. -/
  existing : Store.Table ReportedFinding.scanKey
  seen : List FindingKey
  created : List ReportedFinding
  updated : Nat
  withheldReasons : List String
  /-- The rows that took the project's verdict, with the status they had. -/
  carriedStatus : List (ReportedFinding × FindingStatus)

namespace FindingReconciler

/-- Load the scan's findings and resolve what they inherit. -/
def start (db : MatchingDb) (scan : ScanId) (prior : PriorState) (carryAssignment : Bool) :
    FindingReconciler where
  scan := scan
  carry := resolveMaps db scan prior carryAssignment
  -- The rows that an earlier run of this same scan has left.
  existing := db.findings.filter (·.scanId == scan)
  seen := []
  created := []
  updated := 0
  withheldReasons := []
  carriedStatus := []

/-- Record that part of the report could not be read. -/
def withholdDeletions (reconciler : FindingReconciler) (reason : String) : FindingReconciler :=
  { reconciler with withheldReasons := reconciler.withheldReasons ++ [reason] }

/-- Record one report entry; an entry whose pair was already applied does nothing. -/
def apply (reconciler : FindingReconciler) (moment : Moment) (entry : ReportEntry) :
    FindingReconciler :=
  if entry.key ∈ reconciler.seen then reconciler
  else
    let reconciler := { reconciler with seen := reconciler.seen ++ [entry.key] }
    match reconciler.existing.find? (reconciler.scan, entry.key) with
    | some row =>
        let refreshed := row.refresh reconciler.carry moment.now entry
        { reconciler with
          existing := reconciler.existing.put refreshed.1
          updated := if refreshed.2 then reconciler.updated + 1 else reconciler.updated
          -- Only a row that left `new` here is audited as carried forward.
          carriedStatus :=
            if row.status = .new ∧ refreshed.1.status ≠ .new then
              reconciler.carriedStatus ++ [(refreshed.1, .new)]
            else reconciler.carriedStatus }
    | none =>
        { reconciler with
          created :=
            reconciler.created ++ [newFinding reconciler.carry reconciler.scan moment entry] }

/-- The rows the report did not mention. -/
def stale (reconciler : FindingReconciler) : List ReportedFinding :=
  reconciler.existing.rows.filter fun row => !reconciler.seen.contains row.key

/-- The rows `finish` deletes: none when part of the report could not be read. -/
def removed (reconciler : FindingReconciler) : List ReportedFinding :=
  if reconciler.withheldReasons.isEmpty then reconciler.stale else []

end FindingReconciler

/-- The approvals of a finding, oldest first. -/
def approvalsOf (db : MatchingDb) (finding : FindingId) : List TransitionApprovalId :=
  ((db.approvals.filter (·.findingId == finding)).mergeSort fun first second =>
    ((compare first.createdAt second.createdAt).then (compare first.id second.id)).isLE).map
    FindingApproval.id

/-- What a pass leaves and reports. -/
structure ReconcileOutcome where
  db : MatchingDb
  created : List ReportedFinding
  updated : Nat
  deleted : Nat
  withheld : Nat
  persisted : Nat

namespace FindingReconciler

/-- The audit rows of a pass: what was removed, what was carried forward, what was created. -/
def auditRows (reconciler : FindingReconciler) (db : MatchingDb) : List FindingAudit :=
  let team := (db.scanProject reconciler.scan).map Prod.snd
  -- Removed rows first, then carried statuses, then new ones.
  (reconciler.removed.map fun row =>
    .noLongerReported team row.id row.scanId row.key row.status (approvalsOf db row.id)) ++
  (reconciler.carriedStatus.map fun (row, previous) =>
    .carriedForward team row.id row.status previous) ++
  (reconciler.created.map fun row => .create team row.id row.scanId row.key row.status)

/-- Delete the pairs the report no longer has, and write everything back. Absent when the unique
key of the table refuses a new row. -/
def finish (reconciler : FindingReconciler) (db : MatchingDb) : Option ReconcileOutcome :=
  let removed := reconciler.removed
  -- The loaded rows were changed in place, and their changes are flushed with the deletion.
  let kept := (db.findings.overlay reconciler.existing).filter fun row =>
    !removed.any fun gone => gone.scanKey = row.scanKey
  (kept.insertAll reconciler.created).map fun findings =>
    { db :=
        { db with
          findings := findings
          -- The database removes the approvals of a deleted finding.
          approvals := db.approvals.filter fun approval =>
            !removed.any fun gone => gone.id = approval.findingId
          audit := db.audit ++ reconciler.auditRows db }
      created := reconciler.created
      updated := reconciler.updated
      deleted := removed.length
      withheld := if reconciler.withheldReasons.isEmpty then 0 else reconciler.stale.length
      persisted := reconciler.seen.length }

end FindingReconciler

/-- What a caller does with a reconciler between its construction and its end. -/
inductive ReconcilerCall where
  | apply (moment : Moment) (entry : ReportEntry)
  | withholdDeletions (reason : String)
  deriving DecidableEq

/-- Do one call. -/
def FindingReconciler.serve (reconciler : FindingReconciler) : ReconcilerCall → FindingReconciler
  | .apply moment entry => reconciler.apply moment entry
  | .withholdDeletions reason => reconciler.withholdDeletions reason

/-- A whole pass over the findings of one scan. -/
def reconcileFindings (db : MatchingDb) (scan : ScanId) (prior : PriorState)
    (carryAssignment : Bool) (calls : List ReconcilerCall) : Option ReconcileOutcome :=
  (calls.foldl FindingReconciler.serve
    (FindingReconciler.start db scan prior carryAssignment)).finish db

end Trusca
