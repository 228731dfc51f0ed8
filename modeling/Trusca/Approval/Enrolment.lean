import Mathlib.Data.List.Dedup
import Mathlib.Data.List.MinMax
import Mathlib.Data.String.Basic
import Trusca.Approval.ComponentApproval
import Trusca.Scan.Resolution
import Trusca.Store.Page
import Trusca.Store.Table

/-! The approvals a scan opens: which licence set a decision records, which set a scan compares it with, and
the statement that opens what is to be asked again. -/

namespace Trusca

open Store

/-- Times are compared as the integers they are, by an order that can be run. -/
local instance (priority := high) timeOrder : Preorder Time := Int.instLinearOrder.toPreorder

/-- A licence: its SPDX identifier, when it has one, and its name. -/
structure LicenseRecord where
  spdxId : Option String
  name : String
  deriving Repr, DecidableEq

/-- A licence that a scan found on a component version, and the source named in its raw data. -/
structure LicenseFindingRecord where
  scanId : ScanId
  componentVersionId : ComponentVersionId
  licenseId : Nat
  source : Option String
  deriving Repr, DecidableEq

/-- What the approvals read of a scan. -/
structure ApprovalScan where
  id : ScanId
  projectId : ProjectId
  status : ScanStatus
  kind : ScanKind
  createdAt : Time
  completedAt : Option Time
  deriving Repr, DecidableEq

/-- What the scan pipeline reads of an intake request. -/
structure IntakeRequest where
  purl : String
  projectId : ProjectId
  status : ApprovalStatus
  decidedAt : Option Time
  deriving Repr, DecidableEq

/-- The tables around the approvals. -/
structure EnrolmentTables where
  projectTeam : ProjectId → Option GroupId
  purl : Nat → Option String
  componentOf : ComponentVersionId → Nat
  license : Nat → LicenseRecord
  licenseFindings : List LicenseFindingRecord
  scans : List ApprovalScan
  scanComponents : List (ScanId × ComponentVersionId)
  intakeRequests : List IntakeRequest

/-- A row of the component approvals table, with the columns that order the decisions. -/
structure ApprovalRow extends ComponentApproval where
  id : Nat
  createdAt : Time
  deriving Repr, DecidableEq

/-- The statuses that the partial unique index covers. -/
def ApprovalStatus.isOpen (status : ApprovalStatus) : Bool := !status.terminal

/-- The database, as the approvals see it. -/
structure EnrolmentDb where
  tables : EnrolmentTables
  approvals : Table ApprovalRow.id

/-- The sources that write licence findings only after the approvals stage. -/
def lateLicenseSources : List String := ["scanoss"]

/-- The SPDX identifier when there is one, and else the name, without blanks at the ends. -/
def LicenseRecord.identifier (license : LicenseRecord) : String :=
  match license.spdxId.map btrim with
  | some text => if text = "" then btrim license.name else text
  | none => btrim license.name

namespace EnrolmentTables

variable (tables : EnrolmentTables)

/-- The distinct licence identifiers of some components in one scan. -/
def licenseSetSelect (scan : ScanId) (components : List Nat) : List (Nat × String) :=
  ((tables.licenseFindings.filter fun finding =>
    finding.scanId = scan && components.contains (tables.componentOf finding.componentVersionId) &&
      !lateLicenseSources.contains (finding.source.getD "")).map fun finding =>
        (tables.componentOf finding.componentVersionId, (tables.license finding.licenseId).identifier)).dedup

/-- The sorted set of the identifiers of one component; an identifier without a text is dropped. -/
def groupLicenseSets (rows : List (Nat × String)) (component : Nat) : List String :=
  sortBy id ((rows.filter fun row => row.1 = component && row.2 ≠ "").map Prod.snd).dedup

/-- The licence set that each of some components carries in a scan. -/
def licenseSetsForScan (scan : ScanId) (components : List Nat) : Nat → List String :=
  groupLicenseSets (tables.licenseSetSelect scan components.eraseDups)

/-- Whether a scan contains a component. -/
def containsComponent (scan : ScanId) (component : Nat) : Bool :=
  tables.scanComponents.any fun link => link.1 = scan && tables.componentOf link.2 = component

/-- The licence set that a decision records: of the newest succeeded source scan with the component. -/
def currentLicenseSet (project : ProjectId) (component : Nat) : List String :=
  -- The latest succeeded source scan with the component; unfinished times sort as the query has them.
  match (tables.scans.filter fun scan =>
      scan.projectId = project && scan.status = .succeeded && scan.kind = .source &&
        tables.containsComponent scan.id component).argmax fun scan =>
          toLex (scan.createdAt, toLex (scan.completedAt.isSome, toLex (scan.completedAt.getD 0, scan.id))) with
  | none => []
  | some scan => groupLicenseSets (tables.licenseSetSelect scan.id [component]) component

/-- The newest answer to a request for a package that was decided. -/
def decidedIntakeStatus (project : ProjectId) (purl : String) : Option ApprovalStatus :=
  ((tables.intakeRequests.filter fun request =>
    request.projectId = project && request.purl = purl && request.status.terminal).argmax fun request =>
      toLex (request.decidedAt.isSome, request.decidedAt.getD 0)).map IntakeRequest.status

end EnrolmentTables

namespace ApprovalRow

/-- The order in which decisions count; the last one is the latest. -/
def decisionOrder (row : ApprovalRow) : Bool ×ₗ Time ×ₗ Time ×ₗ Nat :=
  toLex (row.decidedAt.isSome, toLex (row.decidedAt.getD 0, toLex (row.createdAt, row.id)))

/-- Whether a row is an open approval of a component in a project. -/
def opens (row : ApprovalRow) (component : Nat) (project : ProjectId) : Bool :=
  row.componentId = component && row.projectId = project && row.status.isOpen

/-- Whether a row is a decision about a component in a project. -/
def decides (row : ApprovalRow) (component : Nat) (project : ProjectId) : Bool :=
  row.componentId = component && row.projectId = project && row.status.terminal

end ApprovalRow

/-- The licence set of the latest decision about a component; absent without a decision. -/
def latestDecidedLicenseSet (approvals : Table ApprovalRow.id) (project : ProjectId) (component : Nat) :
    Option (Option (List String)) :=
  ((approvals.rows.filter fun row => row.decides component project).argmax ApprovalRow.decisionOrder).map
    fun row => row.decidedLicenseIds

/-- A pending approval that nobody has decided. -/
def pendingApproval (component : Nat) (project : ProjectId) (team : GroupId) (requestedBy : Option UserId) (id : Nat)
    (now : Time) : ApprovalRow :=
  -- Nobody has decided yet, and no licence set is recorded.
  { componentId := component
    projectId := project
    teamId := team
    requestedByUserId := requestedBy
    status := .pending
    decidedByUserId := none
    decidedAt := none
    decisionNote := none
    decidedLicenseIds := none
    version := 1
    id := id
    createdAt := now }

/-- INSERT ... ON CONFLICT DO NOTHING on the index of the open approvals, and the components that it inserted.
The key of a new row is generated; the statement fails when it is taken. -/
def insertPending (project : ProjectId) (team : GroupId) (fresh : Nat → Nat) (now : Time)
    (approvals : Table ApprovalRow.id) : List Nat → Option (Table ApprovalRow.id × List Nat)
  | [] => some (approvals, [])
  | component :: rest =>
      -- An open approval of the component in the project is left, and nothing is inserted.
      if approvals.rows.any fun row => row.opens component project then
        insertPending project team fresh now approvals rest
      else do
        let grown ← approvals.insert (pendingApproval component project team none (fresh component) now)
        let (final, created) ← insertPending project team fresh now grown rest
        pure (final, component :: created)

/-- What the approvals stage of a scan is called with. -/
structure EnrolmentCall where
  projectId : ProjectId
  teamId : GroupId
  componentIds : List Nat
  scanId : Option ScanId
  fresh : Nat → Nat
  now : Time

/-- The components to ask about: the requested ones, less those whose latest decision recorded the set that
they carry in the scan. -/
def EnrolmentCall.uniqueIds (call : EnrolmentCall) (db : EnrolmentDb) : List Nat :=
  -- Each component once, in the order asked for.
  let requested := call.componentIds.eraseDups
  match call.scanId with
  | none => requested
  | some scan =>
      requested.filter fun component =>
        -- Not decided yet, or decided about other licences than the scan finds.
        match (latestDecidedLicenseSet db.approvals call.projectId component).join with
        | none => true
        | some decided => decided ≠ db.tables.licenseSetsForScan scan requested component

/-- Open an approval for each component that is to be asked about, and return the components that got one. -/
def autoCreatePendingApprovals (db : EnrolmentDb) (call : EnrolmentCall) : Option (EnrolmentDb × List Nat) :=
  (insertPending call.projectId call.teamId call.fresh call.now db.approvals (call.uniqueIds db)).map
    fun (approvals, created) => ({ db with approvals := approvals }, created)

/-- Carry an answer to an intake request onto a row that a scan has just opened. -/
def carryIntake (db : EnrolmentDb) (project : ProjectId) (created : List Nat) (scan : Option ScanId) (now : Time)
    (approvals : Table ApprovalRow.id) (row : ApprovalRow) : Table ApprovalRow.id :=
  -- Only a package that was decided at the intake is carried.
  match (db.tables.purl row.componentId).bind (db.tables.decidedIntakeStatus project) with
  | none => approvals
  | some verdict =>
      approvals.put { row with
        status := verdict
        decidedAt := some now
        decidedByUserId := none
        -- The note names no person, as the verdict comes from the intake.
        decisionNote := some "carried from the intake request for this package"
        decidedLicenseIds := scan.map fun scan => db.tables.licenseSetsForScan scan created row.componentId
        version := row.version + 1 }

/-- Carry the answers to intake requests onto the pending rows of the components that a scan enrolled. -/
def applyIntakeDecisions (db : EnrolmentDb) (project : ProjectId) (created : List Nat) (scan : Option ScanId)
    (now : Time) : EnrolmentDb :=
  { db with
    approvals := (db.approvals.rows.filter fun row =>
      created.contains row.componentId && row.projectId = project && row.status = .pending).foldl
        (carryIntake db project created scan now) db.approvals }

/-- A request to open an approval. -/
structure CreateCall where
  actor : CurrentUser
  directory : Directory
  projectId : ProjectId
  componentId : Nat
  id : Nat
  now : Time

/-- Open an approval at a user's request; absent when the request is refused. -/
def createApproval (db : EnrolmentDb) (call : CreateCall) : Option EnrolmentDb := do
  let team ← db.tables.projectTeam call.projectId
  guard (canAccessGroup call.directory call.actor team)
  let _ ← db.tables.purl call.componentId
  -- The preflight query, and behind it the index.
  guard (!db.approvals.rows.any fun row => row.opens call.componentId call.projectId)
  let approvals ← db.approvals.insert
    (pendingApproval call.componentId call.projectId team (some call.actor.id) call.id call.now)
  pure { db with approvals := approvals }

/-- Move an approval; a refused move leaves the table as it is. -/
def EnrolmentDb.transition (db : EnrolmentDb) (id : Nat) (call : TransitionCall) : EnrolmentDb :=
  match db.approvals.find? id with
  -- A call that fails, or whose row is gone, leaves the table.
  | none => db
  | some row =>
      match transitionApproval { call with currentLicenseSet := db.tables.currentLicenseSet } row.toComponentApproval with
      | .error _ => db
      | .ok moved => { db with approvals := db.approvals.put { row with toComponentApproval := moved } }

/-- Delete an approval; a refused deletion leaves the table as it is. -/
def EnrolmentDb.delete (db : EnrolmentDb) (id : Nat) (call : DeleteCall) : EnrolmentDb :=
  match db.approvals.find? id with
  | none => db
  | some row =>
      match deleteApproval call row.toComponentApproval with
      | .error _ => db
      | .ok () => { db with approvals := db.approvals.filter fun row => row.id ≠ id }

/-- What happens to the approvals and to the tables around them, one call behind the other: what others commit
between the two statements of a call is no event. -/
inductive EnrolmentEvent where
  | scanned (tables : EnrolmentTables)
  | enrol (call : EnrolmentCall)
  | carry (project : ProjectId) (created : List Nat) (scan : Option ScanId) (now : Time)
  | create (call : CreateCall)
  | transition (id : Nat) (call : TransitionCall)
  | delete (id : Nat) (call : DeleteCall)

/-- The database after an event. -/
def EnrolmentDb.step (db : EnrolmentDb) : EnrolmentEvent → Option EnrolmentDb
  -- A scan changes the tables that the approvals are compared with, and no approval.
  | .scanned tables => some { db with tables := tables }
  | .enrol call => (autoCreatePendingApprovals db call).map Prod.fst
  | .carry project created scan now => some (applyIntakeDecisions db project created scan now)
  | .create call => createApproval db call
  | .transition id call => some (db.transition id call)
  | .delete id call => some (db.delete id call)

end Trusca
