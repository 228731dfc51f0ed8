import Trusca.Gate.Evaluate
import Trusca.Store.Select

/-! The action queue's list of blocked builds: the inputs of the gate, grouped over every project
the caller may read. -/

namespace Trusca

/-- The parts of the deployment that bound who may read what. -/
structure Deployment where
  isDemoGroup : GroupId → Bool
  demoReadOnly : Bool
  groupCascadeEnabled : Bool

/-- The group tree as access checks see it. -/
def GateDb.directory (db : GateDb) (deployment : Deployment) : Directory where
  path := fun group => (db.groups.find? group).map Group.path
  isDemoGroup := deployment.isDemoGroup
  demoReadOnly := deployment.demoReadOnly
  groupCascadeEnabled := deployment.groupCascadeEnabled

/-- The isolation of reads that fan out over projects. It asks for the superuser flag itself. -/
def teamScopeFilter (directory : Directory) (actor : CurrentUser) (team : GroupId) : Bool :=
  if actor.isSuperuser then !directory.demoReadOnly || directory.isDemoGroup team
  else memberReaches directory actor.teamIds team

/-- The projects the actor may read, less the archived ones. -/
def accessibleProjectIds (db : GateDb) (deployment : Deployment) (actor : CurrentUser) :
    List ProjectId :=
  let directory := db.directory deployment
  let active := db.projects.rows.filter fun project => project.archivedAt.isNone
  -- A super admin on a demo deployment falls through to the filter.
  if superAdminReaches directory actor none then active.map fun project => project.id
  else if actor.teamIds.isEmpty && !actor.isSuperuser then []
  else (active.filter fun project => teamScopeFilter directory actor project.teamId).map
    fun project => project.id

/-- The order of the query: by project, and within a project the newest scan first. -/
def GateScan.compareQueue (first second : GateScan) : Ordering :=
  (compare first.projectId second.projectId).then
    (first.toScanRecord.compareRecent second.toScanRecord)

/-- The latest succeeded scan of every project that has one, whatever branch it is of. -/
def latestSucceededScans (db : GateDb) (projectIds : List ProjectId) : List GateScan :=
  let rows := db.scans.rows.filter fun scan =>
    projectIds.contains scan.projectId && scan.status == .succeeded
  Store.distinctOn (fun scan : GateScan => scan.projectId)
    (rows.mergeSort fun first second => (first.compareQueue second).isLE)

/-- The ids of those scans. -/
def latestSucceededScanIds (db : GateDb) (projectIds : List ProjectId) : List ScanId :=
  (latestSucceededScans db projectIds).map fun scan => scan.id

section Counts

variable (db : GateDb) (scanIds : List ScanId)

/-- A grouped count: how many of the keys, one for each row, are the given one. -/
def groupedCount (keys : List ScanId) (scan : ScanId) : Nat := keys.count scan

/-- The scans of the open findings that pass a test, one for each finding. -/
def openFindingScans (test : ReportedFinding → Vulnerability → Bool) : List ScanId :=
  (db.findings.rows.filter fun finding =>
    scanIds.contains finding.scanId && !closedFindingStatuses.contains finding.status &&
      db.passes test finding).map fun finding => finding.scanId

/-- The open critical findings of every scan. -/
def criticalCounts : ScanId → Nat := groupedCount (openFindingScans db scanIds isCritical)

/-- The scan and the component of every licence finding stored as forbidden, without repetition. -/
def forbiddenPairs : List (ScanId × ComponentVersionId) :=
  ((db.licenseFindings.filter fun finding =>
    scanIds.contains finding.scanId &&
      (db.licenses.find? finding.licenseId).any fun license => license.category == .forbidden).map
    fun finding => (finding.scanId, finding.componentVersionId)).dedup

/-- The components of every scan whose licence was stored as forbidden, each counted once. -/
def forbiddenCounts : ScanId → Nat := groupedCount ((forbiddenPairs db scanIds).map Prod.fst)

/-- The open findings of every scan that reach the threshold of the environment. -/
def epssCounts (env : Environment) : ScanId → Nat :=
  -- The threshold of a policy row is not looked at here.
  match resolveEpssThreshold env with
  | none => fun _ => 0
  | some threshold => groupedCount (openFindingScans db scanIds (scoresAtLeast threshold))

/-- The scan and the version of every flagged component, without repetition. -/
def flaggedPairs : List (ScanId × ComponentVersionId) :=
  ((db.scanComponents.filter fun component =>
    scanIds.contains component.scanId && (db.flaggedPurl component).isSome).map
    fun component => (component.scanId, component.componentVersionId)).dedup

/-- The flagged components of every scan, waived or not. -/
def maliciousCounts : ScanId → Nat := groupedCount ((flaggedPairs db scanIds).map Prod.fst)

/-- The scan of every project, read back from the scans. -/
def scanByProject : ProjectId → Option ScanId :=
  Store.assigned ((db.scans.rows.filter fun scan => scanIds.contains scan.id).map
    fun scan => (scan.projectId, scan.id))

/-- The distinct licence expressions of many scans, one query for all of them. -/
def loadScanLicenseRowsBatch (scan : ScanId) : List LicenseRow :=
  let rows := ((db.licenseFindings.filter fun finding => scanIds.contains finding.scanId).filterMap
    fun finding => (db.licenseRow finding).map fun row => (finding.scanId, row)).dedup
  (rows.filter fun entry => entry.1 = scan).map Prod.snd

/-- The distinct flagged purls of many scans, one query for all of them. -/
def loadFlaggedPurlsBatch (scan : ScanId) : List String :=
  let rows := ((db.scanComponents.filter fun component =>
    scanIds.contains component.scanId).filterMap
    fun component => (db.flaggedPurl component).map fun purl => (component.scanId, purl)).dedup
  (rows.filter fun entry => entry.1 = scan).map Prod.snd

/-- The policy of every scan whose owning team has one in force. -/
def scanPolicies (byProject : ProjectId → Option ScanId) : List (ScanId × LicensePolicy) :=
  db.projects.rows.filterMap fun project =>
    (byProject project.id).bind fun scan =>
      (getEffectivePolicy db project.teamId).map fun policy => (scan, policy)

/-- The forbidden components of every scan, re-counted where a policy is in force. -/
def forbiddenCountsUnderPolicy (byProject : ProjectId → Option ScanId)
    (staticCounts : ScanId → Nat) (now : Time) (scan : ScanId) : Nat :=
  let policies := scanPolicies db byProject
  match Store.assigned policies scan with
  -- A scan whose team has no policy in force keeps the stored categories.
  | none => staticCounts scan
  | some policy =>
      countForbiddenVerdicts
        (categorizeLicenseRows (loadScanLicenseRowsBatch db (policies.map Prod.fst) scan) policy now)

/-- The waivers of every scan that has something flagged and something waived. -/
def scanWaivers (byProject : ProjectId → Option ScanId) (rawCounts : ScanId → Nat) (now : Time) :
    List (ScanId × List String) :=
  db.projects.rows.filterMap fun project =>
    (byProject project.id).bind fun scan =>
      let waived := activeMaliciousWaivers (getEffectivePolicy db project.teamId) now
      -- Only a scan with something flagged and something waived needs a second look.
      if rawCounts scan = 0 || waived.isEmpty then none else some (scan, waived)

/-- The flagged components of every scan that no waiver covers. -/
def maliciousCountsUnderPolicy (byProject : ProjectId → Option ScanId)
    (rawCounts : ScanId → Nat) (now : Time) (scan : ScanId) : Nat :=
  let waivers := scanWaivers db byProject rawCounts now
  -- Only projects with something flagged are asked for their waivers.
  match Store.assigned waivers scan with
  | none => rawCounts scan
  | some waived =>
      countUnwaived waived (loadFlaggedPurlsBatch db (waivers.map Prod.fst) scan)

end Counts

section Blocked

/-- One blocked project of the queue. -/
structure GateBlockedProject where
  projectId : ProjectId
  projectName : String
  scanId : ScanId
  criticalCveCount : Nat
  forbiddenLicenseCount : Nat
  epssGateCount : Nat
  maliciousComponentCount : Nat
  deriving Repr, DecidableEq

/-- The four terms the queue counts for one scan. -/
structure QueueTerms where
  critical : ScanId → Nat
  forbidden : ScanId → Nat
  epss : ScanId → Nat
  malicious : ScanId → Nat

/-- The inputs of the gate as the queue aggregates them. -/
def queueTerms (env : Environment) (db : GateDb) (scanIds : List ScanId) (now : Time) :
    QueueTerms where
  -- The four terms, each with a batch query of its own.
  critical := criticalCounts db scanIds
  forbidden :=
    forbiddenCountsUnderPolicy db (scanByProject db scanIds) (forbiddenCounts db scanIds) now
  epss := epssCounts db scanIds env
  malicious :=
    maliciousCountsUnderPolicy db (scanByProject db scanIds) (maliciousCounts db scanIds) now

/-- Whether one of the terms blocks the scan. -/
def QueueTerms.blocks (terms : QueueTerms) (scan : ScanId) : Bool :=
  terms.critical scan ≠ 0 || terms.forbidden scan ≠ 0 || terms.epss scan ≠ 0 ||
    terms.malicious scan ≠ 0

/-- Worst first, and then by name. -/
def GateBlockedProject.compareWorst (first second : GateBlockedProject) : Ordering :=
  let total (project : GateBlockedProject) : Nat :=
    project.criticalCveCount + project.forbiddenLicenseCount + project.epssGateCount +
      project.maliciousComponentCount
  (compare (total second) (total first)).then (compare first.projectName second.projectName)

/-- The projects whose latest succeeded scan trips the gate, before the list is cut. -/
def gateBlockedProjects (env : Environment) (db : GateDb) (projectIds : List ProjectId)
    (scanIds : List ScanId) (now : Time) : List GateBlockedProject :=
  let terms := queueTerms env db scanIds now
  let blockedScanIds := scanIds.filter terms.blocks
  let rows := db.scans.rows.filter fun scan =>
    blockedScanIds.contains scan.id && projectIds.contains scan.projectId
  -- The join with the projects drops a scan whose project has gone.
  let blocked := rows.filterMap fun scan =>
    (db.projects.find? scan.projectId).map fun project =>
      { projectId := scan.projectId
        projectName := project.name
        scanId := scan.id
        criticalCveCount := terms.critical scan.id
        forbiddenLicenseCount := terms.forbidden scan.id
        epssGateCount := terms.epss scan.id
        maliciousComponentCount := terms.malicious scan.id }
  blocked.mergeSort fun first second => (first.compareWorst second).isLE

/-- The most rows of a bucket. -/
def bucketLimit : Nat := 10

/-- The blocked builds the queue shows. -/
def gateBlocked (env : Environment) (db : GateDb) (projectIds : List ProjectId)
    (scanIds : List ScanId) (now : Time) : List GateBlockedProject :=
  (gateBlockedProjects env db projectIds scanIds now).take bucketLimit

end Blocked

end Trusca
