import Trusca.Eol.Catalog
import Trusca.Gate.Settings
import Trusca.License.Classify
import Trusca.Malicious.Catalog
import Trusca.Matching.CarryForward
import Trusca.Scan.Resolution

/-! The tables the build gate reads, and the policies that apply to a project. -/

namespace Trusca

abbrev LicenseId := Nat

/-- The severities of a vulnerability. -/
inductive Severity where
  | critical
  | high
  | medium
  | low
  | info
  | unknown
  deriving Repr, DecidableEq

/-- What the gate reads of a vulnerability. -/
structure Vulnerability where
  id : VulnerabilityId
  severity : Severity
  epssScore : Option Rat
  kev : Bool
  createdAt : Time

/-- What the gate reads of a component version. -/
structure ComponentVersion where
  id : ComponentVersionId
  purlWithVersion : String
  eolState : Option EolState
  eolEvaluatedAt : Option Time
  maliciousState : Option MaliciousState

/-- A component version found by a scan. -/
structure ScanComponent where
  scanId : ScanId
  componentVersionId : ComponentVersionId
  deriving Repr, DecidableEq

/-- A licence of the catalogue, with the category it was stored with. -/
structure License where
  id : LicenseId
  spdxId : Option String
  category : LicenseCategory

/-- A licence found in a component by a scan. -/
structure LicenseFinding where
  scanId : ScanId
  componentVersionId : ComponentVersionId
  licenseId : LicenseId
  deriving Repr, DecidableEq

/-- A scan with its kind and what it recorded about itself. -/
structure GateScan extends ScanRecord where
  kind : ScanKind
  scanMetadata : ScanMetadata

/-- A project, archived or not. -/
structure PortfolioProject extends Project where
  archivedAt : Option Time

/-- A group of the tree; its ancestors stand from the root down. -/
structure Group where
  id : GroupId
  path : List GroupId
  organizationId : OrganizationId

/-- The group and its ancestors, nearest first. -/
def Group.chain (group : Group) : List GroupId := group.id :: group.path.reverse

/-- One row of the gate policies table; an absent field is not decided here. -/
structure GatePolicy where
  organizationId : OrganizationId
  /-- Absent for the default of the organisation. -/
  teamId : Option GroupId
  epssThreshold : Option Rat
  reachableCriticalOnly : Option Bool
  maliciousBlocks : Option Bool

/-- The scope of a gate policy, unique in the table. -/
def GatePolicy.scope (policy : GatePolicy) : OrganizationId × Option GroupId :=
  (policy.organizationId, policy.teamId)

/-- The tables the gate and the action queue read. -/
structure GateDb where
  groups : Store.Table Group.id
  projects : Store.Table fun project : PortfolioProject => project.id
  scans : Store.Table fun scan : GateScan => scan.id
  findings : Store.Table ReportedFinding.scanKey
  vulnerabilities : Store.Table Vulnerability.id
  componentVersions : Store.Table ComponentVersion.id
  scanComponents : List ScanComponent
  licenses : Store.Table License.id
  licenseFindings : List LicenseFinding
  /-- The scan of every edge of a dependency graph. -/
  dependencyEdges : List ScanId
  gatePolicies : Store.Table GatePolicy.scope
  licensePolicies : Store.Table LicensePolicy.scope
  /-- When the catalogue of exploited vulnerabilities was last synced, if it ever was. -/
  kevLastSyncedAt : Option Time

namespace GateDb

/-- The team that owns a project. -/
def teamIdForProject (db : GateDb) (project : ProjectId) : Option GroupId :=
  (db.projects.find? project).map fun row => row.teamId

/-- The vulnerability a finding is about. -/
def vulnerabilityOf (db : GateDb) (finding : ReportedFinding) : Option Vulnerability :=
  db.vulnerabilities.find? finding.vulnerabilityId

/-- The version a scanned component stands for. -/
def versionOf (db : GateDb) (component : ScanComponent) : Option ComponentVersion :=
  db.componentVersions.find? component.componentVersionId

end GateDb

section Policies

/-- What the gate policies say about a project; an absent field is left to the environment. -/
structure ResolvedGatePolicy where
  epssThreshold : Option Rat
  reachableCriticalOnly : Option Bool
  maliciousBlocks : Option Bool

/-- The nearest value of one field, from the group up its ancestors to the organisation. -/
def pickField {α : Type} (db : GateDb) (group : Group) (field : GatePolicy → Option α) :
    Option α :=
  -- Each field is inherited on its own, so a row may decide one field and leave another open.
  (group.chain.findSome? fun id =>
    (db.gatePolicies.find? (group.organizationId, some id)).bind field).or
    ((db.gatePolicies.find? (group.organizationId, none)).bind field)

/-- The gate policy that applies to a project. -/
def resolveForProject (db : GateDb) (project : ProjectId) : ResolvedGatePolicy :=
  match (db.teamIdForProject project).bind db.groups.find? with
  -- Without a group every field is left to the environment.
  | none => ⟨none, none, none⟩
  | some group =>
      { epssThreshold := pickField db group GatePolicy.epssThreshold
        reachableCriticalOnly := pickField db group GatePolicy.reachableCriticalOnly
        maliciousBlocks := pickField db group GatePolicy.maliciousBlocks }

/-- The licence policy that applies to a group: the nearest one that is enabled. -/
def getEffectivePolicy (db : GateDb) (team : GroupId) : Option LicensePolicy :=
  (db.groups.find? team).bind fun group =>
    -- A licence policy is inherited as a whole, unlike the fields of a gate policy.
    (group.chain.findSome? fun id =>
      (db.licensePolicies.find? (group.organizationId, some id)).filter LicensePolicy.enabled).or
      ((db.licensePolicies.find? (group.organizationId, none)).filter LicensePolicy.enabled)

/-- The packages a policy waives, as long as the waiver has not lapsed. -/
def activeMaliciousWaivers (policy : Option LicensePolicy) (now : Time) : List String :=
  match policy with
  | none => []
  | some policy =>
      -- The dates are compared in the database, and a waiver that names no package counts for none.
      (policy.maliciousExceptions.filter fun waiver =>
        waiver.componentPurl ≠ "" && now < waiver.expiresAt.instant).map fun waiver =>
        basePurl waiver.componentPurl

end Policies

section Counts

/-- The statuses that end a finding for the gate; a suppressed one is still open work. -/
def closedFindingStatuses : List FindingStatus := [.notAffected, .fixed, .falsePositive]

/-- Whether a finding is open on a scan. -/
def openOn (scan : ScanId) (finding : ReportedFinding) : Bool :=
  finding.scanId == scan && !closedFindingStatuses.contains finding.status

/-- Whether a finding passes a test on its vulnerability. -/
def GateDb.passes (db : GateDb) (test : ReportedFinding → Vulnerability → Bool)
    (finding : ReportedFinding) : Bool :=
  (db.vulnerabilityOf finding).any (test finding)

/-- The open findings of a scan that pass a test on their vulnerability. -/
def countOpen (db : GateDb) (scan : ScanId) (test : ReportedFinding → Vulnerability → Bool) : Nat :=
  db.findings.rows.countP fun finding => openOn scan finding && db.passes test finding

/-- The open critical findings of a scan, by what reachability analysis says. -/
structure CriticalReachabilityCounts where
  total : Nat
  reachable : Nat
  analysed : Nat
  unreachable : Nat

/-- Whether a vulnerability is critical. -/
def isCritical (_ : ReportedFinding) (vulnerability : Vulnerability) : Bool :=
  vulnerability.severity == .critical

/-- Count the open critical findings; an unanalysed one is neither reachable nor unreachable. -/
def criticalReachabilityCounts (db : GateDb) (scan : ScanId) : CriticalReachabilityCounts where
  -- The three parts overlap: an open critical finding may be analysed and either.
  total := countOpen db scan isCritical
  reachable := countOpen db scan fun finding vulnerability =>
    isCritical finding vulnerability && finding.reachability.reachable == some true
  analysed := countOpen db scan fun finding vulnerability =>
    isCritical finding vulnerability && finding.reachability.reachable.isSome
  unreachable := countOpen db scan fun finding vulnerability =>
    isCritical finding vulnerability && finding.reachability.reachable == some false

/-- Whether the score of a vulnerability reaches a threshold; an absent score does not. -/
def scoresAtLeast (threshold : Rat) (_ : ReportedFinding) (vulnerability : Vulnerability) : Bool :=
  vulnerability.epssScore.any fun score => threshold ≤ score

/-- The open findings whose score reaches the threshold. -/
def countOpenEpssFindings (db : GateDb) (scan : ScanId) (threshold : Rat) : Nat :=
  countOpen db scan (scoresAtLeast threshold)

/-- The open findings, and how many of them carry a score. -/
def countEpssCoverage (db : GateDb) (scan : ScanId) : Nat × Nat :=
  (countOpen db scan fun _ _ => true,
    countOpen db scan fun _ vulnerability => vulnerability.epssScore.isSome)

/-- The open findings of a known-exploited vulnerability. -/
def countOpenKevFindings (db : GateDb) (scan : ScanId) : Nat :=
  countOpen db scan fun _ vulnerability => vulnerability.kev

/-- The open findings, and how many of them the last sync of the catalogue has seen. -/
def countKevCoverage (db : GateDb) (scan : ScanId) : Nat × Nat :=
  -- Before the first sync no finding has been judged.
  let openFindings := db.findings.rows.countP (openOn scan)
  match db.kevLastSyncedAt with
  | none => (openFindings, 0)
  | some synced =>
      (openFindings, countOpen db scan fun _ vulnerability => vulnerability.createdAt ≤ synced)

/-- The components of a scan that pass a test on their version. -/
def countComponents (db : GateDb) (scan : ScanId) (test : ComponentVersion → Bool) : Nat :=
  db.scanComponents.countP fun component =>
    component.scanId == scan && (db.versionOf component).any test

/-- The components past their end of life. -/
def countEolComponents (db : GateDb) (scan : ScanId) : Nat :=
  countComponents db scan fun version => version.eolState == some .eol

/-- Whether the catalogue gave a real answer about a version. -/
def ComponentVersion.eolAnswered (version : ComponentVersion) : Bool :=
  version.eolEvaluatedAt.isSome &&
    (version.eolState == some .eol || version.eolState == some .supported)

/-- The components, and how many of them have a real end-of-life answer. -/
def countEolCoverage (db : GateDb) (scan : ScanId) : Nat × Nat :=
  (countComponents db scan fun _ => true, countComponents db scan ComponentVersion.eolAnswered)

/-- The components whose licence was stored as forbidden, each counted once. -/
def countForbiddenLicenseComponents (db : GateDb) (scan : ScanId) : Nat :=
  ((db.licenseFindings.filter fun finding =>
    finding.scanId == scan &&
      (db.licenses.find? finding.licenseId).any fun license => license.category == .forbidden).map
    LicenseFinding.componentVersionId).dedup.length

/-- The licence expression a finding stands for. -/
def GateDb.licenseRow (db : GateDb) (finding : LicenseFinding) : Option LicenseRow :=
  (db.licenses.find? finding.licenseId).bind fun license =>
    (db.componentVersions.find? finding.componentVersionId).map fun version =>
      ⟨finding.componentVersionId, license.spdxId, some version.purlWithVersion⟩

/-- The distinct licence expressions of a scan. -/
def loadScanLicenseRows (db : GateDb) (scan : ScanId) : List LicenseRow :=
  ((db.licenseFindings.filter (·.scanId == scan)).filterMap db.licenseRow).dedup

/-- The components that are forbidden under a policy. -/
def countForbiddenVerdicts (verdicts : List (ComponentVersionId × ComponentPolicyVerdict)) : Nat :=
  verdicts.countP fun entry => entry.2.category == .forbidden

/-- The purl of a component the catalogue flags. -/
def GateDb.flaggedPurl (db : GateDb) (component : ScanComponent) : Option String :=
  (db.versionOf component).bind fun version =>
    if version.maliciousState = some .flagged then some version.purlWithVersion else none

/-- The distinct purls the catalogue flags on a scan. -/
def flaggedPurlsForScan (db : GateDb) (scan : ScanId) : List String :=
  ((db.scanComponents.filter (·.scanId == scan)).filterMap db.flaggedPurl).dedup

/-- What a scan's components say about malicious packages. -/
structure MaliciousScanCounts where
  flaggedPurls : List String
  assessed : Nat
  total : Nat

/-- The flagged purls, with how many components there are and how many were looked at. -/
def maliciousScanCounts (db : GateDb) (scan : ScanId) : MaliciousScanCounts :=
  -- Rows without a version are left out by the join.
  let components := db.scanComponents.filter fun component =>
    component.scanId == scan && (db.versionOf component).isSome
  let assessed := components.filter fun component =>
    (db.versionOf component).any fun version => version.maliciousState.isSome
  -- Components count once, however often the scan has them.
  { flaggedPurls := flaggedPurlsForScan db scan
    assessed := (assessed.map ScanComponent.componentVersionId).dedup.length
    total := (components.map ScanComponent.componentVersionId).dedup.length }

/-- The flagged purls no waiver covers. -/
def countUnwaived (waived : List String) (purls : List String) : Nat :=
  purls.countP fun purl => !waived.contains (basePurl purl)

end Counts

end Trusca
