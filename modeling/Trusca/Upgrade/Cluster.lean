import Mathlib.Data.List.Dedup
import Trusca.Store.Page
import Trusca.Store.Select
import Trusca.Upgrade.Recommendation

/-! The upgrades of a scan, one per component: the bounded read and the plain one. -/

namespace Trusca

/-- A finding of the scan with what the read joins to it. -/
structure ClusterFinding where
  findingId : Nat
  componentVersionId : ComponentVersionId
  status : FindingStatus
  fixedVersion : Option String
  cveId : String
  severity : Severity
  kev : Bool
  epssScore : Option Epss
  deriving Repr, DecidableEq

/-- What identifies a component version to a reader. -/
structure ComponentIdentity where
  name : String
  purl : String
  version : String
  deriving Repr, DecidableEq

/-- One place of a component version in the dependency graph of the scan. -/
structure ComponentPlace where
  componentVersionId : ComponentVersionId
  direct : Bool
  depth : Option Int
  deriving Repr, DecidableEq

/-- Whether a finding is still open work. -/
def ClusterFinding.isOpen (finding : ClusterFinding) : Bool :=
  !closedFindingStatuses.contains finding.status

/-- A scan as the service reads it. The rows of a query without an order come in any order, so the
ranking query may list the components with open findings as it likes. -/
structure UpgradeScan where
  findings : List ClusterFinding
  identity : ComponentVersionId → ComponentIdentity
  places : List ComponentPlace
  candidates : List ComponentVersionId
  ranked : candidates.Perm (((findings.filter ClusterFinding.isOpen).map
    ClusterFinding.componentVersionId).dedup)

/-- One finding of a cluster. -/
structure UpgradeClusterFinding where
  findingId : Nat
  cveId : String
  severity : Severity
  status : FindingStatus
  epssScore : Option Epss
  kev : Bool
  fixedVersion : Option String
  deriving Repr, DecidableEq

/-- One component with the upgrade that clears its findings. -/
structure UpgradeCluster where
  componentVersionId : ComponentVersionId
  componentName : String
  componentPurl : String
  currentVersion : String
  recommendedVersion : Option String
  reason : RecommendationReason
  direct : Bool
  maxSeverity : Option Severity
  maxEpss : Option Epss
  findingCount : Nat
  findings : List UpgradeClusterFinding
  /-- Kept for the sort, and not shown. -/
  priority : Nat ×ₗ Nat ×ₗ Epss
  deriving DecidableEq

/-- The view of one scan. -/
structure UpgradeClusterResult where
  clusters : List UpgradeCluster
  totalFindings : Nat
  totalClusters : Nat
  truncated : Bool
  deriving DecidableEq

namespace UpgradeScan

variable (scan : UpgradeScan)

/-- The open findings. -/
def openFindings : List ClusterFinding := scan.findings.filter ClusterFinding.isOpen

/-- The open findings of the given components. -/
def findingRows (ids : List ComponentVersionId) : List ClusterFinding :=
  scan.openFindings.filter fun finding => ids.contains finding.componentVersionId

/-- The open findings of one component. -/
def rowsOf (id : ComponentVersionId) : List ClusterFinding :=
  scan.openFindings.filter fun finding => finding.componentVersionId == id

/-- Whether the component is a direct dependency, in any of its places. -/
def directMap (id : ComponentVersionId) : Bool :=
  -- A component may stand in several places of the tree.
  let places := scan.places.filter fun place => place.componentVersionId == id
  -- A direct place decides, otherwise the least depth that is known.
  (places.any ComponentPlace.direct) ||
    match (places.filterMap ComponentPlace.depth).min? with
    | none => false
    | some depth => depth == 1

/-- The part of the sort key that the database computes. -/
def ranking (id : ComponentVersionId) : Nat ×ₗ Epss :=
  let rows := scan.rowsOf id
  let rank := ((rows.map fun finding => severityRank finding.severity).max?).getD 0
  let epss := ((rows.filterMap ClusterFinding.epssScore).max?).getD 0
  toLex (rank, epss)

variable (scheme : VersionScheme)

/-- The cluster of one component. -/
def cluster (id : ComponentVersionId) (rows : List ClusterFinding) : UpgradeCluster :=
  let recommendation := recommendForComponent scheme
    (rows.map fun row => ⟨row.fixedVersion, row.severity, row.epssScore⟩) (scan.directMap id)
  let findings := rows.map fun row =>
    (⟨row.findingId, row.cveId, row.severity, row.status, row.epssScore, row.kev,
      row.fixedVersion⟩ : UpgradeClusterFinding)
  { componentVersionId := id
    componentName := (scan.identity id).name
    componentPurl := (scan.identity id).purl
    currentVersion := (scan.identity id).version
    recommendedVersion := recommendation.recommendedVersion
    reason := recommendation.reason
    direct := recommendation.direct
    maxSeverity := recommendation.maxSeverity
    maxEpss := recommendation.maxEpss
    findingCount := recommendation.findingCount
    -- The worst finding first, and then by the name of the vulnerability.
    findings := Store.sortBy
      (fun finding => toLex (OrderDual.toDual (severityRank finding.severity), finding.cveId))
      findings
    priority := priorityRank recommendation }

/-- The clusters of the rows that were read, one for every component among them. -/
def buildClusters (rows : List ClusterFinding) : List UpgradeCluster :=
  (Store.distinctOn ClusterFinding.componentVersionId rows).map fun head =>
    scan.cluster scheme head.componentVersionId
      (rows.filter fun row => row.componentVersionId == head.componentVersionId)

/-- The most urgent first, and then by the name of the component. -/
def sortClusters (clusters : List UpgradeCluster) : List UpgradeCluster :=
  Store.sortBy (fun cluster => OrderDual.toDual cluster.priority)
    (Store.sortBy UpgradeCluster.componentName clusters)

/-- The components that are direct dependencies: the first read. -/
def directIds : List ComponentVersionId := scan.candidates.filter scan.directMap

/-- The clusters of the direct dependencies. -/
def directClusters : List UpgradeCluster :=
  scan.buildClusters scheme (scan.findingRows scan.directIds)

/-- How many of them lead the list: direct, with an upgrade to perform. -/
def leading : Nat :=
  (scan.directClusters scheme).countP fun cluster => (ofLex cluster.priority).1 == 1

/-- The components that the first read has not covered, the most urgent first as far as the database
can tell. -/
def tail : List ComponentVersionId :=
  let already := (scan.findingRows scan.directIds).map ClusterFinding.componentVersionId
  Store.sortBy (fun id => OrderDual.toDual (scan.ranking id))
    (scan.candidates.filter fun id => !already.contains id)

/-- The components of the second read: what the page is short of. -/
def toRead (limit : Nat) : List ComponentVersionId :=
  if scan.leading scheme < limit then scan.tail.take (limit - scan.leading scheme) else []

/-- The bounded read: the direct dependencies, then what the page is short of. -/
def listUpgradeClusters (limit : Nat) : UpgradeClusterResult :=
  let clusters := scan.directClusters scheme ++
    scan.buildClusters scheme (scan.findingRows (scan.toRead scheme limit))
  { clusters := (sortClusters clusters).take limit
    totalFindings := scan.openFindings.length
    totalClusters := scan.candidates.length
    truncated := scan.candidates.length > limit }

/-- The plain read: the cluster of every component. -/
def allClusters : List UpgradeCluster := scan.buildClusters scheme scan.openFindings

end UpgradeScan

end Trusca
