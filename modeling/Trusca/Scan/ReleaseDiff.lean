import Trusca.Gate.Database
import Trusca.Store.Items
import Trusca.Store.Page
import Trusca.Triage.Status

/-! The difference between two releases of a project: the packages that came, went and changed, and the
findings that opened and closed. -/

namespace Trusca

open Store

/-- How the members of a set are listed when nothing asks for an order. -/
structure Listing (κ : Type) where
  list : List κ → List κ
  perm : ∀ members, (list members).Perm members

/-- The listing in the order in which the members are stored. -/
def Listing.stored {κ : Type} : Listing κ := ⟨id, List.Perm.refl⟩

/-- A package of the catalog. -/
structure PackageRecord where
  purl : String
  name : String
  namespaceName : Option String
  deriving Repr, DecidableEq

/-- A version of a package. -/
structure VersionRecord where
  componentId : Nat
  version : String
  purlWithVersion : String
  deriving Repr, DecidableEq

/-- An advisory of the catalog. -/
structure AdvisoryRecord where
  externalId : String
  severity : Severity
  deriving Repr, DecidableEq

/-- The tables that scans refer to; their columns `purl`, `purl_with_version` and `external_id` are unique. -/
structure ReleaseCatalog where
  component : Nat → PackageRecord
  componentVersion : Nat → VersionRecord
  vulnerability : Nat → AdvisoryRecord
  purl_unique : ∀ first second, (component first).purl = (component second).purl → first = second
  purlWithVersion_unique : ∀ first second,
    (componentVersion first).purlWithVersion = (componentVersion second).purlWithVersion → first = second
  externalId_unique : ∀ first second,
    (vulnerability first).externalId = (vulnerability second).externalId → first = second

/-- A finding of a scan. -/
structure ReleaseFinding where
  vulnerabilityId : Nat
  componentVersionId : Nat
  status : FindingStatus
  deriving Repr, DecidableEq

/-- The identity of an exposure: an advisory against a component version. -/
structure Exposure where
  vulnerabilityId : Nat
  componentVersionId : Nat
  deriving Repr, DecidableEq

/-- The exposure that a finding is about. -/
def ReleaseFinding.key (finding : ReleaseFinding) : Exposure :=
  ⟨finding.vulnerabilityId, finding.componentVersionId⟩

/-- What a succeeded scan holds: its component versions and its findings. -/
structure ReleaseScan where
  components : List Nat
  findings : List ReleaseFinding

/-- One package at one version, observed in a scan. -/
structure ComponentRow where
  componentId : Nat
  name : String
  namespaceName : Option String
  purlNoVersion : String
  version : String
  purlWithVersion : String
  cvId : Nat
  deriving Repr, DecidableEq

/-- A component that was added or removed. -/
structure ComponentEntry where
  name : String
  namespaceName : Option String
  purl : String
  version : String
  deriving Repr, DecidableEq

/-- A component whose version changed. -/
structure ChangedEntry where
  name : String
  namespaceName : Option String
  purl : String
  baseVersion : String
  targetVersion : String
  deriving Repr, DecidableEq

/-- The change of the components. -/
structure ComponentChanges where
  added : List ComponentEntry
  removed : List ComponentEntry
  changed : List ChangedEntry
  truncated : Bool
  deriving Repr, DecidableEq

/-- An open finding, as the diff shows it. -/
structure FindingEntry where
  cveId : String
  severity : Severity
  componentName : String
  componentVersion : String
  purl : String
  deriving Repr, DecidableEq

/-- The change of the open findings. -/
structure FindingChanges where
  introduced : List FindingEntry
  resolved : List FindingEntry
  truncated : Bool
  deriving Repr, DecidableEq

/-- How long an enumerated list may get. -/
def maxList : Nat := 1000

/-- The statuses of a finding that is not open; unlike for the gate, a suppressed finding is not. -/
def ReleaseFinding.closedStatuses : List FindingStatus := [.notAffected, .falsePositive, .suppressed, .fixed]

namespace ReleaseCatalog

variable (catalog : ReleaseCatalog)

/-- The row of a component version, joined with its package. -/
def componentRow (cvId : Nat) : ComponentRow :=
  -- The catalogue has the texts, and the row their ids.
  let version := catalog.componentVersion cvId
  let component := catalog.component version.componentId
  { componentId := version.componentId
    name := component.name
    namespaceName := component.namespaceName
    purlNoVersion := component.purl
    version := version.version
    purlWithVersion := version.purlWithVersion
    cvId := cvId }

/-- The rows of a scan by their package; the last row of a package wins. -/
def componentsByPackage (cvIds : List Nat) : List (Nat × ComponentRow) :=
  cvIds.foldl (fun rows cvId => put rows (catalog.componentRow cvId).componentId (catalog.componentRow cvId)) []

/-- What is shown of a finding, joined with its advisory and its package. -/
def findingEntry (key : Exposure) : FindingEntry :=
  -- What the report shows of a finding, and nothing of its triage.
  let advisory := catalog.vulnerability key.vulnerabilityId
  let row := catalog.componentRow key.componentVersionId
  { cveId := advisory.externalId
    severity := advisory.severity
    componentName := row.name
    componentVersion := row.version
    purl := row.purlWithVersion }

/-- The open findings of a scan by advisory and component version; the first row of a key is kept. -/
def openFindingsByKey (findings : List ReleaseFinding) : List (Exposure × FindingEntry) :=
  (findings.filter fun finding => finding.status ∉ ReleaseFinding.closedStatuses).foldl (fun entries finding =>
    if finding.key ∈ keys entries then entries
    else put entries finding.key (catalog.findingEntry finding.key)) []

end ReleaseCatalog

/-- A row as an entry of the added and the removed components. -/
def ComponentRow.entry (row : ComponentRow) : ComponentEntry :=
  ⟨row.name, row.namespaceName, row.purlWithVersion, row.version⟩

/-- Two rows of a package as an entry of the changed components. -/
def changedEntry (pair : ComponentRow × ComponentRow) : ChangedEntry :=
  ⟨pair.1.name, pair.1.namespaceName, pair.1.purlNoVersion, pair.1.version, pair.2.version⟩

/-- The rows of the packages that one side has and the other one does not. -/
def missingRows (listing : Listing Nat) (side other : List (Nat × ComponentRow)) : List ComponentRow :=
  sortBy (fun row => toLex (row.name, row.purlWithVersion))
    ((listing.list ((keys side).filter fun package => package ∉ keys other)).filterMap fun package => side.lookup package)

/-- Whether the rows of a package differ. -/
def rowsDiffer (pair : ComponentRow × ComponentRow) : Bool :=
  pair.1.cvId != pair.2.cvId || pair.1.version != pair.2.version

/-- The rows of the packages that both sides have, where they differ. -/
def changedRows (listing : Listing Nat) (base target : List (Nat × ComponentRow)) :
    List (ComponentRow × ComponentRow) :=
  sortBy (fun pair => toLex (pair.1.name, pair.1.purlNoVersion))
    (((listing.list ((keys base).filter fun package => package ∈ keys target)).filterMap fun package =>
      (base.lookup package).bind fun row => (target.lookup package).map fun other => (row, other)).filter rowsDiffer)

/-- Compare the packages of two scans. -/
def diffComponents (listing : Listing Nat) (base target : List (Nat × ComponentRow)) : ComponentChanges :=
  -- The same two listings serve all three lists, and each list is cut on its own.
  let addedRows := missingRows listing target base
  let removedRows := missingRows listing base target
  let changedRows := changedRows listing base target
  { added := (addedRows.take maxList).map ComponentRow.entry
    removed := (removedRows.take maxList).map ComponentRow.entry
    changed := (changedRows.take maxList).map changedEntry
    -- The flag looks at the lists before they were cut.
    truncated := maxList < addedRows.length || maxList < removedRows.length || maxList < changedRows.length }

/-- The order of the findings. -/
def FindingEntry.order (entry : FindingEntry) : String ×ₗ String ×ₗ String ×ₗ String :=
  toLex (entry.cveId, toLex (entry.componentName, toLex (entry.componentVersion, entry.purl)))

/-- The open findings that one side has and the other one does not. -/
def missingFindings (listing : Listing Exposure) (side other : List (Exposure × FindingEntry)) :
    List FindingEntry :=
  sortBy FindingEntry.order
    ((listing.list ((keys side).filter fun key => key ∉ keys other)).filterMap fun key => side.lookup key)

/-- Compare the open findings of two scans. -/
def diffVulnerabilities (listing : Listing Exposure) (base target : List (Exposure × FindingEntry)) :
    FindingChanges :=
  -- A finding has moved when the other side has nothing under its key.
  let introducedRows := missingFindings listing target base
  let resolvedRows := missingFindings listing base target
  { introduced := introducedRows.take maxList
    resolved := resolvedRows.take maxList
    truncated := maxList < introducedRows.length || maxList < resolvedRows.length }

/-- The orders in which the database returns the rows of both scans, and those in which sets are walked. -/
structure DiffListings where
  baseComponents : Listing Nat
  targetComponents : Listing Nat
  baseFindings : Listing ReleaseFinding
  targetFindings : Listing ReleaseFinding
  packages : Listing Nat
  exposures : Listing Exposure

/-- The change sets between two releases. -/
structure ReleaseChanges where
  components : ComponentChanges
  vulnerabilities : FindingChanges
  deriving Repr, DecidableEq

/-- Whether some list of the change sets was cut. -/
def ReleaseChanges.truncated (changes : ReleaseChanges) : Bool :=
  changes.components.truncated || changes.vulnerabilities.truncated

/-- Compare two scans of a project; a scan is not read to be compared with itself. -/
def diffReleaseSnapshots (catalog : ReleaseCatalog) (scans : Nat → ReleaseScan) (listings : DiffListings)
    (baseScanId targetScanId : Nat) : ReleaseChanges :=
  -- A scan has no difference from itself, and the database is not asked.
  if baseScanId = targetScanId then ⟨⟨[], [], [], false⟩, ⟨[], [], false⟩⟩
  else
    let base := scans baseScanId
    let target := scans targetScanId
    { components := diffComponents listings.packages
        (catalog.componentsByPackage (listings.baseComponents.list base.components))
        (catalog.componentsByPackage (listings.targetComponents.list target.components))
      vulnerabilities := diffVulnerabilities listings.exposures
        (catalog.openFindingsByKey (listings.baseFindings.list base.findings))
        (catalog.openFindingsByKey (listings.targetFindings.list target.findings)) }

end Trusca
