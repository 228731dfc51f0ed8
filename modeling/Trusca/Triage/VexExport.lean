import Trusca.Scan.Resolution
import Trusca.Triage.VexImport

/-! Exporting the triage of a project as a VEX document, in both dialects. -/

namespace Trusca

/-- What an export reads of the vulnerabilities, and the texts it derives from ids and times. -/
structure VexExport where
  source : VulnerabilityId → String
  /-- The collation the database orders texts by. -/
  collate : String → String → Ordering
  projectText : ProjectId → String
  scanText : ScanId → String
  /-- The UUID derived from an anchor in the namespace of VEX documents. -/
  uuid5 : String → String
  utcIso : Time → String

/-- The OpenVEX status a finding is exported with. -/
def openvexStatusMap : FindingStatus → String
  | .new => "under_investigation"
  | .analyzing => "under_investigation"
  | .exploitable => "affected"
  | .notAffected => "not_affected"
  | .falsePositive => "not_affected"
  -- The dialect has no word for a suppressed finding or a false positive.
  | .suppressed => "not_affected"
  | .fixed => "fixed"

/-- The CycloneDX analysis state a finding is exported with. -/
def cyclonedxStateMap : FindingStatus → String
  | .new => "in_triage"
  -- Twice two statuses share a state, and a reader cannot tell them apart.
  | .analyzing => "in_triage"
  | .exploitable => "exploitable"
  | .notAffected => "not_affected"
  | .falsePositive => "false_positive"
  | .suppressed => "not_affected"
  | .fixed => "resolved"

/-- One exported finding. -/
structure VexRow where
  findingId : FindingId
  status : FindingStatus
  justification : Option String
  cveId : String
  source : String
  purl : String
  deriving Repr, DecidableEq

/-- The rows are ordered by vulnerability, then by component, then by finding. -/
def VexRow.compare (collate : String → String → Ordering) (first second : VexRow) : Ordering :=
  (collate first.cveId second.cveId).then
    ((collate first.purl second.purl).then (Ord.compare first.findingId second.findingId))

/-- The row a finding is exported as. -/
def VexExport.row (texts : VexExport) (scope : TriageScope) (finding : VulnerabilityFinding) :
    -- The columns a document shows, with the texts of the catalogue.
    VexRow where
  findingId := finding.id
  status := finding.status
  justification := finding.analysisJustification
  cveId := scope.externalId finding.vulnerabilityId
  source := texts.source finding.vulnerabilityId
  purl := scope.purlWithVersion finding.componentVersionId

/-- The rows of a scan. -/
def VexExport.loadFindings (texts : VexExport) (scope : TriageScope) (db : TriageDb)
    (scan : ScanId) : List VexRow :=
  ((db.findings.rows.filter fun finding => finding.scanId = scan).map
    (texts.row scope)).mergeSort fun first second => (first.compare texts.collate second).isLE

/-- A field that is written only when there is a text for it. -/
def textField (key : String) : Option String → List (String × Json)
  | none => []
  | some text => if text = "" then [] else [(key, .str text)]

/-- The purl as the single reference under a key; an empty purl is left out. -/
def purlRefs (key purl : String) : Json :=
  .arr (if purl = "" then [] else [.obj [(key, .str purl)]])

/-- The OpenVEX statement of a finding. -/
def openvexStatement (row : VexRow) : Json :=
  .obj ([("vulnerability", .obj [("name", .str row.cveId)]),
    ("products", purlRefs "@id" row.purl),
    ("status", .str (openvexStatusMap row.status))] ++
    textField "impact_statement" row.justification)

/-- The CycloneDX vulnerability entry of a finding. -/
def cyclonedxVulnerability (row : VexRow) : Json :=
  .obj [("id", .str row.cveId),
    ("source", .obj [("name", .str row.source)]),
    ("analysis", .obj (("state", .str (cyclonedxStateMap row.status)) ::
      textField "detail" row.justification)),
    ("affects", purlRefs "ref" row.purl)]

/-- The scan's completion time, or the epoch without a scan. -/
def deterministicTimestamp : Option ScanRecord → Time
  | none => 0
  | some scan => scan.completedAt.getD scan.updatedAt

namespace VexExport

/-- The document's UUID follows from the scan, or from the project without a scan. -/
def deterministicDocUuid (texts : VexExport) (project : Project) : Option ScanRecord → String
  | none => texts.uuid5 ("project:" ++ texts.projectText project.id)
  | some scan => texts.uuid5 (texts.scanText scan.id)

/-- The OpenVEX document. -/
def buildOpenvexDoc (texts : VexExport) (project : Project) (scan : Option ScanRecord)
    (rows : List VexRow) (now : Time) : Json :=
  .obj [("@context", .str "https://openvex.dev/ns/v0.2.0"),
    -- The same scan gives the same document id.
    ("@id", .str ("https://trustedoss.io/vex/" ++ texts.projectText project.id ++ "/" ++
      texts.deterministicDocUuid project scan)),
    ("author", .str "TRUSCA"),
    ("timestamp", .str (texts.utcIso now)),
    ("version", .num 1),
    ("statements", .arr (rows.map openvexStatement))]

/-- The CycloneDX document. -/
def buildCyclonedxDoc (texts : VexExport) (project : Project) (scan : Option ScanRecord)
    (rows : List VexRow) (now : Time) : Json :=
  -- CycloneDX carries the same rows under its own names.
  .obj [("bomFormat", .str "CycloneDX"),
    ("specVersion", .str "1.5"),
    ("serialNumber", .str ("urn:uuid:" ++ texts.deterministicDocUuid project scan)),
    ("version", .num 1),
    ("metadata", .obj [
      ("timestamp", .str (texts.utcIso now)),
      ("tools", .arr [.obj [("vendor", .str "TrustedOSS"), ("name", .str "TRUSCA"),
        ("version", .str "0.0.1")]]),
      ("component", .obj [("bom-ref", .str ("project:" ++ texts.projectText project.id)),
        ("type", .str "application"),
        ("name", .str project.name),
        -- A project without a scan says so in its version.
        ("version", .str ((scan.map fun scan => texts.scanText scan.id).getD "no-scan"))])]),
    ("vulnerabilities", .arr (rows.map cyclonedxVulnerability))]

/-- Export the triage of a project's current scan; an override may pin the time stamp. -/
def exportVex (texts : VexExport) (scope : TriageScope) (db : TriageDb) (scans : List ScanRecord)
    (project : Project) (format : VexFormat) (now : Option Time) : Json :=
  -- A project without a succeeded scan exports a document with no statements.
  let scan := latestSucceededScan scans project.id project.defaultBranch
  let rows :=
    match scan with
    | none => []
    | some scan => texts.loadFindings scope db scan.id
  let timestamp := now.getD (deterministicTimestamp scan)
  match format with
  | .openvex => texts.buildOpenvexDoc project scan rows timestamp
  | .cyclonedx => texts.buildCyclonedxDoc project scan rows timestamp

end VexExport

end Trusca
