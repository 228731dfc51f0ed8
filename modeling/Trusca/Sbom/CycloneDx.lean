import Mathlib.Data.List.Sort
import Trusca.Data.Text
import Trusca.Gate.Settings
import Trusca.License.Classify
import Trusca.Triage.VexExport

/-! The CycloneDX document of a scan, and the profiles that mark or remove components by policy. -/

namespace Trusca

/-- The text of the id of a component version, which is also its reference within a document. -/
abbrev CvRef := String

/-- A component of the scan. -/
structure SbomRow where
  componentVersionId : CvRef
  name : String
  version : String
  packageNamespace : Option String
  description : Option String
  purl : Option String
  direct : Bool
  deriving Repr, DecidableEq

/-- The kinds of a licence observation. -/
inductive ObservationKind where
  | concluded
  | declared
  | detected
  deriving Repr, DecidableEq

/-- A licence observation; a custom licence has no id. -/
structure LicenseEntry where
  spdxId : Option String
  name : String
  deriving Repr, DecidableEq

/-- A finding of the scan. -/
structure SbomFinding where
  cveId : String
  source : String
  status : FindingStatus
  justification : Option String
  componentVersionId : CvRef
  deriving Repr, DecidableEq

/-- The project whose scan is exported. -/
structure SbomProject where
  id : String
  name : String
  deriving Repr, DecidableEq

/-- What the document states of the scan itself. -/
structure SbomScan where
  id : String
  kind : ScanKind
  scanMetadata : ScanMetadata

/-- What a document takes from outside the scan. -/
structure SbomEnvironment where
  toolVersion : String
  author : Option String
  /-- The name-based id of the document. -/
  uuid5 : String → String

/-- The text of an optional column, absent when it is empty. -/
def nonEmpty (text : Option String) : Option String := text.filter fun text => text != ""

/-- The control characters that the exporter drops. -/
def xmlIllegal (character : Char) : Bool :=
  let code := character.toNat
  code ≤ 8 || code == 0xB || code == 0xC || (0xE ≤ code && code ≤ 0x1F)

/-- A text without those characters. -/
def xmlSafe (text : String) : String :=
  String.ofList (text.toList.filter fun character => !xmlIllegal character)

/-- A named value. -/
structure CdxProperty where
  name : String
  value : String
  deriving Repr, DecidableEq

/-- A licence of a component: by id or by name. -/
inductive CdxLicense where
  | id (text : String)
  | name (text : String)
  deriving Repr, DecidableEq

/-- A component of the document; an empty list stands for an absent field. -/
structure CdxComponent where
  bomRef : String
  type : String
  name : String
  version : Option String
  group : Option String
  description : Option String
  licenses : List CdxLicense
  purl : Option String
  properties : List CdxProperty
  deriving Repr, DecidableEq

/-- What a component or the project depends on. -/
structure CdxDependency where
  ref : String
  dependsOn : List String
  deriving Repr, DecidableEq

/-- A statement on the completeness of a set. -/
structure CdxComposition where
  aggregate : String
  assemblies : Option (List String)
  dependencies : Option (List String)
  deriving Repr, DecidableEq

/-- A vulnerability with its analysis. -/
structure CdxVulnerability where
  id : String
  sourceName : String
  state : String
  detail : Option String
  affects : List String
  deriving Repr, DecidableEq

/-- The project as a component of its own document. -/
structure CdxTopComponent where
  bomRef : String
  type : String
  name : String
  version : String
  deriving Repr, DecidableEq

/-- The head of a document. -/
structure CdxMetadata where
  timestamp : String
  toolVendor : String
  toolName : String
  toolVersion : String
  component : CdxTopComponent
  lifecyclePhase : Option String
  author : Option String
  properties : List CdxProperty
  deriving Repr, DecidableEq

/-- A CycloneDX document. -/
structure CdxDoc where
  serialNumber : String
  version : Nat
  metadata : CdxMetadata
  components : List CdxComponent
  dependencies : Option (List CdxDependency)
  compositions : Option (List CdxComposition)
  vulnerabilities : List CdxVulnerability
  deriving Repr, DecidableEq

/-- What a profile stamps on a document. -/
structure ProfileMarker where
  profile : String
  annotations : CvRef → Option ComponentPolicyVerdict
  excludedCount : Nat

/-- The licences of the most authoritative kind that has any. -/
def preferredLicenses (byKind : ObservationKind → List LicenseEntry) : List LicenseEntry :=
  if byKind .concluded ≠ [] then byKind .concluded
  else if byKind .declared ≠ [] then byKind .declared
  else byKind .detected

/-- The licences of a component as the document has them. -/
def cyclonedxLicenseEntries (entries : List LicenseEntry) : List CdxLicense :=
  entries.map fun entry =>
    match nonEmpty entry.spdxId with
    | some spdxId => .id (xmlSafe spdxId)
    | none => .name (xmlSafe entry.name)

def propProfile : String := "trusca:policy:profile"
def propExcluded : String := "trusca:policy:excluded_count"
def propCategory : String := "trusca:policy:category"
def propSpdx : String := "trusca:policy:spdx"
def evidenceGradeProperty : String := "trusca:evidenceGrade"
def undeclaredFieldsProperty : String := "trusca:undeclared-fields"
def basisProperty : String := "trusca:composition-basis"
def unestablishedVersion : String := "unknown"

/-- The properties that mark the verdict on a component. -/
def cyclonedxPolicyProperties (verdict : ComponentPolicyVerdict) : List CdxProperty :=
  ⟨propCategory, verdict.category.word⟩ ::
    match nonEmpty verdict.spdxId with
    | some spdxId => [⟨propSpdx, xmlSafe spdxId⟩]
    | none => []

/-- One component of the document. -/
def cyclonedxComponent (licensesByCv : CvRef → ObservationKind → List LicenseEntry)
    (annotations : CvRef → Option ComponentPolicyVerdict) (row : SbomRow) : CdxComponent :=
  let version := xmlSafe row.version
  let comp : CdxComponent :=
    { bomRef := row.componentVersionId
      type := "library"
      name := xmlSafe row.name
      -- A version that the scan could not establish is marked and not given.
      version := if version = unestablishedVersion then none else some version
      group := (nonEmpty row.packageNamespace).map xmlSafe
      description := (nonEmpty row.description).map xmlSafe
      licenses := cyclonedxLicenseEntries (preferredLicenses (licensesByCv row.componentVersionId))
      purl := nonEmpty row.purl
      properties := if version = unestablishedVersion
        then [⟨evidenceGradeProperty, "version-unestablished"⟩] else [] }
  match annotations row.componentVersionId with
  | none => comp
  -- The properties are set, not added to.
  | some verdict => { comp with properties := cyclonedxPolicyProperties verdict }

/-- The components of the document. -/
def cyclonedxComponents (rows : List SbomRow)
    (licensesByCv : CvRef → ObservationKind → List LicenseEntry)
    (annotations : CvRef → Option ComponentPolicyVerdict) : List CdxComponent :=
  rows.map (cyclonedxComponent licensesByCv annotations)

/-- The findings as vulnerabilities. -/
def cyclonedxVulnerabilities (vulnRows : List SbomFinding) : List CdxVulnerability :=
  -- One entry for each finding, in the order of the query.
  vulnRows.map fun finding =>
    { id := finding.cveId
      sourceName := finding.source
      state := cyclonedxStateMap finding.status
      detail := nonEmpty finding.justification
      affects := [finding.componentVersionId] }

/-- Texts in order. -/
def sortTexts (texts : List String) : List String := texts.insertionSort (· ≤ ·)

/-- The graph: the project, then every component. -/
def cyclonedxDependencies (projectRef : String) (rows : List SbomRow) (edges : List (CvRef × CvRef)) :
    List CdxDependency :=
  -- Edges to packages outside the document and self-edges are left out.
  let refs := rows.map SbomRow.componentVersionId
  let children (ref : CvRef) : List CvRef := ((edges.filter fun (parent, child) =>
    parent == ref && refs.contains parent && refs.contains child && parent != child).map Prod.snd).dedup
  -- The project itself depends on the direct packages.
  ⟨projectRef, sortTexts ((rows.filter SbomRow.direct).map SbomRow.componentVersionId)⟩ ::
    refs.map fun ref => ⟨ref, sortTexts (children ref)⟩

/-- The name of a verdict on completeness. -/
def CompletenessVerdict.word : CompletenessVerdict → String
  | .complete => "complete"
  | .incomplete => "incomplete"
  | .unknown => "unknown"

/-- The completeness statements. -/
def cyclonedxCompositions (projectRef : String) (rows : List SbomRow) (completeness : Completeness) :
    List CdxComposition :=
  let refs := rows.map SbomRow.componentVersionId
  [⟨completeness.assemblies.word, some refs, none⟩,
    ⟨completeness.dependencies.word, none, some (projectRef :: refs)⟩]

/-- The version that the document gives the project. -/
def topComponentVersion : Option SbomScan → String
  -- The label of the release if it is not blank, otherwise the id of the scan.
  | none => "no-scan"
  | some scan =>
      match scan.scanMetadata.lookup "release" with
      | some (.str release) => if strip release ≠ "" then strip release else scan.id
      | _ => scan.id

/-- The phase that a kind of scan describes. -/
def lifecyclePhase (scan : Option SbomScan) : Option String :=
  match scan.map SbomScan.kind with
  | some .source => some "pre-build"
  | some .container => some "post-build"
  | _ => none

/-- The statement on the fields that are left empty. -/
def undeclaredFieldsValue : String :=
  "unknown to the SBOM author: any field left empty in this document is one " ++
    "this scan could not establish. Nothing is withheld."

/-- The reference of the project. -/
def SbomProject.ref (project : SbomProject) : String := "project:" ++ project.id

/-- What a document is built of. -/
structure SbomInput where
  project : SbomProject
  scan : Option SbomScan
  rows : List SbomRow
  licensesByCv : CvRef → ObservationKind → List LicenseEntry
  vulnRows : List SbomFinding
  timestamp : String
  edges : List (CvRef × CvRef)
  /-- Without a scan there is nothing to list. -/
  unscanned : scan = none → rows = [] ∧ vulnRows = []

/-- The document. -/
def buildCyclonedxDoc (env : SbomEnvironment) (input : SbomInput) (profile : Option ProfileMarker) :
    CdxDoc :=
  let projectRef := input.project.ref
  -- The verdict about completeness needs a scan with rows.
  let rows := input.rows
  let completeness := input.scan.bind fun scan =>
    if rows.isEmpty then none
    else some (assess (some scan.kind) scan.scanMetadata rows.length input.edges.length
      ((profile.map ProfileMarker.excludedCount).getD 0))
  -- A document under a profile says so, and how many rows it leaves out.
  let markers := match profile with
    | none => []
    | some profile =>
        [⟨propProfile, profile.profile⟩, ⟨propExcluded, toString profile.excludedCount⟩]
  let basis := match completeness with
    | none => []
    | some completeness => [⟨basisProperty, completeness.basis⟩]
  -- The same scan gives the same serial number, so that two exports can be compared.
  { serialNumber := "urn:uuid:" ++ env.uuid5 ((input.scan.map SbomScan.id).getD projectRef)
    version := 1
    metadata :=
      { timestamp := input.timestamp
        toolVendor := "TrustedOSS"
        toolName := "TRUSCA"
        toolVersion := env.toolVersion
        component := ⟨projectRef, "application", input.project.name, topComponentVersion input.scan⟩
        lifecyclePhase := lifecyclePhase input.scan
        author := nonEmpty env.author
        properties :=
          ⟨undeclaredFieldsProperty, undeclaredFieldsValue⟩ :: (markers ++ basis) }
    components := cyclonedxComponents rows input.licensesByCv
      ((profile.map ProfileMarker.annotations).getD fun _ => none)
    -- Without a scan there is no graph, so the field is absent and not empty.
    dependencies := input.scan.map fun _ => cyclonedxDependencies projectRef rows input.edges
    compositions := completeness.map (cyclonedxCompositions projectRef rows)
    vulnerabilities := cyclonedxVulnerabilities input.vulnRows }

/-- The profiles of an export. -/
inductive SbomProfile where
  | annotated
  | filtered
  deriving Repr, DecidableEq

/-- The name of a profile. -/
def SbomProfile.word : SbomProfile → String
  | .annotated => "policy-annotated"
  | .filtered => "policy-filtered"

/-- The categories that a profile annotates. -/
def annotateCategories : List LicenseCategory := [.forbidden, .conditional]

/-- Whether the verdict on a component is forbidden. -/
def isForbidden (verdicts : CvRef → Option ComponentPolicyVerdict) (ref : CvRef) : Bool :=
  (verdicts ref).any fun verdict => verdict.category == .forbidden

/-- The document of an export: what a profile removes, what it marks, and the document of the rest. -/
def exportCyclonedx (env : SbomEnvironment) (input : SbomInput)
    (verdicts : CvRef → Option ComponentPolicyVerdict) : Option SbomProfile → CdxDoc
  | none => buildCyclonedxDoc env input none
  | some .filtered =>
      let kept := input.rows.filter fun row => !isForbidden verdicts row.componentVersionId
      let keptIds := kept.map SbomRow.componentVersionId
      let keptInput : SbomInput :=
        { input with
          rows := kept
          -- A vulnerability of a component that is gone goes with it.
          vulnRows := input.vulnRows.filter fun finding => keptIds.contains finding.componentVersionId
          unscanned := fun missing => by simp [kept, input.unscanned missing] }
      buildCyclonedxDoc env keptInput
        (some ⟨SbomProfile.filtered.word, fun _ => none,
          (input.rows.filter fun row => isForbidden verdicts row.componentVersionId).length⟩)
  | some .annotated =>
      let annotations := fun ref => (verdicts ref).filter fun verdict =>
        annotateCategories.contains verdict.category
      buildCyclonedxDoc env input (some ⟨SbomProfile.annotated.word, annotations, 0⟩)

end Trusca
