import Trusca.Data.Lines
import Trusca.Sbom.CycloneDx

/-! SPDX documents in their two forms, JSON and tags with values: those that are exported from a scan, and
those that a supplier submits. -/

namespace Trusca

/-- A text written line by line. -/
def writeLines (lines : List String) : String :=
  String.ofList (lines.flatMap fun line => line.toList ++ ['\n'])

section Exported

/-- A note on a package or on the document. -/
structure SpdxAnnotation where
  annotationType : String
  annotator : String
  annotationDate : String
  comment : String
  deriving Repr, DecidableEq

/-- A reference to a package elsewhere. -/
structure SpdxExternalRef where
  referenceCategory : String
  referenceType : String
  referenceLocator : String
  deriving Repr, DecidableEq

/-- A package of an exported document. -/
structure SpdxPackage where
  spdxId : String
  name : String
  versionInfo : String
  downloadLocation : String
  filesAnalyzed : Bool
  licenseConcluded : String
  licenseDeclared : String
  copyrightText : String
  description : Option String
  externalRefs : List SpdxExternalRef
  annotations : List SpdxAnnotation
  deriving Repr, DecidableEq

/-- An exported document. -/
structure SpdxDoc where
  spdxVersion : String
  dataLicense : String
  spdxId : String
  name : String
  documentNamespace : String
  created : String
  creators : List String
  packages : List SpdxPackage
  annotations : List SpdxAnnotation
  deriving Repr, DecidableEq

/-- A text on one line, as far as carriage returns and line feeds go. -/
def spdxClean (text : String) : String :=
  xmlSafe (strip (String.ofList (text.toList.map fun character =>
    if character = '\r' ∨ character = '\n' then ' ' else character)))

/-- The licences of a component as one expression. -/
def spdxLicenseExpr (entries : List LicenseEntry) : String :=
  match sortTexts (entries.filterMap fun entry => nonEmpty entry.spdxId).dedup with
  | [] => "NOASSERTION"
  | ids => " AND ".intercalate ids

/-- The identifier of a component in the document. -/
def spdxIdForComponent (ref : CvRef) : String :=
  "SPDXRef-Pkg-" ++ String.ofList (ref.toList.filter (· != '-'))

/-- The note that records the verdict on a component. -/
def spdxPolicyAnnotation (env : SbomEnvironment) (timestamp : String) (verdict : ComponentPolicyVerdict) :
    SpdxAnnotation where
  annotationType := "REVIEW"
  annotator := "Tool: TRUSCA-" ++ env.toolVersion
  annotationDate := timestamp
  comment := "TRUSCA policy: " ++ verdict.category.word ++
    -- The licence only when the verdict names one.
    match nonEmpty verdict.spdxId with
    | some spdxId => " (" ++ xmlSafe spdxId ++ ")"
    | none => ""

/-- The package of a component. -/
def spdxPackage (env : SbomEnvironment) (licensesByCv : CvRef → ObservationKind → List LicenseEntry)
    (annotations : CvRef → Option ComponentPolicyVerdict) (timestamp : String) (row : SbomRow) :
    SpdxPackage :=
  -- Without a concluded licence the declared ones stand for it.
  let declared := licensesByCv row.componentVersionId .declared
  let concluded := licensesByCv row.componentVersionId .concluded
  { spdxId := spdxIdForComponent row.componentVersionId
    name := row.name
    versionInfo := row.version
    downloadLocation := "NOASSERTION"
    filesAnalyzed := false
    licenseConcluded := spdxLicenseExpr (if concluded ≠ [] then concluded else declared)
    licenseDeclared := spdxLicenseExpr declared
    copyrightText := "NOASSERTION"
    description := (nonEmpty row.description).map spdxClean
    -- A package without a purl has no reference, and keeps the rest.
    externalRefs := ((nonEmpty row.purl).map fun purl => ⟨"PACKAGE-MANAGER", "purl", purl⟩).toList
    annotations :=
      ((annotations row.componentVersionId).map ( spdxPolicyAnnotation env timestamp)).toList }

/-- The makers of a document: the tool, and the author when one is declared. -/
def spdxCreators (env : SbomEnvironment) : List String :=
  ("Tool: TRUSCA-" ++ env.toolVersion) ::
    ((nonEmpty env.author).map fun author => "Organization: " ++ author).toList

/-- The document. -/
def buildSpdxDoc (env : SbomEnvironment) (input : SbomInput) (profile : Option ProfileMarker) :
    SpdxDoc where
  spdxVersion := "SPDX-2.3"
  dataLicense := "CC0-1.0"
  spdxId := "SPDXRef-DOCUMENT"
  name := input.project.name ++ " SBOM"
  -- The namespace is fixed by the scan, as the CycloneDX serial number is.
  documentNamespace := "https://trustedoss.io/spdx/" ++ input.project.id ++ "/" ++
    env.uuid5 ((input.scan.map SbomScan.id).getD input.project.ref)
  created := input.timestamp
  creators := spdxCreators env
  packages := input.rows.map (spdxPackage env input.licensesByCv
    ((profile.map ProfileMarker.annotations).getD fun _ => none) input.timestamp)
  annotations := (profile.map fun profile =>
    { annotationType := "OTHER"
      annotator := "Tool: TRUSCA-" ++ env.toolVersion
      annotationDate := input.timestamp
      comment := "TRUSCA policy profile: " ++ profile.profile ++ "; excluded_count: " ++
        toString profile.excludedCount }).toList

/-- The document of an export: what a profile removes and marks, and the document of the rest. -/
def exportSpdx (env : SbomEnvironment) (input : SbomInput)
    (verdicts : CvRef → Option ComponentPolicyVerdict) : Option SbomProfile → SpdxDoc
  | none => buildSpdxDoc env input none
  -- The filtered profile leaves rows out and says how many.
  | some .filtered =>
      let kept := input.rows.filter fun row => !isForbidden verdicts row.componentVersionId
      let keptInput : SbomInput :=
        { input with
          rows := kept
          unscanned := fun missing => by simp [kept, input.unscanned missing] }
      buildSpdxDoc env keptInput
        (some ⟨SbomProfile.filtered.word, fun _ => none,
          (input.rows.filter fun row => isForbidden verdicts row.componentVersionId).length⟩)
  -- The annotated profile keeps every row and marks some of them.
  | some .annotated =>
      let annotations := fun ref => (verdicts ref).filter fun verdict =>
        annotateCategories.contains verdict.category
      buildSpdxDoc env input (some ⟨SbomProfile.annotated.word, annotations, 0⟩)

/-- The lines of a note. -/
def annotationLines (ref : String) (note : SpdxAnnotation) : List String :=
  [tagLine "AnnotationDate" note.annotationDate, tagLine "Annotator" note.annotator,
    tagLine "AnnotationType" note.annotationType, tagLine "SPDXREF" ref,
    tagLine "AnnotationComment" (spdxClean note.comment)]

/-- The lines of a package. -/
def packageLines (pkg : SpdxPackage) : List String :=
  -- A blank line opens a package, and the optional tags come last.
  ["", tagLine "PackageName" (spdxClean pkg.name), tagLine "SPDXID" pkg.spdxId,
    tagLine "PackageVersion" (spdxClean pkg.versionInfo),
    tagLine "PackageDownloadLocation" pkg.downloadLocation,
    tagLine "FilesAnalyzed" (if pkg.filesAnalyzed then "true" else "false"),
    tagLine "PackageLicenseConcluded" pkg.licenseConcluded,
    tagLine "PackageLicenseDeclared" pkg.licenseDeclared,
    tagLine "PackageCopyrightText" pkg.copyrightText] ++
  (pkg.description.map (tagLine "PackageDescription")).toList ++
  pkg.externalRefs.map (fun ref => tagLine "ExternalRef"
    (ref.referenceCategory ++ " " ++ ref.referenceType ++ " " ++ ref.referenceLocator)) ++
  pkg.annotations.flatMap (annotationLines pkg.spdxId)

/-- The lines of the head. -/
def headLines (doc : SpdxDoc) : List String :=
  -- The document's own tags, before the first package.
  [tagLine "SPDXVersion" doc.spdxVersion, tagLine "DataLicense" doc.dataLicense,
    tagLine "SPDXID" doc.spdxId, tagLine "DocumentName" (spdxClean doc.name),
    tagLine "DocumentNamespace" doc.documentNamespace, tagLine "Created" doc.created] ++
  doc.creators.map (tagLine "Creator") ++
  doc.annotations.flatMap (annotationLines doc.spdxId)

/-- The document as tags and values. -/
def serializeSpdxTv (doc : SpdxDoc) : String :=
  writeLines (headLines doc ++ doc.packages.flatMap packageLines)

/-- A field that is there only when its value is. -/
def optionalField (key : String) (value : Option Json) : List (String × Json) :=
  (value.map fun value => (key, value)).toList

/-- A list as a field, when there is one. -/
def listField (key : String) (items : List Json) : List (String × Json) :=
  if items.isEmpty then [] else [(key, .arr items)]

def SpdxAnnotation.toJson (note : SpdxAnnotation) : Json :=
  .obj [("annotationType", .str note.annotationType), ("annotator", .str note.annotator),
    ("annotationDate", .str note.annotationDate), ("comment", .str note.comment)]

def SpdxExternalRef.toJson (ref : SpdxExternalRef) : Json :=
  .obj [("referenceCategory", .str ref.referenceCategory), ("referenceType", .str ref.referenceType),
    ("referenceLocator", .str ref.referenceLocator)]

def SpdxPackage.toJson (pkg : SpdxPackage) : Json :=
  -- Optional fields are absent when they are empty, and `filesAnalyzed` is a boolean here.
  .obj ([("SPDXID", Json.str pkg.spdxId), ("name", .str pkg.name), ("versionInfo", .str pkg.versionInfo),
    ("downloadLocation", .str pkg.downloadLocation), ("filesAnalyzed", .bool pkg.filesAnalyzed),
    ("licenseConcluded", .str pkg.licenseConcluded), ("licenseDeclared", .str pkg.licenseDeclared),
    ("copyrightText", .str pkg.copyrightText)] ++
    optionalField "description" (pkg.description.map .str) ++
    listField "externalRefs" (pkg.externalRefs.map SpdxExternalRef.toJson) ++
    listField "annotations" (pkg.annotations.map SpdxAnnotation.toJson))

/-- The document as JSON. -/
def SpdxDoc.toJson (doc : SpdxDoc) : Json :=
  -- The same fields as in tag-value, under the names of the JSON schema.
  .obj ([("spdxVersion", Json.str doc.spdxVersion), ("dataLicense", .str doc.dataLicense),
    ("SPDXID", .str doc.spdxId), ("name", .str doc.name),
    ("documentNamespace", .str doc.documentNamespace),
    ("creationInfo", .obj [("created", .str doc.created), ("creators", .arr (doc.creators.map .str))]),
    ("packages", .arr (doc.packages.map SpdxPackage.toJson))] ++
    listField "annotations" (doc.annotations.map SpdxAnnotation.toJson))

end Exported

section Supplied

/-- A field of a package that a supplier submits. -/
inductive SuppliedField where
  | spdxId (text : String)
  | version (text : String)
  | licenseConcluded (text : String)
  | licenseDeclared (text : String)
  | externalRef (ref : SpdxExternalRef)
  /-- Any other field; a value of several lines stands between `<text>` and `</text>`. -/
  | other (tag value : String)
  deriving Repr, DecidableEq

/-- A package that a supplier submits, with the sections of its files. -/
structure SuppliedPackage where
  name : String
  fields : List SuppliedField
  files : List (List (String × String))
  deriving Repr, DecidableEq

/-- A relationship between two elements. -/
structure SuppliedRelationship where
  element : String
  type : String
  related : String
  deriving Repr, DecidableEq

/-- A document that a supplier submits. -/
structure SuppliedDoc where
  name : String
  created : String
  packages : List SuppliedPackage
  relationships : List SuppliedRelationship
  deriving Repr, DecidableEq

def SuppliedField.toLine : SuppliedField → String
  -- One line for each field, whatever a reader makes of it.
  | .spdxId text => tagLine "SPDXID" text
  | .version text => tagLine "PackageVersion" text
  | .licenseConcluded text => tagLine "PackageLicenseConcluded" text
  | .licenseDeclared text => tagLine "PackageLicenseDeclared" text
  | .externalRef ref => tagLine "ExternalRef"
      (ref.referenceCategory ++ " " ++ ref.referenceType ++ " " ++ ref.referenceLocator)
  | .other tag value => tagLine tag value

/-- The lines of a package: its own fields, then the sections of its files. -/
def SuppliedPackage.toLines (pkg : SuppliedPackage) : List String :=
  "" :: tagLine "PackageName" pkg.name :: pkg.fields.map SuppliedField.toLine ++
    pkg.files.flatMap fun file => "" :: file.map fun (tag, value) => tagLine tag value

def SuppliedRelationship.toLine (rel : SuppliedRelationship) : String :=
  tagLine "Relationship" (rel.element ++ " " ++ rel.type ++ " " ++ rel.related)

/-- The document as tags and values. -/
def SuppliedDoc.toTv (doc : SuppliedDoc) : String :=
  -- The head, the packages, and the relationships after all packages.
  writeLines ([tagLine "SPDXVersion" "SPDX-2.3", tagLine "DataLicense" "CC0-1.0",
    tagLine "SPDXID" "SPDXRef-DOCUMENT", tagLine "DocumentName" doc.name,
    tagLine "Created" doc.created] ++
    doc.packages.flatMap SuppliedPackage.toLines ++
    doc.relationships.map SuppliedRelationship.toLine)

/-- The last value that a field is given. -/
def SuppliedPackage.last (pkg : SuppliedPackage) (select : SuppliedField → Option String) : Option Json :=
  (pkg.fields.filterMap select).getLast?.map .str

def SuppliedField.spdxId? : SuppliedField → Option String
  | .spdxId text => some text
  | _ => none

def SuppliedField.version? : SuppliedField → Option String
  | .version text => some text
  | _ => none

def SuppliedField.licenseConcluded? : SuppliedField → Option String
  | .licenseConcluded text => some text
  | _ => none

def SuppliedField.licenseDeclared? : SuppliedField → Option String
  | .licenseDeclared text => some text
  | _ => none

def SuppliedField.externalRef? : SuppliedField → Option SpdxExternalRef
  | .externalRef ref => some ref
  | _ => none

/-- The package as JSON, with the fields that are read. -/
def SuppliedPackage.toJson (pkg : SuppliedPackage) : Json :=
  -- JSON has a key once, so of the repeated tags the last stands for all.
  .obj (("name", .str pkg.name) :: (optionalField "SPDXID" (pkg.last SuppliedField.spdxId?) ++
    optionalField "versionInfo" (pkg.last SuppliedField.version?) ++
    optionalField "licenseConcluded" (pkg.last SuppliedField.licenseConcluded?) ++
    optionalField "licenseDeclared" (pkg.last SuppliedField.licenseDeclared?) ++
    [("externalRefs", .arr ((pkg.fields.filterMap SuppliedField.externalRef?).map
      SpdxExternalRef.toJson))]))

def SuppliedRelationship.toJson (rel : SuppliedRelationship) : Json :=
  .obj [("spdxElementId", .str rel.element), ("relationshipType", .str rel.type),
    ("relatedSpdxElement", .str rel.related)]

/-- The document as JSON. -/
def SuppliedDoc.toJson (doc : SuppliedDoc) : Json :=
  .obj [("spdxVersion", .str "SPDX-2.3"), ("name", .str doc.name),
    ("creationInfo", .obj [("created", .str doc.created)]),
    ("packages", .arr (doc.packages.map SuppliedPackage.toJson)),
    ("relationships", .arr (doc.relationships.map SuppliedRelationship.toJson))]

end Supplied

end Trusca
