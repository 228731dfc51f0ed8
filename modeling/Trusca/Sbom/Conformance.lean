import Mathlib.Algebra.GroupWithZero.Nat
import Mathlib.Data.List.Lex
import Trusca.Scan.PayloadCleaning

/-! How a submitted SBOM is scored, and how the verdict is written. -/

namespace Trusca

variable {ν : Type}

section Values

/-- Whether a text starts with a literal. -/
def PyText.startsWith (text : PyText) (start : String) : Bool := (PyText.of start).isPrefixOf text

/-- What the interpreter knows of values: which numbers are not zero, and how a value that is no text is
written as one. -/
structure PyRuntime (ν : Type) where
  nonzero : ν → Bool
  render : PyJson ν → PyText

variable (py : PyRuntime ν)

/-- Whether a value counts as true. -/
def PyRuntime.truthy : Option (PyJson ν) → Bool
  -- Python's truth of a JSON value: what is empty, zero or absent is false
  | none | some .null => false
  | some (.bool value) => value
  | some (.num value) => py.nonzero value
  | some (.str text) => !text.isEmpty
  | some (.arr items) => !items.isEmpty
  | some (.obj fields) => !fields.isEmpty

/-- A value, or another one when it does not count as true. -/
def PyRuntime.either (first : Option (PyJson ν)) (second : PyJson ν) : PyJson ν :=
  match first with
  | some value => if py.truthy (some value) then value else second
  | none => second

/-- A value as a text. -/
def PyRuntime.str : PyJson ν → PyText
  | .str text => text
  | other => py.render other

/-- An object; the empty one for other values. -/
def PyJson.asDict : Option (PyJson ν) → PyJson ν
  | some (.obj fields) => .obj fields
  | _ => .obj []

/-- Whether a value is an object. -/
def PyJson.isDict : PyJson ν → Bool
  | .obj _ => true
  | _ => false

/-- What a guard was left out for. -/
inductive PyError where
  | typeError
  | attributeError
  | recursionError
  deriving Repr, DecidableEq

end Values

section Checks

/-- The longest text of a verdict. -/
def itemCharsCap : Nat := 512

/-- The most offending items of a check. -/
def missingCap : Nat := 50

/-- The checks of single fields that regulators name; they never move the verdict. -/
def regulatoryFieldCheckIds : List String :=
  ["hash-algorithm", "component-creator", "component-filename", "artifact-uri", "file-properties"]

/-- What a check says. -/
inductive CheckStatus where
  | pass
  | fail
  | warn
  deriving Repr, DecidableEq

/-- One check of a document. The offending items are values of the document. -/
structure ConformanceCheck (ν : Type) where
  id : String
  label : String
  required : Bool
  status : CheckStatus
  detail : PyText
  missing : List (PyJson ν) := []
  cluster : Option String := none
  source : Option String := none
  role : Option String := none
  evidence : Option (List PyText) := none

/-- A check as it is stored. -/
structure StoredCheck where
  id : String
  label : String
  required : Bool
  status : CheckStatus
  detail : PyText
  missing : List PyText
  cluster : Option String
  source : Option String
  role : Option String
  evidence : Option (List PyText)
  deriving Repr, DecidableEq

/-- The character that a value is, when it is one. -/
def oneCharacter : PyJson ν → Except PyError Nat
  | .str [code] => .ok code
  | _ => .error .typeError

/-- Clean a value, character by character: those of a text, the items of a list, the keys of an object. -/
def sanitizeCharacters : PyJson ν → Except PyError PyText
  -- A text is one entry; an array or an object is joined from its parts, as `"".join` walks it.
  | .str text => .ok (PyText.sanitizeJsonbText text)
  | .arr items => return PyText.sanitizeJsonbText (← items.mapM oneCharacter)
  | .obj fields =>
      return PyText.sanitizeJsonbText (← fields.mapM fun field => oneCharacter (.str field.1 : PyJson ν))
  -- Nothing else can be joined, and the error is not caught here.
  | .null | .bool _ | .num _ => .error .typeError

/-- A check as it is stored: every text of it is cleaned and cut. -/
def ConformanceCheck.asDict (check : ConformanceCheck ν) : Except PyError StoredCheck := do
  -- `missing` is sanitized before it is stored, and that may raise on what is no text.
  let missing ← check.missing.mapM sanitizeCharacters
  return {
    id := check.id
    label := check.label
    required := check.required
    status := check.status
    detail := (PyText.sanitizeJsonbText check.detail).take itemCharsCap
    missing := missing.map (·.take itemCharsCap)
    cluster := check.cluster
    source := check.source
    role := check.role
    evidence := check.evidence.map (·.map fun text => (PyText.sanitizeJsonbText text).take itemCharsCap) }

/-- The verdict on a document. -/
structure ConformanceResult (ν : Type) where
  sourceFormat : String
  result : CheckStatus
  checks : List (ConformanceCheck ν)
  nFail : Nat
  nWarn : Nat
  componentCount : Nat
  purlCoveragePct : Option Nat
  licenseCoveragePct : Option Nat
  hashCoveragePct : Option Nat

/-- A verdict as it is stored. -/
structure StoredResult where
  sourceFormat : String
  result : CheckStatus
  nFail : Nat
  nWarn : Nat
  componentCount : Nat
  purlCoveragePct : Option Nat
  licenseCoveragePct : Option Nat
  hashCoveragePct : Option Nat
  checks : List StoredCheck
  deriving Repr, DecidableEq

/-- A verdict as it is stored. -/
def ConformanceResult.asDict (result : ConformanceResult ν) : Except PyError StoredResult := do
  -- One check that cannot be stored loses the whole result.
  let checks ← result.checks.mapM ConformanceCheck.asDict
  return {
    sourceFormat := result.sourceFormat
    result := result.result
    nFail := result.nFail
    nWarn := result.nWarn
    componentCount := result.componentCount
    purlCoveragePct := result.purlCoveragePct
    licenseCoveragePct := result.licenseCoveragePct
    hashCoveragePct := result.hashCoveragePct
    checks := checks }

/-- What a scorer returns: its checks, how much it counted, and the coverages. -/
structure ScoreResult (ν : Type) where
  checks : List (ConformanceCheck ν)
  componentCount : Nat
  purlPct : Option Nat
  licensePct : Option Nat
  hashPct : Option Nat

/-- A share in percent. -/
def pct (part whole : Nat) : Nat := if whole = 0 then 0 else part * 100 / whole

/-- The first offending items. -/
def capMissing (items : List (PyJson ν)) : List (PyJson ν) := items.take missingCap

/-- The shares that the checks ask for. -/
structure ConformanceThresholds where
  purlMinPct : Int
  licenseMinPct : Int
  hashMinPct : Int
  fieldMinPct : Int
  deriving Repr, DecidableEq

end Checks

section Registry

/-- An element of a baseline. -/
structure RegistryElement where
  cluster : String
  id : String
  label : String
  source : Option String
  role : Option String
  required : Option Bool
  deriving Repr, DecidableEq

/-- A baseline: its elements, and the functions that decide them. -/
structure RegistrySpec (ν : Type) where
  elements : List RegistryElement
  predicates : String → Option (PyJson ν → Except PyError Bool)
  missing : String → Option (List (PyJson ν) → Except PyError (List PyText))
  evidence : String → Option (PyJson ν → Except PyError (List PyText))
  subject : PyJson ν → List (PyJson ν)
  subjectLabel : String
  emptySubjectDetail : String
  appliesWhen : PyJson ν → Except PyError Bool
  defaultRequired : Bool

/-- The most items of evidence, and the longest one. -/
def evidenceMaxItems : Nat := 8

def evidenceMaxChars : Nat := 200

/-- The evidence that is kept: cleaned, cut, sorted, and each piece once. -/
def clampEvidence (values : List PyText) : List PyText :=
  let prepared := values.filterMap fun value =>
    let cleaned := PyText.sanitizeJsonbText (value.take evidenceMaxChars)
    if value.isEmpty || cleaned.isEmpty then none else some cleaned
  (prepared.dedup.mergeSort fun first second => first ≤ second).take evidenceMaxItems

/-- The offending subjects that are kept. -/
def clampMissing (names : List PyText) : List PyText :=
  ((names.filter fun name => !name.isEmpty).map (·.take evidenceMaxChars)).take evidenceMaxItems

/-- Whether a baseline is evaluated; a test that fails does not drop it. -/
def RegistrySpec.applies (spec : RegistrySpec ν) (doc : PyJson ν) : Bool :=
  match spec.appliesWhen doc with
  | .ok applies => applies
  | .error _ => true

/-- The evidence of an element that passed. -/
def extractEvidence (spec : RegistrySpec ν) (id : String) (doc : PyJson ν) : Option (List PyText) :=
  match spec.evidence id with
  -- An extractor that raises leaves the check without evidence, not without a verdict.
  | none => none
  | some extractor =>
      match extractor doc with
      | .ok values => some (clampEvidence values)
      | .error _ => none

/-- What one element of a baseline says of a document. -/
def evaluateElement (spec : RegistrySpec ν) (doc : PyJson ν) (element : RegistryElement) :
    ConformanceCheck ν :=
  -- The subjects are counted once, and every branch reports against that count.
  let subjects := spec.subject doc
  let total := subjects.length
  let check (status : CheckStatus) (detail : String) (missing : List PyText)
      (evidence : Option (List PyText)) : ConformanceCheck ν :=
    { id := element.id
      label := element.label
      required := element.required.getD spec.defaultRequired
      status := status
      detail := PyText.of detail
      missing := missing.map .str
      cluster := some element.cluster
      source := element.source
      role := element.role
      evidence := evidence }
  match spec.missing element.id with
  -- An element about every subject: which of them lack it.
  | some missingFn =>
      match missingFn subjects with
      | .error _ => check .warn "evaluation error" [] none
      | .ok absent =>
          -- A document with no subject cannot pass, whatever its text says.
          if total = 0 then check .warn spec.emptySubjectDetail [] none
          else if absent = [] then
            check .pass s!"{total}/{total} {spec.subjectLabel}(s)" [] (extractEvidence spec element.id doc)
          else
            check .warn s!"{total - absent.length}/{total} {spec.subjectLabel}(s)" (clampMissing absent) none
  | none =>
      -- An element about the document, or one that only a person can judge.
      match spec.predicates element.id with
      | none => check .warn "requires human review (no automated source)" [] none
      | some predicate =>
          -- A predicate that raises is caught, so a hostile document scores a warning.
          match predicate doc with
          | .error _ => check .warn "evaluation error" [] none
          | .ok true => check .pass "present" [] (extractEvidence spec element.id doc)
          | .ok false => check .warn "not present in the SBOM" [] none

/-- What a baseline says of a document. -/
def evaluateRegistry (spec : RegistrySpec ν) (doc : PyJson ν) : List (ConformanceCheck ν) :=
  spec.elements.map (evaluateElement spec doc)

end Registry

section CycloneDx

/-- How deep nested components are walked. -/
def maxComponentDepth : Nat := 64

/-- The components of a list, each followed by what it contains, down to a depth. -/
def walkComponents : Nat → Option (PyJson ν) → List (PyJson ν)
  | 0, _ => []
  | depth + 1, components =>
      ((PyJson.asList components).filter PyJson.isDict).flatMap fun item =>
        item :: walkComponents depth (item.get? "components")

/-- Every component of a list, nested ones included. -/
def iterComponents (components : Option (PyJson ν)) : List (PyJson ν) :=
  walkComponents (maxComponentDepth + 1) components

/-- Whether a component is data or a file, which no package question can be asked of. -/
def isUnmeasurable (component : PyJson ν) : Bool :=
  PyJson.isText (component.get? "type") "data" || PyJson.isText (component.get? "type") "file"

/-- How many tools a document names, in either form. -/
def countTools (metadata : PyJson ν) : Nat :=
  match metadata.get? "tools" with
  -- The list of CycloneDX 1.4, and the object of 1.5 with components and services.
  | some (.arr tools) => tools.length
  | some (.obj fields) =>
      (PyJson.asList ((PyJson.obj fields).get? "components")).length +
        (PyJson.asList ((PyJson.obj fields).get? "services")).length
  | _ => 0

/-- The edges of the dependency graph. -/
def countEdges (doc : PyJson ν) : Nat :=
  (((PyJson.asList (doc.get? "dependencies")).filter PyJson.isDict).map fun entry =>
    (PyJson.asList (entry.get? "dependsOn")).length).sum

/-- The properties of a component that are objects. -/
def propertiesOf (component : PyJson ν) : List (PyJson ν) :=
  (PyJson.asList (component.get? "properties")).filter PyJson.isDict

/-- Whether a component has a property of a name. -/
def hasProperty (name : String) (component : PyJson ν) : Bool :=
  (propertiesOf component).any fun prop => PyJson.isText (prop.get? "name") name

/-- The properties of a delivered file. -/
def filePropertyNames : List String :=
  ["bsi:component:executable", "bsi:component:archive", "bsi:component:structured"]

/-- Whether a component has a checksum that regulators ask for. -/
def hasSha512 (component : PyJson ν) : Bool :=
  (PyJson.asList (component.get? "hashes")).any fun hash =>
    hash.isDict && PyJson.isText (hash.get? "alg") "SHA-512"

/-- Whether a component names its source or where it is distributed. -/
def hasArtifactUri (component : PyJson ν) : Bool :=
  (PyJson.asList (component.get? "externalReferences")).any fun reference =>
    reference.isDict && (PyJson.isText (reference.get? "type") "vcs" ||
      PyJson.isText (reference.get? "type") "distribution")

variable (py : PyRuntime ν)

/-- Whether a component names who made it. -/
def hasCreator (component : PyJson ν) : Bool :=
  py.truthy (component.get? "authors") || py.truthy (component.get? "publisher") ||
    py.truthy (component.get? "supplier") || py.truthy (component.get? "manufacturer")

/-- The name of a component, always a text. -/
def displayName (component : PyJson ν) : PyText :=
  py.str (py.either (component.get? "name") (py.either (component.get? "purl") (.str (PyText.of "(unnamed)"))))

/-- The components without a name or a version. -/
def missNameVersion (pkg : List (PyJson ν)) : List (PyJson ν) :=
  (pkg.filter fun c => !py.truthy (c.get? "name") || !py.truthy (c.get? "version")).map fun c =>
    .str (displayName py c)

/-- The names of the components without a package URL, as they stand in the document. -/
def missPurl (pkg : List (PyJson ν)) : List (PyJson ν) :=
  (pkg.filter fun c => !py.truthy (c.get? "purl")).map fun c =>
    py.either (c.get? "name") (.str (PyText.of "(unnamed)"))

/-- The names of the components with a generic package URL. -/
def genericComponents (components : List (PyJson ν)) : List (PyJson ν) :=
  components.filterMap fun c =>
    -- A purl that is no text is passed over; a generic one is named, or shown when it has no name.
    match c.get? "purl" with
    | some (.str purl) =>
        if purl.startsWith "pkg:generic" then some (.str (py.str (py.either (c.get? "name") (.str purl))))
        else none
    | _ => none

/-- A coverage, or that there is nothing to cover. -/
def coverageDetail (part whole : Nat) : String :=
  if whole = 0 then "no packages to measure" else s!"{pct part whole}% ({part}/{whole})"

/-- How many items have a property. -/
def tally {α : Type} (items : List α) (holds : α → Bool) : Nat := (items.filter holds).length

/-- The status of a check that is met, or of the given kind when it is not. -/
def passOr (other : CheckStatus) (met : Bool) : CheckStatus := if met then .pass else other

/-- The scorer for CycloneDX documents, before the baselines. -/
def cdxCoreChecks (thresholds : ConformanceThresholds) (doc : PyJson ν) : ScoreResult ν :=
  let components := iterComponents (doc.get? "components")
  let tot := components.length
  let metadata := PyJson.asDict (doc.get? "metadata")
  let nTools := countTools metadata
  let pkg := components.filter fun c => !isUnmeasurable c
  let ptot := pkg.length
  let files := components.filter fun c => PyJson.isText (c.get? "type") "file"
  let hashed (c : PyJson ν) : Bool := !(PyJson.asList (c.get? "hashes")).isEmpty
  let filesHashed := tally files hashed
  let missFileHash : List (PyJson ν) := (files.filter fun c => !hashed c).map fun c => .str (displayName py c)
  let missNv := missNameVersion py pkg
  let missingPurls := missPurl py pkg
  let generic := genericComponents py components
  let licOk := tally components fun c => py.truthy (c.get? "licenses")
  let hashOk := tally components fun c => py.truthy (c.get? "hashes")
  let depEdges := countEdges doc
  let ts := py.either (metadata.get? "timestamp") (.str [])
  let top := PyJson.asDict (metadata.get? "component")
  let purlOk := ptot - missingPurls.length
  let creatorOk := tally pkg (hasCreator py)
  let fnameOk := tally pkg (hasProperty "bsi:component:filename")
  let sha512Ok := tally components hasSha512
  let uriOk := tally pkg hasArtifactUri
  let fpropsOk := tally pkg fun c => filePropertyNames.all fun name => hasProperty name c
  let purlPct := pct purlOk ptot
  let licPct := pct licOk tot
  let hashPct := pct hashOk tot
  -- A document whose components are all data or files is no package inventory.
  let noPackages := 0 < tot && ptot == 0
  let excludedCount := tot - ptot
  let measured :=
    if excludedCount = 0 then ""
    else s!" [{ptot} package component(s) measured, {excludedCount} file/data excluded]"
  let dataOnlyDetail :=
    "no package components to measure — every component is typed \"data\" or \"file\""
  let field (ok whole : Nat) : CheckStatus :=
    passOr .warn (whole == 0 || thresholds.fieldMinPct ≤ (pct ok whole : Int))
  let checks : List (ConformanceCheck ν) :=
    [{ id := "timestamp", label := "Timestamp (metadata.timestamp)", required := true
       status := passOr .fail (py.truthy (some ts)), detail := py.str ts },
     { id := "tools", label := "Tool info (metadata.tools)", required := true
       status := passOr .fail (0 < nTools), detail := PyText.of s!"{nTools} tool(s)" },
     { id := "top-component", label := "Top-level component name+version", required := true
       status := passOr .fail (py.truthy (top.get? "name") && py.truthy (top.get? "version"))
       detail := py.str (py.either (top.get? "name") (.str (PyText.of "(none)"))) ++ PyText.of "@" ++
         py.str (py.either (top.get? "version") (.str [])) },
     { id := "name-version", label := "Component name+version coverage (100%)", required := true
       status := if noPackages then .warn else passOr .fail missNv.isEmpty
       detail := PyText.of (if noPackages then dataOnlyDetail
         else s!"{ptot - missNv.length}/{ptot}{measured}")
       missing := capMissing missNv },
     { id := "purl", label := s!"PURL coverage (>= {thresholds.purlMinPct}%)", required := true
       status := if noPackages then .warn
         else passOr .fail (ptot == 0 || thresholds.purlMinPct ≤ (purlPct : Int))
       detail := PyText.of (if noPackages then dataOnlyDetail else coverageDetail purlOk ptot ++ measured)
       missing := capMissing missingPurls },
     { id := "no-generic", label := "No pkg:generic / custom PURL (0)", required := true
       status := passOr .fail generic.isEmpty, detail := PyText.of s!"{generic.length} offending"
       missing := capMissing generic },
     { id := "transitive", label := "Transitive dependencies (graph edges)", required := true
       status := passOr .fail (0 < depEdges), detail := PyText.of s!"{depEdges} edge(s)" },
     { id := "license", label := s!"License coverage (>= {thresholds.licenseMinPct}%, recommended)"
       required := false, status := passOr .warn (thresholds.licenseMinPct ≤ (licPct : Int))
       detail := PyText.of s!"{licPct}% ({licOk}/{tot})" },
     { id := "hash", label := s!"Hash coverage (>= {thresholds.hashMinPct}%, recommended)"
       required := false, status := passOr .warn (thresholds.hashMinPct ≤ (hashPct : Int))
       detail := PyText.of s!"{hashPct}% ({hashOk}/{tot})" },
     { id := "hash-algorithm"
       label := s!"SHA-512 checksum coverage (>= {thresholds.fieldMinPct}%, recommended)"
       required := false, status := field sha512Ok tot
       detail := PyText.of (if tot = 0 then "nothing to measure"
         else s!"{pct sha512Ok tot}% ({sha512Ok}/{tot})") },
     { id := "component-creator"
       label := s!"Component creator coverage (>= {thresholds.fieldMinPct}%, recommended)"
       required := false, status := field creatorOk ptot
       detail := PyText.of (coverageDetail creatorOk ptot) },
     { id := "component-filename"
       label := s!"Component filename coverage (>= {thresholds.fieldMinPct}%, recommended)"
       required := false, status := field fnameOk ptot, detail := PyText.of (coverageDetail fnameOk ptot) },
     { id := "artifact-uri"
       label := s!"Source or distribution URI coverage (>= {thresholds.fieldMinPct}%, recommended)"
       required := false, status := field uriOk ptot, detail := PyText.of (coverageDetail uriOk ptot) },
     { id := "file-hash", label := "File components carrying a hash (recommended)", required := false
       status := passOr .warn (files.isEmpty || missFileHash.isEmpty)
       detail := PyText.of (if files.isEmpty then "no file components"
         else coverageDetail filesHashed files.length)
       missing := capMissing missFileHash },
     { id := "file-properties", label := "Delivered-file properties (executable/archive/structured)"
       required := false, status := field fpropsOk ptot
       detail := PyText.of (if ptot = 0 then "no packages to measure"
         else if fpropsOk = 0 then
           "requires inspecting the delivered files (no automated source in this scan)"
         else s!"{pct fpropsOk ptot}% ({fpropsOk}/{ptot})")
       source := some (if ptot == 0 || 0 < fpropsOk then "auto" else "na") }]
  { checks := checks, componentCount := tot, purlPct := some purlPct, licensePct := some licPct
    hashPct := some hashPct }

/-- The scorer for CycloneDX documents: the baselines that apply come behind its own checks. -/
def cdxChecks (thresholds : ConformanceThresholds) (baselines : List (RegistrySpec ν)) (doc : PyJson ν) :
    ScoreResult ν :=
  -- Each baseline that applies adds its own elements after the checks of the format.
  let core := cdxCoreChecks py thresholds doc
  { core with
    checks := core.checks ++ (baselines.filter fun spec => spec.applies doc).flatMap fun spec =>
      evaluateRegistry spec doc }

end CycloneDx

section Spdx

variable (py : PyRuntime ν)

/-- The package URLs of a package, as they stand in the document. -/
def extPurls (package : PyJson ν) : List (PyJson ν) :=
  ((PyJson.asList (package.get? "externalRefs")).filter fun reference =>
    reference.isDict && PyJson.isText (reference.get? "referenceType") "purl").map fun reference =>
      py.either (reference.get? "referenceLocator") (.str [])

/-- A package URL that is generic; only texts can be asked for their start. -/
def genericLocator : PyJson ν → Except PyError (Option PyText)
  | .str purl => .ok (if purl.startsWith "pkg:generic" then some purl else none)
  | _ => .error .attributeError

/-- Whether a license is stated at all. -/
def statesLicense (value : Option (PyJson ν)) : Bool :=
  py.truthy value && !PyJson.isText value "NOASSERTION"

/-- The name of a package as it stands in the document. -/
def packageName (package : PyJson ν) : PyJson ν :=
  py.either (package.get? "name") (.str (PyText.of "(unnamed)"))

/-- The packages of a document. -/
def spdxPackages (doc : PyJson ν) : List (PyJson ν) :=
  (PyJson.asList (doc.get? "packages")).filter PyJson.isDict

/-- The names of the packages without a name or a version. -/
def spdxMissNameVersion (packages : List (PyJson ν)) : List (PyJson ν) :=
  (packages.filter fun p => !py.truthy (p.get? "name") || !py.truthy (p.get? "versionInfo")).map
    (packageName py)

/-- The names of the packages without a package URL. -/
def spdxMissPurl (packages : List (PyJson ν)) : List (PyJson ν) :=
  (packages.filter fun p => (extPurls py p).isEmpty).map (packageName py)

/-- The scorer for SPDX documents in JSON. -/
def spdxJsonChecks (thresholds : ConformanceThresholds) (doc : PyJson ν) :
    Except PyError (ScoreResult ν) := do
  -- Read what every check asks of the packages, before the checks themselves.
  let packages := spdxPackages doc
  let tot := packages.length
  let creation := PyJson.asDict (doc.get? "creationInfo")
  let nTools := tally (PyJson.asList (creation.get? "creators")) fun creator =>
    match creator with
    | .str text => text.startsWith "Tool:"
    | _ => false
  let ts := py.either (creation.get? "created") (.str [])
  let missNv := spdxMissNameVersion py packages
  let missingPurls := spdxMissPurl py packages
  let locators ← (packages.flatMap (extPurls py)).mapM genericLocator
  let generic := locators.reduceOption
  -- Either licence field of the package counts.
  let licOk := tally packages fun p =>
    statesLicense py (p.get? "licenseConcluded") || statesLicense py (p.get? "licenseDeclared")
  let hashOk := tally packages fun p => py.truthy (p.get? "checksums")
  let depEdges := tally (PyJson.asList (doc.get? "relationships")) fun relation =>
    relation.isDict && PyJson.isText (relation.get? "relationshipType") "DEPENDS_ON"
  let docname := py.either (doc.get? "name") (.str [])
  let describes := (PyJson.asList (doc.get? "documentDescribes")).length
  let purlOk := tot - missingPurls.length
  let purlPct := pct purlOk tot
  let licPct := pct licOk tot
  let hashPct := pct hashOk tot
  -- Nine checks: the required ones fail, the recommended ones warn.
  let checks : List (ConformanceCheck ν) :=
    [{ id := "timestamp", label := "Timestamp (creationInfo.created)", required := true
       status := passOr .fail (py.truthy (some ts)), detail := py.str ts },
     { id := "tools", label := "Tool info (creationInfo.creators Tool:)", required := true
       status := passOr .fail (0 < nTools), detail := PyText.of s!"{nTools} tool(s)" },
     { id := "top-component", label := "Document name + described root", required := true
       status := passOr .fail (py.truthy (some docname) && (0 < describes || 0 < tot))
       detail := py.str docname },
     { id := "name-version", label := "Package name+version coverage (100%)", required := true
       status := passOr .fail missNv.isEmpty, detail := PyText.of s!"{tot - missNv.length}/{tot}"
       missing := capMissing missNv },
     { id := "purl", label := s!"PURL coverage (>= {thresholds.purlMinPct}%)", required := true
       status := passOr .fail (tot == 0 || thresholds.purlMinPct ≤ (purlPct : Int))
       detail := PyText.of (coverageDetail purlOk tot), missing := capMissing missingPurls },
     { id := "no-generic", label := "No pkg:generic / custom PURL (0)", required := true
       status := passOr .fail generic.isEmpty, detail := PyText.of s!"{generic.length} offending"
       missing := capMissing (generic.map .str) },
     { id := "transitive", label := "Transitive dependencies (DEPENDS_ON)", required := true
       status := passOr .fail (0 < depEdges), detail := PyText.of s!"{depEdges} edge(s)" },
     { id := "license", label := s!"License coverage (>= {thresholds.licenseMinPct}%, recommended)"
       required := false, status := passOr .warn (thresholds.licenseMinPct ≤ (licPct : Int))
       detail := PyText.of s!"{licPct}% ({licOk}/{tot})" },
     { id := "hash", label := s!"Hash coverage (>= {thresholds.hashMinPct}%, recommended)"
       required := false, status := passOr .warn (thresholds.hashMinPct ≤ (hashPct : Int))
       detail := PyText.of s!"{hashPct}% ({hashOk}/{tot})" }]
  return { checks := checks, componentCount := tot, purlPct := some purlPct, licensePct := some licPct
           hashPct := some hashPct }

/-- The lines of a text. -/
def linesOf (text : PyText) : List PyText := text.splitOn 10

/-- Whether a line starts with a tag, a blank or none, and a word. -/
def taggedLine (tag word : String) (line : PyText) : Bool :=
  line.startsWith (tag ++ word) || line.startsWith (tag ++ " " ++ word)

/-- Whether a generic package URL is given at the start of a text. -/
def genericRefHere (text : PyText) : Bool :=
  text.startsWith "purl " && PyText.startsWith ((text.drop 4).dropWhile (· == 32)) "pkg:generic"

/-- Whether a line states a dependency. -/
def dependencyLine (line : PyText) : Bool :=
  line.startsWith "Relationship:" &&
    (line.drop "Relationship:".length).tails.any (PyText.of "DEPENDS_ON").isPrefixOf

/-- The scorer for SPDX documents in tag-value form, by what is present. -/
def spdxTvChecks (text : PyText) : ScoreResult ν :=
  let lines := linesOf text
  -- No parser here: each check counts lines that start with its tag.
  let starting (tag : String) : Nat := tally lines fun line => line.startsWith tag
  let ts := starting "Created:"
  let nTools := tally lines (taggedLine "Creator:" "Tool:")
  let names := starting "PackageName:"
  let vers := starting "PackageVersion:"
  let purls := tally lines (taggedLine "ExternalRef:" "PACKAGE-MANAGER purl")
  -- This one expression is not bound to the start of a line.
  let generic := tally text.tails genericRefHere
  let deps := tally lines dependencyLine
  let lics := starting "PackageLicenseConcluded:"
  let hashes := starting "PackageChecksum:"
  let checks : List (ConformanceCheck ν) :=
    [{ id := "timestamp", label := "Timestamp (Created:)", required := true
       status := passOr .fail (0 < ts), detail := PyText.of s!"{ts} found" },
     { id := "tools", label := "Tool info (Creator: Tool:)", required := true
       status := passOr .fail (0 < nTools), detail := PyText.of s!"{nTools} tool(s)" },
     { id := "top-component", label := "Document/package present", required := true
       status := passOr .fail (0 < names), detail := PyText.of s!"{names} package(s)" },
     -- Only the numbers of the two tags are compared, not which package has which.
     { id := "name-version", label := "PackageName + PackageVersion present", required := true
       status := passOr .fail (0 < names && names ≤ vers)
       detail := PyText.of s!"names={names}, versions={vers}" },
     { id := "purl", label := "PURL external refs present", required := true
       status := passOr .fail (0 < purls && names ≤ purls)
       detail := PyText.of s!"{purls} purl ref(s) for {names} package(s)" },
     { id := "no-generic", label := "No pkg:generic / custom PURL (0)", required := true
       status := passOr .fail (generic == 0), detail := PyText.of s!"{generic} offending" },
     { id := "transitive", label := "Transitive dependencies (DEPENDS_ON)", required := true
       status := passOr .fail (0 < deps), detail := PyText.of s!"{deps} relationship(s)" },
     { id := "license", label := "License present (recommended)", required := false
       status := passOr .warn (0 < lics), detail := PyText.of s!"{lics} license field(s)" },
     { id := "hash", label := "Checksums present (recommended)", required := false
       status := passOr .warn (0 < hashes), detail := PyText.of s!"{hashes} checksum(s)" }]
  { checks := checks, componentCount := names, purlPct := none, licensePct := none, hashPct := none }

end Spdx

section Evaluate

/-- What the decoder makes of a text: a value, nothing when it is no JSON, or no end of its nesting. -/
inductive LoadedJson (ν : Type) where
  | value (doc : PyJson ν)
  | invalid
  | tooDeep

/-- Submitted bytes: the text they stand for, and what the decoder makes of it. -/
structure SubmittedSbom (ν : Type) where
  text : PyText
  loaded : LoadedJson ν

/-- The formats that are told apart, with the document that was decoded. -/
inductive DetectedFormat (ν : Type) where
  | cyclonedx (doc : PyJson ν)
  | spdxJson (doc : PyJson ν)
  | spdxTv
  | unknown

/-- The name of a format. -/
def DetectedFormat.name : DetectedFormat ν → String
  | .cyclonedx _ => "cyclonedx"
  | .spdxJson _ => "spdx-json"
  | .spdxTv => "spdx-tv"
  | .unknown => "unknown"

/-- Whether a value is there, and is not null. -/
def isGiven : Option (PyJson ν) → Bool
  | none | some .null => false
  | _ => true

/-- The format of a text that is no JSON object of a known kind. -/
def detectTagValue (text : PyText) : DetectedFormat ν :=
  if (linesOf text).any fun line => line.startsWith "SPDXVersion:" then .spdxTv else .unknown

/-- Detect the format of submitted bytes; a decoder that finds no end is not caught. -/
def detectFormat (upload : SubmittedSbom ν) : Except PyError (DetectedFormat ν) :=
  -- `json.loads` may run out of stack, and the caller does not catch that.
  match upload.loaded with
  | .tooDeep => .error .recursionError
  | .value (.obj fields) =>
      let doc := PyJson.obj fields
      -- CycloneDX first, so a document that claims both is read as CycloneDX
      if PyJson.isText (doc.get? "bomFormat") "CycloneDX" && isGiven (doc.get? "specVersion") then
        .ok (.cyclonedx doc)
      else if isGiven (doc.get? "spdxVersion") then .ok (.spdxJson doc)
      else .ok (detectTagValue upload.text)
  -- An array, a text, or no JSON: only the tag-value test is left.
  | _ => .ok (detectTagValue upload.text)

variable (py : PyRuntime ν)

/-- Score a document in its format. -/
def scoreFormat (thresholds : ConformanceThresholds) (baselines : List (RegistrySpec ν)) (text : PyText) :
    DetectedFormat ν → Except PyError (ScoreResult ν)
  | .cyclonedx doc => .ok (cdxChecks py thresholds baselines doc)
  | .spdxJson doc => spdxJsonChecks py thresholds doc
  | .spdxTv => .ok (spdxTvChecks text)
  -- An unknown format is one failed check and no counts.
  | .unknown =>
      .ok { checks :=
              [{ id := "format", label := "Recognized SBOM format", required := true, status := .fail
                 detail := PyText.of "not CycloneDX or SPDX (JSON / Tag-Value)" }]
            componentCount := 0, purlPct := none, licensePct := none, hashPct := none }

/-- Score submitted bytes. -/
def evaluateConformance (thresholds : ConformanceThresholds) (baselines : List (RegistrySpec ν))
    (upload : SubmittedSbom ν) : Except PyError (ConformanceResult ν) := do
  let format ← detectFormat upload
  -- One score for the format found, and the verdict from its counts.
  let score ← scoreFormat py thresholds baselines upload.text format
  let nFail := tally score.checks fun check => check.required && check.status = .fail
  let nWarn := tally score.checks fun check =>
    -- The elements of a baseline and the regulatory fields are shown, and count towards no verdict.
    check.status = .warn && check.cluster.isNone && !regulatoryFieldCheckIds.contains check.id
  return {
    sourceFormat := format.name
    result := if 0 < nFail then .fail else if 0 < nWarn then .warn else .pass
    checks := score.checks
    nFail := nFail
    nWarn := nWarn
    componentCount := score.componentCount
    purlCoveragePct := score.purlPct
    licenseCoveragePct := score.licensePct
    hashCoveragePct := score.hashPct }

end Evaluate

end Trusca
