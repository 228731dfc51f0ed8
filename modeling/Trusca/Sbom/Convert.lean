import Trusca.Account.SecondFactor
import Trusca.Data.Json
import Trusca.Data.Lines
import Trusca.Dependency.Lockfile

/-! Reading an uploaded SPDX document, as JSON or as tags and values, into components and dependencies. -/

namespace Trusca

/-- A licence of a component: one id, or an expression. -/
inductive IngestLicense where
  | expression (text : String)
  | id (text : String)
  deriving Repr, DecidableEq

/-- A hash of a component. -/
structure IngestHash where
  alg : Option Json
  content : Json
  deriving DecidableEq

/-- A component that is read. -/
structure IngestComponent where
  name : String
  version : Json
  bomRef : Option String
  purl : Option String
  licenses : List IngestLicense
  hashes : List IngestHash
  deriving DecidableEq

/-- What one element depends on. -/
structure IngestDependency where
  ref : String
  dependsOn : List String
  deriving Repr, DecidableEq

/-- What is read of a document. -/
structure IngestDoc where
  timestamp : Option String
  componentName : Option String
  components : List IngestComponent
  dependencies : List IngestDependency
  deriving DecidableEq

section Licenses

variable (isWordChar : Char → Bool)

/-- The words that join licences. -/
def expressionWords : List (List Char) := ["OR".toList, "AND".toList, "WITH".toList]

/-- Whether a text has a parenthesis or a joining word; the flag says whether a word goes on. -/
def hasExpressionToken : Bool → List Char → Bool
  -- A bracket, or AND, OR or WITH between word boundaries.
  | _, [] => false
  | inWord, character :: rest =>
      character == '(' || character == ')' ||
        (!inWord && expressionWords.any fun word =>
          word.isPrefixOf (character :: rest) &&
            !((character :: rest).drop word.length).head?.any isWordChar) ||
        hasExpressionToken (isWordChar character) rest

/-- The values that name no licence. -/
def noLicense : List String := ["", "NOASSERTION", "NONE"]

/-- The licences of a component: those of the first field that names any. -/
def licenseEntries (candidates : List (Option String)) : List IngestLicense :=
  -- The first field that is neither blank, NONE nor NOASSERTION.
  match candidates.findSome? fun candidate =>
    (candidate.map strip).filter fun value =>
      !noLicense.contains (String.ofList (value.toList.flatMap upperChars)) with
  | none => []
  | some value => if hasExpressionToken isWordChar false value.toList then [.expression value] else [.id value]

end Licenses

section Relationships

/-- A child under its parent, once. -/
def addDependency (parent child : String) : List IngestDependency → List IngestDependency
  -- A parent seen for the first time, or one whose children grow by one not seen before.
  | [] => [⟨parent, [child]⟩]
  | entry :: rest =>
      if entry.ref = parent then
        if entry.dependsOn.contains child then entry :: rest
        else { entry with dependsOn := entry.dependsOn ++ [child] } :: rest
      else entry :: addDependency parent child rest

/-- The text that a value is. -/
def Json.asText : Json → Option String
  | .str text => some text
  | _ => none

/-- The ends of a relationship that is a dependency. -/
def dependsOnEnds (rel : Json) : Option (String × String) :=
  -- A relationship of another type, or one whose ends are no texts, is passed over.
  if rel.get? "relationshipType" = some (.str "DEPENDS_ON") then
    match (rel.get? "spdxElementId").bind Json.asText, (rel.get? "relatedSpdxElement").bind Json.asText with
    | some parent, some child => some (parent, child)
    | _, _ => none
  else none

/-- The dependencies that the relationships state. -/
def spdxRelationshipsToDependencies (relationships : List Json) : List IngestDependency :=
  (relationships.filterMap dependsOnEnds).foldl
    (fun adjacency (parent, child) => addDependency parent child adjacency) []

end Relationships

/-- The elements of a field that is read as a list; an absent or empty value has none, and a value that
cannot be iterated fails. -/
def orEmptyList (value : Option Json) : Option (List Json) :=
  if truthy value then
    -- `value or []` walks whatever is truthy: an array, the keys of an object, the characters of a text.
    match value with
    | some (.arr items) => some items
    | some (.obj fields) => some (fields.map fun field => .str field.1)
    | some (.str text) => some (text.toList.map fun character => .str (String.singleton character))
    -- A number or `True` cannot be walked, and the loop raises.
    | _ => none
  else some []

section JsonForm

variable (isWordChar : Char → Bool)

/-- The package URL that an external reference gives. -/
def jsonPurl (ref : Json) : Option String :=
  if ref.get? "referenceType" = some (.str "purl") then
    ((ref.get? "referenceLocator").bind Json.asText).filter fun locator => locator != ""
  else none

/-- The hash that a checksum gives. -/
def jsonHash (checksum : Json) : Option IngestHash :=
  match checksum with
  | .obj _ =>
      -- A checksum without a value is skipped.
      if truthy (checksum.get? "checksumValue") then
        some ⟨some ((checksum.get? "algorithm").getD .null), (checksum.get? "checksumValue").getD .null⟩
      else none
  | _ => none

/-- The component of a package; none without a name. -/
def jsonComponent (pkg : Json) : Option (Option IngestComponent) :=
  -- A package without a name is skipped, before its other fields are read.
  match ((pkg.get? "name").bind Json.asText).filter fun name => name != "" with
  | none => some none
  | some name => do
      let refs ← orEmptyList (pkg.get? "externalRefs")
      return some
        { name
          -- `or ""`, so a falsy version becomes the empty text.
          version := if truthy (pkg.get? "versionInfo") then (pkg.get? "versionInfo").getD .null else .str ""
          bomRef := ((pkg.get? "SPDXID").bind Json.asText).filter fun spdxId => spdxId != ""
          -- The first reference that yields a purl.
          purl := refs.findSome? jsonPurl
          licenses := licenseEntries isWordChar
            [(pkg.get? "licenseConcluded").bind Json.asText, (pkg.get? "licenseDeclared").bind Json.asText]
          hashes := match pkg.get? "checksums" with
            | some (.arr checksums) => checksums.filterMap jsonHash
            | _ => [] }

/-- Whether a value is an object. -/
def Json.isObject : Json → Bool
  | .obj _ => true
  | _ => false

/-- Reading a document in JSON; none where the source fails on the shape of a value. -/
def spdxJsonToCdx (doc : Json) : Option IngestDoc := do
  -- Everything is read before the document is put together, so one bad field loses it all.
  let packages ← orEmptyList (doc.get? "packages")
  let components ← (packages.filter Json.isObject).mapM (jsonComponent isWordChar)
  let relationships ← orEmptyList (doc.get? "relationships")
  -- A falsy `creationInfo` is replaced by an empty object, any other non-object raises.
  let created ← if truthy (doc.get? "creationInfo") then
    match doc.get? "creationInfo" with
    | some (.obj fields) => some ((Json.get? (.obj fields) "created").bind Json.asText)
    | _ => none
    else some none
  return {
    timestamp := created
    componentName := ((doc.get? "name").bind Json.asText).filter fun name => name != ""
    components := components.reduceOption
    dependencies := spdxRelationshipsToDependencies relationships }

end JsonForm

section TagValueForm

variable (isWordChar : Char → Bool)

/-- The package that is being read. -/
structure TvPackage where
  name : String
  spdxId : Option String := none
  version : Option String := none
  licenseConcluded : Option String := none
  licenseDeclared : Option String := none
  checksum : Option String := none
  purl : Option String := none
  deriving Repr, DecidableEq

/-- How far a document is read. -/
structure TvState where
  components : List IngestComponent
  relationships : List Json
  timestamp : Option String
  componentName : Option String
  current : Option TvPackage
  deriving DecidableEq

/-- A text unless it is empty. -/
def filled (text : Option String) : Option String := text.filter fun text => text != ""

/-- The component of a package; none without a name. -/
def TvPackage.component (pkg : TvPackage) : Option IngestComponent :=
  -- A block without a name is dropped when the next one starts.
  if pkg.name = "" then none
  else some
    { name := pkg.name
      version := .str (pkg.version.getD "")
      bomRef := filled pkg.spdxId
      purl := filled pkg.purl
      licenses := licenseEntries isWordChar [pkg.licenseConcluded, pkg.licenseDeclared]
      -- Tag-value keeps one checksum, and its algorithm stays in the text.
      hashes := match filled pkg.checksum with
        | none => []
        | some checksum => [⟨none, .str checksum⟩] }

/-- The components, with that of the package that is being read. -/
def TvState.flushed (state : TvState) : List IngestComponent :=
  state.components ++ (state.current.bind (TvPackage.component isWordChar)).toList

/-- What follows a literal text. -/
def afterText (literal : String) (text : List Char) : Option (List Char) :=
  if literal.toList.isPrefixOf text then some (text.drop literal.toList.length) else none

/-- What follows one or more spaces. -/
def afterSpaces (text : List Char) : Option (List Char) :=
  if text.head?.any isSpace then some (text.dropWhile isSpace) else none

/-- The word after `purl`. -/
def wordAfterPurl (text : List Char) : Option String := do
  let rest ← afterText "purl" text
  let rest ← afterSpaces rest
  let word := rest.takeWhile fun character => !isSpace character
  if word.isEmpty then none else some (String.ofList word)

/-- The package URL that the value of an external reference gives. -/
def tvPurl (value : String) : Option String :=
  (do let rest ← afterText "PACKAGE-MANAGER" value.toList
      let rest ← afterSpaces rest
      wordAfterPurl rest).or (wordAfterPurl value.toList)

/-- The dependency that the value of a relationship gives. -/
def tvDependsOn (value : String) : Option Json :=
  match (splitWords value.toList).map String.ofList with
  -- Three words, and no other relationship.
  | [parent, type, child] =>
      if type = "DEPENDS_ON" then
        some (.obj [("relationshipType", .str "DEPENDS_ON"), ("spdxElementId", .str parent),
          ("relatedSpdxElement", .str child)])
      else none
  | _ => none

/-- The digest in the value of a checksum, or the value itself. -/
def tvChecksum (value : String) : String :=
  let digest := strip (String.ofList ((value.toList.dropWhile (· != ':')).drop 1))
  if digest = "" then value else digest

/-- Reading a tag of a package. -/
def TvPackage.read (pkg : TvPackage) (tag value : String) : TvPackage :=
  -- The last `SPDXID`, version or licence line wins.
  if tag = "SPDXID" then { pkg with spdxId := some value }
  else if tag = "PackageVersion" then { pkg with version := some value }
  else if tag = "PackageLicenseConcluded" then { pkg with licenseConcluded := some value }
  else if tag = "PackageLicenseDeclared" then { pkg with licenseDeclared := some value }
  -- The first checksum and the first purl reference stay.
  else if tag = "PackageChecksum" then { pkg with checksum := pkg.checksum.or (some (tvChecksum value)) }
  else if tag = "ExternalRef" then { pkg with purl := pkg.purl.or (tvPurl value) }
  else pkg

/-- Reading one tag with its value. -/
def TvState.step (state : TvState) (pair : String × String) : TvState :=
  let (tag, value) := pair
  -- The document's own tags count once each, the first time.
  if tag = "Created" ∧ state.timestamp = none then { state with timestamp := some value }
  else if tag = "DocumentName" ∧ state.componentName = none then { state with componentName := some value }
  -- A new package closes the one before.
  else if tag = "PackageName" then
    { state with components := state.flushed isWordChar, current := some { name := value } }
  else if tag = "Relationship" then
    { state with relationships := state.relationships ++ (tvDependsOn value).toList }
  -- Any other tag belongs to the open package, or to nothing before the first.
  else { state with current := state.current.map fun pkg => pkg.read tag value }

/-- Reading a document of tags and values. -/
def spdxTvToCdx (text : String) : IngestDoc :=
  -- The last package is closed by the end of the text.
  let state := ((splitlines text.toList).map tagValue).foldl (TvState.step isWordChar)
    ⟨[], [], none, none, none⟩
  { timestamp := state.timestamp
    componentName := state.componentName
    components := state.flushed isWordChar
    dependencies := spdxRelationshipsToDependencies state.relationships }

end TagValueForm

/-- An upload: a text, and what it is as JSON when it is JSON. -/
inductive SbomUpload where
  | json (doc : Json)
  | text (content : String)

/-- Whether a line of the text starts with the tag of the version. -/
def startsWithVersion (text : List Char) : Bool :=
  ('\n' :: text).tails.any fun rest => "\nSPDXVersion:".toList.isPrefixOf rest

/-- The components and dependencies of an upload; none for a format that is not supported or a value of a
wrong shape. A document in CycloneDX is passed on as it is. -/
def toCyclonedx (isWordChar : Char → Bool) : SbomUpload → Option (Json ⊕ IngestDoc)
  | .json doc =>
      -- CycloneDX is passed on as it came, SPDX is converted
      if doc.get? "bomFormat" = some (.str "CycloneDX") ∧ (doc.get? "specVersion").getD .null ≠ .null then
        some (.inl doc)
      else if (doc.get? "spdxVersion").getD .null ≠ .null then (spdxJsonToCdx isWordChar doc).map .inr
      else none
  | .text content =>
      -- What is neither is refused, as `None`.
      if startsWithVersion content.toList then some (.inr (spdxTvToCdx isWordChar content)) else none

end Trusca
