import Trusca.Data.Segments
import Trusca.Dependency.Lockfile

/-! The filter that takes what does not ship out of an SBOM: test and build dependencies by their scope, and
components that only the manifests of tests and examples name. -/

namespace Trusca

open Store

section Vocabulary

/-- The scopes of Maven components that are not deployed. -/
def mavenDropScopes : List String := ["optional", "excluded"]

/-- Directories whose manifests do not ship with the product. -/
def nonDeployableDirNames : List String :=
  ["test", "tests", "__tests__", "testdata", "fixtures", "e2e", "example", "examples", "sample", "samples",
    "demo", "demos", "benchmark", "benchmarks", "bench"]

/-- The property that names the manifests of a component. -/
def srcFileProperty : String := "SrcFile"

/-- The property that records what was filtered. -/
def filterPropertyName : String := "trusca:scope_filter"

/-- The most dropped components that are recorded by name. -/
def maxDroppedRefsRecorded : Nat := 200

/-- The filters, each of which can be turned off. -/
inductive ScopePredicate where
  | maven
  | npm
  | nonDeployablePath
  deriving Repr, DecidableEq

/-- The key that the drops of a filter are counted under. -/
def ScopePredicate.key : ScopePredicate → String
  | .maven => "maven"
  | .npm => "npm"
  | .nonDeployablePath => "non_deployable_path"

/-- What came of one pass. -/
structure ScopeFilterResult where
  applied : Bool
  dropped : List (String × Nat) := []
  keptComponents : Nat := 0
  droppedRefs : List String := []
  deriving Repr, DecidableEq

/-- What ends a pass: a value is looked up in a set that cannot be in one. -/
inductive ScopeFilterError where
  | unhashable
  deriving Repr, DecidableEq

end Vocabulary

section Manifests

/-- The parts of a property between line breaks, written out or as two characters. -/
def splitSrcFile : List Char → List (List Char)
  | [] => [[]]
  -- A newline, or the two characters that cdxgen writes in its place.
  | '\n' :: rest => [] :: splitSrcFile rest
  | '\\' :: 'n' :: rest => [] :: splitSrcFile rest
  | character :: rest =>
      match splitSrcFile rest with
      | [] => [[character]]
      | part :: parts => (character :: part) :: parts

/-- The manifests that a property names. -/
def propertyPaths (prop : Json) : List String :=
  match prop.get? "name", prop.get? "value" with
  | some (.str name), some (.str value) =>
      -- Only the source-file property, and no blank part of it.
      if name = srcFileProperty then
        ((splitSrcFile value.toList).map String.ofList).filter fun part => strip part ≠ ""
      else []
  | _, _ => []

/-- Every manifest that is recorded for a component. -/
def manifestPaths (component : Json) : List String :=
  match component.get? "properties" with
  | some (.arr properties) => properties.flatMap propertyPaths
  | _ => []

/-- A path as it is compared: with one kind of slash, in lower case. -/
def normalisedPath (raw : String) : String :=
  lower (String.ofList ((strip raw).toList.map fun character =>
    if character = '\\' then '/' else character))

/-- Whether a path starts with the letter of a drive. -/
def drivePrefixed (path : String) : Bool :=
  match path.toList with
  | letter :: ':' :: _ => 'a' ≤ letter && letter ≤ 'z'
  | _ => false

/-- The directories of a path, and the file at its end. -/
def pathSegments (raw : String) : List String :=
  (segmentsOf '/' (normalisedPath raw)).filter fun segment => segment ≠ "" && segment ≠ "."

/-- Whether a manifest stands in a directory that does not ship; nothing when the path cannot tell. -/
def classifyPath (raw : String) : Option Bool :=
  let path := normalisedPath raw
  if path = "" ∨ startsWith path "/" ∨ drivePrefixed path then none
  else
    let segments := pathSegments raw
    if segments.length < 2 then
      -- A bare file name stands where the scan starts.
      if segments = [] then none else some false
    else if ".." ∈ segments then none
    else some (segments.dropLast.any nonDeployableDirNames.contains)

/-- Whether some component has a manifest outside of the directories that do not ship. -/
def hasDeployableManifest (components : List Json) : Bool :=
  components.any fun component => (manifestPaths component).any fun path => classifyPath path = some false

/-- Whether every recorded manifest of a component stands in a directory that does not ship. -/
def onlyInNonDeployablePaths (component : Json) : Bool :=
  !(manifestPaths component).isEmpty &&
    (manifestPaths component).all fun path => classifyPath path = some true

end Manifests

section Guards

/-- The package URL of a component; empty when it has none. -/
def purlOf (component : Json) : String :=
  match component.get? "purl" with
  | some (.str purl) => purl
  | _ => ""

/-- Whether some Maven component is said to be required. -/
def hasMavenScopes (components : List Json) : Bool :=
  components.any fun component =>
    startsWith (purlOf component) "pkg:maven/" && component.get? "scope" = some (.str "required")

/-- The scope of a package URL in the lockfile. -/
def NpmLockfileData.scopeForPurl (lock : NpmLockfileData) (purl : String) : Option NpmScope :=
  lock.scopeByPurl.lookup purl

/-- Whether the lockfile was read and lists a development dependency. -/
def hasDevEntries : Option NpmLockfileData → Bool
  | none => false
  | some lock => lock.scopeByPurl.any fun entry => entry.2 = .dev

/-- Which filters are on. -/
structure ScopeToggles where
  maven : Bool
  node : Bool
  nonDeployable : Bool
  deriving Repr, DecidableEq

/-- The filters that are on, and for which the document has what they rely on. -/
def activePredicates (toggles : ScopeToggles) (npmLock : Option NpmLockfileData) (components : List Json) :
    ScopeToggles where
  maven := toggles.maven && hasMavenScopes components
  node := toggles.node && hasDevEntries npmLock
  nonDeployable := toggles.nonDeployable && hasDeployableManifest components

end Guards

section Loop

/-- Whether a scope is one of those that are not deployed; a list or an object cannot be looked up. -/
def inMavenDropScopes : Option Json → Except ScopeFilterError Bool
  | some (.str scope) => .ok (mavenDropScopes.contains scope)
  | some (.arr _) | some (.obj _) => .error .unhashable
  | _ => .ok false

/-- Whether the Maven filter drops a component. -/
def mavenDrops (active : ScopeToggles) (component : Json) : Except ScopeFilterError Bool :=
  if active.maven && startsWith (purlOf component) "pkg:maven/" then
    inMavenDropScopes (component.get? "scope")
  else .ok false

/-- Whether the lockfile drops a component. -/
def npmDrops (active : ScopeToggles) (npmLock : Option NpmLockfileData) (component : Json) : Bool :=
  active.node && startsWith (purlOf component) "pkg:npm/" &&
    npmLock.bind (·.scopeForPurl (purlOf component)) = some .dev

/-- The first filter that drops a component. -/
def dropReason (active : ScopeToggles) (npmLock : Option NpmLockfileData) (component : Json) :
    Except ScopeFilterError (Option ScopePredicate) :=
  match component with
  | .obj _ => do
      let dropped ← mavenDrops active component
      return if dropped then some .maven
        else if npmDrops active npmLock component then some .npm
        else if active.nonDeployable && onlyInNonDeployablePaths component then some .nonDeployablePath
        else none
  -- What cannot be read is kept.
  | _ => .ok none

/-- What a pass has kept and dropped so far. -/
structure FilterRun where
  kept : List Json := []
  dropped : List (String × Nat) := []
  droppedRefs : List String := []
  deriving DecidableEq

/-- Count a dropped component, and record a part of its name while there is room. -/
def FilterRun.recordDrop (run : FilterRun) (reason : ScopePredicate) (purl : String) : FilterRun where
  kept := run.kept
  -- Every drop is counted, while the list of references is cut at its cap.
  dropped := put run.dropped reason.key ((run.dropped.lookup reason.key).getD 0 + 1)
  droppedRefs :=
    if run.droppedRefs.length < maxDroppedRefsRecorded then
      run.droppedRefs ++ [String.ofList (purl.toList.take 512)]
    else run.droppedRefs

/-- Keep or drop the next component. -/
def filterStep (active : ScopeToggles) (npmLock : Option NpmLockfileData) (run : FilterRun)
    (component : Json) : Except ScopeFilterError FilterRun := do
  match ← dropReason active npmLock component with
  | some reason => return run.recordDrop reason (purlOf component)
  | none => return { run with kept := run.kept ++ [component] }

end Loop

section Rewrite

/-- The reference of a component. -/
def componentRef (component : Json) : Option String :=
  -- `or`, so an empty bom-ref falls back to the purl.
  let ref :=
    if truthy (component.get? "bom-ref") then component.get? "bom-ref" else component.get? "purl"
  match ref with
  | some (.str ref) => if ref = "" then none else some ref
  | _ => none

/-- The references of the components that are kept, and of what the document describes. -/
def keptRefs (sbom : List (String × Json)) (kept : List Json) : List String :=
  let root := ((Json.obj sbom).get? "metadata").bind (·.get? "component")
  kept.filterMap componentRef ++ (root.bind componentRef).toList

/-- An entry of the dependency graph that only leads to what is kept. -/
def filterDependsOn (refs : List String) (entry : List (String × Json)) : List (String × Json) :=
  match (Json.obj entry).get? "dependsOn" with
  -- Only children that are still in the document stay; a child that is no text goes too.
  | some (.arr children) =>
      put entry "dependsOn" (.arr (children.filter fun child =>
        match child with
        | .str ref => refs.contains ref
        | _ => false))
  | _ => entry

/-- An entry of the dependency graph as it is kept; nothing when it starts at what is dropped. -/
def pruneEntry (refs : List String) (entry : Json) : Option Json :=
  match entry with
  | .obj fields =>
      -- An entry whose component is gone goes, one without a textual ref stays.
      match entry.get? "ref" with
      | some (.str ref) =>
          if refs.contains ref then some (.obj (filterDependsOn refs fields)) else none
      | _ => some (.obj (filterDependsOn refs fields))
  | _ => some entry

/-- Drop the entries of removed components from the graph, and the edges that lead to them. -/
def pruneDependencies (sbom : List (String × Json)) (refs : List String) : List (String × Json) :=
  match (Json.obj sbom).get? "dependencies" with
  | some (.arr entries) => put sbom "dependencies" (.arr (entries.filterMap (pruneEntry refs)))
  | _ => sbom

/-- Record what was filtered in the document, in place of an earlier record. -/
def stampFilterProperty (sbom : List (String × Json)) (dropped : List (String × Nat)) :
    List (String × Json) :=
  -- Metadata that is no object, or properties that are no array, are left alone.
  match ((Json.obj sbom).get? "metadata").getD (.obj []) with
  | .obj metadata =>
      match ((Json.obj metadata).get? "properties").getD (.arr []) with
      | .arr properties =>
          -- An older stamp is replaced, not added to.
          let others := properties.filter fun prop => prop.get? "name" ≠ some (.str filterPropertyName)
          -- Sorted by the reason, so that two runs write the same stamp.
          let counts := (dropped.mergeSort fun first second => first.1 ≤ second.1).map fun item =>
            item.1 ++ "=" ++ toString item.2
          let stamp := Json.obj [("name", .str filterPropertyName), ("value", .str (",".intercalate counts))]
          put sbom "metadata" (.obj (put metadata "properties" (.arr (others ++ [stamp]))))
      | _ => sbom
  | _ => sbom

end Rewrite

/-- One pass over a document: its outcome, and the document as it then is. Nothing that can fail comes
behind the first change. -/
def scopeFilter (sbom : List (String × Json)) (npmLock : Option NpmLockfileData) (toggles : ScopeToggles) :
    Except ScopeFilterError ScopeFilterResult × List (String × Json) :=
  match (Json.obj sbom).get? "components" with
  | some (.arr components) =>
      -- Which predicates apply is decided once, from the toggles and from what the document shows.
      let active := activePredicates toggles npmLock components
      if !active.maven && !active.node && !active.nonDeployable then
        (.ok { applied := false, keptComponents := components.length }, sbom)
      else
        match components.foldlM (filterStep active npmLock) {} with
        | .error error => (.error error, sbom)
        | .ok run =>
            -- Nothing dropped: the document is handed back as it came.
            if run.dropped = [] then
              (.ok { applied := true, keptComponents := components.length }, sbom)
            else
              -- The components first, then the edges to what is gone, then the stamp.
              let shortened := put sbom "components" (.arr run.kept)
              let pruned := pruneDependencies shortened (keptRefs shortened run.kept)
              let result : ScopeFilterResult :=
                { applied := true
                  dropped := run.dropped
                  keptComponents := run.kept.length
                  droppedRefs := run.droppedRefs }
              (.ok result, stampFilterProperty pruned run.dropped)
  | _ => (.ok { applied := false }, sbom)

/-- Filter a document; a pass that fails counts as one that was not made. -/
def filterSbomToRuntimeScope (sbom : List (String × Json)) (npmLock : Option NpmLockfileData)
    (toggles : ScopeToggles) : ScopeFilterResult × List (String × Json) :=
  match scopeFilter sbom npmLock toggles with
  | (.ok result, document) => (result, document)
  -- Whatever the filter raises is caught, and the whole document goes on.
  | (.error _, document) =>
      let kept :=
        match (Json.obj document).get? "components" with
        | some (.arr components) => components.length
        | _ => 0
      ({ applied := false, keptComponents := kept }, document)

end Trusca
