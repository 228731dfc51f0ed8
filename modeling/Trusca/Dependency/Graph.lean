import Trusca.Dependency.Lockfile
import Trusca.Store.Walk

/-! The dependency graph of a scan: what is read of it, and how deep every package lies. -/

namespace Trusca

open Store

/-- The greatest depth that is recorded. -/
def maxDepth : Nat := 64

/-- The number of packages after which reading stops. -/
def maxNodes : Nat := 100000

/-- Who depends on whom, by reference. -/
abbrev DependencyGraph := List (String × List String)

/-- The references among some values: the texts that are not empty. -/
def refsOf (values : List Json) : List String :=
  values.filterMap fun value =>
    match value with
    | .str ref => if ref = "" then none else some ref
    | _ => none

/-- Read the entries of a document one by one. -/
def readEntries : List Json → DependencyGraph → DependencyGraph
  | [], graph => graph
  | entry :: rest, graph =>
      match entry.get? "ref" with
      | some (.str ref) =>
          if ref = "" then readEntries rest graph
          else
            -- A parent is kept even when it has no children.
            let known := if ref ∈ keys graph then graph else graph ++ [(ref, [])]
            if known.length > maxNodes then known
            else
              match entry.get? "dependsOn" with
              | some (.arr children) =>
                  readEntries rest
                    (put known ref (addChildren ref (childrenOf known ref) (refsOf children)))
              | _ => readEntries rest known
      | _ => readEntries rest graph

/-- Read the dependencies of a document. What is malformed is left out. -/
def parseDependencyGraph : Option Json → DependencyGraph
  | some (.arr entries) => readEntries entries []
  | _ => []

namespace DependencyGraph

variable (graph : DependencyGraph)

/-- The references in their order. -/
def sortedRefs : List String := sortBy id (keys graph)

/-- Whether some package depends on the reference. -/
def hasParent (ref : String) : Bool := graph.any fun item => item.2.contains ref

/-- The packages that no package depends on. -/
def implicitRoots : List String := graph.sortedRefs.filter fun ref => !graph.hasParent ref

/-- The given roots that are in the graph. -/
def forcedRoots (rootRefs : List String) : List String :=
  graph.sortedRefs.filter fun ref => rootRefs.contains ref

/-- Walk from a package that is not settled yet. -/
def seedOrphan (depths : List (String × Nat)) (ref : String) : List (String × Nat) :=
  if ref ∈ keys depths then depths else walk graph maxDepth [(ref, 1)] depths

/-- The depth of every package: its distance from the given roots, or one more than its distance
from the packages that no package depends on. -/
def computeDepths (rootRefs : List String) : List (String × Nat) :=
  if graph = [] then []
  else
    let queue :=
      if graph.forcedRoots rootRefs ≠ [] then (graph.forcedRoots rootRefs).map (·, 0)
      else graph.implicitRoots.map (·, 1)
    let depths := walk graph maxDepth queue []
    -- What no root leads to is walked from its packages in their order.
    if depths.length < graph.length then graph.sortedRefs.foldl graph.seedOrphan depths else depths

end DependencyGraph

/-- The depths of the graph in a document, from the project that it describes. -/
def graphDepthsFromSbom (sbom : Json) : List (String × Nat) :=
  let graph := parseDependencyGraph (sbom.get? "dependencies")
  if graph = [] then []
  else
    let component := (sbom.get? "metadata").bind fun metadata => metadata.get? "component"
    let rootRef := component.bind fun component =>
      if truthy (component.get? "bom-ref") then component.get? "bom-ref" else component.get? "purl"
    match rootRef with
    | some (.str ref) =>
        -- A root without children is no root.
        if ref ≠ "" ∧ childrenOf graph ref ≠ [] then DependencyGraph.computeDepths graph [ref]
        else DependencyGraph.computeDepths graph []
    | _ => DependencyGraph.computeDepths graph []

/-- What is stored of a dependency graph. -/
structure PersistedGraph where
  depths : List (String × Nat)
  /-- The depth of every component of the scan, and whether it is direct. -/
  stamps : List (Nat × Nat × Bool)
  edges : List (Nat × Nat)
  deriving Repr, DecidableEq

/-- The edges between component versions, each of them once. -/
def resolvedEdges (graph : DependencyGraph) (refToCvId : List (String × Nat)) : List (Nat × Nat) :=
  distinctOn id (graph.flatMap fun item =>
    -- A reference that names no stored component drops the edge, and so does an edge to itself.
    match refToCvId.lookup item.1 with
    | none => []
    | some parent => item.2.filterMap fun child =>
        match refToCvId.lookup child with
        | none => none
        | some child => if child = parent then none else some (parent, child))

/-- Stamp the components of a scan with their depths and store the edges between them. A document
without a graph is replaced by the lockfile. -/
def persistDependencyGraph (sbom : Json) (refToCvId refToScanComponent : List (String × Nat))
    (npmLock : Option NpmLockfileData) : PersistedGraph :=
  let own := parseDependencyGraph (sbom.get? "dependencies")
  let fallback :=
    -- The lockfile is asked only when the document has no edges of its own.
    match npmLock with
    | some lock =>
        if own = [] ∧ lock.adjacency ≠ [] then
          parseDependencyGraph (some lock.synthesizeCdxgenDependencies)
        else []
    | none => []
  let graph := if fallback = [] then own else fallback
  -- Without a graph nothing is written, not even an empty depth.
  if graph = [] then { depths := [], stamps := [], edges := [] }
  else
    let depths :=
      -- The lockfile's root is the empty path, the document's the root component.
      if fallback ≠ [] then DependencyGraph.computeDepths graph [""] else graphDepthsFromSbom sbom
    { depths := depths
      -- Depth one is what makes a component direct.
      stamps := depths.filterMap fun item =>
        (refToScanComponent.lookup item.1).map fun component => (component, item.2, item.2 = 1)
      edges := resolvedEdges graph refToCvId }

end Trusca
