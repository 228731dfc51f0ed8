import Trusca.Data.Outcome
import Trusca.Sbom.ScopeFilter

/-! The scope filter only removes what is known not to ship, restricts the dependency graph to what is left,
and finds nothing more to remove in its own result. -/

namespace Trusca

open Store

section Documents

/-- The value under a key is the one that was assigned last. -/
theorem get?_put (fields : List (String × Json)) (key other : String) (value : Json) :
    Json.get? (.obj (put fields key value)) other =
      if other = key then some value else Json.get? (.obj fields) other := by
  -- Looking a field up is finding the first pair of that key.
  have looked (fields : List (String × Json)) : Json.get? (.obj fields) other = fields.lookup other := by
    rw [Json.get?]
    induction fields with
    | nil => rfl
    | cons field rest ih =>
      rw [List.find?_cons, List.lookup_cons, Bool.beq_comm]
      cases other == field.1 with
      | true => rfl
      | false => exact ih
  rw [looked, looked, lookup_put]

/-- The components of a document. -/
def documentComponents (sbom : List (String × Json)) : List Json :=
  match (Json.obj sbom).get? "components" with
  | some (.arr components) => components
  | _ => []

/-- The references of a document: those of its components, and of what it describes. -/
def documentRefs (sbom : List (String × Json)) : List String :=
  keptRefs sbom (documentComponents sbom)

end Documents

section Graph

/-- A graph of references, in the order in which they are listed. -/
structure RefGraph where
  nodes : List String
  edges : List (String × String)
  deriving DecidableEq

/-- The part of a graph between some references. -/
def RefGraph.induced (graph : RefGraph) (refs : List String) : RefGraph where
  nodes := graph.nodes.filter refs.contains
  edges := graph.edges.filter fun edge => refs.contains edge.1 && refs.contains edge.2

/-- The reference of an entry of the graph. -/
def entryNode (entry : Json) : Option String :=
  match entry.get? "ref" with
  | some (.str ref) => some ref
  | _ => none

/-- The references that an entry leads to. -/
def entryChildren (entry : Json) : List String :=
  match entry.get? "dependsOn" with
  | some (.arr children) => children.filterMap fun child =>
      match child with
      | .str ref => some ref
      | _ => none
  | _ => []

/-- The edges that start at an entry. -/
def entryEdges (entry : Json) : List (String × String) :=
  (entryNode entry).toList.flatMap fun ref => (entryChildren entry).map (ref, ·)

/-- The graph that entries describe. -/
def graphOfEntries (entries : List Json) : RefGraph where
  nodes := entries.filterMap entryNode
  edges := entries.flatMap entryEdges

/-- The dependency graph of a document. -/
def documentGraph (sbom : List (String × Json)) : RefGraph :=
  match (Json.obj sbom).get? "dependencies" with
  | some (.arr entries) => graphOfEntries entries
  | _ => graphOfEntries []

variable {refs : List String} {entry pruned : Json}

/-- Filtering the children of an entry filters the references it leads to. -/
theorem filterMap_children (children : List Json) :
    (children.filter fun child =>
        match child with
        | .str ref => refs.contains ref
        | _ => false).filterMap (fun child =>
          match child with
          | .str ref => some ref
          | _ => none) =
      (children.filterMap fun child =>
          match child with
          | .str ref => some ref
          | _ => none).filter refs.contains := by
  induction children with
  | nil => rfl
  | cons child rest ih =>
    cases child with
    | str ref => by_cases kept : refs.contains ref = true <;> simp_all
    | null | bool _ | num _ | arr _ | obj _ => simpa using ih

/-- An entry that is filtered keeps its reference, and leads to kept references only. -/
theorem filterDependsOn_entry (refs : List String) (fields : List (String × Json)) :
    entryNode (.obj (filterDependsOn refs fields)) = entryNode (.obj fields) ∧
      entryChildren (.obj (filterDependsOn refs fields)) =
        (entryChildren (.obj fields)).filter refs.contains := by
  unfold filterDependsOn
  split
  · -- The children are filtered in their place, and the entry's own reference is another field.
    next children listed =>
    constructor
    · rw [entryNode, get?_put, if_neg (by decide)]
      rfl
    · rw [entryChildren, get?_put, if_pos rfl, entryChildren, listed]
      exact filterMap_children children
  · -- Without a list of children there is nothing to filter.
    next other =>
    have childless : entryChildren (.obj fields) = [] := by
      unfold entryChildren
      split
      · next children listed => exact absurd listed (other children)
      · rfl
    rw [childless, List.filter_nil]
    exact ⟨rfl, rfl⟩

/-- An entry is dropped when its reference is, and leads to kept references only when it is kept. -/
theorem pruneEntry_eq (refs : List String) (entry : Json) : ∃ filtered,
    entryNode filtered = entryNode entry ∧
      entryChildren filtered = (entryChildren entry).filter refs.contains ∧
      pruneEntry refs entry = if (entryNode entry).all refs.contains then some filtered else none := by
  -- Only an object has a reference and children.
  cases entry with
  | null | bool _ | num _ | str _ | arr _ => exact ⟨_, rfl, rfl, rfl⟩
  | obj fields =>
    obtain ⟨node, children⟩ := filterDependsOn_entry refs fields
    refine ⟨_, node, children, ?_⟩
    rw [pruneEntry, entryNode]
    -- It is kept if there is no reference, or one that is kept.
    cases (Json.obj fields).get? "ref" with
    | none => rfl
    | some value => cases value <;> rfl

/-- The edges of an entry whose children were filtered. -/
theorem entryEdges_filtered {filtered : Json} (same : entryNode filtered = entryNode entry)
    (children : entryChildren filtered = (entryChildren entry).filter refs.contains)
    (kept : (entryNode entry).all refs.contains = true) :
    entryEdges filtered =
      (entryEdges entry).filter fun edge => refs.contains edge.1 && refs.contains edge.2 := by
  rw [entryEdges, entryEdges, same, children]
  cases node : entryNode entry with
  | none => rfl
  | some ref =>
    -- The entry's own end is kept, so an edge stays if its other end does.
    have inside : ref ∈ refs := by simpa [node] using kept
    have own : (fun child => refs.contains ref && refs.contains child) = refs.contains :=
      funext fun child => by simp [inside]
    simp only [Option.toList_some, List.flatMap_singleton, List.filter_map, Function.comp_def]
    rw [own]

/-- An entry that is dropped has no edge between kept references. -/
theorem entryEdges_dropped (dropped : ¬ (entryNode entry).all refs.contains = true) :
    (entryEdges entry).filter (fun edge => refs.contains edge.1 && refs.contains edge.2) = [] := by
  rw [entryEdges]
  cases node : entryNode entry with
  | none => rfl
  | some ref =>
    have outside : ref ∉ refs := by simpa [node] using dropped
    simp [List.filter_map, Function.comp_def, outside]

/-- Pruning the entries leaves the part of their graph between the kept references. -/
theorem graphOfEntries_pruned (refs : List String) (entries : List Json) :
    graphOfEntries (entries.filterMap (pruneEntry refs)) = (graphOfEntries entries).induced refs := by
  -- Entry by entry: the nodes kept are the kept references, the edges those between them.
  have both : (entries.filterMap (pruneEntry refs)).filterMap entryNode =
        (entries.filterMap entryNode).filter refs.contains ∧
      (entries.filterMap (pruneEntry refs)).flatMap entryEdges =
        (entries.flatMap entryEdges).filter fun edge => refs.contains edge.1 && refs.contains edge.2 := by
    induction entries with
    | nil => exact ⟨rfl, rfl⟩
    | cons entry rest ih =>
      obtain ⟨nodes, edges⟩ := ih
      obtain ⟨filtered, same, children, pruned⟩ := pruneEntry_eq refs entry
      rw [List.flatMap_cons, List.filter_append, List.filterMap_cons, List.filterMap_cons, pruned]
      -- A kept entry filters its children; a dropped one takes its edges with it.
      by_cases kept : (entryNode entry).all refs.contains = true
      · rw [if_pos kept, List.filterMap_cons, List.flatMap_cons, same, nodes, edges,
          entryEdges_filtered same children kept]
        refine ⟨?_, rfl⟩
        cases node : entryNode entry with
        | none => rfl
        | some ref =>
          rw [node, Option.all_some] at kept
          exact (List.filter_cons_of_pos kept).symm
      · rw [if_neg kept, nodes, edges, entryEdges_dropped kept, List.nil_append]
        refine ⟨?_, rfl⟩
        cases node : entryNode entry with
        | none => simp [node] at kept
        | some ref =>
          rw [node, Option.all_some] at kept
          exact (List.filter_cons_of_neg kept).symm
  rw [graphOfEntries, both.1, both.2]
  rfl

end Graph

section Decisions

variable {active weaker toggles : ScopeToggles} {npmLock : Option NpmLockfileData} {component : Json}

/-- A manifest that is known not to ship: its path stays inside of the scan, and one of its directories holds
tests or examples. -/
def ShipsNot (path : String) : Prop :=
  ".." ∉ pathSegments path ∧ ∃ directory ∈ (pathSegments path).dropLast, directory ∈ nonDeployableDirNames

/-- What is known of a component that does not ship, through filters that are turned on. -/
inductive NonRuntime (toggles : ScopeToggles) (npmLock : Option NpmLockfileData) (component : Json) :
    Prop where
  | maven (on : toggles.maven = true) (ecosystem : startsWith (purlOf component) "pkg:maven/" = true)
      (scope : String) (tagged : component.get? "scope" = some (.str scope))
      (dropped : scope ∈ mavenDropScopes)
  | npm (on : toggles.node = true) (ecosystem : startsWith (purlOf component) "pkg:npm/" = true)
      (lock : NpmLockfileData) (read : npmLock = some lock)
      (dev : lock.scopeByPurl.lookup (purlOf component) = some .dev)
  | path (on : toggles.nonDeployable = true) (recorded : manifestPaths component ≠ [])
      (outside : ∀ path ∈ manifestPaths component, ShipsNot path)

/-- The filters of one setting are among those of another. -/
structure ScopeToggles.LE (weaker active : ScopeToggles) : Prop where
  maven : weaker.maven = true → active.maven = true
  node : weaker.node = true → active.node = true
  nonDeployable : weaker.nonDeployable = true → active.nonDeployable = true

/-- A path classified as development only does not ship. -/
theorem shipsNot_of_classifyPath {path : String} (classified : classifyPath path = some true) :
    ShipsNot path := by
  unfold classifyPath at classified
  dsimp only at classified
  split_ifs at classified with unclear short bare upwards
  · cases classified
  · obtain ⟨directory, inner, named⟩ := List.any_eq_true.mp (Option.some.inj classified)
    exact ⟨upwards, directory, inner, List.contains_iff_mem.mp named⟩

/-- A scope among those to drop is one of the listed texts. -/
theorem mem_of_inMavenDropScopes {scope : Option Json} (dropped : inMavenDropScopes scope = .ok true) :
    ∃ tag ∈ mavenDropScopes, scope = some (.str tag) := by
  unfold inMavenDropScopes at dropped
  split at dropped
  · next tag => exact ⟨tag, List.contains_iff_mem.mp (Except.ok.inj dropped), rfl⟩
  · cases dropped
  · cases dropped
  · cases dropped

/-- What the filters said of an object that is kept or dropped. -/
theorem dropReason_obj {fields : List (String × Json)} {reason : Option ScopePredicate} :
    dropReason active npmLock (.obj fields) = .ok reason ↔
      ∃ dropped, mavenDrops active (.obj fields) = .ok dropped ∧
        (if dropped then some .maven
          else if npmDrops active npmLock (.obj fields) then some .npm
          else if active.nonDeployable && onlyInNonDeployablePaths (.obj fields) then
            some .nonDeployablePath
          else none) = reason := by
  simp only [dropReason, bind_ok, pure, Except.pure, Except.ok.injEq]

/-- A component dropped by its Maven scope is a Maven package in a listed scope. -/
theorem mavenDrops_true (dropped : mavenDrops active component = .ok true) :
    active.maven = true ∧ startsWith (purlOf component) "pkg:maven/" = true ∧
      ∃ tag ∈ mavenDropScopes, component.get? "scope" = some (.str tag) := by
  unfold mavenDrops at dropped
  split_ifs at dropped with applies
  · obtain ⟨on, ecosystem⟩ := Bool.and_eq_true_iff.mp applies
    exact ⟨on, ecosystem, mem_of_inMavenDropScopes dropped⟩
  · cases dropped

/-- A component is dropped for a reason. -/
theorem dropReason_some {reason : ScopePredicate} (within : active.LE toggles)
    (dropped : dropReason active npmLock component = .ok (some reason)) :
    NonRuntime toggles npmLock component := by
  -- Only an object has a scope to be read.
  cases component with
  | null | bool _ | num _ | str _ | arr _ => cases dropped
  | obj fields =>
    obtain ⟨hit, maven, chosen⟩ := dropReason_obj.mp dropped
    -- The rules in their order: Maven, npm, and the paths.
    split_ifs at chosen with dropsMaven dropsNpm dropsPath
    · -- Maven names the scope in a tag of its own.
      subst dropsMaven
      obtain ⟨on, ecosystem, tag, listed, tagged⟩ := mavenDrops_true maven
      exact .maven (within.maven on) ecosystem tag tagged listed
    · -- The npm lock says of the name whether it is a development dependency.
      simp only [npmDrops, Bool.and_eq_true, decide_eq_true_eq] at dropsNpm
      obtain ⟨⟨on, ecosystem⟩, classified⟩ := dropsNpm
      obtain ⟨lock, read, dev⟩ := Option.bind_eq_some_iff.mp classified
      exact .npm (within.node on) ecosystem lock read dev
    · -- Every recorded path lies outside of what is deployed.
      simp only [onlyInNonDeployablePaths, Bool.and_eq_true, Bool.not_eq_true', List.all_eq_true,
        decide_eq_true_eq] at dropsPath
      obtain ⟨on, recorded, outside⟩ := dropsPath
      exact .path (within.nonDeployable on) (by simpa using recorded) fun path listed =>
        shipsNot_of_classifyPath (outside path listed)

/-- A component that is kept stays when fewer filters apply. -/
theorem dropReason_none (fewer : weaker.LE active) (kept : dropReason active npmLock component = .ok none) :
    dropReason weaker npmLock component = .ok none := by
  -- With fewer predicates on, each of the three rules that kept the component still keeps it.
  cases component with
  | null | bool _ | num _ | str _ | arr _ => rfl
  | obj fields =>
    obtain ⟨hit, maven, chosen⟩ := dropReason_obj.mp kept
    split_ifs at chosen with dropsMaven dropsNpm dropsPath
    -- Maven did not drop it, so the Maven rule answers false or is off.
    have nothing : hit = false := by simpa using dropsMaven
    subst nothing
    have stays : mavenDrops weaker (.obj fields) = .ok false := by
      unfold mavenDrops at maven ⊢
      split_ifs with applies
      · obtain ⟨on, ecosystem⟩ := Bool.and_eq_true_iff.mp applies
        rwa [if_pos (by simp [fewer.maven on, ecosystem])] at maven
      · rfl
    refine dropReason_obj.mpr ⟨false, stays, ?_⟩
    have npmStays : ¬ npmDrops weaker npmLock (.obj fields) = true := by
      intro drops
      refine dropsNpm ?_
      simp only [npmDrops, Bool.and_eq_true] at drops ⊢
      exact ⟨⟨fewer.node drops.1.1, drops.1.2⟩, drops.2⟩
    have pathStays : ¬ (weaker.nonDeployable && onlyInNonDeployablePaths (.obj fields)) = true := by
      intro drops
      rw [Bool.and_eq_true_iff] at drops
      exact dropsPath (Bool.and_eq_true_iff.mpr ⟨fewer.nonDeployable drops.1, drops.2⟩)
    rw [if_neg (by decide), if_neg npmStays, if_neg pathStays]

/-- The filters that apply are among those that are turned on. -/
theorem activePredicates_le (components : List Json) :
    (activePredicates toggles npmLock components).LE toggles where
  maven on := (Bool.and_eq_true_iff.mp on).1
  node on := (Bool.and_eq_true_iff.mp on).1
  nonDeployable on := (Bool.and_eq_true_iff.mp on).1

/-- Fewer components give fewer filters something to rely on. -/
theorem activePredicates_mono {some all : List Json} (fewer : some ⊆ all) :
    (activePredicates toggles npmLock some).LE (activePredicates toggles npmLock all) where
  maven on := by
    -- A predicate is on if some component asks for it, and all the fewer ones are among the more.
    obtain ⟨toggled, found⟩ := Bool.and_eq_true_iff.mp on
    obtain ⟨component, listed, required⟩ := List.any_eq_true.mp found
    exact Bool.and_eq_true_iff.mpr ⟨toggled, List.any_eq_true.mpr ⟨component, fewer listed, required⟩⟩
  node on := on
  nonDeployable on := by
    obtain ⟨toggled, found⟩ := Bool.and_eq_true_iff.mp on
    obtain ⟨component, listed, deployable⟩ := List.any_eq_true.mp found
    exact Bool.and_eq_true_iff.mpr ⟨toggled, List.any_eq_true.mpr ⟨component, fewer listed, deployable⟩⟩

end Decisions

section Runs

variable {active : ScopeToggles} {npmLock : Option NpmLockfileData}

/-- Whether the filters keep a component. -/
def keepsComponent (active : ScopeToggles) (npmLock : Option NpmLockfileData) (component : Json) : Bool :=
  match dropReason active npmLock component with
  | .ok none => true
  | _ => false

/-- A component is kept when nothing gives a reason to drop it. -/
theorem keepsComponent_iff {component : Json} :
    keepsComponent active npmLock component = true ↔ dropReason active npmLock component = .ok none := by
  unfold keepsComponent
  split <;> simp_all

/-- What one step does: it keeps the component, or counts it among the dropped ones. -/
theorem filterStep_ok {run next : FilterRun} {component : Json}
    (stepped : filterStep active npmLock run component = .ok next) :
    (keepsComponent active npmLock component = true ∧ next = { run with kept := run.kept ++ [component] }) ∨
      ∃ reason, dropReason active npmLock component = .ok (some reason) ∧
        next = run.recordDrop reason (purlOf component) := by
  obtain ⟨reason, decided, moved⟩ := bind_ok.mp stepped
  cases reason with
  | none => exact .inl ⟨keepsComponent_iff.mpr decided, (Except.ok.inj moved).symm⟩
  | some reason => exact .inr ⟨reason, decided, (Except.ok.inj moved).symm⟩

/-- A run keeps the components that it finds no reason to drop, in their order. -/
theorem filterRun_ok {components : List Json} {run last : FilterRun}
    (ran : components.foldlM (filterStep active npmLock) run = .ok last) :
    last.kept = run.kept ++ components.filter (keepsComponent active npmLock) ∧
      ∀ component ∈ components, keepsComponent active npmLock component = false →
        ∃ reason, dropReason active npmLock component = .ok (some reason) := by
  -- Along the components, with those kept before in front.
  induction components generalizing run with
  | nil =>
    obtain rfl : run = last := Except.ok.inj ran
    simp
  | cons component rest ih =>
    rw [List.foldlM_cons] at ran
    obtain ⟨next, stepped, later⟩ := bind_ok.mp ran
    obtain ⟨kept, reasons⟩ := ih later
    rw [List.forall_mem_cons]
    -- The step keeps the component, or it drops it and counts the reason.
    obtain ⟨keeps, rfl⟩ | ⟨reason, drops, rfl⟩ := filterStep_ok stepped
    · refine ⟨?_, fun lost => absurd keeps (by simp [lost]), reasons⟩
      rw [kept, List.filter_cons_of_pos keeps, List.append_assoc]
      rfl
    · have lost : ¬ keepsComponent active npmLock component = true := by simp [keepsComponent_iff, drops]
      refine ⟨?_, fun _ => ⟨reason, drops⟩, reasons⟩
      rw [kept, List.filter_cons_of_neg lost]
      rfl

/-- A run over components that are all kept changes nothing else. -/
theorem filterRun_of_kept {components : List Json} (run : FilterRun)
    (kept : ∀ component ∈ components, dropReason active npmLock component = .ok none) :
    components.foldlM (filterStep active npmLock) run =
      .ok { run with kept := run.kept ++ components } := by
  induction components generalizing run with
  | nil => simp [pure, Except.pure]
  | cons component rest ih =>
    obtain ⟨here, later⟩ := List.forall_mem_cons.mp kept
    -- A component that nothing drops goes on the list.
    have step : filterStep active npmLock run component =
        .ok { run with kept := run.kept ++ [component] } := by
      rw [filterStep, here]
      rfl
    have rest' := ih { run with kept := run.kept ++ [component] } later
    rw [List.foldlM_cons, step]
    refine rest'.trans ?_
    simp

end Runs

section Rewriting

variable (sbom : List (String × Json))

/-- Pruning only changes the dependencies. -/
theorem get?_pruneDependencies (refs : List String) {key : String} (other : key ≠ "dependencies") :
    (Json.obj (pruneDependencies sbom refs)).get? key = (Json.obj sbom).get? key := by
  unfold pruneDependencies
  split
  · rw [get?_put, if_neg other]
  · rfl

/-- Pruning restricts the graph of a document. -/
theorem documentGraph_pruned (refs : List String) :
    documentGraph (pruneDependencies sbom refs) = (documentGraph sbom).induced refs := by
  unfold pruneDependencies
  split
  · -- The entries are pruned in their place.
    next entries listed =>
    rw [documentGraph, documentGraph, get?_put, if_pos rfl, listed]
    exact graphOfEntries_pruned refs entries
  · -- Without a list of entries there is no graph on either side.
    next other =>
    have empty : documentGraph sbom = graphOfEntries [] := by
      unfold documentGraph
      split
      · next entries listed => exact absurd listed (other entries)
      · rfl
    rw [empty]
    rfl

/-- The record of a pass only changes the metadata. -/
theorem get?_stampFilterProperty (dropped : List (String × Nat)) {key : String} (other : key ≠ "metadata") :
    (Json.obj (stampFilterProperty sbom dropped)).get? key = (Json.obj sbom).get? key := by
  unfold stampFilterProperty
  split
  · split
    · rw [get?_put, if_neg other]
    · rfl
  · rfl

/-- The record of a pass leaves what the document describes. -/
theorem root_stampFilterProperty (dropped : List (String × Nat)) :
    ((Json.obj (stampFilterProperty sbom dropped)).get? "metadata").bind (·.get? "component") =
      ((Json.obj sbom).get? "metadata").bind (·.get? "component") := by
  -- The property goes into the metadata, beside the component that is read here.
  unfold stampFilterProperty
  split
  · next metadata held =>
    -- There is a list of properties, and only that field of the metadata is written.
    split
    · rw [get?_put, if_pos rfl, Option.bind_some, get?_put, if_neg (by decide)]
      cases known : (Json.obj sbom).get? "metadata" with
      | none =>
        rw [known] at held
        cases held
        rfl
      | some value =>
        rw [known] at held
        rw [Option.bind_some, ← (show value = .obj metadata from held)]
    · -- Without such a list, or without metadata, the document stays as it is.
      rfl
  · rfl

end Rewriting

section Filter

variable (sbom : List (String × Json)) (npmLock : Option NpmLockfileData) (toggles : ScopeToggles)

/-- The document after a pass that dropped something. -/
def rewritten (run : FilterRun) : List (String × Json) :=
  let shortened := put sbom "components" (.arr run.kept)
  stampFilterProperty (pruneDependencies shortened (keptRefs shortened run.kept)) run.dropped

/-- A run over the components of the document that dropped something. -/
structure DropRun (components : List Json) (run : FilterRun) : Prop where
  listed : (Json.obj sbom).get? "components" = some (.arr components)
  ran : components.foldlM (filterStep (activePredicates toggles npmLock components) npmLock) {} = .ok run
  some : run.dropped ≠ []

/-- What is reported of a run that dropped something. -/
def FilterRun.result (run : FilterRun) : ScopeFilterResult where
  applied := true
  dropped := run.dropped
  keptComponents := run.kept.length
  droppedRefs := run.droppedRefs

/-- A pass leaves the document, or rewrites it after a run that dropped something. -/
theorem scopeFilter_cases :
    ((scopeFilter sbom npmLock toggles).2 = sbom ∧
        ∀ result, (scopeFilter sbom npmLock toggles).1 = .ok result → result.dropped = []) ∨
      ∃ components run, DropRun sbom npmLock toggles components run ∧
        scopeFilter sbom npmLock toggles = (.ok run.result, rewritten sbom run) := by
  unfold scopeFilter
  split
  · -- A list of components: the filter runs over it unless no predicate is active.
    next components listed =>
    dsimp only
    split_ifs with inactive
    · exact .inl ⟨rfl, fun result same => by cases same; rfl⟩
    · -- A step that raises leaves the document as it was.
      cases ran : components.foldlM (filterStep (activePredicates toggles npmLock components) npmLock) {} with
      | error reason => exact .inl ⟨rfl, fun result same => by cases same⟩
      | ok run =>
        dsimp only
        -- And so does a run that dropped nothing.
        split_ifs with nothing
        · exact .inl ⟨rfl, fun result same => by cases same; rfl⟩
        · exact .inr ⟨components, run, ⟨listed, ran, nothing⟩, rfl⟩
  · exact .inl ⟨rfl, fun result same => by cases same; rfl⟩

/-- A filter drops nothing and leaves the document, or rewrites it after a run that dropped something. -/
theorem filterSbomToRuntimeScope_cases :
    ((filterSbomToRuntimeScope sbom npmLock toggles).2 = sbom ∧
        (filterSbomToRuntimeScope sbom npmLock toggles).1.dropped = []) ∨
      ∃ components run, DropRun sbom npmLock toggles components run ∧
        filterSbomToRuntimeScope sbom npmLock toggles = (run.result, rewritten sbom run) := by
  obtain ⟨same, nothing⟩ | ⟨components, run, dropped, passed⟩ := scopeFilter_cases sbom npmLock toggles
  · -- The same in both of the outer function's branches, whether the filter raised or not.
    refine .inl ?_
    unfold filterSbomToRuntimeScope
    split
    · next result document passed =>
      rw [passed] at same nothing
      exact ⟨same, nothing result rfl⟩
    · next reason document passed =>
      rw [passed] at same
      exact ⟨same, rfl⟩
  · refine .inr ⟨components, run, dropped, ?_⟩
    rw [filterSbomToRuntimeScope, passed]

/-- The components of a rewritten document are those that were kept. -/
theorem get?_rewritten (run : FilterRun) :
    (Json.obj (rewritten sbom run)).get? "components" = some (.arr run.kept) := by
  unfold rewritten
  dsimp only
  rw [get?_stampFilterProperty _ _ (by decide), get?_pruneDependencies _ _ (by decide), get?_put, if_pos rfl]

/-- The rewritten document has the components that were kept. -/
theorem documentComponents_rewritten (run : FilterRun) :
    documentComponents (rewritten sbom run) = run.kept := by
  rw [documentComponents, get?_rewritten]

/-- The dependencies of a rewritten document are those between its own references. -/
theorem documentGraph_rewritten (run : FilterRun) :
    documentGraph (rewritten sbom run) =
      (documentGraph sbom).induced (documentRefs (rewritten sbom run)) := by
  -- The references are those of the root and of the kept components.
  have refs : documentRefs (rewritten sbom run) =
      keptRefs (put sbom "components" (.arr run.kept)) run.kept := by
    rw [documentRefs, documentComponents_rewritten, keptRefs, keptRefs]
    unfold rewritten
    dsimp only
    rw [root_stampFilterProperty, get?_pruneDependencies _ _ (by decide)]
  -- The entries are not touched by rewriting the components.
  have before : documentGraph (put sbom "components" (.arr run.kept)) = documentGraph sbom := by
    rw [documentGraph, get?_put, if_neg (by decide), documentGraph]
  rw [refs, ← before, ← documentGraph_pruned]
  unfold rewritten documentGraph
  dsimp only
  rw [get?_stampFilterProperty _ _ (by decide)]

/-- A pass over the components that a run kept drops nothing. -/
theorem scopeFilter_kept {components kept : List Json} (fewer : kept ⊆ components)
    (listed : (Json.obj sbom).get? "components" = some (.arr kept))
    (stays : ∀ component ∈ kept,
      dropReason (activePredicates toggles npmLock components) npmLock component = .ok none) :
    (filterSbomToRuntimeScope sbom npmLock toggles).2 = sbom ∧
      (filterSbomToRuntimeScope sbom npmLock toggles).1.dropped = [] := by
  obtain unchanged | ⟨again, run, dropped, -⟩ := filterSbomToRuntimeScope_cases sbom npmLock toggles
  · exact unchanged
  · obtain rfl : again = kept := by
      have same := dropped.listed.symm.trans listed
      simpa using same
    -- The filters that apply now applied before.
    have ran := @filterRun_of_kept (activePredicates toggles npmLock again) npmLock again {}
      fun component member => dropReason_none (activePredicates_mono fewer) (stays component member)
    have same := dropped.ran.symm.trans ran
    exact absurd (by rw [Except.ok.inj same]) dropped.some

/-- The filter keeps the components in their order but those that are known not to ship. When it drops one,
the dependency graph becomes its part between what is kept; otherwise, and when it does not apply, the
document stays as it is. In its result it finds nothing to drop. -/
theorem filterSbomToRuntimeScope_projection :
    (∃ keep : Json → Bool,
        documentComponents (filterSbomToRuntimeScope sbom npmLock toggles).2 =
          (documentComponents sbom).filter keep ∧
        ∀ component ∈ documentComponents sbom, keep component = false →
          NonRuntime toggles npmLock component) ∧
      ((filterSbomToRuntimeScope sbom npmLock toggles).1.dropped ≠ [] →
        documentGraph (filterSbomToRuntimeScope sbom npmLock toggles).2 =
          (documentGraph sbom).induced (documentRefs (filterSbomToRuntimeScope sbom npmLock toggles).2)) ∧
      ((filterSbomToRuntimeScope sbom npmLock toggles).1.dropped = [] ∨
          (filterSbomToRuntimeScope sbom npmLock toggles).1.applied = false →
        (filterSbomToRuntimeScope sbom npmLock toggles).2 = sbom) ∧
      (filterSbomToRuntimeScope (filterSbomToRuntimeScope sbom npmLock toggles).2 npmLock toggles).2 =
        (filterSbomToRuntimeScope sbom npmLock toggles).2 ∧
      (filterSbomToRuntimeScope (filterSbomToRuntimeScope sbom npmLock toggles).2 npmLock toggles).1.dropped =
        [] := by
  -- Either the document comes back as it was, or the components were filtered.
  obtain ⟨same, nothing⟩ | ⟨components, run, dropped, passed⟩ :=
    filterSbomToRuntimeScope_cases sbom npmLock toggles
  · rw [same]
    exact ⟨⟨fun _ => true, by simp, fun _ _ never => by cases never⟩, fun some => absurd nothing some,
      fun _ => rfl, same, nothing⟩
  · -- The components that are kept are those of the filter, in their order.
    have own : documentComponents sbom = components := by rw [documentComponents, dropped.listed]
    obtain ⟨kept, reasons⟩ := filterRun_ok dropped.ran
    rw [List.nil_append] at kept
    rw [passed, documentComponents_rewritten, own, kept]
    refine ⟨⟨_, rfl, fun component listed lost => ?_⟩, fun _ => documentGraph_rewritten sbom run, ?_, ?_⟩
    · obtain ⟨reason, drops⟩ := reasons component listed lost
      exact dropReason_some (activePredicates_le components) drops
    · -- Something was dropped and the filter applied, so the third part has nothing to say.
      rintro (nothing | unapplied)
      · exact absurd nothing dropped.some
      · cases unapplied
    · -- Filtered again, nothing more is dropped.
      refine @scopeFilter_kept _ npmLock toggles components _ List.filter_sublist.subset ?_
        fun component member => keepsComponent_iff.mp (List.of_mem_filter member)
      rw [get?_rewritten, kept]

end Filter

/-- A filter that applies and drops nothing leaves a dependency on what the document does not list. -/
theorem filterSbomToRuntimeScope_dangling :
    ¬ ∀ (sbom : List (String × Json)) (npmLock : Option NpmLockfileData) (toggles : ScopeToggles),
        (filterSbomToRuntimeScope sbom npmLock toggles).1.applied = true →
        documentGraph (filterSbomToRuntimeScope sbom npmLock toggles).2 =
          (documentGraph sbom).induced (documentRefs (filterSbomToRuntimeScope sbom npmLock toggles).2) := by
  intro always
  have wrong := always
    [("components", .arr [.obj
        [("purl", .str "pkg:maven/a@1"), ("bom-ref", .str "a"), ("scope", .str "required")]]),
      ("dependencies", .arr [.obj [("ref", .str "a"), ("dependsOn", .arr [.str "b"])]])]
    none ⟨true, false, false⟩ (by decide)
  exact absurd wrong (by decide)

end Trusca
