import Trusca.Proofs.Dependency.Lockfile
import Trusca.Proofs.Dependency.ShortestDepths

/-! Which packages the depths of a lockfile show as direct. -/

namespace Trusca

open Store

namespace DependencyGraph

variable (graph : DependencyGraph)

/-- What the depths say: which packages have one, and which have the first. -/
structure Settles (passed starts : String → Prop) (depths : List (String × Nat)) : Prop where
  distinct : (keys depths).Nodup
  covers : ∀ ref, ref ∈ keys depths ↔ passed ref
  first : ∀ ref, (ref, 1) ∈ depths ↔ starts ref
  positive : ∀ item ∈ depths, 1 ≤ item.2
  inside : ∀ ref ∈ keys depths, ref ∈ keys graph

variable {graph}

/-- Without a given root, the first walk goes as far as the others. -/
theorem settledAfter_unforced {rootRefs : List String} (unforced : graph.forcedRoots rootRefs = []) :
    graph.settledAfter rootRefs = Passed (Follows graph) maxDepth (· ∈ graph.implicitRoots) := by
  funext earlier
  simp [settledAfter, Passed, roots, rootDepth, unforced]

/-- Without a given root, the packages that a walk starts from have the first depth, and every
package has one. -/
theorem computeDepths_settles (distinct : (keys graph).Nodup) {rootRefs : List String}
    (unforced : graph.forcedRoots rootRefs = []) :
    graph.Settles (· ∈ keys graph) (Start (Follows graph) maxDepth graph.sortedRefs)
      (graph.computeDepths rootRefs) := by
  -- Nothing is forced, so the roots are the implicit ones and the walk starts at depth one.
  have records := graph.computeDepths_records rootRefs
  have rooted : graph.roots rootRefs = graph.implicitRoots := by simp [roots, unforced]
  have depth : graph.rootDepth rootRefs = 1 := by simp [rootDepth, unforced]
  have starts : (· ∈ graph.implicitRoots) = Root (Follows graph) graph.sortedRefs :=
    funext fun ref => propext (mem_implicitRoots distinct)
  refine
    { distinct := records.distinct
      covers := records.covers
      first := fun ref => (records.holds ref 1).trans ?_
      positive := ?_
      inside := fun ref => (records.covers ref).mp }
  · -- A depth of one is a distance of zero, on either of the two passes.
    rw [Given, Start, settledAfter_unforced unforced, rooted, depth, ← starts]
    refine or_congr ⟨?_, fun start => ?_⟩ ⟨?_, ?_⟩
    · -- First pass: settled at one means to be a root.
      rintro ⟨_, count, same, distance⟩
      obtain rfl : count = 0 := by omega
      exact (distance_zero.mp distance).1
    · exact ⟨one_le_maxDepth, 0, rfl, distance_zero.mpr ⟨start, not_false⟩⟩
    · -- Second pass: settled at one means to be a seed that nothing before it reaches.
      rintro ⟨earlier, seed, later, split, _, count, same, distance⟩
      obtain rfl : count = 0 := by omega
      obtain ⟨rfl, free⟩ := distance_zero.mp distance
      exact ⟨earlier, later, split, free⟩
    · rintro ⟨earlier, later, split, free⟩
      exact ⟨earlier, ref, later, split, one_le_maxDepth, 0, rfl, distance_zero.mpr ⟨rfl, free⟩⟩
  · -- Every recorded depth is the distance and one more.
    intro item member
    rcases (records.holds _ _).mp member with ⟨_, count, same, _⟩ |
      ⟨_, _, _, _, _, count, same, _⟩ <;> omega

end DependencyGraph

section Lockfile

variable (packages : List (String × Json))

/-- The depths show the direct packages as direct and the others deeper. -/
def MarksDirect (depths : List (String × Nat)) : Prop :=
  (∀ purl, DirectPackage packages purl → depths.lookup purl = some 1) ∧
    ∀ purl, ReachablePackage packages purl → ¬DirectPackage packages purl →
      ∃ depth, depths.lookup purl = some depth ∧ 2 ≤ depth

/-- The direct packages are those that walks over the kept dependencies start from, and the others
are kept as well. -/
def StartsAtDirect : Prop :=
  (∀ purl, DirectPackage packages purl →
      Start (KeptDependency packages) maxDepth (keptPurls packages) purl) ∧
    ∀ purl, ReachablePackage packages purl → ¬DirectPackage packages purl →
      purl ∈ keptPurls packages ∧
        ¬Start (KeptDependency packages) maxDepth (keptPurls packages) purl

/-- The root of a lockfile has an empty name, so it is not among what is read back. -/
theorem forcedRoots_lockfileGraph : (lockfileGraph packages).forcedRoots [""] = [] := by
  refine List.filter_eq_nil_iff.mpr fun ref member named => ?_
  have blank : ref = "" := by simpa using named
  rw [sortedRefs_lockfileGraph] at member
  exact ((mem_keys_adjacency packages).mpr (List.mem_of_mem_take member)).2 blank

/-- Where a document has no graph, the depths are those of the graph of the lockfile. -/
theorem persistDependencyGraph_depths {sbom : Json}
    (refToCvId refToScanComponent : List (String × Nat))
    (missing : parseDependencyGraph (sbom.get? "dependencies") = []) :
    (persistDependencyGraph sbom refToCvId refToScanComponent (parseV3 packages)).depths =
      (lockfileGraph packages).computeDepths [""] := by
  unfold persistDependencyGraph lockfileGraph
  rw [missing]
  cases parseV3 packages with
  | none => rfl
  | some lock =>
    by_cases blank : parseDependencyGraph (some lock.synthesizeCdxgenDependencies) = []
    · simp [blank, DependencyGraph.computeDepths]
    · -- A lockfile without packages gives an empty document, which has no graph either.
      have some_package : lock.adjacency ≠ [] := by
        intro empty
        refine blank ?_
        simp [NpmLockfileData.synthesizeCdxgenDependencies, empty, parseDependencyGraph,
          readEntries, sortBy]
      simp [blank, some_package]

/-- The depths of a lockfile: the first for the packages that walks start from, and some depth for
every package that is kept. -/
theorem lockfile_settles : (lockfileGraph packages).Settles (· ∈ keptPurls packages)
    (Start (KeptDependency packages) maxDepth (keptPurls packages))
    ((lockfileGraph packages).computeDepths [""]) := by
  have distinct : (keys (lockfileGraph packages)).Nodup := by
    rw [keys_lockfileGraph]
    exact (installedPurls_nodup packages).sublist (List.take_sublist _ _)
  have settles :=
    DependencyGraph.computeDepths_settles distinct (forcedRoots_lockfileGraph packages)
  rwa [follows_lockfileGraph, sortedRefs_lockfileGraph, keys_lockfileGraph] at settles

/-- The depths of a lockfile show exactly the direct packages as direct if and only if the walks
start at these and at no other package that the root leads to. -/
theorem lockfile_marks_direct (sbom : Json) (refToCvId refToScanComponent : List (String × Nat))
    (missing : parseDependencyGraph (sbom.get? "dependencies") = []) :
    MarksDirect packages
        (persistDependencyGraph sbom refToCvId refToScanComponent (parseV3 packages)).depths ↔
      StartsAtDirect packages := by
  rw [persistDependencyGraph_depths packages refToCvId refToScanComponent missing]
  have settles := lockfile_settles packages
  -- The depth of a purl is looked up in the settled graph.
  have first : ∀ purl, ((lockfileGraph packages).computeDepths [""]).lookup purl = some 1 ↔
      Start (KeptDependency packages) maxDepth (keptPurls packages) purl := fun purl =>
    (lookup_eq_some settles.distinct).trans (settles.first purl)
  refine and_congr (forall_congr' fun purl => imp_congr_right fun _ => first purl)
    (forall_congr' fun purl => imp_congr_right fun _ => imp_congr_right fun _ => ?_)
  rw [← first]
  -- A depth of more than one against not being a start: the two say the same of a settled purl.
  constructor
  · rintro ⟨depth, given, deep⟩
    have member := (lookup_eq_some settles.distinct).mp given
    refine ⟨(settles.covers purl).mp (mem_keys.mpr ⟨depth, member⟩), fun shallow => ?_⟩
    -- The look-up gives one depth only.
    have same := Option.some.inj (given.symm.trans shallow)
    omega
  · rintro ⟨known, deep⟩
    obtain ⟨depth, member⟩ := mem_keys.mp ((settles.covers purl).mpr known)
    have given := (lookup_eq_some settles.distinct).mpr member
    refine ⟨depth, given, ?_⟩
    have positive : 1 ≤ depth := settles.positive _ member
    have other : depth ≠ 1 := fun one => deep (one ▸ given)
    omega

end Lockfile

section Small

/-- A package that needs another one. -/
def packageA : PackageEntry :=
  ⟨"node_modules/a", "a", "1.0.0", false, false, false, [("b", "1.0.0")], [], []⟩

/-- A package that needs nothing. -/
def packageB : PackageEntry :=
  ⟨"node_modules/b", "b", "1.0.0", false, false, false, [], [], []⟩

/-- A lockfile with two packages of which the first needs the second, and the names of the root. -/
def smallLockfile (names : List String) : List (String × Json) :=
  [("", .obj [("dependencies", .obj (names.map fun name => (name, .str "1.0.0")))]),
    ("node_modules/a", .obj [("version", .str "1.0.0"),
      ("dependencies", .obj [("b", .str "1.0.0")])]),
    ("node_modules/b", .obj [("version", .str "1.0.0")])]

/-- What is installed of it. -/
def smallInstalled : List (String × PackageEntry) :=
  [("node_modules/a", packageA), ("node_modules/b", packageB)]

section Installed

variable {packages : List (String × Json)}
  (small : (readPackages packages).installed = smallInstalled)
include small

/-- The second package is what its name means to the root and to the first package. -/
theorem small_resolve (path : String) (here : path = "" ∨ path = "node_modules/a") (name : String) :
    (readPackages packages).resolveChild path name = [("a", packageA),
      ("b", packageB)].lookup name := by
  -- The index has the two packages under the root's prefix.
  have index : (readPackages packages).byPrefixName =
      [(("", "a"), packageA), (("", "b"), packageB)] := by
    rw [LockfilePackages.byPrefixName, small]
    decide
  -- So a name is resolved from the root as it stands in that index.
  have top : (readPackages packages).byPrefixName.lookup ("", name) =
      [("a", packageA), ("b", packageB)].lookup name := by
    have same : ∀ other : String, (("", name) == ("", other)) = (name == other) := fun other => by
      rw [Bool.eq_iff_iff]
      simp
    simp only [index, List.lookup_cons, List.lookup_nil, same]
  -- The root resolves directly; inside `a` nothing is nested, so the walk goes up once.
  rcases here with rfl | rfl
  · rw [LockfilePackages.resolveChild, LockfilePackages.enclosing]
    simp [top]
  · have inner : (readPackages packages).byPrefixName.lookup ("node_modules/a", name) = none := by
      simp [index]
    rw [LockfilePackages.resolveChild, enclosing_top (by decide) (by decide +kernel)]
    simp [inner, top]

/-- The only dependency is that of the first package on the second. -/
theorem small_dependsOn {parent child : String} : DependsOn packages parent child ↔
    parent = "pkg:npm/a@1.0.0" ∧ child = "pkg:npm/b@1.0.0" := by
  unfold DependsOn
  rw [small]
  -- Only `a` names a dependency, and it resolves to `b`.
  constructor
  · rintro ⟨item, installed, rfl, name, named, package, found, rfl⟩
    rcases List.mem_cons.mp installed with rfl | last
    · obtain rfl : name = "b" := List.mem_singleton.mp named
      rw [small_resolve small packageA.path (.inr rfl)] at found
      cases found
      decide
    · rw [List.mem_singleton.mp last] at named
      cases named
  · -- That one dependency is there.
    rintro ⟨rfl, rfl⟩
    refine ⟨_, List.mem_cons_self, by decide, "b", List.mem_singleton.mpr rfl, packageB,
      ?_, by decide⟩
    rw [small_resolve small packageA.path (.inr rfl)]
    rfl

/-- The packages the small lockfile installs. -/
theorem small_installedPurls : installedPurls packages = ["pkg:npm/a@1.0.0", "pkg:npm/b@1.0.0"] := by
  have purls : distinctOn id ((readPackages packages).installed.map fun item => item.2.purl) =
      ["pkg:npm/a@1.0.0", "pkg:npm/b@1.0.0"] := by
    rw [small]
    decide
  rw [installedPurls, purls]
  exact List.mergeSort_of_pairwise (by decide)

/-- The walk starts from the first package only. -/
theorem small_start {purl : String} (kept : purl ∈ keptPurls packages) :
    Start (KeptDependency packages) maxDepth (keptPurls packages) purl ↔
      purl = "pkg:npm/a@1.0.0" := by
  -- Two packages are kept, and there is one edge between them.
  have all : keptPurls packages = ["pkg:npm/a@1.0.0", "pkg:npm/b@1.0.0"] := by
    rw [keptPurls, small_installedPurls small]
    rfl
  have edge : KeptDependency packages "pkg:npm/a@1.0.0" "pkg:npm/b@1.0.0" := by
    refine ⟨?_, ?_, by decide, (small_dependsOn small).mpr ⟨rfl, rfl⟩⟩
    · rw [small_installedPurls small]
      exact List.mem_cons_self
    · rw [all]
      simp
  -- Nothing needs the first, so it is the root.
  have root : Root (KeptDependency packages) (keptPurls packages) "pkg:npm/a@1.0.0" := by
    refine ⟨by rw [all]; exact List.mem_cons_self, fun other needed => ?_⟩
    exact absurd ((small_dependsOn small).mp needed.2.2.2).2 (by decide)
  constructor
  · -- The second is needed, so it could start only where no walk had passed.
    intro start
    rw [all] at kept
    rcases List.mem_cons.mp kept with first | last
    · exact first
    · cases List.mem_singleton.mp last
      rcases start with alone | ⟨earlier, later, _, free⟩
      · exact absurd edge (alone.2 _)
      · -- The walk from the first package passes it before its turn comes.
        refine absurd (passed_of_mem maxDepth DependencyGraph.one_le_maxDepth (.inr ?_)) free
        exact ⟨1, by decide, .step (.source root not_false) edge not_false⟩
  · rintro rfl
    exact .inl root

end Installed

/-- A direct package that another one needs as well is shown at the second depth. -/
theorem lockfile_hides_direct : ¬MarksDirect (smallLockfile ["a", "b"])
    (persistDependencyGraph (.obj []) [] [] (parseV3 (smallLockfile ["a", "b"]))).depths := by
  have small : (readPackages (smallLockfile ["a", "b"])).installed = smallInstalled := by
    decide +kernel
  rw [persistDependencyGraph_depths _ _ _ rfl]
  -- `b` is a direct dependency as well, and would have to be shown at depth one.
  rintro ⟨direct, _⟩
  have shown := direct "pkg:npm/b@1.0.0" ⟨"b", by decide +kernel, packageB,
    by rw [small_resolve small _ (.inl rfl)]; rfl, by decide +kernel⟩
  have settles := lockfile_settles (smallLockfile ["a", "b"])
  have member := (lookup_eq_some settles.distinct).mp shown
  -- It would then be a start, though `a` reaches it.
  have kept := (settles.covers _).mp (mem_keys.mpr ⟨1, member⟩)
  exact absurd ((small_start small kept).mp ((settles.first _).mp member)) (by decide +kernel)

/-- Where the root names the first package only, the depths show it as direct. -/
theorem lockfile_marks_direct_chain : MarksDirect (smallLockfile ["a"])
    (persistDependencyGraph (.obj []) [] [] (parseV3 (smallLockfile ["a"]))).depths := by
  -- The lockfile of the two packages: `a` on top, `b` behind it.
  have small : (readPackages (smallLockfile ["a"])).installed = smallInstalled := by decide +kernel
  have names : (readPackages (smallLockfile ["a"])).rootNames = ["a"] := by decide +kernel
  have all : keptPurls (smallLockfile ["a"]) = ["pkg:npm/a@1.0.0", "pkg:npm/b@1.0.0"] := by
    rw [keptPurls, small_installedPurls small]
    rfl
  refine (lockfile_marks_direct (smallLockfile ["a"]) (.obj []) [] [] rfl).mpr ⟨?_, ?_⟩
  · -- The direct dependencies: `a` alone, and it is a start.
    rintro purl ⟨name, named, package, found, rfl⟩
    rw [names] at named
    cases List.mem_singleton.mp named
    rw [small_resolve small _ (.inl rfl)] at found
    cases found
    exact (small_start small (by rw [all]; decide +kernel)).mpr (by decide +kernel)
  · -- What is reached otherwise is `b`, which is no start.
    intro purl reached other
    cases reached with
    | direct named => exact absurd named other
    | step _ needed =>
      obtain ⟨_, rfl⟩ := (small_dependsOn small).mp needed
      have kept : "pkg:npm/b@1.0.0" ∈ keptPurls (smallLockfile ["a"]) := by
        rw [all]
        decide +kernel
      exact ⟨kept, fun start => absurd ((small_start small kept).mp start) (by decide +kernel)⟩

end Small

end Trusca
