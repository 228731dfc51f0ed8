import Trusca.Dependency.Graph

/-! What of a lockfile is read back from its rendered dependencies. -/

namespace Trusca

open Store

/-- What is added to the children of a parent. -/
theorem mem_addChildren {parent child : String} (bucket children : List String) :
    child ∈ addChildren parent bucket children ↔
      child ∈ bucket ∨ child ∈ children ∧ child ≠ parent := by
  unfold addChildren
  induction children generalizing bucket with
  | nil => simp
  | cons first rest ih =>
    rw [List.foldl_cons, ih]
    -- The parent is never a child of its own, and a known child is not added again.
    by_cases same : first = parent
    · subst same
      grind
    · by_cases known : first ∈ bucket
      · grind
      · grind

/-- A package URL is never empty. -/
theorem npmPurl_ne_empty (name version : String) : npmPurl name version ≠ "" := by
  intro empty
  have length := congrArg String.length empty
  simp [npmPurl, String.length_append] at length

section Adjacency

variable {read : LockfilePackages} {adjacency : List (String × List String)} {parent child : String}

/-- Putting a package in gives it its dependencies and leaves every other its own. -/
theorem childrenOf_put {ref : String} {children : List String} :
    childrenOf (put adjacency ref children) parent =
      if parent = ref then children else childrenOf adjacency parent := by
  unfold childrenOf
  rw [lookup_put]
  split <;> rfl

/-- The packages of the fold are the parents that it adds. -/
theorem mem_keys_foldl_addPackage (packages : List PackageEntry) :
    parent ∈ keys (packages.foldl read.addPackage adjacency) ↔
      parent ∈ keys adjacency ∨ ∃ package ∈ packages, package.purl = parent := by
  induction packages generalizing adjacency with
  | nil => simp
  | cons first rest ih =>
    rw [List.foldl_cons, ih]
    simp only [LockfilePackages.addPackage, mem_keys_put, List.exists_mem_cons_iff]
    tauto

/-- Adding packages one by one makes no package a key twice. -/
theorem foldl_addPackage_nodup (packages : List PackageEntry) (distinct : (keys adjacency).Nodup) :
    (keys (packages.foldl read.addPackage adjacency)).Nodup := by
  induction packages generalizing adjacency with
  | nil => exact distinct
  | cons first rest ih => exact ih (keys_put_nodup distinct _ _)

/-- A parent has the children of every package with its URL, but for itself. -/
theorem mem_childrenOf_foldl_addPackage (packages : List PackageEntry) :
    child ∈ childrenOf (packages.foldl read.addPackage adjacency) parent ↔
      child ∈ childrenOf adjacency parent ∨ child ≠ parent ∧ ∃ package ∈ packages,
        package.purl = parent ∧ child ∈ read.childPurls package.path package.childNames := by
  induction packages generalizing adjacency with
  | nil => simp
  | cons first rest ih =>
    rw [List.foldl_cons, ih]
    simp only [LockfilePackages.addPackage, childrenOf_put, List.exists_mem_cons_iff]
    -- The package gives its own children, every other purl keeps what it had.
    by_cases same : parent = first.purl
    · subst same
      rw [if_pos rfl, mem_addChildren]
      simp only [childrenOf, true_and, or_assoc, and_comm, and_or_left]
    · rw [if_neg same]
      have other : first.purl ≠ parent := Ne.symm same
      simp only [other, false_and, false_or]

end Adjacency

section Render

variable (children : String → List String)

/-- One entry of a rendered document. -/
def renderEntry (ref : String) : Json :=
  .obj [("ref", .str ref), ("dependsOn", .arr ((children ref).map Json.str))]

/-- The references read from a list of texts are those that are not empty. -/
theorem mem_refsOf {refs : List String} {ref : String} :
    ref ∈ refsOf (refs.map Json.str) ↔ ref ∈ refs ∧ ref ≠ "" := by
  simp only [refsOf, List.mem_filterMap, List.mem_map]
  constructor
  · rintro ⟨_, ⟨other, member, rfl⟩, kept⟩
    -- An empty text is no reference.
    by_cases blank : other = ""
    · simp [blank] at kept
    · simp only [blank, if_false, Option.some.injEq] at kept
      exact kept ▸ ⟨member, blank⟩
  · rintro ⟨member, text⟩
    exact ⟨.str ref, ⟨ref, member, rfl⟩, by simp [text]⟩

/-- What is read back of the rendered entries while there is room: one more reference than there is
room for, and that one without its children. -/
def cutEntries : Nat → List String → DependencyGraph
  | _, [] => []
  | 0, ref :: _ => [(ref, [])]
  | room + 1, ref :: rest =>
      (ref, addChildren ref [] (refsOf ((children ref).map Json.str))) :: cutEntries room rest

/-- The entries within the limit are those of the first packages. -/
theorem keys_cutEntries (room : Nat) (refs : List String) :
    keys (cutEntries children room refs) = refs.take (room + 1) := by
  induction refs generalizing room with
  | nil => cases room <;> rfl
  | cons ref rest ih =>
    cases room with
    | zero => rfl
    | succ room => rw [cutEntries, keys_cons, ih, List.take_succ_cons]

/-- The empty reference of the root is left out. -/
theorem readEntries_render_filter (refs : List String) (graph : DependencyGraph) :
    readEntries (refs.map (renderEntry children)) graph =
      readEntries ((refs.filter (· ≠ "")).map (renderEntry children)) graph := by
  induction refs generalizing graph with
  | nil => rfl
  | cons ref rest ih =>
    -- An empty reference is skipped when the entry is read.
    by_cases blank : ref = ""
    · subst blank
      rw [List.filter_cons_of_neg (by simp), ← ih]
      rfl
    · rw [List.filter_cons_of_pos (by simpa using blank)]
      simp only [List.map_cons, readEntries, ih]

/-- Distinct references are read back until there is no room. -/
theorem readEntries_render (refs : List String) (graph : DependencyGraph) (room : Nat)
    (named : ∀ ref ∈ refs, ref ≠ "") (distinct : refs.Nodup) (new : ∀ ref ∈ refs, ref ∉ keys graph)
    (size : graph.length + room = maxNodes) :
    readEntries (refs.map (renderEntry children)) graph = graph ++ cutEntries children room refs := by
  -- Along the references; the room left in the cap says whether the entry is still absorbed.
  induction refs generalizing graph room with
  | nil => cases room <;> simp [readEntries, cutEntries]
  | cons ref rest ih =>
    obtain ⟨apart, later⟩ := List.nodup_cons.mp distinct
    have text : ref ≠ "" := named ref List.mem_cons_self
    have fresh : ref ∉ keys graph := new ref List.mem_cons_self
    have reads : (renderEntry children ref).get? "ref" = some (.str ref) := rfl
    have lists : (renderEntry children ref).get? "dependsOn" =
        some (.arr ((children ref).map Json.str)) := rfl
    rw [List.map_cons, readEntries]
    simp only [reads, lists, text, fresh, if_false, List.length_append, List.length_singleton]
    -- No room: the entry is put in and the loop breaks before its children.
    cases room with
    | zero =>
      rw [if_pos (by omega)]
      rfl
    -- Room for one more: the new reference has no children yet, so all of the rendered ones are added.
    | succ room =>
      have empty : childrenOf (graph ++ [(ref, [])]) ref = [] := by
        rw [childrenOf, List.lookup_append, List.lookup_eq_none_iff.mpr]
        · simp
        · exact fun item member => bne_iff_ne.mpr fun same =>
            fresh (same ▸ mem_keys.mpr ⟨item.2, member⟩)
      -- The rest is read with one place less.
      rw [if_neg (by omega), empty, put_last fresh, ih _ room]
      · rw [cutEntries, List.append_assoc, List.singleton_append]
      · exact fun other member => named other (List.mem_cons_of_mem _ member)
      · exact later
      · -- The later references are new as well: neither among the old ones nor this one.
        intro other member
        rw [keys_append, List.mem_append]
        rintro (old | last)
        · exact new other (List.mem_cons_of_mem _ member) old
        · have same : other = ref := List.mem_singleton.mp last
          exact apart (same ▸ member)
      · rw [List.length_append, List.length_singleton]
        omega

/-- The children that are read back of a reference. -/
theorem mem_childrenOf_cutEntries {parent child : String} (room : Nat) (refs : List String)
    (distinct : refs.Nodup) : child ∈ childrenOf (cutEntries children room refs) parent ↔
      parent ∈ refs.take room ∧ child ∈ children parent ∧ child ≠ "" ∧ child ≠ parent := by
  -- Along the references, with the room the cap leaves.
  induction refs generalizing room with
  | nil => cases room <;> simp [cutEntries, childrenOf]
  | cons ref rest ih =>
    obtain ⟨apart, later⟩ := List.nodup_cons.mp distinct
    -- Past the cap the entry has an empty list of children.
    cases room with
    | zero =>
      simp only [cutEntries, childrenOf, List.take_zero, List.not_mem_nil, false_and, iff_false]
      by_cases same : parent = ref
      · simp [same]
      · simp [List.lookup_cons, beq_eq_false_iff_ne.mpr same]
    -- The first entry answers for its own reference, the rest for the others.
    | succ room =>
      rw [List.take_succ_cons, List.mem_cons, cutEntries]
      by_cases same : parent = ref
      · subst same
        simp [childrenOf, mem_addChildren, mem_refsOf, and_assoc]
      · have step : childrenOf ((ref, addChildren ref [] (refsOf ((children ref).map Json.str))) ::
            cutEntries children room rest) parent =
              childrenOf (cutEntries children room rest) parent := by
          simp [childrenOf, List.lookup_cons, beq_eq_false_iff_ne.mpr same]
        rw [step, ih room later]
        simp [same]

end Render

section Lockfile

variable (packages : List (String × Json))

/-- A package that a name in the dependency lists of the root means. -/
def DirectPackage (purl : String) : Prop :=
  ∃ name ∈ (readPackages packages).rootNames, ∃ package,
    (readPackages packages).resolveChild "" name = some package ∧ package.purl = purl

/-- A package that a name in the lists of another package means. -/
def DependsOn (parent child : String) : Prop :=
  ∃ item ∈ (readPackages packages).installed, item.2.purl = parent ∧
    ∃ name ∈ item.2.childNames, ∃ package,
      (readPackages packages).resolveChild item.2.path name = some package ∧ package.purl = child

/-- A package that the root leads to. -/
inductive ReachablePackage : String → Prop where
  | direct {purl : String} (named : DirectPackage packages purl) : ReachablePackage purl
  | step {parent child : String} (reached : ReachablePackage parent)
      (needed : DependsOn packages parent child) : ReachablePackage child

/-- The URLs of the installed packages in their order. -/
def installedPurls : List String :=
  sortBy id (distinctOn id ((readPackages packages).installed.map fun item => item.2.purl))

/-- The packages up to the limit on their number, and the one that reaches it. -/
def keptPurls : List String := (installedPurls packages).take (maxNodes + 1)

/-- A dependency between packages up to the limit. -/
def KeptDependency (parent child : String) : Prop :=
  parent ∈ (installedPurls packages).take maxNodes ∧ child ∈ keptPurls packages ∧ child ≠ parent ∧
    DependsOn packages parent child

/-- The graph that is read back from the dependencies of a lockfile. -/
def lockfileGraph : DependencyGraph :=
  match parseV3 packages with
  | none => []
  | some lock => parseDependencyGraph (some lock.synthesizeCdxgenDependencies)

/-- The purls installed are those of the entries read. -/
theorem mem_installedPurls {purl : String} : purl ∈ installedPurls packages ↔
    ∃ item ∈ (readPackages packages).installed, item.2.purl = purl := by
  rw [installedPurls, mem_sortBy]
  constructor
  · -- The distinct purls, sorted, are the purls of the installed packages.
    intro member
    exact List.mem_map.mp (mem_of_mem_distinctOn id member)
  · intro installed
    obtain ⟨found, member, same⟩ := exists_mem_distinctOn id (List.mem_map.mpr installed)
    have equal : found = purl := same
    exact equal ▸ member

/-- No purl is listed as installed twice. -/
theorem installedPurls_nodup : (installedPurls packages).Nodup := by
  have distinct := distinctOn_keys_nodup id
    ((readPackages packages).installed.map fun item => item.2.purl)
  rw [List.map_id] at distinct
  exact (sortBy_perm _ _).nodup_iff.mpr distinct

/-- The parents of a lockfile are the root and the installed packages. -/
theorem mem_keys_adjacency {purl : String} :
    purl ∈ keys (readPackages packages).adjacency ∧ purl ≠ "" ↔ purl ∈ installedPurls packages := by
  rw [LockfilePackages.adjacency, mem_keys_foldl_addPackage, mem_installedPurls]
  constructor
  · -- A key is the root's empty purl, or a package's own.
    rintro ⟨root | ⟨package, member, same⟩, text⟩
    · split at root
      · cases root
      · exact absurd (List.mem_singleton.mp root) text
    · obtain ⟨item, installed, rfl⟩ := List.mem_map.mp member
      exact ⟨item, installed, same⟩
  · rintro ⟨item, installed, rfl⟩
    exact ⟨.inr ⟨item.2, List.mem_map_of_mem installed, rfl⟩, npmPurl_ne_empty _ _⟩

/-- In their order, and without the root. -/
theorem sorted_adjacency : (sortBy id (keys (readPackages packages).adjacency)).filter (· ≠ "") =
    installedPurls packages := by
  -- No key is there twice, and neither is a purl.
  have distinct : (keys (readPackages packages).adjacency).Nodup := by
    refine foldl_addPackage_nodup _ ?_
    split <;> simp
  have same : ((sortBy id (keys (readPackages packages).adjacency)).filter (· ≠ "")).Perm
      (installedPurls packages) := by
    refine (List.perm_ext_iff_of_nodup ?_ (installedPurls_nodup packages)).mpr fun purl => ?_
    · exact ((sortBy_perm _ _).nodup_iff.mpr distinct).filter _
    · rw [List.mem_filter, mem_sortBy, decide_eq_true_eq]
      exact mem_keys_adjacency packages
  -- Two sorted lists of the same members are one list.
  exact same.eq_of_pairwise (fun _ _ _ _ => le_antisymm)
    ((sortBy_sorted id _).filter _) (sortBy_sorted id _)

/-- What is read back are the packages up to the limit with their dependencies. -/
theorem lockfileGraph_eq : lockfileGraph packages =
    cutEntries (childrenOf (readPackages packages).adjacency) maxNodes (installedPurls packages) := by
  unfold lockfileGraph parseV3
  -- A lockfile without packages is not rendered at all.
  by_cases empty : (readPackages packages).installed = []
  · have blank : installedPurls packages = [] := by simp [installedPurls, empty, distinctOn, sortBy]
    simp only [empty, if_true, blank]
    rfl
  · -- Otherwise the adjacency is rendered in the order of its keys and read back.
    simp only [empty, if_false]
    show readEntries ((sortBy id (keys (readPackages packages).adjacency)).map
      (renderEntry (childrenOf (readPackages packages).adjacency))) [] = _
    -- Its sorted keys are the installed purls, no one empty and no one twice.
    rw [readEntries_render_filter, sorted_adjacency, readEntries_render _ _ _ maxNodes]
    · rfl
    · intro ref member
      obtain ⟨item, _, rfl⟩ := (mem_installedPurls packages).mp member
      exact npmPurl_ne_empty _ _
    · exact installedPurls_nodup packages
    · simp
    · simp

/-- The packages of the graph are those kept from the lockfile. -/
theorem keys_lockfileGraph : keys (lockfileGraph packages) = keptPurls packages := by
  rw [lockfileGraph_eq, keys_cutEntries]
  rfl

/-- The packages that are read back, in their order. -/
theorem sortedRefs_lockfileGraph : (lockfileGraph packages).sortedRefs = keptPurls packages := by
  have sorted : (keptPurls packages).Pairwise fun first second => first ≤ second :=
    (sortBy_sorted id _).sublist (List.take_sublist _ _)
  rw [DependencyGraph.sortedRefs, keys_lockfileGraph, sortBy]
  exact List.mergeSort_of_pairwise (sorted.imp fun le => decide_eq_true le)

/-- The children of an installed package are what its names mean. -/
theorem mem_childrenOf_adjacency {parent child : String} (text : parent ≠ "") :
    child ∈ childrenOf (readPackages packages).adjacency parent ↔
      child ≠ parent ∧ DependsOn packages parent child := by
  -- The root's own children stand under the empty reference, and no package's do.
  have root : childrenOf (if (readPackages packages).rootChildren = [] then []
      else [("", (readPackages packages).rootChildren)]) parent = [] := by
    refine childrenOf_eq_nil ?_
    split <;> simp [text]
  rw [LockfilePackages.adjacency, mem_childrenOf_foldl_addPackage, root]
  simp only [List.not_mem_nil, false_or, LockfilePackages.childPurls, List.mem_filterMap,
    Option.map_eq_some_iff]
  -- A child purl is one of a package that is installed and resolves the name.
  refine and_congr_right fun _ => ⟨?_, ?_⟩
  · rintro ⟨package, member, same, names⟩
    obtain ⟨item, installed, rfl⟩ := List.mem_map.mp member
    exact ⟨item, installed, same, names⟩
  · rintro ⟨item, installed, same, names⟩
    exact ⟨item.2, List.mem_map_of_mem installed, same, names⟩

/-- The dependencies that are read back. -/
theorem follows_lockfileGraph : Follows (lockfileGraph packages) = KeptDependency packages := by
  funext parent child
  rw [Follows, keys_lockfileGraph, lockfileGraph_eq,
    mem_childrenOf_cutEntries _ _ _ (installedPurls_nodup packages), KeptDependency]
  refine propext ⟨?_, ?_⟩
  · -- Kept in the graph: both ends lie within the cap, and neither is empty.
    rintro ⟨⟨early, needed, _, other⟩, kept⟩
    have text := ((mem_keys_adjacency packages).mpr (List.mem_of_mem_take early)).2
    exact ⟨early, kept, (mem_childrenOf_adjacency packages text).mp needed⟩
  · -- And a dependency between two kept purls is listed.
    rintro ⟨early, kept, other, needed⟩
    have parents := (mem_keys_adjacency packages).mpr (List.mem_of_mem_take early)
    have children := (mem_keys_adjacency packages).mpr (List.mem_of_mem_take kept)
    have listed := (mem_childrenOf_adjacency packages parents.2).mpr ⟨other, needed⟩
    exact ⟨⟨early, listed, children.2, other⟩, kept⟩

end Lockfile

end Trusca
