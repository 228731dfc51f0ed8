import Mathlib.Data.List.Perm.Subperm
import Trusca.Dependency.Graph

/-! The depths of a dependency graph against the shortest distances from its roots. -/

namespace Trusca

open Store

namespace DependencyGraph

variable (graph : DependencyGraph)

/-- The packages that the first walk starts from. -/
def roots (rootRefs : List String) : List String :=
  if graph.forcedRoots rootRefs ≠ [] then graph.forcedRoots rootRefs else graph.implicitRoots

/-- The depth of the roots: a given root is the project itself, any other is a direct dependency. -/
def rootDepth (rootRefs : List String) : Nat :=
  if graph.forcedRoots rootRefs ≠ [] then 0 else 1

/-- What has a depth once the roots and then some leftover packages were walked from. -/
def settledAfter (rootRefs earlier : List String) : String → Prop :=
  earlier.foldl (passOn (Follows graph) maxDepth)
    (Near (Follows graph) (maxDepth + 1 - graph.rootDepth rootRefs) (fun _ => False)
      (· ∈ graph.roots rootRefs))

/-- The depth that a package is given: its distance from the roots, or else one more than its
distance from the first leftover package, in their order, that leads to it. -/
def Given (rootRefs : List String) (ref : String) (depth : Nat) : Prop :=
  (depth ≤ maxDepth ∧ ∃ count, depth = graph.rootDepth rootRefs + count ∧
      Distance (Follows graph) (fun _ => False) (· ∈ graph.roots rootRefs) count ref) ∨
    ∃ earlier seed later, graph.sortedRefs = earlier ++ seed :: later ∧ depth ≤ maxDepth ∧
      ∃ count, depth = 1 + count ∧
        Distance (Follows graph) (graph.settledAfter rootRefs earlier) (· = seed) count ref

/-- What some depths say: which packages have one, and which one it is. -/
structure Records (passed : String → Prop) (given : String → Nat → Prop)
    (depths : List (String × Nat)) : Prop where
  distinct : (keys depths).Nodup
  covers : ∀ ref, ref ∈ keys depths ↔ passed ref
  holds : ∀ ref depth, (ref, depth) ∈ depths ↔ given ref depth

variable {graph} {passed : String → Prop} {given : String → Nat → Prop}
  {depths : List (String × Nat)}

/-- The limit leaves room for the roots. -/
theorem one_le_maxDepth : 1 ≤ maxDepth := by decide

/-- Before anything is walked from, nothing has a depth. -/
theorem Records.nothing : Records (fun _ => False) (fun _ _ => False) [] where
  distinct := List.nodup_nil
  covers := by simp
  holds := by simp

/-- A walk from packages that were not passed. -/
theorem Records.walk (graph : DependencyGraph) (records : Records passed given depths) {base : Nat}
    {sources : List String} (below : base ≤ maxDepth) (apart : ∀ ref ∈ sources, ref ∉ keys depths) :
    Records
      (fun ref => passed ref ∨
        Near (Follows graph) (maxDepth + 1 - base) passed (· ∈ sources) ref)
      (fun ref depth => given ref depth ∨ depth ≤ maxDepth ∧ ∃ count, depth = base + count ∧
        Distance (Follows graph) passed (· ∈ sources) count ref)
      (Store.walk graph maxDepth (sources.map (·, base)) depths) := by
  have same : (· ∈ keys depths) = passed := funext fun ref => propext (records.covers ref)
  refine
    { distinct := walk_keys_nodup _ _ records.distinct
      covers := fun ref => ?_
      holds := fun ref depth => ?_ }
  · -- A reference is recorded once the walk has reached it, at whatever count.
    rw [mem_keys_walk below apart, records.covers, same]
    refine or_congr_right (exists_congr fun count => and_congr_left fun _ => ?_)
    omega
  · -- Its depth was there before, or it is the one the walk has added.
    obtain ⟨added, equal, settles⟩ := walk_spec graph below apart
    rw [equal, List.mem_append, records.holds, settles, same]

/-- Walking from a package that was passed changes nothing. -/
theorem passOn_passed {ref : String} (old : passed ref) :
    passOn (Follows graph) maxDepth passed ref = passed := by
  refine funext fun other => propext ⟨fun on => on.resolve_right ?_, .inl⟩
  rintro ⟨count, _, met⟩
  exact not_steps (fun _ same => same ▸ old) met

/-- One package's turn. -/
theorem Records.seed (graph : DependencyGraph) (records : Records passed given depths) (ref : String) :
    Records (passOn (Follows graph) maxDepth passed ref)
      (fun other depth => given other depth ∨ depth ≤ maxDepth ∧ ∃ count, depth = 1 + count ∧
        Distance (Follows graph) passed (· = ref) count other)
      (graph.seedOrphan depths ref) := by
  unfold seedOrphan
  split
  · next member =>
    -- It was passed before, and no way leads on from it.
    have old := (records.covers ref).mp member
    have gives : (fun other depth => given other depth ∨ depth ≤ maxDepth ∧
        ∃ count, depth = 1 + count ∧
          Distance (Follows graph) passed (· = ref) count other) = given := by
      refine funext fun other => funext fun depth => propext ⟨fun on => on.resolve_right ?_, .inl⟩
      rintro ⟨_, _, _, met, _⟩
      exact not_steps (fun _ same => same ▸ old) met
    rw [passOn_passed old, gives]
    exact records
  · next new =>
    have walked := @Records.walk _ _ _ graph records 1 [ref] one_le_maxDepth (by simpa using new)
    simp only [List.mem_singleton] at walked
    exact walked

/-- The turns of some packages, one after the other. -/
theorem Records.seeds (graph : DependencyGraph) (refs : List String)
    (records : Records passed given depths) :
    Records (refs.foldl (passOn (Follows graph) maxDepth) passed)
      (fun ref depth => given ref depth ∨ ∃ earlier seed later, refs = earlier ++ seed :: later ∧
        depth ≤ maxDepth ∧ ∃ count, depth = 1 + count ∧
          Distance (Follows graph) (earlier.foldl (passOn (Follows graph) maxDepth) passed)
            (· = seed) count ref)
      (refs.foldl graph.seedOrphan depths) := by
  -- Along the references of the second pass, each one a turn of its own.
  induction refs generalizing passed given depths with
  | nil => simpa using records
  | cons first rest ih =>
    -- The first turn, and then the rest of them on what it has passed.
    have next := ih (records.seed graph first)
    refine { next with holds := fun ref depth => (next.holds ref depth).trans ?_ }
    rw [or_assoc]
    refine or_congr_right ⟨?_, ?_⟩
    · -- A depth is given by the first turn or by a later one: the list is split there.
      rintro (turn | ⟨earlier, seed, later, split, turn⟩)
      · exact ⟨[], first, rest, rfl, turn⟩
      · exact ⟨first :: earlier, seed, later, by rw [split]; rfl, turn⟩
    · rintro ⟨earlier, seed, later, split, turn⟩
      -- Read back: nothing before the seed means the first turn gave it.
      cases earlier with
      | nil =>
        cases split
        exact .inl turn
      | cons other earlier =>
        cases split
        exact .inr ⟨earlier, seed, later, rfl, turn⟩

/-- Turns change nothing once every package has a depth. -/
theorem foldl_seedOrphan (refs : List String) (all : ∀ ref ∈ refs, ref ∈ keys depths) :
    refs.foldl graph.seedOrphan depths = depths := by
  induction refs with
  | nil => rfl
  | cons first rest ih =>
    rw [List.foldl_cons, seedOrphan, if_pos (all first List.mem_cons_self)]
    exact ih fun ref member => all ref (List.mem_cons_of_mem _ member)

/-- Sorting the packages loses none of them. -/
theorem mem_sortedRefs {ref : String} : ref ∈ graph.sortedRefs ↔ ref ∈ keys graph := mem_sortBy

/-- A root is a package of the graph. -/
theorem mem_keys_of_mem_roots {rootRefs : List String} {ref : String}
    (member : ref ∈ graph.roots rootRefs) : ref ∈ keys graph := by
  rw [roots] at member
  split at member <;> exact mem_sortedRefs.mp (List.mem_of_mem_filter member)

/-- The roots stand at depth one at most. -/
theorem rootDepth_le_one (rootRefs : List String) : graph.rootDepth rootRefs ≤ 1 := by
  rw [rootDepth]
  split <;> omega

/-- The first walk, from the roots. -/
theorem records_roots (graph : DependencyGraph) (rootRefs : List String) :
    Records (graph.settledAfter rootRefs [])
      (fun ref depth => depth ≤ maxDepth ∧ ∃ count, depth = graph.rootDepth rootRefs + count ∧
        Distance (Follows graph) (fun _ => False) (· ∈ graph.roots rootRefs) count ref)
      (Store.walk graph maxDepth
        ((graph.roots rootRefs).map (·, graph.rootDepth rootRefs)) []) := by
  have below := (graph.rootDepth_le_one rootRefs).trans one_le_maxDepth
  have walked := @Records.walk _ _ _ graph Records.nothing _ (graph.roots rootRefs) below (by simp)
  simp only [false_or] at walked
  exact walked

/-- The leftover packages may be gone through where every package has a depth already. -/
theorem computeDepths_eq_foldl (graph : DependencyGraph) (rootRefs : List String) :
    graph.computeDepths rootRefs = graph.sortedRefs.foldl graph.seedOrphan
      (Store.walk graph maxDepth
        ((graph.roots rootRefs).map (·, graph.rootDepth rootRefs)) []) := by
  -- What the walk from the roots has recorded.
  have rooted := graph.records_roots rootRefs
  have inside : ∀ ref ∈ keys (Store.walk graph maxDepth
      ((graph.roots rootRefs).map (·, graph.rootDepth rootRefs)) []), ref ∈ keys graph := by
    intro ref member
    obtain ⟨_, _, met⟩ := (rooted.covers ref).mp member
    exact met.inside fun _ => mem_keys_of_mem_roots
  -- The queue the source builds, forced roots at zero or implicit ones at one.
  have queue : (graph.roots rootRefs).map (·, graph.rootDepth rootRefs) =
      if graph.forcedRoots rootRefs ≠ [] then (graph.forcedRoots rootRefs).map (·, 0)
      else graph.implicitRoots.map (·, 1) := by
    rw [roots, rootDepth]
    split <;> rfl
  unfold computeDepths
  -- An empty graph returns before the queue is built.
  by_cases empty : graph = []
  · subst empty
    simp [roots, forcedRoots, implicitRoots, sortedRefs, sortBy, Store.walk]
  · rw [if_neg empty, ← queue]
    dsimp only
    split
    · rfl
    · -- All references are recorded already, so the source skips the second pass; running it is the same.
      next full =>
      refine (foldl_seedOrphan _ fun ref member => ?_).symm
      have part := List.subperm_of_subset rooted.distinct inside
      have whole := part.perm_of_length_le (by simpa using full)
      exact whole.mem_iff.mpr (mem_sortedRefs.mp member)

/-- Every package is given one depth. -/
theorem computeDepths_records (graph : DependencyGraph) (rootRefs : List String) :
    Records (· ∈ keys graph) (graph.Given rootRefs) (graph.computeDepths rootRefs) := by
  rw [computeDepths_eq_foldl]
  have seeded := (graph.records_roots rootRefs).seeds graph graph.sortedRefs
  refine { seeded with covers := fun ref => ⟨fun member => ?_, fun member => ?_⟩ }
  · -- Whatever has a depth was met by a walk that starts in the graph.
    obtain ⟨depth, entry⟩ := mem_keys.mp member
    rcases (seeded.holds ref depth).mp entry with ⟨_, _, _, met, _⟩ |
      ⟨earlier, seed, later, split, _, _, _, met, _⟩
    · exact met.inside fun _ => mem_keys_of_mem_roots
    · refine met.inside fun _ same => mem_sortedRefs.mp ?_
      rw [split, same]
      simp
  · exact (seeded.covers ref).mpr
      (passed_of_mem maxDepth one_le_maxDepth (.inl (mem_sortedRefs.mpr member)))

/-- The packages without parents are those that no edge leads to. -/
theorem mem_implicitRoots (distinct : (keys graph).Nodup) {ref : String} :
    ref ∈ graph.implicitRoots ↔ Root (Follows graph) graph.sortedRefs ref := by
  rw [implicitRoots, List.mem_filter, Root]
  refine and_congr_right fun listed => ?_
  rw [Bool.not_eq_true', ← Bool.not_eq_true, ← not_exists]
  refine not_congr ?_
  simp only [hasParent, List.any_eq_true, List.contains_iff_mem]
  -- A parent that lists it, among the entries or as one that is followed.
  constructor
  · rintro ⟨⟨parent, children⟩, member, child⟩
    exact ⟨parent, (mem_childrenOf distinct).mpr ⟨children, member, child⟩, mem_sortedRefs.mp listed⟩
  · rintro ⟨parent, child, _⟩
    obtain ⟨children, member, inside⟩ := (mem_childrenOf distinct).mp child
    exact ⟨(parent, children), member, inside⟩

/-- The packages that depths are counted from: the given ones that are in the graph, or, where there
are none, those that nothing leads to. -/
def IsRoot (graph : DependencyGraph) (rootRefs : List String) (ref : String) : Prop :=
  ref ∈ keys graph ∧
    if graph.forcedRoots rootRefs ≠ [] then ref ∈ rootRefs else ∀ other, ¬Follows graph other ref

/-- The roots computed are the roots of the graph. -/
theorem mem_roots (distinct : (keys graph).Nodup) {rootRefs : List String} {ref : String} :
    ref ∈ graph.roots rootRefs ↔ graph.IsRoot rootRefs ref := by
  rw [roots, IsRoot]
  split
  · rw [forcedRoots, List.mem_filter, mem_sortedRefs, List.contains_iff_mem]
  · rw [mem_implicitRoots distinct, Root, mem_sortedRefs]

/-- Every package of the graph has a depth, none is deeper than the limit, and what a root leads to
lies as deep as its distance says, up to the limit. -/
def ClampedDepths (graph : DependencyGraph) (rootRefs : List String) (depths : List (String × Nat)) :
    Prop :=
  (∀ ref, ref ∈ keys depths ↔ ref ∈ keys graph) ∧ (∀ item ∈ depths, item.2 ≤ maxDepth) ∧
    ∀ ref count, Distance (Follows graph) (fun _ => False) (graph.IsRoot rootRefs) count ref →
      depths.lookup ref = some (min maxDepth (graph.rootDepth rootRefs + count))

/-- No package is given a depth over the limit. -/
theorem le_of_mem_computeDepths {rootRefs : List String} {item : String × Nat}
    (member : item ∈ graph.computeDepths rootRefs) : item.2 ≤ maxDepth := by
  rcases ((graph.computeDepths_records rootRefs).holds _ _).mp member with ⟨within, _⟩ |
    ⟨_, _, _, _, within, _⟩
  · exact within
  · exact within

/-- The depths are the distances up to the limit exactly when the leftover packages are walked from
in such an order that whatever lies beyond the limit is met at the limit again. -/
theorem computeDepths_clamped (graph : DependencyGraph) (distinct : (keys graph).Nodup)
    (rootRefs : List String) :
    ClampedDepths graph rootRefs (graph.computeDepths rootRefs) ↔
      ∀ ref count, Distance (Follows graph) (fun _ => False) (graph.IsRoot rootRefs) count ref →
        maxDepth < graph.rootDepth rootRefs + count →
          ∃ earlier seed later, graph.sortedRefs = earlier ++ seed :: later ∧
            Distance (Follows graph) (graph.settledAfter rootRefs earlier) (· = seed)
              (maxDepth - 1) ref := by
  have records := graph.computeDepths_records rootRefs
  have same : graph.IsRoot rootRefs = (· ∈ graph.roots rootRefs) :=
    funext fun ref => propext (mem_roots distinct).symm
  -- A depth in the table is one that the walks give.
  have found : ∀ ref depth, (graph.computeDepths rootRefs).lookup ref = some depth ↔
      graph.Given rootRefs ref depth := fun ref depth =>
    (lookup_eq_some records.distinct).trans (records.holds ref depth)
  constructor
  · intro ⟨_, _, clamped⟩ ref count distance deep
    have given := (found _ _).mp (clamped ref count distance)
    rw [Nat.min_eq_left deep.le] at given
    rw [same] at distance
    rcases given with ⟨_, other, depth, again⟩ |
      ⟨earlier, seed, later, split, _, other, depth, again⟩
    · -- The first walk would have met it at its distance, which is over the limit.
      have equal := distance.unique again
      omega
    · -- The second walk starts one below the limit, so the distance of its seed is what is left.
      obtain rfl : other = maxDepth - 1 := by omega
      exact ⟨earlier, seed, later, split, again⟩
  · intro meets
    refine ⟨records.covers, fun item => le_of_mem_computeDepths, fun ref count distance => ?_⟩
    rw [found]
    -- Beyond the limit the second walk has to have met it, within the limit the first does.
    rcases Nat.lt_or_ge maxDepth (graph.rootDepth rootRefs + count) with deep | within
    · obtain ⟨earlier, seed, later, split, again⟩ := meets ref count distance deep
      rw [Nat.min_eq_left deep.le]
      have limit := one_le_maxDepth
      exact .inr ⟨earlier, seed, later, split, le_rfl, maxDepth - 1, by omega, again⟩
    · rw [Nat.min_eq_right within]
      rw [same] at distance
      exact .inl ⟨within, count, rfl, distance⟩

/-- A project over two packages that depend on each other, one of them on a third. -/
def cyclicGraph : DependencyGraph :=
  [("app", ["a", "b"]), ("a", ["b"]), ("b", ["a", "c"]), ("c", [])]

/-- The third package lies two steps below the project, and the cycle leads nowhere deeper. -/
theorem distance_cyclicGraph {ref : String} {count : Nat}
    (distance : Distance (Follows cyclicGraph) (fun _ => False) (cyclicGraph.IsRoot ["app"]) count
      ref) : count ≤ 2 := by
  have follows : ∀ {node child : String}, child ∈ childrenOf cyclicGraph node →
      child ∈ keys cyclicGraph → Follows cyclicGraph node child := fun next inside => ⟨next, inside⟩
  have root : cyclicGraph.IsRoot ["app"] "app" := by
    refine ⟨by decide, ?_⟩
    rw [if_pos]
    · exact List.mem_singleton.mpr rfl
    · refine List.ne_nil_of_mem (a := "app") ?_
      rw [forcedRoots, List.mem_filter, mem_sortedRefs]
      decide
  -- Each package is met within two steps, and its distance is the fewest of them.
  have app : Steps (Follows cyclicGraph) (fun _ => False) (cyclicGraph.IsRoot ["app"]) 0 "app" :=
    .source root not_false
  have b : Steps (Follows cyclicGraph) (fun _ => False) (cyclicGraph.IsRoot ["app"]) 1 "b" :=
    app.step (follows (by decide) (by decide)) not_false
  have inside : ref ∈ keys cyclicGraph := by
    cases distance.1 with
    | source start => exact start.1
    | step _ next => exact next.2
  simp only [cyclicGraph, keys_cons, keys_nil, List.mem_cons, List.not_mem_nil, or_false] at inside
  obtain rfl | rfl | rfl | rfl := inside
  · exact (distance.2 _ app).trans (by decide)
  · exact (distance.2 _ (app.step (follows (by decide) (by decide)) not_false)).trans (by decide)
  · exact (distance.2 _ b).trans (by decide)
  · exact distance.2 _ (b.step (follows (by decide) (by decide)) not_false)

/-- On a graph with levels and a cycle nothing lies beyond the limit, so that the depths are the
distances. -/
theorem computeDepths_clamped_cyclic :
    ClampedDepths cyclicGraph ["app"] (cyclicGraph.computeDepths ["app"]) := by
  refine (computeDepths_clamped _ (by decide) _).mpr fun ref count distance deep => ?_
  have few := distance_cyclicGraph distance
  have base := cyclicGraph.rootDepth_le_one ["app"]
  simp only [maxDepth] at deep
  omega

section Chain

/-- The names of a chain of packages. -/
def linkName (index : Nat) : String := String.ofList (List.replicate index 'a')

/-- A chain of packages, each of which depends on the next one. -/
def chain (length : Nat) : DependencyGraph :=
  (List.range length).map fun index => (linkName index, [linkName (index + 1)])

variable {length : Nat}

/-- No two links of the chain share a name. -/
theorem linkName_injective : Function.Injective linkName := by
  intro first second same
  have lengths := congrArg (fun name : String => name.toList.length) same
  simpa [linkName] using lengths

/-- The packages of the chain are its links. -/
theorem keys_chain : keys (chain length) = (List.range length).map linkName := by
  simp [keys, chain, Function.comp_def]

/-- No link of the chain stands in it twice. -/
theorem chain_distinct : (keys (chain length)).Nodup := by
  rw [keys_chain]
  exact List.nodup_range.map linkName_injective

/-- A link is in the chain when its number is below the length. -/
theorem mem_keys_chain {index : Nat} : linkName index ∈ keys (chain length) ↔ index < length := by
  rw [keys_chain, List.mem_map_of_injective linkName_injective, List.mem_range]

/-- A package of the chain is followed by the next one. -/
theorem follows_chain {index : Nat} {ref : String} :
    Follows (chain length) (linkName index) ref ↔ index + 1 < length ∧ ref = linkName (index + 1) := by
  rw [Follows, mem_childrenOf chain_distinct]
  constructor
  · -- Only the link's own entry lists children, and it lists the next link.
    rintro ⟨⟨children, member, inside⟩, listed⟩
    simp only [chain, List.mem_map, Prod.mk.injEq] at member
    obtain ⟨other, _, name, rfl⟩ := member
    obtain rfl := linkName_injective name
    obtain rfl := List.mem_singleton.mp inside
    exact ⟨mem_keys_chain.mp listed, rfl⟩
  · rintro ⟨within, rfl⟩
    refine ⟨⟨[linkName (index + 1)], ?_, List.mem_singleton_self _⟩, mem_keys_chain.mpr within⟩
    exact List.mem_map.mpr ⟨index, List.mem_range.mpr (by omega), rfl⟩

/-- A walk along the chain meets one package after the other. -/
theorem steps_chain {passed : String → Prop} {start count : Nat} {ref : String}
    (met : Steps (Follows (chain length)) passed (· = linkName start) count ref) :
    ref = linkName (start + count) := by
  induction met with
  | source same => exact same
  | step _ next _ ih =>
    subst ih
    exact (follows_chain.mp next).2

/-- The distance of a package from the first one is its place in the chain. -/
theorem distance_chain {index : Nat} (within : index < length) :
    Distance (Follows (chain length)) (fun _ => False) (· = linkName 0) index (linkName index) := by
  constructor
  · -- Link by link from the first one.
    induction index with
    | zero => exact .source rfl not_false
    | succ index ih =>
      exact .step (ih (by omega)) (follows_chain.mpr ⟨within, rfl⟩) not_false
  · -- No shorter way leads there, since each step goes one link on.
    intro other met
    have place := linkName_injective (steps_chain met)
    omega

/-- Only the first link of the chain is forced to be a root. -/
theorem forcedRoots_chain (positive : 0 < length) {ref : String} :
    ref ∈ (chain length).forcedRoots [linkName 0] ↔ ref = linkName 0 := by
  rw [forcedRoots, List.mem_filter, mem_sortedRefs, List.contains_iff_mem, List.mem_singleton]
  refine and_iff_right_of_imp fun same => ?_
  rw [same]
  exact mem_keys_chain.mpr positive

/-- In a chain that is longer than the limit, the package after the limit is taken for a direct
dependency. -/
theorem chain_not_clamped : ¬ClampedDepths (chain 66) [linkName 0]
    ((chain 66).computeDepths [linkName 0]) := by
  rintro ⟨_, _, clamped⟩
  have forced : (chain 66).forcedRoots [linkName 0] ≠ [] :=
    List.ne_nil_of_mem ((forcedRoots_chain (by decide)).mpr rfl)
  have roots : (· ∈ (chain 66).roots [linkName 0]) = (· = linkName 0) := by
    funext ref
    rw [DependencyGraph.roots, if_pos forced, forcedRoots_chain (by decide)]
  have depth : (chain 66).rootDepth [linkName 0] = 0 := by rw [rootDepth, if_pos forced]
  have root : (chain 66).IsRoot [linkName 0] = (· = linkName 0) := by
    rw [← roots]
    exact funext fun ref => propext (mem_roots chain_distinct).symm
  have records := (chain 66).computeDepths_records [linkName 0]
  -- The last package is 65 steps away, so the limit would be its depth.
  have last := clamped (linkName 65) 65 (by rw [root]; exact distance_chain (by decide))
  rw [lookup_eq_some records.distinct, records.holds, depth] at last
  rcases last with ⟨_, count, same, met, _⟩ | ⟨earlier, seed, later, split, _, count, same, met, _⟩
  · rw [depth] at same
    rw [roots] at met
    have place := linkName_injective (steps_chain met)
    simp only [maxDepth] at same
    omega
  · -- A walk that meets it at the limit would start from a package that the root leads to.
    have listed : seed ∈ keys (chain 66) := by
      rw [← mem_sortedRefs, split]
      simp
    rw [keys_chain] at listed
    obtain ⟨start, _, rfl⟩ := List.mem_map.mp listed
    have place := linkName_injective (steps_chain met)
    have second : start = 2 := by
      simp only [maxDepth] at same
      omega
    subst second
    refine not_steps (fun ref start => ?_) met
    rw [start, settledAfter, roots, depth]
    exact passed_of_mem maxDepth one_le_maxDepth
      (.inr ⟨2, by decide, (distance_chain (by decide)).1⟩)

end Chain

end DependencyGraph

end Trusca
