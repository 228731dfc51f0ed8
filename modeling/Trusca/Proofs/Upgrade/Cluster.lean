import Trusca.Proofs.Upgrade.Recommendation
import Trusca.Upgrade.Cluster

/-! When the bounded read of the upgrades shows the page that the plain read would show. -/

namespace Trusca

open Store

namespace UpgradeScan

variable (scan : UpgradeScan) (scheme : VersionScheme)

/-- The cluster of a component, from all of its open findings. -/
def clusterOf (id : ComponentVersionId) : UpgradeCluster := scan.cluster scheme id (scan.rowsOf id)

/-- The order of the list: the most urgent first, and then by name. -/
def clusterKey (cluster : UpgradeCluster) : (Nat ×ₗ Nat ×ₗ Epss)ᵒᵈ ×ₗ String :=
  toLex (OrderDual.toDual cluster.priority, cluster.componentName)

/-- The direct term of a component's priority. -/
def directTerm (id : ComponentVersionId) : Nat := (ofLex (scan.clusterOf scheme id).priority).1

/-- What the database ranks by is the priority that the recommendation computes, but for the direct
term. -/
theorem priority_clusterOf (id : ComponentVersionId) :
    (scan.clusterOf scheme id).priority = toLex (scan.directTerm scheme id, scan.ranking id) := by
  obtain ⟨severity, epss, _⟩ := recommendForComponent_signals scheme ((scan.rowsOf id).map fun row =>
    (⟨row.fixedVersion, row.severity, row.epssScore⟩ : FindingSignal)) (scan.directMap id)
  show priorityRank _ = toLex ((ofLex (priorityRank _)).1, scan.ranking id)
  unfold priorityRank ranking
  rw [severity, epss, severityRank_maxSeverity, maxEpss_eq_max, List.map_map, List.filterMap_map]
  rfl

/-- Only a direct dependency leads the list. -/
theorem directTerm_of_transitive {id : ComponentVersionId} (transitive : scan.directMap id = false) :
    scan.directTerm scheme id = 0 := by
  obtain ⟨_, _, direct⟩ := recommendForComponent_signals scheme ((scan.rowsOf id).map fun row =>
    (⟨row.fixedVersion, row.severity, row.epssScore⟩ : FindingSignal)) (scan.directMap id)
  show (ofLex (priorityRank _)).1 = 0
  unfold priorityRank
  rw [direct, transitive, Bool.and_false]
  rfl

/-- The candidates are the components of the open findings, each once. -/
theorem mem_candidates {id : ComponentVersionId} :
    id ∈ scan.candidates ↔ ∃ finding ∈ scan.openFindings, finding.componentVersionId = id := by
  rw [scan.ranked.mem_iff, List.mem_dedup, List.mem_map]
  rfl

/-- No candidate is listed twice. -/
theorem candidates_nodup : scan.candidates.Nodup := scan.ranked.nodup_iff.mpr (List.nodup_dedup _)

/-- A read of some components builds the cluster of each of them. -/
theorem buildClusters_perm {ids : List ComponentVersionId} (distinct : ids.Nodup)
    (known : ∀ id ∈ ids, id ∈ scan.candidates) :
    (scan.buildClusters scheme (scan.findingRows ids)).Perm (ids.map (scan.clusterOf scheme)) := by
  -- Each cluster is built from all the rows of its component.
  have built : scan.buildClusters scheme (scan.findingRows ids) =
      ((distinctOn ClusterFinding.componentVersionId (scan.findingRows ids)).map
        ClusterFinding.componentVersionId).map (scan.clusterOf scheme) := by
    rw [buildClusters, List.map_map]
    refine List.map_congr_left fun head selected => ?_
    have read := mem_of_mem_distinctOn _ selected
    simp only [findingRows, List.mem_filter] at read
    show scan.cluster scheme _ _ = scan.cluster scheme _ _
    congr 1
    simp only [findingRows, rowsOf, List.filter_filter]
    refine List.filter_congr fun row _ => ?_
    by_cases same : row.componentVersionId = head.componentVersionId
    · simpa [same] using read.2
    · simp [same]
  rw [built]
  -- The heads are distinct, and stand for the wanted components.
  refine List.Perm.map _ ((List.perm_ext_iff_of_nodup (distinctOn_keys_nodup _ _) distinct).mpr ?_)
  intro id
  rw [List.mem_map]
  constructor
  · intro selected
    obtain ⟨head, selected, rfl⟩ := selected
    have read := mem_of_mem_distinctOn _ selected
    simpa [findingRows] using (List.mem_filter.mp read).2
  · -- A wanted component is a candidate, so it has a row to be read.
    intro wanted
    obtain ⟨finding, found, rfl⟩ := scan.mem_candidates.mp (known id wanted)
    have read : finding ∈ scan.findingRows ids :=
      List.mem_filter.mpr ⟨found, by simpa using wanted⟩
    exact exists_mem_distinctOn _ read

/-- The plain read has the cluster of every candidate. -/
theorem allClusters_perm :
    (scan.allClusters scheme).Perm (scan.candidates.map (scan.clusterOf scheme)) := by
  have everything : scan.openFindings = scan.findingRows scan.candidates := by
    refine (List.filter_eq_self.mpr fun finding found => ?_).symm
    simpa using scan.mem_candidates.mpr ⟨finding, found, rfl⟩
  rw [allClusters, everything]
  exact scan.buildClusters_perm scheme scan.candidates_nodup fun _ member => member

/-- The first read covers the direct dependencies. -/
theorem already_iff {id : ComponentVersionId} (candidate : id ∈ scan.candidates) :
    id ∈ (scan.findingRows scan.directIds).map ClusterFinding.componentVersionId ↔
      scan.directMap id = true := by
  rw [List.mem_map]
  constructor
  · -- A candidate has a finding, and its findings are read with it.
    intro read
    obtain ⟨finding, read, rfl⟩ := read
    have listed := (List.mem_filter.mp read).2
    rw [List.contains_iff_mem] at listed
    exact (List.mem_filter.mp listed).2
  · intro direct
    obtain ⟨finding, found, rfl⟩ := scan.mem_candidates.mp candidate
    refine ⟨finding, List.mem_filter.mpr ⟨found, ?_⟩, rfl⟩
    rw [List.contains_iff_mem]
    exact List.mem_filter.mpr ⟨candidate, direct⟩

/-- The tail holds the candidates that are no direct dependencies. -/
theorem tail_perm : scan.tail.Perm (scan.candidates.filter fun id => !scan.directMap id) := by
  refine (sortBy_perm _ _).trans ?_
  -- The query leaves out what was read, which is what `already_iff` says of a candidate.
  have same : (scan.candidates.filter fun id => !((scan.findingRows scan.directIds).map
      ClusterFinding.componentVersionId).contains id) =
      scan.candidates.filter fun id => !scan.directMap id := by
    refine List.filter_congr fun id candidate => ?_
    have covered := scan.already_iff candidate
    rw [← List.contains_iff_mem] at covered
    rw [Bool.not_inj_iff, Bool.eq_iff_iff]
    exact covered
  rw [same]

/-- A component of the tail is a candidate and no direct dependency. -/
theorem mem_tail {id : ComponentVersionId} :
    id ∈ scan.tail ↔ id ∈ scan.candidates ∧ scan.directMap id = false := by
  rw [scan.tail_perm.mem_iff, List.mem_filter, Bool.not_eq_true']

/-- The candidates that neither read covers. -/
def leftOut (limit : Nat) : List ComponentVersionId :=
  if scan.leading scheme < limit then scan.tail.drop (limit - scan.leading scheme) else scan.tail

/-- The second read and what it leaves out are the tail. -/
theorem toRead_append_leftOut (limit : Nat) :
    scan.toRead scheme limit ++ scan.leftOut scheme limit = scan.tail := by
  unfold toRead leftOut
  split
  · exact List.take_append_drop _ _
  · rfl

/-- The candidates are the direct dependencies, the second read, and what is left out. -/
theorem candidates_perm (limit : Nat) : scan.candidates.Perm
    ((scan.directIds ++ scan.toRead scheme limit) ++ scan.leftOut scheme limit) := by
  rw [List.append_assoc, toRead_append_leftOut]
  refine (List.filter_append_perm scan.directMap scan.candidates).symm.trans ?_
  exact scan.tail_perm.symm.append_left _

/-- The clusters in hand are those of the components of the two reads. -/
theorem read_perm (limit : Nat) :
    (scan.directClusters scheme ++ scan.buildClusters scheme
      (scan.findingRows (scan.toRead scheme limit))).Perm
      ((scan.directIds ++ scan.toRead scheme limit).map (scan.clusterOf scheme)) := by
  rw [List.map_append]
  have part := scan.toRead_append_leftOut scheme limit
  have reads : (scan.toRead scheme limit).Sublist scan.tail := by
    rw [← part]
    exact List.sublist_append_left _ _
  have distinct : scan.tail.Nodup :=
    scan.tail_perm.nodup_iff.mpr (scan.candidates_nodup.filter _)
  -- Both readings are without repetition, and stay within the candidates.
  refine (scan.buildClusters_perm scheme (scan.candidates_nodup.filter _) ?_).append
    (scan.buildClusters_perm scheme (distinct.sublist reads) ?_)
  · intro id member
    exact (List.mem_filter.mp member).1
  · intro id member
    exact (scan.mem_tail.mp (reads.subset member)).1

/-- The direct dependencies that lead the list, counted over their components. -/
theorem leading_eq : scan.leading scheme =
    scan.directIds.countP fun id => scan.directTerm scheme id == 1 := by
  have built : (scan.directClusters scheme).Perm
      (scan.directIds.map (scan.clusterOf scheme)) :=
    scan.buildClusters_perm scheme (scan.candidates_nodup.filter _)
      fun id member => (List.mem_filter.mp member).1
  rw [leading, built.countP_eq, List.countP_map]
  rfl

/-- Sorting the clusters loses none and invents none. -/
theorem sortClusters_perm (clusters : List UpgradeCluster) :
    (sortClusters clusters).Perm clusters :=
  (sortBy_perm _ _).trans (sortBy_perm _ _)

/-- A cut that leaves something out fills the page. -/
theorem limit_le_read {limit : Nat} (short : scan.leftOut scheme limit ≠ []) :
    limit ≤ (scan.directIds ++ scan.toRead scheme limit).length := by
  -- The leading ones are direct, so the direct ones alone are as many.
  have leads : scan.leading scheme ≤ scan.directIds.length := by
    rw [leading_eq]
    exact List.countP_le_length
  rw [List.length_append]
  unfold leftOut at short
  unfold toRead
  -- Some are left out, so the room behind the leading ones was filled.
  split at short
  · rename_i room
    rw [ne_eq, List.drop_eq_nil_iff, not_le] at short
    rw [if_pos room, List.length_take]
    omega
  · -- There is no room: the leading ones fill the page by themselves.
    rename_i full
    rw [if_neg full]
    simp only [List.length_nil]
    omega

/-- The cut keeps to the order of the list: a component that is left out although it ties with one
that was read has a full page of read ones that are not behind it. -/
def CutByName (limit : Nat) : Prop :=
  ∀ id ∈ scan.leftOut scheme limit, ∀ tied ∈ scan.toRead scheme limit,
    scan.ranking tied = scan.ranking id →
    limit ≤ (scan.directIds ++ scan.toRead scheme limit).countP fun other =>
      decide (clusterKey (scan.clusterOf scheme other) ≤ clusterKey (scan.clusterOf scheme id))

/-- A higher priority comes first, whatever the names are. -/
theorem clusterKey_le_of_priority {first second : UpgradeCluster}
    (higher : second.priority < first.priority) : clusterKey first ≤ clusterKey second :=
  Prod.Lex.toLex_le_toLex.mpr (.inl (OrderDual.toDual_lt_toDual.mpr higher))

/-- A direct dependency with an upgrade comes before every component of the tail. -/
theorem leads_tail {id other : ComponentVersionId} (tail : id ∈ scan.tail)
    (leads : scan.directTerm scheme other = 1) :
    clusterKey (scan.clusterOf scheme other) ≤ clusterKey (scan.clusterOf scheme id) := by
  refine clusterKey_le_of_priority ?_
  rw [priority_clusterOf, priority_clusterOf, leads,
    scan.directTerm_of_transitive scheme (scan.mem_tail.mp tail).2]
  exact Prod.Lex.toLex_lt_toLex.mpr (.inl Nat.zero_lt_one)

/-- What the cut takes ranks at least as high as what it leaves out. -/
theorem ranking_cut {limit : Nat} {id other : ComponentVersionId}
    (read : other ∈ scan.toRead scheme limit) (left : id ∈ scan.leftOut scheme limit) :
    scan.ranking id ≤ scan.ranking other := by
  have sorted : scan.tail.Pairwise fun first second => scan.ranking second ≤ scan.ranking first :=
    sortBy_sorted (fun id => OrderDual.toDual (scan.ranking id)) _
  rw [← scan.toRead_append_leftOut scheme limit] at sorted
  exact (List.pairwise_append.mp sorted).2.2 other read id left

/-- A component that ties with nothing that was read has a full page of read ones before it. -/
theorem full_page_before {limit : Nat} {id : ComponentVersionId}
    (left : id ∈ scan.leftOut scheme limit)
    (untied : ∀ other ∈ scan.toRead scheme limit, scan.ranking other ≠ scan.ranking id) :
    limit ≤ (scan.directIds ++ scan.toRead scheme limit).countP fun other =>
      decide (clusterKey (scan.clusterOf scheme other) ≤ clusterKey (scan.clusterOf scheme id)) := by
  have part := scan.toRead_append_leftOut scheme limit
  have tail : id ∈ scan.tail := by
    rw [← part]
    exact List.mem_append_right _ left
  rw [List.countP_append]
  -- The leading direct dependencies are before it.
  have leads : scan.leading scheme ≤ scan.directIds.countP fun other =>
      decide (clusterKey (scan.clusterOf scheme other) ≤ clusterKey (scan.clusterOf scheme id)) := by
    rw [leading_eq]
    refine List.countP_mono_left fun other _ first => ?_
    rw [beq_iff_eq] at first
    exact decide_eq_true (scan.leads_tail scheme tail first)
  -- So is everything of the second read, since it ranks strictly higher.
  have higher : (scan.toRead scheme limit).countP (fun other =>
      decide (clusterKey (scan.clusterOf scheme other) ≤ clusterKey (scan.clusterOf scheme id))) =
      (scan.toRead scheme limit).length := by
    refine List.countP_eq_length.mpr fun other read => decide_eq_true ?_
    have inTail : other ∈ scan.tail := by
      rw [← part]
      exact List.mem_append_left _ read
    refine clusterKey_le_of_priority ?_
    rw [priority_clusterOf, priority_clusterOf,
      scan.directTerm_of_transitive scheme (scan.mem_tail.mp tail).2,
      scan.directTerm_of_transitive scheme (scan.mem_tail.mp inTail).2]
    refine Prod.Lex.toLex_lt_toLex.mpr (.inr ⟨rfl, ?_⟩)
    exact lt_of_le_of_ne (scan.ranking_cut scheme read left) (untied other read).symm
  rw [higher]
  -- The second read takes what the leading ones leave of the page.
  have size : limit - scan.leading scheme ≤ (scan.toRead scheme limit).length := by
    unfold leftOut at left
    unfold toRead
    split at left
    · rename_i room
      have short := List.length_pos_of_mem left
      rw [List.length_drop] at short
      rw [if_pos room, List.length_take]
      omega
    · omega
  omega

/-- The bounded read shows the first clusters of the plain list, in the order of their priority and
name, exactly when its cut keeps to that order. -/
theorem bounded_read_is_page (limit : Nat) :
    IsPage clusterKey (scan.allClusters scheme) limit
        (scan.listUpgradeClusters scheme limit).clusters ↔
      scan.CutByName scheme limit := by
  -- All clusters are those that were read and those that were left out.
  have parts : (scan.allClusters scheme).Perm
      ((scan.directIds ++ scan.toRead scheme limit).map (scan.clusterOf scheme) ++
        (scan.leftOut scheme limit).map (scan.clusterOf scheme)) := by
    rw [← List.map_append]
    exact (scan.allClusters_perm scheme).trans ((scan.candidates_perm scheme limit).map _)
  -- What was read is sorted once more before the page is cut.
  have sorted : (sortClusters (scan.directClusters scheme ++
      scan.buildClusters scheme (scan.findingRows (scan.toRead scheme limit)))).Pairwise
        fun first second => clusterKey first ≤ clusterKey second :=
    sortBy_sortBy_sorted _ _ _
  have perm : (sortClusters (scan.directClusters scheme ++
      scan.buildClusters scheme (scan.findingRows (scan.toRead scheme limit)))).Perm
        ((scan.directIds ++ scan.toRead scheme limit).map (scan.clusterOf scheme)) :=
    (sortClusters_perm _).trans (scan.read_perm scheme limit)
  -- So the page is right if and only if whatever was left out could not come before its end.
  refine (isPage_cut clusterKey parts (fun short => ?_) perm sorted).trans ?_
  · rw [List.length_map]
    exact scan.limit_le_read scheme fun empty => short (by rw [empty]; rfl)
  · constructor
    · -- A tie at the cut is settled by the name.
      intro full id left _ _ _
      have counted := full _ (List.mem_map_of_mem left)
      rwa [List.countP_map] at counted
    · intro named cluster missed
      obtain ⟨id, left, rfl⟩ := List.mem_map.mp missed
      rw [List.countP_map]
      -- Without a tie the ranking alone puts the one that was left out behind a full page.
      by_cases tied : ∃ other ∈ scan.toRead scheme limit, scan.ranking other = scan.ranking id
      · obtain ⟨other, read, same⟩ := tied
        exact named id left other read same
      · simp only [not_exists, not_and] at tied
        exact scan.full_page_before scheme left tied

/-- Two components that tie but for their names, listed by the database in the other order. -/
def tiedScan : UpgradeScan where
  findings := [⟨1, 1, .new, none, "CVE-1", .high, false, none⟩,
    ⟨2, 2, .new, none, "CVE-2", .high, false, none⟩]
  identity := fun id => ⟨if id = 1 then "a" else "b", "", "1.0"⟩
  places := []
  candidates := [2, 1]
  ranked := by decide

/-- Versions that are plain numbers. -/
def numberScheme : VersionScheme where
  Version := Nat
  parseVersion := String.toNat?
  compareVersions := fun first second => (first : Int) - second

/-- On a page for one component, the cut shows the one whose name comes second. -/
theorem bounded_read_cuts_tie :
    ¬IsPage clusterKey (tiedScan.allClusters numberScheme) 1
      (tiedScan.listUpgradeClusters numberScheme 1).clusters := by
  have tail : tiedScan.tail = [2, 1] := List.mergeSort_of_pairwise (by decide +kernel)
  have direct : tiedScan.directIds = [] := rfl
  have read : tiedScan.toRead numberScheme 1 = [2] := by
    rw [toRead, leading_eq, direct, tail]
    rfl
  have shown : (tiedScan.listUpgradeClusters numberScheme 1).clusters =
      [tiedScan.clusterOf numberScheme 2] := by
    have built := tiedScan.read_perm numberScheme 1
    rw [direct, read] at built
    rw [listUpgradeClusters, read, ((sortClusters_perm _).trans built).eq_singleton]
    rfl
  have other : tiedScan.clusterOf numberScheme 1 ∉ [tiedScan.clusterOf numberScheme 2] := by
    intro member
    have same := congrArg UpgradeCluster.componentVersionId (List.mem_singleton.mp member)
    exact absurd same (by decide)
  intro page
  rw [shown] at page
  -- The component that is left out has the same priority and the smaller name.
  have order := page.key_le (List.mem_singleton.mpr rfl)
    ((tiedScan.allClusters_perm numberScheme).mem_iff.mpr
      (List.mem_map_of_mem (a := 1) (by decide))) other
  rw [clusterKey, clusterKey, priority_clusterOf, priority_clusterOf] at order
  exact absurd order (by decide +kernel)

end UpgradeScan

end Trusca
