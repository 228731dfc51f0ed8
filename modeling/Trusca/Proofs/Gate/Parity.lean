import Trusca.Matching.Reconciler
import Trusca.Proofs.Gate.Terms

/-! When the action queue and the build gate agree on a project. -/

namespace Trusca

section Gate

/-- A clause is missing when its condition does not hold. -/
theorem clause_eq_nil_iff (holds : Bool) (text : String) : clause holds text = [] ↔ holds = false := by
  unfold clause
  cases holds <;> simp

/-- There is a reason exactly when one of the conditions holds. -/
theorem buildReason_isSome_iff (env : Environment) (found : GateFindings) :
    (buildReason env found).isSome ↔
      0 < found.criticalCveCount ∨ 0 < found.forbiddenLicenseCount ∨
        (found.epssThreshold.isSome ∧ 0 < found.epssGateCount) ∨ found.epssBlocked = true ∨
        (0 < found.kevGateCount ∨ found.kevBlocked = true) ∨
        (0 < found.eolGateCount ∨ found.eolBlocked = true) ∨
        found.incompleteScanBlocked = true ∨ 0 < found.maliciousComponentCount := by
  -- There is no clause exactly when every condition fails.
  have none_iff : reasonParts env found = [] ↔
      ¬(0 < found.criticalCveCount ∨ 0 < found.forbiddenLicenseCount ∨
        (found.epssThreshold.isSome ∧ 0 < found.epssGateCount) ∨ found.epssBlocked = true ∨
        (0 < found.kevGateCount ∨ found.kevBlocked = true) ∨
        (0 < found.eolGateCount ∨ found.eolBlocked = true) ∨
        found.incompleteScanBlocked = true ∨ 0 < found.maliciousComponentCount) := by
    unfold reasonParts
    simp only [List.append_eq_nil_iff, clause_eq_nil_iff, decide_eq_false_iff_not,
      Bool.and_eq_false_iff, not_or, not_and, Bool.not_eq_true, and_assoc]
    -- The clauses stand in the order of the conditions.
    constructor
    · -- A missing score clause means no threshold, or no finding that reaches it.
      rintro ⟨critical, forbidden, epss, blocked, rest⟩
      refine ⟨critical, forbidden, ?_, blocked, rest⟩
      intro set
      rcases epss with unset | few
      · rw [set] at unset
        cases unset
      · exact few
    · rintro ⟨critical, forbidden, epss, blocked, rest⟩
      refine ⟨critical, forbidden, ?_, blocked, rest⟩
      cases set : found.epssThreshold.isSome with
      | false => exact .inl rfl
      | true => exact .inr (epss set)
  unfold buildReason
  -- The reason joins the clauses, so it is absent when there are none.
  by_cases empty : reasonParts env found = []
  · simp only [empty, List.isEmpty_nil, if_true, Option.isSome_none, Bool.false_eq_true, false_iff]
    exact none_iff.mp empty
  · have present := not_not.mp fun none => empty (none_iff.mpr none)
    simp [empty, present]

/-- The gate fails a scan exactly when one of its terms holds. -/
theorem evaluateGate_fail_iff (env : Environment) (db : GateDb) (project : ProjectId) (now : Time)
    (scan : ScanId) (ref : Option String) :
    (evaluateGate env db project now (some scan) ref).gate = .fail ↔
      BlockingCritical env db project scan ∨ ForbiddenLicense db project scan now ∨
        ReachesScore db scan (gateSettings env db project).epssThreshold ∨
        ScoresMissing env db project scan ∨ KevBlocks env db scan ∨ EolBlocks env db scan ∨
        IncompleteBlocks env db scan ∨
        ((gateSettings env db project).maliciousGateEnabled = true ∧
          FlaggedUnwaived db project scan now) := by
  -- A pinned scan is read as it is, and any reason at all fails it.
  have verdict : (evaluateGate env db project now (some scan) ref).gate = .fail ↔
      (buildReason env (gateFindings env db project scan now)).isSome := by
    show (scanResult env db project scan now).gate = .fail ↔ _
    unfold scanResult
    dsimp only
    split
    · -- A reason fails the build.
      rename_i reason
      simp [reason]
    · rename_i reason
      simp [reason]
  rw [verdict, buildReason_isSome_iff]
  unfold gateFindings
  dsimp only
  -- Each condition of the reason is the matching term, said of the rows.
  have epss : (gateSettings env db project).epssThreshold.isSome = true ∧
      0 < (gateSettings env db project).epssThreshold.elim 0 (countOpenEpssFindings db scan) ↔
      ReachesScore db scan (gateSettings env db project).epssThreshold := by
    rw [epssCount_pos_iff]
    refine ⟨And.right, fun reaches => ⟨?_, reaches⟩⟩
    obtain ⟨value, set, -⟩ := reaches
    rw [set]
    rfl
  -- A gate that does not ask for malicious components counts none.
  have malicious : 0 < (if (gateSettings env db project).maliciousGateEnabled = true then
      (resolveMaliciousCount db project scan now).1 else 0) ↔
      (gateSettings env db project).maliciousGateEnabled = true ∧
        FlaggedUnwaived db project scan now := by
    rw [← resolveMaliciousCount_pos_iff]
    cases (gateSettings env db project).maliciousGateEnabled <;> simp
  rw [blockingCriticalCount_pos_iff, resolveForbiddenLicenseCount_pos_iff, epss, epssBlocked_iff,
    readKevAxis_blocks_iff, readEolAxis_blocks_iff, Bool.and_eq_true, malicious]
  rfl

end Gate

section Scans

variable {db : GateDb} {projectIds : List ProjectId}

/-- The latest scan of a project is a stored scan of one of the projects asked for. -/
theorem latest_stored {scan : GateScan} (latest : scan ∈ latestSucceededScans db projectIds) :
    scan ∈ db.scans.rows ∧ scan.projectId ∈ projectIds := by
  -- The query filters before it sorts and picks.
  have sorted := Store.mem_of_mem_distinctOn _ latest
  rw [List.mem_mergeSort, List.mem_filter, Bool.and_eq_true] at sorted
  exact ⟨sorted.1, by simpa using sorted.2.1⟩

/-- A project has one latest scan. -/
theorem latest_unique {first second : GateScan} (one : first ∈ latestSucceededScans db projectIds)
    (two : second ∈ latestSucceededScans db projectIds)
    (same : first.projectId = second.projectId) : first = second :=
  Store.distinctOn_unique _ one two same

/-- A stored scan whose id is that of a latest scan is that scan. -/
theorem latest_of_id {scan : GateScan} (stored : scan ∈ db.scans.rows)
    (listed : scan.id ∈ latestSucceededScanIds db projectIds) :
    scan ∈ latestSucceededScans db projectIds := by
  obtain ⟨other, latest, named⟩ := List.mem_map.mp listed
  -- The ids of the scans are unique.
  cases Store.Table.eq_of_key stored (latest_stored latest).1 named.symm
  exact latest

/-- The id of a latest scan is listed. -/
theorem latest_listed {scan : GateScan} (latest : scan ∈ latestSucceededScans db projectIds) :
    scan.id ∈ latestSucceededScanIds db projectIds :=
  List.mem_map.mpr ⟨scan, latest, rfl⟩

/-- The mapping from projects to scans gives every project its latest scan. -/
theorem scanByProject_iff (project : ProjectId) (scan : ScanId) :
    scanByProject db (latestSucceededScanIds db projectIds) project = some scan ↔
      ∃ row ∈ latestSucceededScans db projectIds, row.projectId = project ∧ row.id = scan := by
  -- What was assigned to a project is the id of its latest scan, and of no other.
  have pairs : ∀ project scan,
      (project, scan) ∈ (db.scans.rows.filter fun row =>
        (latestSucceededScanIds db projectIds).contains row.id).map
        (fun row => (row.projectId, row.id)) ↔
      ∃ row ∈ latestSucceededScans db projectIds, row.projectId = project ∧ row.id = scan := by
    intro project scan
    simp only [List.mem_map, List.mem_filter, List.contains_iff_mem, Prod.mk.injEq]
    constructor
    · rintro ⟨row, ⟨stored, listed⟩, named⟩
      exact ⟨row, latest_of_id stored listed, named⟩
    · rintro ⟨row, latest, named⟩
      exact ⟨row, ⟨(latest_stored latest).1, latest_listed latest⟩, named⟩
  -- A later assignment for the same project would be of the same scan.
  constructor
  · intro read
    exact (pairs project scan).mp (Store.mem_of_assigned read)
  · rintro ⟨row, latest, named, rfl⟩
    refine Store.assigned_of_mem ((pairs project row.id).mpr ⟨row, latest, named, rfl⟩) ?_
    intro other assigned
    obtain ⟨second, latest_second, named_second, rfl⟩ := (pairs project other).mp assigned
    rw [latest_unique latest_second latest (named_second.trans named.symm)]

/-- Only the project of a latest scan is mapped to it. -/
theorem project_of_scanByProject {scan : GateScan}
    (latest : scan ∈ latestSucceededScans db projectIds) {project : ProjectId}
    (read : scanByProject db (latestSucceededScanIds db projectIds) project = some scan.id) :
    project = scan.projectId := by
  obtain ⟨row, latest_row, named, same⟩ := (scanByProject_iff project scan.id).mp read
  -- The ids of the scans are unique.
  cases Store.Table.eq_of_key (latest_stored latest_row).1 (latest_stored latest).1 same
  exact named.symm

end Scans

section Queue

variable {db : GateDb} {scanIds : List ScanId} {scan : ScanId}

/-- A grouped count of open findings agrees with the count of one scan on being positive. -/
theorem openFindingScans_pos_iff (listed : scan ∈ scanIds)
    (test : ReportedFinding → Vulnerability → Bool) :
    0 < groupedCount (openFindingScans db scanIds test) scan ↔ 0 < countOpen db scan test := by
  unfold groupedCount openFindingScans countOpen
  -- A group exists as soon as one finding falls into it.
  rw [List.count_pos_iff, List.countP_pos_iff]
  simp only [List.mem_map, List.mem_filter, Bool.and_eq_true, openOn_iff]
  constructor
  · rintro ⟨finding, ⟨stored, ⟨-, undecided⟩, passes⟩, onScan⟩
    exact ⟨finding, stored, ⟨onScan, by simpa using undecided⟩, passes⟩
  · rintro ⟨finding, stored, ⟨onScan, undecided⟩, passes⟩
    refine ⟨finding, ⟨stored, ⟨?_, by simpa using undecided⟩, passes⟩, onScan⟩
    -- The scan is one of those the query is restricted to.
    rw [onScan]
    simpa using listed

/-- A grouped count of distinct pairs is positive for a scan with a row that passes the test. -/
theorem groupedPairs_pos_iff {α : Type} {rows : List α} {scanOf : α → ScanId} {test : α → Bool}
    {versionOf : α → ComponentVersionId} (listed : scan ∈ scanIds) :
    0 < groupedCount ((((rows.filter fun row => scanIds.contains (scanOf row) && test row).map
        fun row => (scanOf row, versionOf row)).dedup).map Prod.fst) scan ↔
      ∃ row ∈ rows, scanOf row = scan ∧ test row = true := by
  unfold groupedCount
  rw [List.count_pos_iff]
  simp only [List.mem_map, List.mem_dedup, List.mem_filter, Bool.and_eq_true]
  constructor
  · rintro ⟨-, ⟨row, ⟨member, -, passes⟩, rfl⟩, onScan⟩
    exact ⟨row, member, onScan, passes⟩
  · rintro ⟨row, member, onScan, passes⟩
    -- The scan asked for is among those the query is restricted to.
    have within : scanIds.contains (scanOf row) = true := by
      rw [onScan]
      simpa using listed
    exact ⟨(scanOf row, versionOf row), ⟨row, ⟨member, within, passes⟩, rfl⟩, onScan⟩

/-- One query for many scans holds, for each of them, what a query of its own would. -/
theorem mem_batch_iff {α β : Type} [DecidableEq β] {rows : List α} {scanOf : α → ScanId}
    {value : α → Option β} (listed : scan ∈ scanIds) (item : β) :
    item ∈ (((((rows.filter fun row => scanIds.contains (scanOf row)).filterMap fun row =>
        (value row).map fun found => (scanOf row, found)).dedup).filter
          fun entry => entry.1 = scan).map Prod.snd) ↔
      ∃ row ∈ rows, scanOf row = scan ∧ value row = some item := by
  simp only [List.mem_map, List.mem_filter, List.mem_dedup, List.mem_filterMap,
    Option.map_eq_some_iff, decide_eq_true_eq]
  -- Duplicates are dropped, which no membership notices.
  constructor
  · rintro ⟨-, ⟨⟨row, ⟨member, -⟩, found, stands, rfl⟩, onScan⟩, rfl⟩
    exact ⟨row, member, onScan, stands⟩
  · rintro ⟨row, member, onScan, stands⟩
    have within : scanIds.contains (scanOf row) = true := by
      rw [onScan]
      simpa using listed
    exact ⟨(scanOf row, item), ⟨⟨row, ⟨member, within⟩, item, stands, rfl⟩, onScan⟩, rfl⟩

/-- The forbidden components the queue counts without a policy. -/
theorem forbiddenCounts_pos_iff (listed : scan ∈ scanIds) :
    0 < forbiddenCounts db scanIds scan ↔
      ∃ finding ∈ db.licenseFindings, finding.scanId = scan ∧
        ∃ license, db.licenses.find? finding.licenseId = some license ∧
          license.category = .forbidden := by
  unfold forbiddenCounts forbiddenPairs
  rw [groupedPairs_pos_iff listed]
  simp only [storedForbidden_iff]

/-- The batch of licence expressions holds those of every scan asked for. -/
theorem mem_loadScanLicenseRowsBatch (listed : scan ∈ scanIds) (row : LicenseRow) :
    row ∈ loadScanLicenseRowsBatch db scanIds scan ↔
      ∃ finding ∈ db.licenseFindings, finding.scanId = scan ∧ db.licenseRow finding = some row :=
  mem_batch_iff listed row

/-- The batch of flagged purls holds those of every scan asked for. -/
theorem mem_loadFlaggedPurlsBatch (listed : scan ∈ scanIds) (purl : String) :
    purl ∈ loadFlaggedPurlsBatch db scanIds scan ↔
      ∃ component ∈ db.scanComponents, component.scanId = scan ∧
        db.flaggedPurl component = some purl :=
  mem_batch_iff listed purl

/-- The flagged components the queue counts before waivers. -/
theorem maliciousCounts_pos_iff (listed : scan ∈ scanIds) :
    0 < maliciousCounts db scanIds scan ↔
      ∃ component ∈ db.scanComponents, component.scanId = scan ∧
        (db.flaggedPurl component).isSome :=
  groupedPairs_pos_iff listed

end Queue

section Policy

variable {db : GateDb} {projectIds : List ProjectId} {scan : GateScan} {project : PortfolioProject}
  (now : Time) (latest : scan ∈ latestSucceededScans db projectIds)
  (stored : project ∈ db.projects.rows) (owner : project.id = scan.projectId)

include stored owner in
/-- The policy in force for the project of a scan is that of its owning team. -/
theorem policyInForce_eq :
    policyInForce db scan.projectId = getEffectivePolicy db project.teamId := by
  -- The owner is found under the project id of the scan.
  have found := Store.Table.find?_of_mem stored
  unfold policyInForce GateDb.teamIdForProject
  rw [← owner, found]
  rfl

include latest stored owner in
/-- A project that is mapped to the scan is the one that owns it. -/
theorem owner_of_scanByProject {other : PortfolioProject} (listed : other ∈ db.projects.rows)
    (read : scanByProject db (latestSucceededScanIds db projectIds) other.id = some scan.id) :
    other = project := by
  have named := project_of_scanByProject latest read
  -- The ids of the projects are unique.
  exact Store.Table.eq_of_key listed stored (named.trans owner.symm)

include latest owner in
/-- The project that owns a latest scan is mapped to it. -/
theorem scanByProject_owner :
    scanByProject db (latestSucceededScanIds db projectIds) project.id = some scan.id :=
  (scanByProject_iff project.id scan.id).mpr ⟨scan, latest, owner.symm, rfl⟩

include latest stored owner in
/-- The queue looks up the policy in force. -/
theorem mem_scanPolicies_iff (policy : LicensePolicy) :
    (scan.id, policy) ∈ scanPolicies db
        (scanByProject db (latestSucceededScanIds db projectIds)) ↔
      policyInForce db scan.projectId = some policy := by
  rw [policyInForce_eq stored owner]
  unfold scanPolicies
  rw [List.mem_filterMap]
  constructor
  · -- Whoever was mapped to the scan is its owner, so the policy is the owner's.
    rintro ⟨other, listed, assigned⟩
    obtain ⟨target, read, pair⟩ := Option.bind_eq_some_iff.mp assigned
    obtain ⟨found, effective, named⟩ := Option.map_eq_some_iff.mp pair
    cases named
    rw [← owner_of_scanByProject latest stored owner listed read]
    exact effective
  · -- The owner itself is among the projects looked at.
    intro effective
    refine ⟨project, stored, ?_⟩
    rw [scanByProject_owner latest owner, effective]
    rfl

include latest stored owner in
/-- The queue and the gate count the same forbidden components. -/
theorem forbiddenCountsUnderPolicy_pos_iff :
    0 < forbiddenCountsUnderPolicy db
        (scanByProject db (latestSucceededScanIds db projectIds))
        (forbiddenCounts db (latestSucceededScanIds db projectIds)) now scan.id ↔
      ForbiddenLicense db scan.projectId scan.id now := by
  have listed := latest_listed latest
  have policies := mem_scanPolicies_iff latest stored owner
  unfold forbiddenCountsUnderPolicy ForbiddenLicense
  dsimp only
  cases inForce : policyInForce db scan.projectId with
  | none =>
    -- Without a policy the stored categories stand.
    have absent : Store.assigned (scanPolicies db
        (scanByProject db (latestSucceededScanIds db projectIds))) scan.id = none := by
      refine Store.assigned_eq_none fun policy member => ?_
      have found := (policies policy).mp member
      rw [inForce] at found
      cases found
    rw [absent]
    exact forbiddenCounts_pos_iff listed
  | some policy =>
    -- The one policy assigned to the scan is the one in force, and its batch is the scan's own.
    have member := (policies policy).mpr inForce
    have assigned : Store.assigned (scanPolicies db
        (scanByProject db (latestSucceededScanIds db projectIds))) scan.id = some policy := by
      refine Store.assigned_of_mem member fun other assigned => ?_
      have found := (policies other).mp assigned
      rw [inForce] at found
      cases found
      rfl
    have batched : scan.id ∈ (scanPolicies db
        (scanByProject db (latestSucceededScanIds db projectIds))).map Prod.fst :=
      List.mem_map.mpr ⟨(scan.id, policy), member, rfl⟩
    rw [assigned]
    dsimp only
    rw [countForbiddenVerdicts_pos_iff, categorizeLicenseRows_forbidden_iff]
    constructor
    · -- A row of the batch is a row the gate loads for the one scan.
      rintro ⟨row, loaded, forbidden⟩
      obtain ⟨finding, held, onScan, stands⟩ :=
        (mem_loadScanLicenseRowsBatch batched row).mp loaded
      exact ⟨finding, held, onScan, row, stands, forbidden⟩
    · rintro ⟨finding, held, onScan, row, stands, forbidden⟩
      refine ⟨row, ?_, forbidden⟩
      exact (mem_loadScanLicenseRowsBatch batched row).mpr ⟨finding, held, onScan, stands⟩

include latest stored owner in
/-- The queue looks up the waivers in force, where something is flagged. -/
theorem mem_scanWaivers_iff (rawCounts : ScanId → Nat) (waived : List String) :
    (scan.id, waived) ∈ scanWaivers db
        (scanByProject db (latestSucceededScanIds db projectIds)) rawCounts now ↔
      rawCounts scan.id ≠ 0 ∧ waived ≠ [] ∧
        activeMaliciousWaivers (policyInForce db scan.projectId) now = waived := by
  rw [policyInForce_eq stored owner]
  unfold scanWaivers
  rw [List.mem_filterMap]
  constructor
  · -- Waivers are only looked up where something is flagged and something is waived.
    rintro ⟨other, listed, assigned⟩
    obtain ⟨target, read, pair⟩ := Option.bind_eq_some_iff.mp assigned
    dsimp only at pair
    split at pair
    · cases pair
    · rename_i counts
      cases pair
      rw [← owner_of_scanByProject latest stored owner listed read]
      rw [Bool.or_eq_true, not_or] at counts
      exact ⟨by simpa using counts.1, by simpa using counts.2, rfl⟩
  · rintro ⟨counted, some_waived, rfl⟩
    refine ⟨project, stored, ?_⟩
    rw [scanByProject_owner latest owner]
    simp [counted, some_waived]

include latest stored owner in
/-- The queue counts the flagged components no waiver covers. -/
theorem maliciousCountsUnderPolicy_pos_iff :
    0 < maliciousCountsUnderPolicy db
        (scanByProject db (latestSucceededScanIds db projectIds))
        (maliciousCounts db (latestSucceededScanIds db projectIds)) now scan.id ↔
      FlaggedUnwaived db scan.projectId scan.id now := by
  have listed := latest_listed latest
  -- The raw counts say where waivers are needed at all.
  have raw : 0 < maliciousCounts db (latestSucceededScanIds db projectIds) scan.id ↔ _ :=
    maliciousCounts_pos_iff listed
  have waivers := mem_scanWaivers_iff now latest stored owner
    (maliciousCounts db (latestSucceededScanIds db projectIds))
  unfold maliciousCountsUnderPolicy FlaggedUnwaived
  dsimp only
  cases assigned : Store.assigned (scanWaivers db
      (scanByProject db (latestSucceededScanIds db projectIds))
      (maliciousCounts db (latestSucceededScanIds db projectIds)) now) scan.id with
  | none =>
    -- Nothing was subtracted: nothing is flagged, or nothing is waived.
    dsimp only
    rw [raw]
    constructor
    · -- Take any flagged component of the scan.
      rintro ⟨component, held, onScan, flagged⟩
      obtain ⟨purl, named⟩ := Option.isSome_iff_exists.mp flagged
      refine ⟨component, held, onScan, purl, named, ?_⟩
      -- A waiver that covers the purl would have been looked up for this scan.
      intro covered
      have member := (waivers (activeMaliciousWaivers (policyInForce db scan.projectId) now)).mpr
        ⟨Nat.pos_iff_ne_zero.mp (raw.mpr ⟨component, held, onScan, flagged⟩),
          List.ne_nil_of_mem covered, rfl⟩
      have present := Store.assigned_isSome member
      rw [assigned] at present
      cases present
    · rintro ⟨component, held, onScan, purl, named, -⟩
      exact ⟨component, held, onScan, by rw [named]; rfl⟩
  | some waived =>
    -- The waivers looked up are those in force.
    have member := Store.mem_of_assigned assigned
    obtain ⟨-, -, same⟩ := (waivers waived).mp member
    have batched : scan.id ∈ (scanWaivers db
        (scanByProject db (latestSucceededScanIds db projectIds))
        (maliciousCounts db (latestSucceededScanIds db projectIds)) now).map Prod.fst :=
      List.mem_map.mpr ⟨(scan.id, waived), member, rfl⟩
    dsimp only
    rw [countUnwaived_pos_iff, same]
    constructor
    · -- What is left uncovered in the batch is left uncovered on the scan.
      rintro ⟨purl, loaded, uncovered⟩
      obtain ⟨component, held, onScan, flagged⟩ :=
        (mem_loadFlaggedPurlsBatch batched purl).mp loaded
      exact ⟨component, held, onScan, purl, flagged, uncovered⟩
    · rintro ⟨component, held, onScan, purl, flagged, uncovered⟩
      refine ⟨purl, ?_, uncovered⟩
      exact (mem_loadFlaggedPurlsBatch batched purl).mpr ⟨component, held, onScan, flagged⟩

include latest stored owner in
/-- The queue blocks the latest scan of a project exactly when one of its four terms holds. -/
theorem queueTerms_blocks_iff (env : Environment) :
    (queueTerms env db (latestSucceededScanIds db projectIds) now).blocks scan.id = true ↔
      HasCritical db scan.id ∨ ForbiddenLicense db scan.projectId scan.id now ∨
        ReachesScore db scan.id (resolveEpssThreshold env) ∨
        FlaggedUnwaived db scan.projectId scan.id now := by
  have listed := latest_listed latest
  -- The queue counts every open critical, reachable or not.
  have critical : 0 < criticalCounts db (latestSucceededScanIds db projectIds) scan.id ↔
      HasCritical db scan.id :=
    (openFindingScans_pos_iff listed isCritical).trans (countCritical_pos_iff db scan.id)
  have epss : 0 < epssCounts db (latestSucceededScanIds db projectIds) env scan.id ↔
      ReachesScore db scan.id (resolveEpssThreshold env) := by
    rw [← epssCount_pos_iff]
    unfold epssCounts
    -- Only the environment's threshold is read here, never the policy's.
    cases resolveEpssThreshold env with
    | none => simp
    | some threshold => exact openFindingScans_pos_iff listed (scoresAtLeast threshold)
  have forbidden := forbiddenCountsUnderPolicy_pos_iff now latest stored owner
  have malicious := maliciousCountsUnderPolicy_pos_iff now latest stored owner
  unfold QueueTerms.blocks queueTerms
  simp only [Bool.or_eq_true, decide_eq_true_eq, ← Nat.pos_iff_ne_zero]
  rw [critical, forbidden, epss, malicious, or_assoc, or_assoc]

include latest stored owner in
/-- The project of a latest scan is on the list exactly when the queue blocks the scan. -/
theorem mem_gateBlockedProjects_iff (env : Environment) :
    scan.projectId ∈ (gateBlockedProjects env db projectIds
        (latestSucceededScanIds db projectIds) now).map GateBlockedProject.projectId ↔
      (queueTerms env db (latestSucceededScanIds db projectIds) now).blocks scan.id = true := by
  have listed := latest_listed latest
  unfold gateBlockedProjects
  simp only [List.mem_map, List.mem_mergeSort, List.mem_filterMap, List.mem_filter,
    Bool.and_eq_true, List.contains_iff_mem]
  constructor
  · rintro ⟨entry, ⟨row, ⟨held, ⟨blocked_id, blocked⟩, -⟩, shown⟩, named⟩
    obtain ⟨owning, -, rfl⟩ := Option.map_eq_some_iff.mp shown
    -- A blocked scan of the project is its latest one.
    have same : row = scan := latest_unique (latest_of_id held blocked_id) latest named
    rw [← same]
    exact blocked
  · -- The name shown comes from the project row, which exists.
    intro blocked
    have found : db.projects.find? scan.projectId = some project := by
      rw [← owner]
      exact Store.Table.find?_of_mem stored
    refine ⟨_, ⟨scan, ⟨(latest_stored latest).1, ⟨listed, blocked⟩, (latest_stored latest).2⟩,
      Option.map_eq_some_iff.mpr ⟨project, found, rfl⟩⟩, rfl⟩

end Policy

section Parity

variable (env : Environment) (db : GateDb) (project : ProjectId) (scan : ScanId) (now : Time)

/-- A term that both the queue and the gate count. -/
def SharedTerm : Prop :=
  BlockingCritical env db project scan ∨ ForbiddenLicense db project scan now ∨
    (ReachesScore db scan (resolveEpssThreshold env) ∧
      ReachesScore db scan (gateSettings env db project).epssThreshold) ∨
    ((gateSettings env db project).maliciousGateEnabled = true ∧
      FlaggedUnwaived db project scan now)

/-- A term that only the queue counts: criticals that are all proven unreachable where that does
not block, a score that reaches the threshold of the environment but not the policy's, or a
malicious component where the gate does not ask for them. -/
def QueueOnlyTerm : Prop :=
  (HasCritical db scan ∧ ¬BlockingCritical env db project scan) ∨
    (ReachesScore db scan (resolveEpssThreshold env) ∧
      ¬ReachesScore db scan (gateSettings env db project).epssThreshold) ∨
    ((gateSettings env db project).maliciousGateEnabled = false ∧
      FlaggedUnwaived db project scan now)

/-- A term that only the gate counts: a score that reaches the policy's threshold but not that of
the environment, missing scores that block, and the axes the queue does not know. -/
def GateOnlyTerm : Prop :=
  (ReachesScore db scan (gateSettings env db project).epssThreshold ∧
      ¬ReachesScore db scan (resolveEpssThreshold env)) ∨
    ScoresMissing env db project scan ∨ KevBlocks env db scan ∨ EolBlocks env db scan ∨
    IncompleteBlocks env db scan

/-- A critical that blocks the gate is one the queue counts. -/
theorem BlockingCritical.hasCritical {env : Environment} {db : GateDb} {project : ProjectId}
    {scan : ScanId} (blocking : BlockingCritical env db project scan) : HasCritical db scan := by
  obtain ⟨finding, vulnerability, undecided, critical, -⟩ := blocking
  exact ⟨finding, vulnerability, undecided, critical⟩

/-- The queue's terms are the shared ones and its own. -/
theorem queue_terms_iff :
    (HasCritical db scan ∨ ForbiddenLicense db project scan now ∨
      ReachesScore db scan (resolveEpssThreshold env) ∨ FlaggedUnwaived db project scan now) ↔
      SharedTerm env db project scan now ∨ QueueOnlyTerm env db project scan now := by
  unfold SharedTerm QueueOnlyTerm
  constructor
  · rintro (critical | forbidden | reaches | flagged)
    · -- An open critical blocks the gate too, or only the queue.
      by_cases blocking : BlockingCritical env db project scan
      · exact .inl (.inl blocking)
      · exact .inr (.inl ⟨critical, blocking⟩)
    · exact .inl (.inr (.inl forbidden))
    · -- A score over the environment's threshold may miss the policy's.
      by_cases both : ReachesScore db scan (gateSettings env db project).epssThreshold
      · exact .inl (.inr (.inr (.inl ⟨reaches, both⟩)))
      · exact .inr (.inr (.inl ⟨reaches, both⟩))
    · -- The queue counts malicious components whether or not the gate asks for them.
      cases enabled : (gateSettings env db project).maliciousGateEnabled with
      | true => exact .inl (.inr (.inr (.inr ⟨rfl, flagged⟩)))
      | false => exact .inr (.inr (.inr ⟨rfl, flagged⟩))
  · -- Every shared term is also one of the queue's.
    rintro ((blocking | forbidden | ⟨reaches, -⟩ | ⟨-, flagged⟩) |
      (⟨critical, -⟩ | ⟨reaches, -⟩ | ⟨-, flagged⟩))
    · exact .inl blocking.hasCritical
    · exact .inr (.inl forbidden)
    · exact .inr (.inr (.inl reaches))
    · exact .inr (.inr (.inr flagged))
    · exact .inl critical
    · exact .inr (.inr (.inl reaches))
    · exact .inr (.inr (.inr flagged))

/-- The gate's terms are the shared ones and its own. -/
theorem gate_terms_iff :
    (BlockingCritical env db project scan ∨ ForbiddenLicense db project scan now ∨
      ReachesScore db scan (gateSettings env db project).epssThreshold ∨
      ScoresMissing env db project scan ∨ KevBlocks env db scan ∨ EolBlocks env db scan ∨
      IncompleteBlocks env db scan ∨
      ((gateSettings env db project).maliciousGateEnabled = true ∧
        FlaggedUnwaived db project scan now)) ↔
      SharedTerm env db project scan now ∨ GateOnlyTerm env db project scan := by
  unfold SharedTerm GateOnlyTerm
  constructor
  · rintro (blocking | forbidden | reaches | missing | kev | eol | incomplete | malicious)
    · exact .inl (.inl blocking)
    · exact .inl (.inr (.inl forbidden))
    · -- The score may reach the threshold of the environment as well, or not.
      by_cases both : ReachesScore db scan (resolveEpssThreshold env)
      · exact .inl (.inr (.inr (.inl ⟨both, reaches⟩)))
      · exact .inr (.inl ⟨reaches, both⟩)
    · exact .inr (.inr (.inl missing))
    · exact .inr (.inr (.inr (.inl kev)))
    · exact .inr (.inr (.inr (.inr (.inl eol))))
    · exact .inr (.inr (.inr (.inr (.inr incomplete))))
    · exact .inl (.inr (.inr (.inr malicious)))
  · -- Every shared term is also one of the gate's.
    rintro ((blocking | forbidden | ⟨-, reaches⟩ | malicious) |
      (⟨reaches, -⟩ | missing | kev | eol | incomplete))
    · exact .inl blocking
    · exact .inr (.inl forbidden)
    · exact .inr (.inr (.inl reaches))
    · exact .inr (.inr (.inr (.inr (.inr (.inr (.inr malicious))))))
    · exact .inr (.inr (.inl reaches))
    · exact .inr (.inr (.inr (.inl missing)))
    · exact .inr (.inr (.inr (.inr (.inl kev))))
    · exact .inr (.inr (.inr (.inr (.inr (.inl eol)))))
    · exact .inr (.inr (.inr (.inr (.inr (.inr (.inl incomplete))))))

end Parity

/-- The projects the queue looks at are stored ones. -/
theorem accessible_stored {db : GateDb} {deployment : Deployment} {actor : CurrentUser}
    {project : ProjectId} (readable : project ∈ accessibleProjectIds db deployment actor) :
    ∃ row ∈ db.projects.rows, row.id = project := by
  unfold accessibleProjectIds at readable
  dsimp only at readable
  -- Whichever branch is taken, the ids come from the projects table.
  split at readable
  · obtain ⟨row, member, named⟩ := List.mem_map.mp readable
    exact ⟨row, List.mem_of_mem_filter member, named⟩
  · split at readable
    · cases readable
    · obtain ⟨row, member, named⟩ := List.mem_map.mp readable
      exact ⟨row, List.mem_of_mem_filter (List.mem_of_mem_filter member), named⟩

/-- The queue and the gate agree on the latest succeeded scan of a readable project exactly when
both have a term to block it for, or the terms only one of them counts come together. -/
theorem gate_parity_iff (env : Environment) (db : GateDb) (deployment : Deployment)
    (actor : CurrentUser) (now : Time) (scan : GateScan)
    (latest : scan ∈ latestSucceededScans db (accessibleProjectIds db deployment actor)) :
    ((scan.projectId ∈ (gateBlockedProjects env db (accessibleProjectIds db deployment actor)
          (latestSucceededScanIds db (accessibleProjectIds db deployment actor)) now).map
          GateBlockedProject.projectId) ↔
        (evaluateGate env db scan.projectId now (some scan.id) none).gate = .fail) ↔
      (SharedTerm env db scan.projectId scan.id now ∨
        (QueueOnlyTerm env db scan.projectId scan.id now ↔
          GateOnlyTerm env db scan.projectId scan.id)) := by
  -- A readable project is a stored one, so its policies can be looked up.
  obtain ⟨project, stored, owner⟩ := accessible_stored (latest_stored latest).2
  rw [mem_gateBlockedProjects_iff now latest stored owner env,
    queueTerms_blocks_iff now latest stored owner env, evaluateGate_fail_iff,
    queue_terms_iff env, gate_terms_iff]
  -- A shared term decides both sides alike.
  by_cases shared : SharedTerm env db scan.projectId scan.id now
  · simp [shared]
  · simp [shared]

section KnownExploited

/-- The one scan of the project. -/
def kevScan : GateScan where
  id := 1
  projectId := 1
  status := .succeeded
  ref := none
  createdAt := 0
  completedAt := some 60
  updatedAt := 60
  kind := .source
  scanMetadata := []

/-- A project whose scan has one open finding: of high severity, and known to be exploited. -/
def kevDb : GateDb where
  groups := ⟨[⟨1, [], 1⟩], by decide⟩
  projects := ⟨[⟨⟨1, "shop", 1, some 1, none⟩, none⟩], by decide⟩
  scans := ⟨[kevScan], by decide⟩
  findings := ⟨[newFinding ⟨fun _ => none, fun _ => none, fun _ => none⟩ 1 ⟨60, 10, 60⟩
    ⟨(5, 6), .null, none⟩], by decide⟩
  vulnerabilities := ⟨[⟨6, .high, none, true, 50⟩], by decide⟩
  componentVersions := ⟨[⟨5, "pkg:npm/left-pad@1.0.0", none, none, none⟩], by decide⟩
  scanComponents := [⟨1, 5⟩]
  licenses := ⟨[], by decide⟩
  licenseFindings := []
  dependencyEdges := []
  gatePolicies := ⟨[], by decide⟩
  licensePolicies := ⟨[], by decide⟩
  kevLastSyncedAt := some 55

/-- A deployment that switched the axis of known-exploited vulnerabilities on. -/
def kevEnv : Environment where
  getenv := fun name => if name = "GATE_KEV_ENABLED" then some "true" else none
  float := fun _ => none
  formatG := fun _ => ""

/-- An ordinary deployment. -/
def ordinaryDeployment : Deployment := ⟨fun _ => false, false, true⟩

/-- A superuser. -/
def superuser : CurrentUser := ⟨1, .superAdmin, [], fun _ => none, true⟩

/-- The superuser reads the project, and its scan is the latest succeeded one. -/
theorem kevScan_latest :
    latestSucceededScans kevDb (accessibleProjectIds kevDb ordinaryDeployment superuser) =
      [kevScan] := by
  -- One scan passes the filter, so there is nothing to sort.
  have selected : (kevDb.scans.rows.filter fun scan =>
      (accessibleProjectIds kevDb ordinaryDeployment superuser).contains scan.projectId &&
        scan.status == .succeeded) = [kevScan] := by
    rfl
  unfold latestSucceededScans
  dsimp only
  rw [selected, List.mergeSort_singleton]
  rfl

/-- The gate fails the build for the exploited vulnerability, and the queue does not list it. -/
theorem gate_parity_exploited :
    kevScan ∈ latestSucceededScans kevDb
        (accessibleProjectIds kevDb ordinaryDeployment superuser) ∧
      kevScan.projectId ∉ (gateBlockedProjects kevEnv kevDb
        (accessibleProjectIds kevDb ordinaryDeployment superuser)
        (latestSucceededScanIds kevDb
          (accessibleProjectIds kevDb ordinaryDeployment superuser)) 200).map
        GateBlockedProject.projectId ∧
      (evaluateGate kevEnv kevDb kevScan.projectId 200 (some kevScan.id) none).gate = .fail := by
  have latest : kevScan ∈ latestSucceededScans kevDb
      (accessibleProjectIds kevDb ordinaryDeployment superuser) := by
    rw [kevScan_latest]
    exact List.mem_cons_self
  obtain ⟨project, stored, owner⟩ := accessible_stored (latest_stored latest).2
  -- The listed vulnerability is not critical, has no score and no licence or malware next to it.
  refine ⟨latest, ?_, ?_⟩
  · -- None of the four terms of the queue knows the axis.
    rw [mem_gateBlockedProjects_iff 200 latest stored owner kevEnv]
    unfold latestSucceededScanIds
    rw [kevScan_latest]
    decide
  · decide

/-- On that project the two agree exactly under the condition of the general statement. -/
theorem gate_parity_condition :
    kevScan ∈ latestSucceededScans kevDb
        (accessibleProjectIds kevDb ordinaryDeployment superuser) ∧
      (((kevScan.projectId ∈ (gateBlockedProjects kevEnv kevDb
            (accessibleProjectIds kevDb ordinaryDeployment superuser)
            (latestSucceededScanIds kevDb
              (accessibleProjectIds kevDb ordinaryDeployment superuser)) 200).map
            GateBlockedProject.projectId) ↔
          (evaluateGate kevEnv kevDb kevScan.projectId 200 (some kevScan.id) none).gate = .fail) ↔
        (SharedTerm kevEnv kevDb kevScan.projectId kevScan.id 200 ∨
          (QueueOnlyTerm kevEnv kevDb kevScan.projectId kevScan.id 200 ↔
            GateOnlyTerm kevEnv kevDb kevScan.projectId kevScan.id))) := by
  have latest : kevScan ∈ latestSucceededScans kevDb
      (accessibleProjectIds kevDb ordinaryDeployment superuser) := by
    rw [kevScan_latest]
    exact List.mem_cons_self
  exact ⟨latest, gate_parity_iff kevEnv kevDb ordinaryDeployment superuser 200 kevScan latest⟩

end KnownExploited

end Trusca
