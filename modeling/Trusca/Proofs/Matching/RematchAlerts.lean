import Mathlib.Data.List.Dedup
import Mathlib.Data.String.Basic
import Trusca.Proofs.Matching.RematchSweep

/-! Which new and escalated findings a rematch alerts, over whole runs of matchings that share a catalog. -/

namespace Trusca

section Upsert

/-- The severity that a row has once the entries of its vulnerability are in: it is taken from the first
entry when there is no row or a stale one, and from the second when the row that the first one makes is
stale again. -/
def decidedSeverity : Option CatalogRow → List TrivyVuln → Option Severity
  | row, [] => row.map CatalogRow.severity
  | some row, vuln :: _ =>
      let severity := normalizeSeverity vuln.severity
      some (if isStaleCatalogRow row ∧ severity ≠ .unknown then severity else row.severity)
  | none, [vuln] => some (normalizeSeverity vuln.severity)
  | none, first :: second :: _ =>
      let severity := normalizeSeverity second.severity
      some (if sameTexts first.title.text? first.description.text? ∧ severity ≠ .unknown then severity
        else normalizeSeverity first.severity)

/-- References that were normalised are texts. -/
@[simp] theorem isTextList_referencesJson (raw : Json) : isTextList (referencesJson raw) = true := by
  simp [referencesJson, isTextList, Json.text?]

/-- A row that was brought up to date is not stale. -/
theorem refresh_not_stale (row : CatalogRow) (vuln : TrivyVuln) :
    isStaleCatalogRow (refreshStaleCatalogRow row vuln) = false := by
  -- Two equal texts are told apart by dropping one of them.
  have texts : sameTexts (refreshStaleCatalogRow row vuln).summary
      (refreshStaleCatalogRow row vuln).details = false := by
    simp only [refreshStaleCatalogRow]
    split_ifs with same
    · cases orKept vuln.title.text? row.summary <;> rfl
    · simpa using same
  -- With different texts and the new severity the row is not stale.
  rw [isStaleCatalogRow, texts]
  simp [refreshStaleCatalogRow]

/-- A row that was just inserted is stale when its two texts say the same. -/
theorem new_stale (vuln : TrivyVuln) :
    isStaleCatalogRow (newCatalogRow vuln) = sameTexts vuln.title.text? vuln.description.text? := by
  simp [isStaleCatalogRow, newCatalogRow]

/-- A row that is not stale stays as it is. -/
theorem foldl_upsert_fresh {row : CatalogRow} (fresh : isStaleCatalogRow row = false)
    (vulns : List TrivyVuln) :
    vulns.foldl (fun row vuln => some (upsertVulnerabilityRow row vuln)) (some row) = some row := by
  induction vulns with
  | nil => rfl
  | cons vuln rest ih =>
    have same : upsertVulnerabilityRow (some row) vuln = row := by simp [upsertVulnerabilityRow, fresh]
    rw [List.foldl_cons, same, ih]

/-- After the first entry on a row, nothing changes any more. -/
theorem foldl_upsert_row (row : CatalogRow) (vuln : TrivyVuln) (rest : List TrivyVuln) :
    (vuln :: rest).foldl (fun row vuln => some (upsertVulnerabilityRow row vuln)) (some row) =
      some (upsertVulnerabilityRow (some row) vuln) := by
  rw [List.foldl_cons]
  refine foldl_upsert_fresh ?_ rest
  cases stale : isStaleCatalogRow row with
  | false => simp [upsertVulnerabilityRow, stale]
  | true => simp [upsertVulnerabilityRow, stale, refresh_not_stale]

/-- The entries of one vulnerability decide the severity of its row. -/
theorem foldl_upsert_severity (row : Option CatalogRow) (vulns : List TrivyVuln) :
    (vulns.foldl (fun row vuln => some (upsertVulnerabilityRow row vuln)) row).map CatalogRow.severity =
      decidedSeverity row vulns := by
  cases vulns with
  | nil => cases row <;> rfl
  | cons first rest =>
    cases row with
    | some row =>
      -- A stored row takes the first entry if it is stale, and none of the others.
      rw [foldl_upsert_row]
      cases stale : isStaleCatalogRow row with
      | false => simp [upsertVulnerabilityRow, decidedSeverity, stale]
      | true => simp [upsertVulnerabilityRow, decidedSeverity, stale, refreshStaleCatalogRow]
    | none =>
      cases rest with
      | nil => rfl
      | cons second more =>
        -- The row of the first entry is refreshed by the second when it is stale.
        have inserted : (first :: second :: more).foldl
            (fun row vuln => some (upsertVulnerabilityRow row vuln)) none =
            some (upsertVulnerabilityRow (some (newCatalogRow first)) second) :=
          foldl_upsert_row (newCatalogRow first) second more
        rw [inserted]
        -- Whether the second is read depends on what the first one's texts leave to be said.
        have stale := new_stale first
        cases same : sameTexts first.title.text? first.description.text? with
        | false =>
          rw [same] at stale
          simp only [upsertVulnerabilityRow, stale, decidedSeverity, same]
          rfl
        | true =>
          rw [same] at stale
          simp only [upsertVulnerabilityRow, stale, decidedSeverity, same, if_true, true_and]
          rfl

/-- The rows of a catalog change one by one, each by the entries of its own vulnerability. -/
theorem foldl_upsert_apply (catalog : VulnCatalog) (vulns : List TrivyVuln) (name : String) :
    vulns.foldl upsertVulnerabilityFromTrivy catalog name =
      (vulns.filter fun vuln => vuln.vulnerabilityId == name).foldl
        (fun row vuln => some (upsertVulnerabilityRow row vuln)) (catalog name) := by
  induction vulns generalizing catalog with
  | nil => rfl
  | cons vuln rest ih =>
    rw [List.foldl_cons, ih]
    -- An upsert touches the row of its own name.
    by_cases own : vuln.vulnerabilityId = name
    · subst own
      rw [List.filter_cons_of_pos (by simp), List.foldl_cons]
      simp [upsertVulnerabilityFromTrivy]
    · rw [List.filter_cons_of_neg (by simpa using own)]
      simp [upsertVulnerabilityFromTrivy, Function.update_of_ne (Ne.symm own)]

end Upsert

section Snapshot

variable {catalog : VulnCatalog} {keys : List RematchKey} {key : RematchKey}

/-- A snapshot gives every finding the severity of its row. -/
theorem snapshotSeverity_findings (catalog : VulnCatalog) (keys : List RematchKey) (key : RematchKey) :
    snapshotSeverity (snapshotFindings catalog keys) key =
      if key ∈ keys then (catalog key.1).map CatalogRow.severity else none := by
  induction keys with
  | nil => rfl
  | cons first rest ih =>
    cases found : catalog first.1 with
    | none =>
      -- A finding without a row is not joined.
      have dropped : snapshotFindings catalog (first :: rest) = snapshotFindings catalog rest := by
        simp [snapshotFindings, found]
      rw [dropped, ih]
      by_cases same : key = first
      · subst same
        simp [found]
      · simp [same]
    -- A finding with a row is joined, with the severity of that row.
    | some row =>
      have joined : snapshotFindings catalog (first :: rest) =
          (first, row.severity) :: snapshotFindings catalog rest := by
        simp [snapshotFindings, found]
      by_cases same : first = key
      · subst same
        simp [joined, snapshotSeverity, found]
      · have later : snapshotSeverity ((first, row.severity) :: snapshotFindings catalog rest) key =
            snapshotSeverity (snapshotFindings catalog rest) key := by
          simp [snapshotSeverity, same]
        rw [joined, later, ih]
        simp [Ne.symm same]

/-- The findings of a snapshot are those with a row. -/
theorem mem_snapshotFindings :
    key ∈ (snapshotFindings catalog keys).map Prod.fst ↔ key ∈ keys ∧ (catalog key.1).isSome = true := by
  simp only [snapshotFindings, List.map_filterMap, List.mem_filterMap, Option.map_map]
  constructor
  · -- A key is in the snapshot if its catalogue row is there.
    rintro ⟨found, listed, same⟩
    obtain ⟨row, given, rfl⟩ := Option.map_eq_some_iff.mp same
    exact ⟨listed, by simp [given]⟩
  · rintro ⟨listed, given⟩
    obtain ⟨row, given⟩ := Option.isSome_iff_exists.mp given
    exact ⟨key, listed, by simp [given]⟩

/-- A pair is changed when it was not there, or when its severity rose. -/
theorem mem_diffSnapshots {prior current : List (RematchKey × Severity)} :
    key ∈ (diffSnapshots prior current).1 ++ (diffSnapshots prior current).2 ↔
      key ∈ current.map Prod.fst ∧
        (snapshotSeverity prior key = none ∨
          ∃ before after, snapshotSeverity prior key = some before ∧
            snapshotSeverity current key = some after ∧
            rematchSeverityRank before < rematchSeverityRank after) := by
  simp only [diffSnapshots, List.mem_append, List.mem_filter, ← and_or_left]
  refine and_congr_right fun _ => ?_
  cases snapshotSeverity prior key <;> cases snapshotSeverity current key <;> simp

end Snapshot

section Descriptors

variable {order : SetOrder RematchKey} {projectId : ProjectId} {projectName : String}
  {changed : List RematchKey} {current : List (RematchKey × Severity)} {key : RematchKey}

/-- The pairs that are alerted: those that changed and are critical or high. -/
theorem mem_notifiablePairs :
    key ∈ notifiablePairs order changed current ↔
      key ∈ changed ∧ isNotifiable ((snapshotSeverity current key).getD .unknown) = true := by
  rw [notifiablePairs, List.mem_insertionSort, List.mem_filter, (order.perm changed).mem_iff]

/-- Every alerted pair stands in an alert of its own or is counted in the one for the rest. -/
theorem mem_descriptors :
    (∃ descriptor ∈ buildNotificationDescriptors order projectId projectName changed current,
        key ∈ descriptor.pairs) ↔ key ∈ notifiablePairs order changed current := by
  -- The pairs up to the cap have a descriptor each, those behind it share one.
  rw [← List.take_append_drop perScanNotificationCap (notifiablePairs order changed current),
    List.mem_append]
  unfold buildNotificationDescriptors
  dsimp only
  cases rest : (notifiablePairs order changed current).drop perScanNotificationCap with
  -- Nothing is behind the cap.
  | nil =>
    simp only [List.append_nil, List.mem_map, List.not_mem_nil, or_false]
    constructor
    · rintro ⟨descriptor, ⟨found, shown, rfl⟩, inside⟩
      rw [List.mem_singleton.mp inside]
      exact shown
    · intro shown
      exact ⟨_, ⟨key, shown, rfl⟩, List.mem_singleton_self key⟩
  -- The rest goes into the overflow descriptor.
  | cons first more =>
    simp only [List.mem_append, List.mem_map, List.mem_singleton]
    constructor
    · rintro ⟨descriptor, ⟨found, shown, rfl⟩ | rfl, inside⟩
      · rw [List.mem_singleton.mp inside]
        exact .inl shown
      · exact .inr inside
    · rintro (shown | behind)
      · exact ⟨_, .inl ⟨key, shown, rfl⟩, List.mem_singleton_self key⟩
      · exact ⟨_, .inr rfl, behind⟩

/-- An alert names the vulnerability of its pair, or counts its pairs. -/
theorem text_of_descriptor {descriptor : NotificationDescriptor}
    (built : descriptor ∈ buildNotificationDescriptors order projectId projectName changed current)
    (inside : key ∈ descriptor.pairs) :
    descriptor.cveId = key.1 ∨
      ∃ first rest, descriptor.pairs = first :: rest ∧ descriptor.cveId = overflowText first rest := by
  unfold buildNotificationDescriptors at built
  dsimp only at built
  -- A descriptor of its own, or the overflow of the rest.
  rcases List.mem_append.mp built with single | summary
  · obtain ⟨found, -, rfl⟩ := List.mem_map.mp single
    rw [List.mem_singleton.mp inside]
    exact .inl rfl
  · split at summary
    · cases summary
    · rename_i first rest _
      rw [List.mem_singleton.mp summary]
      exact .inr ⟨first, rest, rfl, rfl⟩

end Descriptors

section Runs

/-- The database of a run, with the last report that each scan was matched against. -/
structure TrackedRun where
  db : RematchDb
  reports : ScanId → Option TrivyReport

/-- The report that an event matches a scan against, if it does. -/
def matchedReport (db : RematchDb) : RematchEvent → Option (ScanId × TrivyReport)
  | .tick _ => none
  | .matched scan report => some (scan, report)
  | .rematch scan run =>
      match (rematchScanFindings db scan run).2, run.trivy with
      | .completed _, .ok report => some (scan, report)
      | _, _ => none

/-- An event, with the report that it leaves for its scan. -/
def TrackedRun.serve (state : TrackedRun) (event : RematchEvent) : TrackedRun where
  db := state.db.serve event
  reports :=
    match matchedReport state.db event with
    | some (scan, report) => Function.update state.reports scan (some report)
    | none => state.reports

/-- A run from a catalog of any kind, before any scan was matched. -/
def TrackedRun.after (start : RematchDb) (events : List RematchEvent) : TrackedRun :=
  events.foldl TrackedRun.serve ⟨start, fun _ => none⟩

/-- An event with a report in which everything can be read. -/
def RematchEvent.isWellFormed : RematchEvent → Prop
  | .tick _ => True
  | .matched _ report => report.isComplete = true
  | .rematch _ run => ∀ report, run.trivy = .ok report → report.isComplete = true

/-- The severity that a report gives to a pair of a scan, in its first entry for it. -/
def reportedSeverity (index : ComponentIndex) (report : TrivyReport) (key : RematchKey) : Option Severity :=
  ((attachedEntries index [] report.entries).find? fun (vuln, version) =>
    vuln.vulnerabilityId == key.1 && version == key.2).map fun (vuln, _) => normalizeSeverity vuln.severity

/-- The findings of a scan are the pairs of its last report, and every finding has a row. -/
structure TrackedRun.Consistent (state : TrackedRun) : Prop where
  findings : ∀ scan report, state.reports scan = some report →
    ∀ key, key ∈ state.db.findings scan ↔ key ∈ reportedKeys (state.db.components scan) report
  joined : ∀ scan, ∀ key ∈ state.db.findings scan, (state.db.catalog key.1).isSome = true

/-- A complete report leaves its own pairs. -/
theorem mem_reconciledKeys {existing reported : List RematchKey} {key : RematchKey} :
    key ∈ reconciledKeys existing reported true ↔ key ∈ reported := by
  simp only [reconciledKeys, List.mem_append, List.mem_filter, List.mem_dedup, Bool.not_true,
    Bool.false_or, List.contains_eq_mem, Bool.not_eq_true', decide_eq_true_eq, decide_eq_false_iff_not]
  by_cases known : key ∈ existing <;> simp [known]

/-- Entries only add rows. -/
theorem isSome_foldl_upsert {catalog : VulnCatalog} {name : String} (vulns : List TrivyVuln)
    (given : (catalog name).isSome = true ∨ ∃ vuln ∈ vulns, vuln.vulnerabilityId = name) :
    (vulns.foldl upsertVulnerabilityFromTrivy catalog name).isSome = true := by
  rw [foldl_upsert_apply]
  -- Nothing upserts the row, so it was there; or the first one makes it.
  cases own : vulns.filter fun vuln => vuln.vulnerabilityId == name with
  | nil =>
    obtain known | ⟨vuln, listed, same⟩ := given
    · exact known
    · have none_own := List.filter_eq_nil_iff.mp own vuln listed
      simp [same] at none_own
  | cons vuln rest =>
    -- And no later upsert takes it away.
    have grows (row : CatalogRow) (vulns : List TrivyVuln) :
        (vulns.foldl (fun row vuln => some (upsertVulnerabilityRow row vuln)) (some row)).isSome = true := by
      induction vulns generalizing row with
      | nil => rfl
      | cons vuln rest ih => exact ih _
    exact grows _ rest

/-- A match against a complete report keeps a run consistent. -/
theorem TrackedRun.Consistent.persist {state : TrackedRun} (good : state.Consistent) {scan : ScanId}
    {report : TrivyReport} (complete : report.isComplete = true) {db : RematchDb}
    (findings : db.findings = (state.db.persistTrivyFindings scan report).findings)
    (catalog : db.catalog = (state.db.persistTrivyFindings scan report).catalog)
    (components : db.components = state.db.components) :
    (TrackedRun.mk db (Function.update state.reports scan (some report))).Consistent := by
  -- The matched scan now has the keys the report gives it.
  have own : ∀ key, key ∈ db.findings scan ↔ key ∈ reportedKeys (db.components scan) report := by
    intro key
    rw [findings, components]
    simp only [RematchDb.persistTrivyFindings, Function.update_self, complete]
    exact mem_reconciledKeys
  -- No other scan's findings are touched.
  have others : ∀ other, other ≠ scan → db.findings other = state.db.findings other := by
    intro other apart
    rw [findings]
    simp [RematchDb.persistTrivyFindings, Function.update_of_ne apart]
  constructor
  · -- The matched scan's last report is this one; the others keep theirs.
    intro other held
    by_cases same : other = scan
    · subst same
      intro given key
      cases Option.some.inj ((Function.update_self other (some report) state.reports).symm.trans given)
      exact own key
    · intro given key
      dsimp only at given
      rw [Function.update_of_ne same] at given
      dsimp only
      rw [others other same, components]
      exact good.findings other held given key
  · -- Every finding has its catalogue row, since the upserts come with the findings.
    intro other key listed
    dsimp only at listed ⊢
    rw [catalog]
    refine isSome_foldl_upsert _ ?_
    by_cases same : other = scan
    · subst same
      rw [own, reportedKeys, List.mem_map] at listed
      obtain ⟨⟨vuln, version⟩, attached, rfl⟩ := listed
      rw [components] at attached
      exact .inr ⟨vuln, List.mem_map.mpr ⟨_, attached, rfl⟩, rfl⟩
    · rw [others other same] at listed
      exact .inl (good.joined other key listed)

/-- Every event keeps a run consistent. -/
theorem TrackedRun.Consistent.serve {state : TrackedRun} (good : state.Consistent) {event : RematchEvent}
    (wellFormed : event.isWellFormed) : (state.serve event).Consistent := by
  cases event with
  | tick tick => exact good
  | matched scan report => exact good.persist wellFormed rfl rfl rfl
  | rematch scanId run =>
    obtain ⟨reason, skipped⟩ | ⟨scan, -, rfl, -, report, given, completed⟩ :=
      rematchScanFindings_cases state.db scanId run
    · -- A worker that skips its scan leaves no report.
      have same : state.serve (.rematch scanId run) = state := by
        simp [TrackedRun.serve, matchedReport, RematchDb.serve, skipped]
      rw [same]
      exact good
    · have next : state.serve (.rematch scan.id run) =
          ⟨(completeRematch state.db scan report run).1,
            Function.update state.reports scan.id (some report)⟩ := by
        simp [TrackedRun.serve, matchedReport, RematchDb.serve, completed, given]
      rw [next]
      exact good.persist (wellFormed report given) rfl rfl rfl

/-- A run that starts before any match is consistent throughout. -/
theorem consistent_after {start : RematchDb} (unmatched : ∀ scan, start.findings scan = [])
    {events : List RematchEvent} (wellFormed : ∀ event ∈ events, event.isWellFormed) :
    (TrackedRun.after start events).Consistent := by
  -- At the start there is no report and no finding.
  have begins : (TrackedRun.mk start fun _ => none).Consistent := by
    constructor
    · intro scan report given
      cases given
    · intro scan key listed
      rw [show (TrackedRun.mk start fun _ => none).db.findings scan = [] from unmatched scan] at listed
      cases listed
  unfold TrackedRun.after
  generalize TrackedRun.mk start (fun _ => none) = state at begins
  induction events generalizing state with
  | nil => exact begins
  -- Every event that is well formed keeps it.
  | cons event rest ih =>
    obtain ⟨first, later⟩ := List.forall_mem_cons.mp wellFormed
    exact ih later _ (begins.serve first)

end Runs

section Alerts

variable {index : ComponentIndex} {previous report : TrivyReport} {key : RematchKey}

/-- A pair has a severity in the reports that have it. -/
theorem reportedSeverity_none : reportedSeverity index report key = none ↔ key ∉ reportedKeys index report := by
  rw [reportedSeverity, Option.map_eq_none_iff, List.find?_eq_none, reportedKeys, List.mem_map]
  constructor
  · rintro apart ⟨⟨vuln, version⟩, attached, rfl⟩
    exact apart _ attached (by simp)
  · intro apart found attached same
    simp only [Bool.and_eq_true, beq_iff_eq] at same
    exact apart ⟨found, attached, Prod.ext same.1 same.2⟩

/-- A report has a pair as critical or high that the previous one lacked or had lower. -/
def NeedsAlert (index : ComponentIndex) (previous report : TrivyReport) (key : RematchKey) : Prop :=
  ∃ severity, reportedSeverity index report key = some severity ∧ isNotifiable severity = true ∧
    ∀ before, reportedSeverity index previous key = some before →
      rematchSeverityRank before < rematchSeverityRank severity

/-- The entries of a report on one vulnerability. -/
def entriesOn (index : ComponentIndex) (report : TrivyReport) (name : String) : List TrivyVuln :=
  ((attachedEntries index [] report.entries).map Prod.fst).filter fun vuln => vuln.vulnerabilityId == name

/-- The row of the vulnerability has or takes a severity that is critical or high, and a higher one than
before when the previous report had the pair. -/
def CatalogFollows (catalog : VulnCatalog) (index : ComponentIndex) (previous report : TrivyReport)
    (key : RematchKey) : Prop :=
  ∃ severity, decidedSeverity (catalog key.1) (entriesOn index report key.1) = some severity ∧
    isNotifiable severity = true ∧
    (reportedSeverity index previous key ≠ none →
      ∀ row, catalog key.1 = some row → rematchSeverityRank row.severity < rematchSeverityRank severity)

/-- A completed match alerts a pair of its report exactly when the catalog follows. -/
theorem mem_alerts {state : TrackedRun} (good : state.Consistent) {scan : RematchScan}
    (last : state.reports scan.id = some previous) (complete : report.isComplete = true) (run : RematchRun)
    (listed : key ∈ reportedKeys (state.db.components scan.id) report) :
    (∃ descriptor ∈ (completeRematch state.db scan report run).2, key ∈ descriptor.pairs) ↔
      CatalogFollows state.db.catalog (state.db.components scan.id) previous report key := by
  -- The pair is held after the pass, as the report has it.
  have held : key ∈ (state.db.persistTrivyFindings scan.id report).findings scan.id := by
    simp only [RematchDb.persistTrivyFindings, Function.update_self, complete]
    exact mem_reconciledKeys.mpr listed
  -- The catalogue's severity is the one decided from the row and the entries.
  have decided : ((state.db.persistTrivyFindings scan.id report).catalog key.1).map CatalogRow.severity =
      decidedSeverity (state.db.catalog key.1) (entriesOn (state.db.components scan.id) report key.1) := by
    rw [← foldl_upsert_severity]
    exact congrArg _ (foldl_upsert_apply _ _ _)
  have before := good.findings scan.id previous last key
  simp only [completeRematch]
  rw [mem_descriptors, mem_notifiablePairs, mem_diffSnapshots, mem_snapshotFindings,
    snapshotSeverity_findings, snapshotSeverity_findings, if_pos held, decided]
  -- There is a row for it, stored or new, so there is a severity.
  have known : ((state.db.persistTrivyFindings scan.id report).catalog key.1).isSome = true := by
    refine isSome_foldl_upsert _ (.inr ?_)
    obtain ⟨⟨vuln, version⟩, attached, same⟩ := List.mem_map.mp listed
    exact ⟨vuln, List.mem_map.mpr ⟨_, attached, rfl⟩, congrArg Prod.fst same⟩
  obtain ⟨severity, decision⟩ : ∃ severity, decidedSeverity (state.db.catalog key.1)
      (entriesOn (state.db.components scan.id) report key.1) = some severity := by
    obtain ⟨row, found⟩ := Option.isSome_iff_exists.mp known
    exact ⟨row.severity, by rw [← decided, found]; rfl⟩
  have lacked := @reportedSeverity_none (state.db.components scan.id) previous key
  by_cases old : key ∈ state.db.findings scan.id
  · -- The pair was there, so its row was too, and only a rise is alerted.
    obtain ⟨row, found⟩ := Option.isSome_iff_exists.mp (good.joined scan.id key old)
    have had : reportedSeverity (state.db.components scan.id) previous key ≠ none := by
      rw [Ne, lacked, not_not]
      exact before.mp old
    rw [found] at decision
    simp [CatalogFollows, held, known, old, found, decision, had, and_comm]
  · -- A new pair has no severity before, and its own one counts.
    have lacking := lacked.mpr fun there => old (before.mpr there)
    simp [CatalogFollows, held, known, old, decision, lacking]

/-- In every run of matchings that share a catalog, a completed match alerts a pair that needs it when the
catalog follows the report on it, and otherwise not on its own account. -/
theorem rematch_alerts (start : RematchDb) (unmatched : ∀ scan, start.findings scan = [])
    (events : List RematchEvent) (wellFormed : ∀ event ∈ events, event.isWellFormed)
    (scanId : ScanId) (run : RematchRun) (next : RematchDb) (notifications : List NotificationDescriptor)
    (completed : rematchScanFindings (TrackedRun.after start events).db scanId run =
      (next, .completed notifications))
    (previous report : TrivyReport) (last : (TrackedRun.after start events).reports scanId = some previous)
    (given : run.trivy = .ok report) (complete : report.isComplete = true) (key : RematchKey)
    (needed : NeedsAlert ((TrackedRun.after start events).db.components scanId) previous report key) :
    (CatalogFollows (TrackedRun.after start events).db.catalog
        ((TrackedRun.after start events).db.components scanId) previous report key →
      ∃ descriptor ∈ notifications, descriptor.cveId = key.1 ∨
        ∃ first rest, descriptor.pairs = first :: rest ∧ key ∈ first :: rest ∧
          descriptor.cveId = overflowText first rest) ∧
    (¬ CatalogFollows (TrackedRun.after start events).db.catalog
        ((TrackedRun.after start events).db.components scanId) previous report key →
      ∀ descriptor ∈ notifications, key ∉ descriptor.pairs) := by
  -- The run keeps findings and last reports consistent, which is all the rest uses.
  have good := consistent_after unmatched wellFormed
  generalize TrackedRun.after start events = state at *
  obtain ⟨severity, found, -⟩ := needed
  have listed : key ∈ reportedKeys (state.db.components scanId) report := by
    by_contra apart
    rw [reportedSeverity_none.mpr apart] at found
    cases found
  -- A skipped run completes nothing.
  obtain ⟨reason, skipped⟩ | ⟨scan, -, rfl, -, other, same, matched⟩ :=
    rematchScanFindings_cases state.db scanId run
  · rw [skipped] at completed
    cases completed
  · rw [given] at same
    cases same
    rw [matched] at completed
    cases completed
    have alerted := mem_alerts good last complete run listed
    constructor
    · -- A descriptor carries the key, in its own text or in the overflow text.
      intro follows
      obtain ⟨descriptor, built, inside⟩ := alerted.mpr follows
      refine ⟨descriptor, built, ?_⟩
      obtain named | ⟨first, rest, pairs, text⟩ := text_of_descriptor built inside
      · exact .inl named
      · exact .inr ⟨first, rest, pairs, pairs ▸ inside, text⟩
    · -- Without the catalogue's change no descriptor has the key.
      intro behind descriptor built inside
      exact behind (alerted.mp ⟨descriptor, built, inside⟩)

/-- A scan of one component that was preserved, before any match. -/
def alertDb : RematchDb where
  scans := [⟨1, 1, .succeeded, none, none⟩]
  catalog _ := none
  findings _ := []
  components _ purl := if purl = "pkg:npm/left-pad@1.0.0" then some 7 else none
  projectNames _ := some "demo"
  tarballs _ _ := .members [⟨sbomMemberName, true, 100⟩]
  scansOnce := by decide

/-- A report of one entry. -/
def oneEntry (name severity : String) : TrivyReport :=
  .ofEntries [⟨name, some "pkg:npm/left-pad@1.0.0", .str severity, .str "title", .str "text", .arr []⟩]

/-- A worker that meets no obstacle. -/
def plainRun (report : TrivyReport) : RematchRun := ⟨false, .ok report, ⟨id, fun _ => .refl _⟩, 10⟩

/-- The alert for a vulnerability that is new to the scan. -/
def newAlert : NotificationDescriptor := ⟨"CVE-2", 1, "demo", "CRITICAL", [("CVE-2", 7)]⟩

/-- A rematch that matches a second entry alerts on that one alone. -/
theorem rematch_alerts_new :
    (rematchScanFindings (TrackedRun.after alertDb [.matched 1 (oneEntry "CVE-1" "LOW")]).db 1
        (plainRun (oneEntry "CVE-2" "CRITICAL"))).2 = .completed [newAlert] ∧
      ∃ descriptor ∈ [newAlert], descriptor.cveId = "CVE-2" ∨
        ∃ first rest, descriptor.pairs = first :: rest ∧ ("CVE-2", 7) ∈ first :: rest ∧
          descriptor.cveId = overflowText first rest := by
  -- The first match is low, the second one critical.
  have ended : (rematchScanFindings (TrackedRun.after alertDb [.matched 1 (oneEntry "CVE-1" "LOW")]).db 1
      (plainRun (oneEntry "CVE-2" "CRITICAL"))).2 = .completed [newAlert] := by decide +kernel
  refine ⟨ended, (rematch_alerts alertDb (fun _ => rfl) [.matched 1 (oneEntry "CVE-1" "LOW")]
    (by simp [RematchEvent.isWellFormed]; decide) 1 (plainRun (oneEntry "CVE-2" "CRITICAL")) _ [newAlert]
    (Prod.ext rfl ended) (oneEntry "CVE-1" "LOW") (oneEntry "CVE-2" "CRITICAL") rfl rfl (by decide)
    ("CVE-2", 7) ⟨.critical, by decide, rfl, ?_⟩).1 ⟨.critical, by decide, rfl, ?_⟩⟩
  · -- There was no finding of the second name before.
    intro before found
    exact absurd found (by decide +revert)
  · intro had
    exact absurd (show _ = none by decide) had

/-- A rise from low to critical that the catalog does not take is not alerted. -/
theorem rematch_misses_escalation :
    NeedsAlert (alertDb.components 1) (oneEntry "CVE-1" "LOW") (oneEntry "CVE-1" "CRITICAL") ("CVE-1", 7) ∧
      (TrackedRun.after alertDb [.matched 1 (oneEntry "CVE-1" "LOW")]).reports 1 =
        some (oneEntry "CVE-1" "LOW") ∧
      (rematchScanFindings (TrackedRun.after alertDb [.matched 1 (oneEntry "CVE-1" "LOW")]).db 1
        (plainRun (oneEntry "CVE-1" "CRITICAL"))).2 = .completed [] := by
  refine ⟨⟨.critical, by decide, rfl, ?_⟩, rfl, by decide +kernel⟩
  intro before found
  have low : reportedSeverity (alertDb.components 1) (oneEntry "CVE-1" "LOW") ("CVE-1", 7) = some .low := by
    decide
  rw [low] at found
  cases found
  decide

end Alerts

end Trusca
