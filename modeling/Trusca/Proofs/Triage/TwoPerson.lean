import Trusca.Proofs.Triage.Approval
import Trusca.Proofs.Triage.Update
import Trusca.Triage.Operations

/-! No finding reaches a status behind the two-person rule without an approval of its own. -/

namespace Trusca

open Store

variable {scope : TriageScope} {start db after last : TriageDb}

/-- The statuses behind a second person for the project a finding belongs to. -/
def TriageScope.gated (scope : TriageScope) (finding : VulnerabilityFinding) :
    List FindingStatus :=
  scope.statusesRequiringApproval (scope.scanProject finding.scanId)

/-- Findings keep the scan they belong to. -/
def SameScans (db after : TriageDb) : Prop :=
  ∀ id finding, after.findings.find? id = some finding →
    ∃ stored, db.findings.find? id = some stored ∧ stored.scanId = finding.scanId

/-- The recorded changes are the changes between two assignments of statuses, one by one. -/
def Traces (first : FindingId → Option FindingStatus) :
    List StatusChange → (FindingId → Option FindingStatus) → Prop
  | [], last => last = first
  | change :: rest, last =>
      first change.finding = some change.before ∧ change.before ≠ change.after ∧
        Traces (Function.update first change.finding (some change.after)) rest last

/-- A status change that needed no second person. -/
def StatusChange.Ungated (scope : TriageScope) (db : TriageDb) (change : StatusChange) : Prop :=
  change.approval = none ∧
    ∀ finding, db.findings.find? change.finding = some finding →
      change.after ∉ scope.gated finding

/-- A step that leaves the approvals alone and records only changes that needed no second
person. -/
structure Direct (scope : TriageScope) (db after : TriageDb) : Prop where
  scans : SameScans db after
  approvals : after.approvals = db.approvals
  changes : ∃ recorded, after.audit = db.audit ++ recorded ∧
    Traces db.status? recorded after.status? ∧ ∀ change ∈ recorded, change.Ungated scope after

/-- Findings that keep their scan twice keep it together. -/
theorem SameScans.trans (first : SameScans db after) (second : SameScans after last) :
    SameScans db last := by
  intro id finding found
  obtain ⟨middle, between, same⟩ := second id finding found
  obtain ⟨stored, before, earlier⟩ := first id middle between
  exact ⟨stored, before, earlier.trans same⟩

/-- Records of one change after another can be joined. -/
theorem Traces.append {first middle last : FindingId → Option FindingStatus}
    {early late : List StatusChange} (before : Traces first early middle)
    (afterwards : Traces middle late last) : Traces first (early ++ late) last := by
  induction early generalizing first with
  | nil =>
    have same : middle = first := before
    rw [same] at afterwards
    exact afterwards
  | cons change rest ih => exact ⟨before.1, before.2.1, ih before.2.2⟩

/-- A change that needed no second person does not need one later either. -/
theorem StatusChange.Ungated.later {change : StatusChange} (ungated : change.Ungated scope db)
    (scans : SameScans db after) : change.Ungated scope after := by
  refine ⟨ungated.1, fun finding found => ?_⟩
  -- The finding still belongs to the same project, so the same policy applies to it.
  obtain ⟨stored, before, same⟩ := scans _ finding found
  have free := ungated.2 stored before
  rwa [TriageScope.gated, same] at free

/-- A step that changes nothing is direct. -/
theorem Direct.refl (scope : TriageScope) (db : TriageDb) : Direct scope db db :=
  ⟨fun _ finding found => ⟨finding, found, rfl⟩, rfl, [], by simp, rfl, by simp⟩

/-- Direct steps compose. -/
theorem Direct.trans (first : Direct scope db after) (second : Direct scope after last) :
    Direct scope db last := by
  obtain ⟨early, recorded, traced, justified⟩ := first.changes
  obtain ⟨late, added, followed, defended⟩ := second.changes
  refine ⟨first.scans.trans second.scans, second.approvals.trans first.approvals, early ++ late, ?_,
    traced.append followed, ?_⟩
  · rw [added, recorded, List.append_assoc]
  · -- The earlier changes stay free of the rule, since no finding changes its project.
    intro change member
    rcases List.mem_append.mp member with before | now
    · exact (justified change before).later second.scans
    · exact defended change now

/-- A flush keeps the scan of every finding when its own row does. -/
theorem flush_sameScans {stored finding : VulnerabilityFinding}
    (present : db.findings.find? finding.id = some stored) (same : finding.scanId = stored.scanId)
    (approval : Option TransitionApprovalId) : SameScans db (db.flush finding approval) := by
  intro id found lookup
  rw [TriageDb.flush_find?_stored finding present] at lookup
  by_cases mine : id = finding.id
  · -- The flushed row replaces the stored one under its own id.
    subst mine
    rw [if_pos rfl, Option.some.injEq] at lookup
    subst lookup
    exact ⟨stored, present, same.symm⟩
  · rw [if_neg mine] at lookup
    exact ⟨found, lookup, rfl⟩

/-- A flush records at most the one change it makes. -/
theorem flush_audit {stored finding : VulnerabilityFinding}
    (present : db.findings.find? finding.id = some stored)
    (approval : Option TransitionApprovalId) :
    (db.flush finding approval).audit = db.audit ++
      if stored.status = finding.status then []
      else [⟨finding.id, stored.status, finding.status, approval⟩] := by
  unfold TriageDb.flush
  rw [present]
  dsimp only
  split <;> simp

/-- The statuses after a flush: the flushed finding has its new one. -/
theorem flush_status? {stored finding : VulnerabilityFinding}
    (present : db.findings.find? finding.id = some stored)
    (approval : Option TransitionApprovalId) :
    (db.flush finding approval).status? =
      Function.update db.status? finding.id (some finding.status) := by
  funext id
  unfold TriageDb.status?
  rw [TriageDb.flush_find?_stored finding present]
  -- The flushed row shows the new status, every other row its own.
  by_cases mine : id = finding.id
  · subst mine
    rw [if_pos rfl, Function.update_self]
    rfl
  · rw [if_neg mine, Function.update_of_ne mine]

/-- What a flush records is what it changes. -/
theorem flush_traces {stored finding : VulnerabilityFinding}
    (present : db.findings.find? finding.id = some stored)
    (approval : Option TransitionApprovalId) :
    Traces db.status?
      (if stored.status = finding.status then []
        else [⟨finding.id, stored.status, finding.status, approval⟩])
      (db.flush finding approval).status? := by
  have current : db.status? finding.id = some stored.status := by
    rw [TriageDb.status?, present, Option.map_some]
  rw [flush_status? present]
  split
  · -- Nothing is recorded, and the update writes the status that is there.
    rename_i same
    rw [← same, ← current, Function.update_eq_self]
    rfl
  · rename_i moved
    exact ⟨current, moved, rfl⟩

/-- A flush into a status the policy does not name is direct. -/
theorem Direct.flush {stored : VulnerabilityFinding} (finding : VulnerabilityFinding)
    (present : db.findings.find? finding.id = some stored) (same : finding.scanId = stored.scanId)
    (free : stored.status = finding.status ∨ finding.status ∉ scope.gated finding) :
    Direct scope db (db.flush finding none) := by
  refine ⟨flush_sameScans present same none, by simp, _, flush_audit present none,
    flush_traces present none, ?_⟩
  intro change member
  split at member
  · cases member
  · rename_i moved
    rw [List.mem_singleton] at member
    subst member
    refine ⟨rfl, fun found lookup => ?_⟩
    -- The row found after the flush is the flushed one.
    rw [TriageDb.flush_find?_self finding present, Option.some.injEq] at lookup
    subst lookup
    exact free.resolve_left moved

/-- The policy a loaded finding falls under is the one of its project. -/
theorem gated_of_project {finding : VulnerabilityFinding} {project : Project}
    (owner : scope.projects.find? (scope.scanProject finding.scanId) = some project) :
    scope.gated finding = scope.statusesRequiringApproval project.id := by
  rw [TriageScope.gated, ← Table.key_of_find? owner]

/-- A single update without an approval is direct. -/
theorem update_direct {call : StatusUpdate} (alone : call.approvedRequest = none)
    (updated : updateVulnerabilityStatus scope db call = .ok after) : Direct scope db after := by
  rcases updateVulnerabilityStatus_cases updated with
    rfl | ⟨finding, project, changed, loaded, checked, rfl⟩
  · exact .refl scope _
  · obtain ⟨present, owner⟩ := loadFindingWithProject_eq_some.mp loaded
    have key : finding.id = call.finding := Table.key_of_find? present
    rw [alone, approvalAuthorises_none] at checked ⊢
    -- The guards leave only targets the policy does not name.
    obtain ⟨_, _, _, _, _, unnamed, rfl⟩ := checkStatusUpdate_eq_some.mp checked
    rw [← key] at present
    refine .flush _ present rfl (.inr ?_)
    have free := unnamed.resolve_left (by simp)
    rwa [← gated_of_project owner] at free

/-- A bulk row into a status the policy does not name is direct. -/
theorem bulkRow_direct {call : BulkUpdate} (project : Project)
    (free : call.target ∉ scope.statusesRequiringApproval call.project) (db : TriageDb)
    (id : FindingId) : Direct scope db (bulkRow scope call project db id).1 := by
  unfold bulkRow
  -- A row that stops at one of its guards leaves the tables as they are.
  cases present : db.findings.find? id with
  | none => exact .refl scope db
  | some finding =>
    have key : finding.id = id := Table.key_of_find? present
    dsimp only
    split
    · exact .refl scope db
    · rename_i own
      split
      · exact .refl scope db
      · split
        · exact .refl scope db
        · exact .refl scope db
        · -- Only a finding of the call's own project is written.
          rw [← key] at present
          refine .flush _ present rfl (.inr ?_)
          rw [VulnerabilityFinding.transition_status]
          rw [not_not] at own
          rw [← own] at free
          exact free

/-- The rows of a bulk call are direct together. -/
theorem bulkRows_direct {call : BulkUpdate} (project : Project)
    (free : call.target ∉ scope.statusesRequiringApproval call.project) (ids : List FindingId)
    (db : TriageDb) : Direct scope db (bulkRows scope call project db ids).1 := by
  -- Each row starts from the tables the earlier rows left.
  induction ids generalizing db with
  | nil => exact .refl scope db
  | cons id rest ih => exact (bulkRow_direct project free db id).trans (ih _)

/-- A bulk call is direct: the envelope refuses a target the policy names. -/
theorem bulk_direct {call : BulkUpdate} {rows : List BulkRowResult}
    (updated : bulkTransitionStatus scope db call = .ok (after, rows)) : Direct scope db after := by
  unfold bulkTransitionStatus at updated
  simp only [Bind.bind, Except.bind, Pure.pure, Except.pure, throw, throwThe,
    MonadExceptOf.throw] at updated
  -- Peel off the envelope guards; the policy check is the one that matters here.
  split at updated
  · cases updated
  · split at updated
    · cases updated
    · cases owner : scope.projects.find? call.project with
      | none => simp [owner] at updated
      | some project =>
        simp only [owner] at updated
        split at updated
        · cases updated
        · cases policy : assertNoApprovalRequired (scope.statusesRequiringApproval call.project)
              call.target with
          | error reason => simp [policy] at updated
          | ok _ =>
            simp only [policy, Except.ok.injEq] at updated
            have free := assertNoApprovalRequired_ok.mp policy
            have direct := bulkRows_direct project free (firstOccurrences call.findings) db
            rwa [updated] at direct

/-- A statement's hops are direct when none of them enters a gated status, and leave the finding
where the last hop put it. -/
theorem applyHops_direct (now : Time) {path : List FindingStatus} {finding : VulnerabilityFinding}
    (present : db.findings.find? finding.id = some finding)
    (free : ∀ step ∈ path, step ∉ scope.gated finding) :
    Direct scope db (applyHops now db finding path).1 ∧
      (applyHops now db finding path).1.findings.find? finding.id =
        some (applyHops now db finding path).2 ∧
      (applyHops now db finding path).2.id = finding.id ∧
      (applyHops now db finding path).2.scanId = finding.scanId := by
  -- The finding changes with every hop, so it stays quantified over along the path.
  induction path generalizing db finding with
  | nil => exact ⟨.refl scope db, present, rfl, rfl⟩
  | cons step rest ih =>
    -- One hop is a flush into a free status, and the rest continues from the hopped finding.
    have direct : Direct scope db (db.flush (finding.hop step now) none) :=
      .flush _ present rfl (.inr (free step (by simp)))
    have stored : (db.flush (finding.hop step now) none).findings.find? (finding.hop step now).id =
        some (finding.hop step now) :=
      TriageDb.flush_find?_self (finding.hop step now) present none
    obtain ⟨later, found, id, scan⟩ := ih stored fun next member => free next (by simp [member])
    exact ⟨direct.trans later, found, id, scan⟩

/-- The path a statement takes avoids the gated statuses when the gate finds none on it. -/
theorem filter_isEmpty_avoids {path required : List FindingStatus}
    (clear : (path.filter required.contains).isEmpty = true) : ∀ step ∈ path, step ∉ required := by
  intro step member named
  rw [List.isEmpty_iff, List.filter_eq_nil_iff] at clear
  exact clear step member (by simpa using named)

/-- Applying a statement to a finding of the project is direct. -/
theorem applyToFinding_direct {run : VexImport} {summary : VexSummary} {statement : VexStatement}
    {target : FindingStatus} {finding : VulnerabilityFinding} (same : run.scope = scope)
    (present : db.findings.find? finding.id = some finding)
    (own : scope.scanProject finding.scanId = run.project.id) :
    Direct scope db (applyToFinding run db summary statement target finding).1 := by
  unfold applyToFinding
  dsimp only
  -- A skipped statement leaves the tables as they are.
  split
  · exact .refl scope db
  · exact .refl scope db
  · rename_i path _ _
    split
    · exact .refl scope db
    · rename_i clear
      split
      · exact .refl scope db
      · -- All hops are free, and the final stamp leaves the status alone.
        have free : ∀ step ∈ path, step ∉ scope.gated finding := by
          rw [TriageScope.gated, own, ← same]
          exact filter_isEmpty_avoids (by simpa using clear)
        obtain ⟨direct, stored, id, scan⟩ := applyHops_direct run.now present free
        rw [← id] at stored
        exact direct.trans (.flush (run.stamp statement _) stored rfl (.inl rfl))

/-- Every finding a statement matches belongs to the imported project. -/
theorem matching_own {scan : ScanId} {vuln purl : PyText} {id : FindingId}
    (member : id ∈ (loadFindingsIndex scope start scan).matching vuln purl) :
    ∃ finding ∈ start.findings.rows, finding.id = id ∧ finding.scanId = scan := by
  simp only [VexIndex.matching, loadFindingsIndex, List.mem_map, List.mem_filter] at member
  obtain ⟨entry, ⟨⟨finding, ⟨stored, inScan⟩, rfl⟩, _⟩, rfl⟩ := member
  exact ⟨finding, stored, rfl, by simpa using inScan⟩

/-- Importing one product of a statement keeps the import direct. -/
theorem importProduct_direct {run : VexImport} {scan : ScanId}
    {statement : VexStatement} {vuln purl : PyText} {target : FindingStatus}
    {state : TriageDb × VexSummary} (same : run.scope = scope)
    (own : scope.scanProject scan = run.project.id) (earlier : Direct scope start state.1) :
    Direct scope start (importProduct run (loadFindingsIndex scope start scan) statement vuln
      target state purl).1 := by
  unfold importProduct
  dsimp only
  split
  · split <;> exact earlier
  · rename_i id matched
    cases present : state.1.findings.find? id with
    | none => exact earlier
    | some finding =>
      have key : finding.id = id := Table.key_of_find? present
      -- The matched finding was in the scan when the index was built, and stayed there.
      obtain ⟨indexed, member, named, inScan⟩ := matching_own
        (show id ∈ (loadFindingsIndex scope start scan).matching vuln purl by simp [matched])
      obtain ⟨stored, before, kept⟩ := earlier.scans id finding present
      cases Table.eq_of_key member (Table.mem_of_find? before)
        (named.trans (Table.key_of_find? before).symm)
      refine earlier.trans (applyToFinding_direct same (by rw [key]; exact present) ?_)
      rw [← kept, inScan]
      exact own
  · exact earlier

/-- Importing one statement keeps the import direct. -/
theorem importStatement_direct {run : VexImport} {scan : ScanId}
    {statement : VexStatement} {state : TriageDb × VexSummary} (same : run.scope = scope)
    (own : scope.scanProject scan = run.project.id) (earlier : Direct scope start state.1) :
    Direct scope start
      (importStatement run (loadFindingsIndex scope start scan) state statement).1 := by
  unfold importStatement
  dsimp only
  split
  · exact earlier
  · exact earlier
  · exact earlier
  · rename_i vuln _ target _ _ _
    split
    · exact earlier
    · -- The products are imported one after the other, each from where the last one stopped.
      generalize statement.products = products
      induction products generalizing state with
      | nil => exact earlier
      | cons purl rest ih => exact ih (importProduct_direct same own earlier)

/-- A whole import is direct. -/
theorem importVex_direct {project : Project} {call : VexImportCall} {summary : VexSummary}
    (owner : scope.projects.find? call.project = some project)
    (imported : importVex scope db project call = .ok (after, summary)) :
    Direct scope db after := by
  unfold importVex at imported
  -- A document that is refused, or finds no scan, has changed nothing.
  simp only [Bind.bind, Except.bind, Pure.pure, Except.pure] at imported
  split at imported
  · cases imported
  · split at imported
    · cases imported
    · split at imported
      · cases imported
        exact .refl scope db
      · rename_i parsed _ _ scan latest
        have own : scope.scanProject scan = project.id :=
          scope.latestScanOwn project (Table.mem_of_find? owner) scan latest
        have ran := (commitImport_ok.mp imported).2
        -- The statements are imported one after the other, against one index.
        have direct : ∀ (statements : List VexStatement) (state : TriageDb × VexSummary),
            Direct scope db state.1 → Direct scope db (statements.foldl (importStatement
              { scope := scope, actor := call.actor, project := project, origin := parsed.origin
                now := call.now, nowText := call.nowText }
              (loadFindingsIndex scope db scan)) state).1 := by
          intro statements
          induction statements with
          | nil => exact fun state earlier => earlier
          | cons statement rest ih =>
            intro state earlier
            exact ih _ (importStatement_direct rfl own earlier)
        have whole := direct parsed.statements (db, .start) (.refl scope db)
        rwa [ran] at whole

/-- A status change made under an approved request for the same finding and status, decided by
somebody else than its requester. -/
def StatusChange.Authorised (db : TriageDb) (change : StatusChange) : Prop :=
  ∃ row, change.approval = some row.id ∧ db.approvals.find? row.id = some row ∧
    row.state = .approved ∧ row.findingId = change.finding ∧ row.targetStatus = change.after ∧
    ∃ requester decider, row.requestedByUserId = some requester ∧
      row.decidedByUserId = some decider ∧ decider ≠ requester

/-- The recorded changes are the ones made since the start, each needed no second person or had
one, and no approval was used twice. -/
structure Defended (scope : TriageScope) (start db : TriageDb) : Prop where
  trail : Traces start.status? db.audit db.status?
  justified : ∀ change ∈ db.audit, change.Ungated scope db ∨ change.Authorised db
  distinct : (db.audit.filterMap StatusChange.approval).Nodup

/-- An authorised change stays authorised while decided requests are kept. -/
theorem StatusChange.Authorised.later {change : StatusChange} (authorised : change.Authorised db)
    (kept : ∀ row, db.approvals.find? row.id = some row → row.state ≠ .pending →
      after.approvals.find? row.id = some row) : change.Authorised after := by
  obtain ⟨row, used, found, approved, rest⟩ := authorised
  exact ⟨row, used, kept row found (by simp [approved]), approved, rest⟩

/-- What was recorded before stays justified while findings keep their scans and decided requests
are kept. -/
theorem Defended.still_justified (defended : Defended scope start db) (scans : SameScans db after)
    (kept : ∀ row, db.approvals.find? row.id = some row → row.state ≠ .pending →
      after.approvals.find? row.id = some row) {change : StatusChange} (old : change ∈ db.audit) :
    change.Ungated scope after ∨ change.Authorised after := by
  rcases defended.justified change old with ungated | authorised
  · exact .inl (ungated.later scans)
  · exact .inr (authorised.later kept)

/-- A direct step keeps the changes defended. -/
theorem Defended.direct (defended : Defended scope start db) (direct : Direct scope db after) :
    Defended scope start after := by
  obtain ⟨recorded, audit, traced, free⟩ := direct.changes
  have kept : ∀ row, db.approvals.find? row.id = some row → row.state ≠ .pending →
      after.approvals.find? row.id = some row := by
    intro row found _
    rw [direct.approvals]
    exact found
  refine ⟨?_, ?_, ?_⟩
  · rw [audit]
    exact defended.trail.append traced
  · rw [audit]
    intro change member
    rcases List.mem_append.mp member with old | new
    · exact defended.still_justified direct.scans kept old
    · exact .inl (free change new)
  · -- The recorded changes use no approval at all.
    have none_used : recorded.filterMap StatusChange.approval = [] := by
      rw [List.filterMap_eq_nil_iff]
      exact fun change member => (free change member).1
    rw [audit, List.filterMap_append, none_used, List.append_nil]
    exact defended.distinct

/-- New approval rows keep the changes defended while every decided one stays. -/
theorem Defended.approvals (defended : Defended scope start db)
    (approvals : Store.Table TransitionApproval.id)
    (kept : ∀ row, db.approvals.find? row.id = some row → row.state ≠ .pending →
      approvals.find? row.id = some row) :
    Defended scope start { db with approvals := approvals } := by
  refine ⟨defended.trail, fun change member => ?_, defended.distinct⟩
  -- The findings are the same ones, and only the requests may differ.
  have scans : SameScans db { db with approvals := approvals } :=
    fun _ finding found => ⟨finding, found, rfl⟩
  exact defended.still_justified scans kept member

/-- A request keeps the changes defended. -/
theorem Defended.request {request : TransitionRequest} (defended : Defended scope start db)
    (opened : requestTransition scope db request = .ok after) : Defended scope start after := by
  obtain ⟨row, approvals, added, rfl⟩ := requestTransition_cases opened
  refine defended.approvals approvals fun old found _ => ?_
  -- The new row has a key of its own, so no decided row is touched.
  have fresh := Table.find?_of_insert added
  have different : old.id ≠ row.id := by
    intro same
    rw [same, fresh] at found
    cases found
  rw [Table.find?_insert added, if_neg different]
  exact found

/-- A pending request has not been used by any recorded change. -/
theorem Defended.unused (defended : Defended scope start db) {row : TransitionApproval}
    (found : db.approvals.find? row.id = some row) (pending : row.state = .pending) :
    row.id ∉ db.audit.filterMap StatusChange.approval := by
  intro member
  obtain ⟨change, recorded, used⟩ := List.mem_filterMap.mp member
  rcases defended.justified change recorded with ungated | ⟨other, named, stored, approved, _⟩
  · rw [ungated.1] at used
    cases used
  · -- A used request is approved, and this one is pending.
    rw [used] at named
    have same : row.id = other.id := Option.some.inj named
    rw [← same, found] at stored
    cases stored
    rw [approved] at pending
    cases pending

/-- A decided request is another one than a pending request. -/
theorem decided_ne_pending {row old : TransitionApproval}
    (found : db.approvals.find? row.id = some row) (pending : row.state = .pending)
    (stored : db.approvals.find? old.id = some old) (decided : old.state ≠ .pending) :
    old.id ≠ row.id := by
  intro alike
  rw [alike, found] at stored
  cases stored
  exact decided pending

/-- A flush that needed no second person, or has an unused one, keeps the changes defended. -/
theorem Defended.flush {stored finding : VulnerabilityFinding}
    {approval : Option TransitionApprovalId} (defended : Defended scope start db)
    (present : db.findings.find? finding.id = some stored) (same : finding.scanId = stored.scanId)
    (allowed : approval = none ∧ finding.status ∉ scope.gated finding ∨
      (StatusChange.mk finding.id stored.status finding.status approval).Authorised db)
    (unused : ∀ id, approval = some id → id ∉ db.audit.filterMap StatusChange.approval) :
    Defended scope start (db.flush finding approval) := by
  have scans := flush_sameScans present same approval
  have kept : ∀ row, db.approvals.find? row.id = some row → row.state ≠ .pending →
      (db.flush finding approval).approvals.find? row.id = some row := by
    intro row found _
    rw [TriageDb.flush_approvals]
    exact found
  refine ⟨?_, ?_, ?_⟩
  · rw [flush_audit present]
    exact defended.trail.append (flush_traces present approval)
  · rw [flush_audit present]
    intro change member
    rcases List.mem_append.mp member with old | new
    · exact defended.still_justified scans kept old
    · -- The one new change is the flushed one.
      split at new
      · cases new
      · rw [List.mem_singleton] at new
        subst new
        rcases allowed with ⟨alone, free⟩ | authorised
        · refine .inl ⟨alone, fun found lookup => ?_⟩
          rw [TriageDb.flush_find?_self finding present, Option.some.injEq] at lookup
          subst lookup
          exact free
        · exact .inr (authorised.later kept)
  · rw [flush_audit present, List.filterMap_append]
    split
    · rw [List.filterMap_nil, List.append_nil]
      exact defended.distinct
    · cases approval with
      | none => exact (List.append_nil _).symm ▸ defended.distinct
      | some id =>
        -- The approval appears for the first time.
        refine List.nodup_append.mpr ⟨defended.distinct, List.nodup_singleton id, ?_⟩
        intro used earlier other now alike
        have same : other = id := List.mem_singleton.mp now
        rw [alike, same] at earlier
        exact unused id rfl earlier

/-- The approvals do not matter to a flush. -/
theorem flush_with_approvals (db : TriageDb) (finding : VulnerabilityFinding)
    (approval : Option TransitionApprovalId) (approvals : Store.Table TransitionApproval.id) :
    { db.flush finding approval with approvals := approvals } =
      TriageDb.flush { db with approvals := approvals } finding approval := by
  unfold TriageDb.flush
  dsimp only
  split <;> rfl

/-- A decision keeps the id of its request. -/
@[simp] theorem TransitionApproval.decide_id (row : TransitionApproval) (decision : Decision) :
    (row.decide decision).id = row.id := rfl

/-- An approved decision and its status change keep the changes defended. -/
theorem Defended.apply {decision : Decision} {row : TransitionApproval} {requester : UserId}
    (defended : Defended scope start db) (found : db.approvals.find? row.id = some row)
    (pending : row.state = .pending) (named : row.requestedByUserId = some requester)
    (different : decision.actor.id ≠ requester) (approve : decision.approve = true)
    (applied : applyDecision scope { db with approvals := db.approvals.put (row.decide decision) }
      decision (row.decide decision) = .ok after) : Defended scope start after := by
  obtain ⟨updated, changed, rfl⟩ := applyDecision_cases applied
  generalize spent_eq : { row.decide decision with appliedAt := some decision.now } = spent
  have same : spent.id = row.id := by rw [← spent_eq, TransitionApproval.decide_id]
  -- In the end the table holds the stamped row, and every decided row it held before.
  have stamped : ((db.approvals.put (row.decide decision)).put spent).find? row.id = some spent := by
    rw [Table.find?_put, if_pos same.symm, Table.find?_put, TransitionApproval.decide_id,
      if_pos rfl, found, Option.map_some, Option.map_some]
  have recorded : Defended scope start
      { db with approvals := (db.approvals.put (row.decide decision)).put spent } := by
    refine defended.approvals _ fun old stored decided => ?_
    have other := decided_ne_pending found pending stored decided
    rw [Table.find?_put, same, if_neg other, Table.find?_put, TransitionApproval.decide_id,
      if_neg other]
    exact stored
  rcases updateVulnerabilityStatus_cases changed with
    rfl | ⟨finding, project, moved, loaded, checked, rfl⟩
  · -- The finding already had the status: the decision is recorded and nothing moves.
    exact recorded
  · rw [TriageDb.flush_approvals, flush_with_approvals]
    obtain ⟨stored, owner⟩ := loadFindingWithProject_eq_some.mp loaded
    have key : finding.id = row.findingId := Table.key_of_find? stored
    have present : db.findings.find? finding.id = some finding := key ▸ stored
    obtain ⟨_, _, _, _, _, permitted, rfl⟩ := checkStatusUpdate_eq_some.mp checked
    -- The update read the request back from the tables with the decision on it.
    cases authorised : approvalAuthorises
        { db with approvals := db.approvals.put (row.decide decision) }
        (decision.update (row.decide decision)).approvedRequest finding.id
        (decision.update (row.decide decision)).target with
    | true =>
      -- The request itself is the approval of the change, and nothing used it before.
      refine recorded.flush present rfl (.inr ⟨spent, ?_, same ▸ stamped, ?_⟩) ?_
      · rw [same]
        rfl
      · subst spent_eq
        exact ⟨by simp [TransitionApproval.decide, Decision.state, approve], key.symm, rfl,
          requester, decision.actor.id, named, rfl, different⟩
      · intro id used
        cases used
        have unused := defended.unused found pending
        exact unused
    | false =>
      -- Without the approval the policy itself let the change through.
      have free := permitted.resolve_left (by simp [authorised])
      rw [← gated_of_project owner] at free
      exact recorded.flush present rfl (.inl ⟨rfl, free⟩) (fun id used => by cases used)

/-- A decision keeps the changes defended. -/
theorem Defended.decide {id : TransitionApprovalId} {decision : Decision}
    (defended : Defended scope start db)
    (decided : decideAndApply scope db id decision = .ok after) : Defended scope start after := by
  obtain ⟨row, found, decidable, result⟩ := decideAndApply_cases decided
  obtain ⟨pending, requester, named, different⟩ := assertDecidable_ok decidable
  have key : row.id = id := Table.key_of_find? found
  subst key
  cases approve : decision.approve with
  | false =>
    simp only [approve, Bool.false_eq_true, if_false, Except.ok.injEq] at result
    subst result
    -- A rejection only replaces the pending row.
    refine defended.approvals _ fun old stored decided => ?_
    rw [Table.find?_put, TransitionApproval.decide_id,
      if_neg (decided_ne_pending found pending stored decided)]
    exact stored
  | true =>
    simp only [approve, if_true] at result
    exact defended.apply found pending named different approve result

/-- No operation leaves a change without its second person. -/
theorem Defended.step (defended : Defended scope start db) (operation : TriageOp) :
    Defended scope start (triageStep scope db operation) := by
  -- A refused operation is rolled back, so only the successful branch has anything to show.
  cases operation with
  | update call =>
    dsimp only [triageStep]
    split
    · rename_i updated
      exact defended.direct (update_direct rfl updated)
    · exact defended
  -- A bulk call goes through the same guard for each row.
  | bulk call =>
    dsimp only [triageStep]
    split
    · rename_i updated
      exact defended.direct (bulk_direct updated)
    · exact defended
  -- An import runs only for a project of the caller.
  | importVex call =>
    dsimp only [triageStep, importVexEndpoint]
    split
    · exact defended
    · rename_i project owner
      split
      · split
        · rename_i imported
          exact defended.direct (importVex_direct owner imported)
        · exact defended
      · exact defended
  -- A request writes no status, and a decision only what a request asks for.
  | request request =>
    dsimp only [triageStep]
    split
    · rename_i opened
      exact defended.request opened
    · exact defended
  | decide approval decision =>
    dsimp only [triageStep]
    split
    · rename_i decided
      exact defended.decide decided
    · exact defended

/-- A whole run keeps the changes defended. -/
theorem Defended.run (operations : List TriageOp) (defended : Defended scope start db) :
    Defended scope start (triageRun scope db operations) := by
  unfold triageRun
  induction operations generalizing db with
  | nil => exact defended
  | cons operation rest ih => exact ih (defended.step operation)

/-- Over every run, every change into a status behind the two-person rule was made under an
approved request for that finding and that status, decided by somebody else than its requester,
and no request was used for two changes.

The recorded changes are all there were: they lead from the statuses at the start to the ones at
the end. -/
theorem two_person_rule (scope : TriageScope) (start : TriageDb) (operations : List TriageOp)
    (clean : start.audit = []) :
    Traces start.status? (triageRun scope start operations).audit
        (triageRun scope start operations).status? ∧
      (∀ change ∈ (triageRun scope start operations).audit, ∀ finding,
        (triageRun scope start operations).findings.find? change.finding = some finding →
        change.after ∈ scope.gated finding →
        change.Authorised (triageRun scope start operations)) ∧
      ((triageRun scope start operations).audit.filterMap StatusChange.approval).Nodup := by
  -- Nothing has been recorded at the start, so there is nothing to defend yet.
  have initially : Defended scope start start := by
    refine ⟨?_, ?_, ?_⟩ <;> rw [clean]
    · rfl
    · simp
    · exact List.nodup_nil
  have defended := initially.run operations
  refine ⟨defended.trail, ?_, defended.distinct⟩
  intro change recorded finding found gated
  -- A change that needed no second person did not enter a gated status.
  rcases defended.justified change recorded with ungated | authorised
  · exact absurd gated (ungated.2 finding found)
  · exact authorised

section Example

/-- The project of the finding. -/
def guardedProject : Project := ⟨1, "portal", 1, some 1, none⟩

/-- The one project has an id of its own. -/
theorem guardedProject_unique : ([guardedProject].map Project.id).Nodup := List.nodup_singleton _

/-- The latest scan belongs to the one project. -/
theorem guardedProject_latest : ∀ project ∈ [guardedProject], ∀ scan : ScanId, project.latestScanId = some scan →
    (1 : ProjectId) = project.id := by
  decide

/-- Project 1 of team 1, whose policy puts `not_affected` behind a second person. -/
def guardedScope : TriageScope where
  directory :=
    { path := fun _ => some [], isDemoGroup := fun _ => false, demoReadOnly := false
      groupCascadeEnabled := true }
  projects := ⟨[guardedProject], guardedProject_unique⟩
  scanProject := fun _ => 1
  latestScanOwn := guardedProject_latest
  externalId := fun _ => "CVE-2024-0001"
  purlWithVersion := fun _ => "pkg:npm/left-pad@1.3.0"
  statusesRequiringApproval := fun _ => [.notAffected]

/-- The tables with one finding under analysis. -/
def guardedDb : TriageDb where
  findings :=
    ⟨[{ id := 5, scanId := 1, componentVersionId := 1, vulnerabilityId := 1, status := .analyzing
        analysisState := none, analysisJustification := none, analysisSource := none
        vexOrigin := none, analystUserId := none, analyzedAt := none, updatedAt := 0 }], by decide⟩
  approvals := ⟨[], List.nodup_nil⟩
  audit := []

/-- An administrator of team 1. -/
def teamAdmin (id : UserId) : CurrentUser where
  id := id
  role := .groupAdmin
  teamIds := [1]
  teamRoles := fun team => if team = 1 then some .groupAdmin else none
  isSuperuser := false

/-- One administrator asks to close the finding, tries to decide alone, and another one agrees. -/
def secondOpinion : List TriageOp :=
  [.update ⟨teamAdmin 7, 5, .notAffected, some "never called", none, none, 1⟩,
    .request ⟨teamAdmin 7, 5, .notAffected, "never called", 3⟩,
    .decide 3 ⟨teamAdmin 7, true, none, 2⟩,
    .decide 3 ⟨teamAdmin 8, true, none, 3⟩]

/-- Only the other administrator's decision moves the finding. -/
theorem two_person_rule_second_opinion :
    (triageRun guardedScope guardedDb secondOpinion).audit =
        [⟨5, .analyzing, .notAffected, some 3⟩] ∧
      StatusChange.Authorised (triageRun guardedScope guardedDb secondOpinion)
        ⟨5, .analyzing, .notAffected, some 3⟩ := by
  have recorded : (triageRun guardedScope guardedDb secondOpinion).audit =
      [⟨5, .analyzing, .notAffected, some 3⟩] := by decide
  refine ⟨recorded, ?_⟩
  have rule := (two_person_rule guardedScope guardedDb secondOpinion rfl).2.1
  rw [recorded] at rule
  exact rule _ (by simp) _ rfl (by decide)

end Example

end Trusca
