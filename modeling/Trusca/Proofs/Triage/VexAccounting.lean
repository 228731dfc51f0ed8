import Mathlib.Data.List.Pairwise
import Trusca.Data.Outcome
import Trusca.Proofs.Triage.TwoPerson
import Trusca.Proofs.Triage.VexRoundTrip

/-! An import counts everything in a document once, moves findings only along hops that are allowed, and finds
nothing more to do when it is repeated. -/

namespace Trusca

open Store

variable {db : TriageDb}

section Hops

/-- A path of hops that the workflow allows and the actor may make. -/
inductive LegalChain (actor : CurrentUser) (team : GroupId) :
    FindingStatus → List FindingStatus → FindingStatus → Prop where
  | done (status : FindingStatus) : LegalChain actor team status [] status
  | hop {status next last : FindingStatus} {rest : List FindingStatus} (legal : next ∈ status.transitions)
      (allowed : next.requiresTeamAdmin = true → triageHasTeamAdmin actor team = true)
      (later : LegalChain actor team next rest last) : LegalChain actor team status (next :: rest) last

/-- What the audit trail records of a path. -/
def hopTrail (finding : FindingId) : FindingStatus → List FindingStatus → List StatusChange
  | _, [] => []
  | status, next :: rest => ⟨finding, status, next, none⟩ :: hopTrail finding next rest

/-- A transition that is allowed is one of those from the status, by someone who may make it. -/
theorem assertCanTransition_ok {actor : CurrentUser} {team : GroupId} {current target : FindingStatus}
    (allowed : assertCanTransition actor current target team = .ok ()) :
    target ∈ current.transitions ∧
      (target.requiresTeamAdmin = true → triageHasTeamAdmin actor team = true) := by
  unfold assertCanTransition at allowed
  split_ifs at allowed with illegal forbidden
  refine ⟨by simpa using illegal, fun needs => ?_⟩
  simpa [needs] using forbidden

/-- A path without a refused hop is a legal chain to its last status. -/
theorem legalChain_of_refusedHop {actor : CurrentUser} {team : GroupId} {path : List FindingStatus}
    {status : FindingStatus} (free : refusedHop actor team status path = none) :
    LegalChain actor team status path (path.getLastD status) := by
  -- Along the path; a refused hop would end it with a reason.
  induction path generalizing status with
  | nil => exact .done status
  | cons step rest ih =>
    rw [refusedHop] at free
    cases judged : assertCanTransition actor status step team with
    | ok done =>
      rw [judged] at free
      obtain ⟨legal, allowed⟩ := assertCanTransition_ok judged
      rw [List.getLastD_cons]
      exact .hop legal allowed (ih free)
    | error reason =>
      rw [judged] at free
      cases reason <;> cases free

/-- No move of the workflow leads from a status to itself. -/
theorem transitions_moves {status next : FindingStatus} (legal : next ∈ status.transitions) :
    status ≠ next := by
  rintro rfl
  cases status <;> simp [FindingStatus.transitions] at legal

/-- The hops of a legal chain are recorded one by one. -/
theorem applyHops_audit (now : Time) {actor : CurrentUser} {team : GroupId} {path : List FindingStatus}
    {finding : VulnerabilityFinding} {last : FindingStatus}
    (present : db.findings.find? finding.id = some finding)
    (chain : LegalChain actor team finding.status path last) :
    (applyHops now db finding path).1.audit = db.audit ++ hopTrail finding.id finding.status path := by
  induction path generalizing db finding with
  | nil => simp [applyHops, hopTrail]
  | cons step rest ih =>
    -- Each hop is a flush of the row the last one stored, and writes one audit row.
    cases chain with
    | hop legal allowed later =>
      have stored : (db.flush (finding.hop step now) none).findings.find? (finding.hop step now).id =
          some (finding.hop step now) :=
        TriageDb.flush_find?_self (finding.hop step now) present none
      have recorded := @flush_audit db finding (finding.hop step now) present none
      -- No edge of the table is a loop, so the flush sees a changed status.
      have moves : ¬ finding.status = (finding.hop step now).status := transitions_moves legal
      rw [if_neg moves] at recorded
      rw [applyHops, ih stored later, recorded, List.append_assoc]
      rfl

/-- A legal path ends at its target. -/
theorem legalPath_last {current target : FindingStatus} {path : List FindingStatus}
    (found : legalPath current target = some path) : path.getLastD current = target := by
  have all : ∀ current target : FindingStatus,
      (legalPath current target).all fun path => path.getLastD current = target := by
    intro current target
    cases current <;> cases target <;> rfl
  simpa [found] using all current target

/-- A finding is at its target when the path to it is empty. -/
theorem legalPath_nil {current target : FindingStatus} :
    legalPath current target = some [] ↔ current = target := by
  cases current <;> cases target <;> simp [legalPath] <;> decide

end Hops

section Keys

variable {scope : TriageScope}

/-- What tells the findings of a table apart, and which statement they answer to. -/
def findingKeys (db : TriageDb) : List (FindingId × ScanId × VulnerabilityId × ComponentVersionId) :=
  db.findings.rows.map fun finding =>
    (finding.id, finding.scanId, finding.vulnerabilityId, finding.componentVersionId)

/-- A finding is flushed with the key that it had. -/
structure SameKey (stored finding : VulnerabilityFinding) : Prop where
  id : finding.id = stored.id
  scan : finding.scanId = stored.scanId
  vulnerability : finding.vulnerabilityId = stored.vulnerabilityId
  component : finding.componentVersionId = stored.componentVersionId

/-- Findings of the same key as a third have the same key. -/
theorem SameKey.trans {first second third : VulnerabilityFinding} (one : SameKey first second)
    (two : SameKey second third) : SameKey first third :=
  ⟨two.id.trans one.id, two.scan.trans one.scan, two.vulnerability.trans one.vulnerability,
    two.component.trans one.component⟩

/-- A flush keeps the keys of all findings when it keeps those of its own. -/
theorem flush_keys {stored finding : VulnerabilityFinding} (same : SameKey stored finding)
    (present : db.findings.find? finding.id = some stored) (approval : Option TransitionApprovalId) :
    findingKeys (db.flush finding approval) = findingKeys db := by
  have rows : (db.flush finding approval).findings = db.findings.put finding := by
    rw [TriageDb.flush, present]
  rw [findingKeys, rows, Table.put, findingKeys, List.map_map]
  refine List.map_congr_left fun old listed => ?_
  rw [Function.comp_apply]
  split_ifs with own
  · -- The row that is replaced is the one that was read.
    obtain rfl : old = stored :=
      Table.eq_of_key listed (Table.mem_of_find? present) (own.trans same.id)
    rw [same.id, same.scan, same.vulnerability, same.component]
  · rfl

/-- The index of the findings only depends on their keys. -/
theorem loadFindingsIndex_keys (db : TriageDb) (scan : ScanId) : loadFindingsIndex scope db scan =
    ((findingKeys db).filter fun key => key.2.1 = scan).map fun key =>
      (scope.externalId key.2.2.1, scope.purlWithVersion key.2.2.2, key.1) := by
  rw [loadFindingsIndex, findingKeys, List.filter_map, List.map_map]
  rfl

/-- A finding whose key is listed is found, with that key. -/
theorem find?_of_key {start : TriageDb} {old : VulnerabilityFinding}
    (same : findingKeys db = findingKeys start) (listed : old ∈ start.findings.rows) :
    ∃ finding, db.findings.find? old.id = some finding ∧ SameKey old finding := by
  have key : (old.id, old.scanId, old.vulnerabilityId, old.componentVersionId) ∈ findingKeys db := by
    rw [same]
    exact List.mem_map_of_mem listed
  obtain ⟨finding, stored, equal⟩ := List.mem_map.mp key
  simp only [Prod.mk.injEq] at equal
  obtain ⟨id, scan, vulnerability, component⟩ := equal
  exact ⟨finding, id ▸ Table.find?_of_mem stored, id, scan, vulnerability, component⟩

/-- The finding that a vulnerability and a product match has both, and is still there. -/
theorem matching_found {start : TriageDb} {scan : ScanId} {vuln purl : PyText} {id : FindingId}
    (same : findingKeys db = findingKeys start)
    (matched : (loadFindingsIndex scope start scan).matching vuln purl = [id]) :
    ∃ finding, db.findings.find? id = some finding ∧
      PyText.of (scope.externalId finding.vulnerabilityId) = vuln ∧
      PyText.of (scope.purlWithVersion finding.componentVersionId) = purl := by
  have member : id ∈ (loadFindingsIndex scope start scan).matching vuln purl := by simp [matched]
  simp only [VexIndex.matching, loadFindingsIndex, List.mem_map, List.mem_filter, decide_eq_true_eq] at member
  obtain ⟨entry, ⟨⟨old, ⟨stored, -⟩, rfl⟩, names, product⟩, rfl⟩ := member
  obtain ⟨finding, found, key⟩ := find?_of_key same stored
  exact ⟨finding, found, key.vulnerability ▸ names, key.component ▸ product⟩

/-- Hops keep the key of the finding, and those of all others. -/
theorem applyHops_keys (now : Time) (path : List FindingStatus) {finding : VulnerabilityFinding}
    (present : db.findings.find? finding.id = some finding) :
    SameKey finding (applyHops now db finding path).2 ∧
      findingKeys (applyHops now db finding path).1 = findingKeys db := by
  -- A hop changes neither the key of its row nor any other row.
  induction path generalizing db finding with
  | nil => exact ⟨⟨rfl, rfl, rfl, rfl⟩, rfl⟩
  | cons step rest ih =>
    have hopped : SameKey finding (finding.hop step now) := ⟨rfl, rfl, rfl, rfl⟩
    have stored : (db.flush (finding.hop step now) none).findings.find? (finding.hop step now).id =
        some (finding.hop step now) :=
      TriageDb.flush_find?_self (finding.hop step now) present none
    obtain ⟨own, others⟩ := ih stored
    exact ⟨hopped.trans own, others.trans (flush_keys hopped present none)⟩

end Keys

section Units

/-- What a document is counted by: a product of a statement that can be matched, or another statement as a
whole, with the reason to skip it. -/
inductive VexUnit where
  | pair (statement : VexStatement) (vuln : PyText) (target : FindingStatus) (purl : PyText)
  | whole (statement : VexStatement) (reason : VexSkip)

/-- The statement of a unit. -/
def VexUnit.statement : VexUnit → VexStatement
  | .pair statement _ _ _ => statement
  | .whole statement _ => statement

/-- The product of a unit. -/
def VexUnit.product : VexUnit → Option PyText
  | .pair _ _ _ purl => some purl
  | .whole statement _ => statement.products.head?

/-- The units of a statement, in a project with a scan: its products, when it names a vulnerability, a status
that is known, and a product. -/
def VexStatement.units (statement : VexStatement) : List VexUnit :=
  match statement.vuln, statement.vexStatus, statement.target with
  | none, _, _ => [.whole statement .malformedStatement]
  | some _, none, _ => [.whole statement .malformedStatement]
  | some _, some _, none => [.whole statement .unmappedStatus]
  | some vuln, some _, some target =>
      if statement.products.isEmpty then [.whole statement .unknownComponent]
      else statement.products.map (.pair statement vuln target)

/-- The units of a document. -/
def documentUnits (project : Project) (statements : List VexStatement) : List VexUnit :=
  match project.latestScanId with
  | none => statements.map (.whole · .unknownVulnerability)
  | some _ => statements.flatMap VexStatement.units

/-- A unit is made of what its statement names. -/
def VexUnit.Named : VexUnit → Prop
  | .pair statement vuln target purl =>
      statement.vuln = some vuln ∧ statement.target = some target ∧ purl ∈ statement.products
  | .whole _ _ => True

/-- Every unit of a statement is named, and is that statement's. -/
theorem units_named {statement : VexStatement} {unit : VexUnit} (listed : unit ∈ statement.units) :
    unit.Named ∧ unit.statement = statement := by
  obtain ⟨vuln, products, vexStatus, target, justification⟩ := statement
  -- A statement that is incomplete is one unit, and it stands for itself.
  have whole {reason : VexSkip} {statement : VexStatement}
      (only : unit ∈ [VexUnit.whole statement reason]) : unit.Named ∧ unit.statement = statement := by
    cases List.mem_singleton.mp only
    exact ⟨trivial, rfl⟩
  -- Each missing part leaves the statement whole; a complete one has a unit for each product.
  cases vuln with
  | none => exact whole listed
  | some vuln =>
    cases vexStatus with
    | none => exact whole listed
    | some status =>
      cases target with
      | none => exact whole listed
      | some target =>
        cases products with
        | nil => exact whole listed
        | cons purl rest =>
          obtain ⟨product, within, rfl⟩ := List.mem_map.mp listed
          exact ⟨⟨rfl, rfl, within⟩, rfl⟩

/-- Import one unit. -/
def stepUnit (run : VexImport) (index : VexIndex) (state : TriageDb × VexSummary) :
    VexUnit → TriageDb × VexSummary
  | .pair statement vuln target purl => importProduct run index statement vuln target state purl
  | .whole statement reason =>
      (state.1, state.2.skip statement.vuln statement.products.head? reason)

/-- A statement is imported unit by unit. -/
theorem importStatement_units (run : VexImport) (index : VexIndex) (state : TriageDb × VexSummary)
    (statement : VexStatement) :
    importStatement run index state statement = statement.units.foldl (stepUnit run index) state := by
  obtain ⟨vuln, products, vexStatus, target, justification⟩ := statement
  -- The parts are asked for in this order, and the units are made in the same.
  cases vuln with
  | none => rfl
  | some vuln =>
    cases vexStatus with
    | none => rfl
    | some status =>
      cases target with
      | none => rfl
      | some target =>
        cases products with
        | nil => rfl
        | cons purl rest =>
          -- A complete statement goes through its products, which are its units.
          rw [VexStatement.units]
          simp only [List.isEmpty_cons, Bool.false_eq_true, if_false]
          rw [List.foldl_map]
          rfl

/-- The statements of a document are imported unit by unit. -/
theorem importStatements_units (run : VexImport) (index : VexIndex) (statements : List VexStatement)
    (state : TriageDb × VexSummary) :
    statements.foldl (importStatement run index) state =
      (statements.flatMap VexStatement.units).foldl (stepUnit run index) state := by
  induction statements generalizing state with
  | nil => rfl
  | cons statement rest ih =>
    rw [List.foldl_cons, ih, importStatement_units, List.flatMap_cons, List.foldl_append]

end Units

section Steps

variable {run : VexImport} {statement : VexStatement} {vuln purl : PyText} {target : FindingStatus}

/-- The finding of a vulnerability and a product is moved along a chain of hops to what a statement says of
it, and no other finding is. -/
structure Moved (run : VexImport) (id : FindingId) (vuln purl : PyText) (target : FindingStatus)
    (db after : TriageDb) : Prop where
  move : ∃ finding moved path, db.findings.find? id = some finding ∧
    PyText.of (run.scope.externalId finding.vulnerabilityId) = vuln ∧
    PyText.of (run.scope.purlWithVersion finding.componentVersionId) = purl ∧
    path ≠ [] ∧ LegalChain run.actor run.project.teamId finding.status path target ∧
    after.findings.find? id = some moved ∧ moved.status = target ∧
    after.audit = db.audit ++ hopTrail id finding.status path
  others : ∀ other, other ≠ id → after.findings.find? other = db.findings.find? other

/-- Whether a finding in a status is moved to a target. -/
def VexImport.applies (run : VexImport) (status target : FindingStatus) : Bool :=
  match legalPath status target with
  | some (step :: rest) =>
      ((step :: rest).filter (run.scope.statusesRequiringApproval run.project.id).contains).isEmpty &&
        (refusedHop run.actor run.project.teamId status (step :: rest)).isNone
  | _ => false

/-- A finding is skipped with one reason, or moved along the legal path. -/
theorem applyToFinding_cases (summary : VexSummary) {finding : VulnerabilityFinding}
    (present : db.findings.find? finding.id = some finding) :
    (run.applies finding.status target = false ∧ ∃ reason,
        applyToFinding run db summary statement target finding =
          (db, ⟨summary.matched + 1, summary.applied,
            summary.skipped ++ [(statement.vuln, statement.products.head?, reason)], summary.unwritable⟩)) ∨
      run.applies finding.status target = true ∧ ∃ after,
        applyToFinding run db summary statement target finding =
          (after, ⟨summary.matched + 1, summary.applied + 1, summary.skipped,
            summary.unwritable || run.unwritable statement⟩) ∧
        Moved run finding.id (PyText.of (run.scope.externalId finding.vulnerabilityId))
          (PyText.of (run.scope.purlWithVersion finding.componentVersionId)) target db after ∧
        findingKeys after = findingKeys db := by
  unfold applyToFinding VexImport.applies
  -- No path, no step, a gated hop or a refused one: nothing is written, and the reason is noted.
  cases legal : legalPath finding.status target with
  | none => exact .inl ⟨rfl, _, rfl⟩
  | some path =>
    cases path with
    | nil => exact .inl ⟨rfl, _, rfl⟩
    | cons step rest =>
      dsimp only
      generalize gated : (step :: rest).filter
        (run.scope.statusesRequiringApproval run.project.id).contains = required
      cases required with
      | cons first others => exact .inl ⟨rfl, _, rfl⟩
      | nil =>
        cases refused : refusedHop run.actor run.project.teamId finding.status (step :: rest) with
        | some reason => exact .inl ⟨rfl, _, rfl⟩
        | none =>
          -- Every hop is taken, and the stamp keeps what the last one left.
          have chain := legalChain_of_refusedHop refused
          rw [legalPath_last legal] at chain
          obtain ⟨own, status, found⟩ := applyHops_find? run.now (step :: rest) present
          obtain ⟨key, keys⟩ := applyHops_keys run.now (step :: rest) present
          have stored : (applyHops run.now db finding (step :: rest)).1.findings.find?
              (run.stamp statement (applyHops run.now db finding (step :: rest)).2).id =
                some (applyHops run.now db finding (step :: rest)).2 := by
            rw [found]
            exact if_pos own
          refine .inr ⟨rfl, _, rfl, ⟨⟨finding, run.stamp statement _, step :: rest, present, rfl, rfl,
            List.cons_ne_nil _ _, chain, ?_, status.trans (legalPath_last legal), ?_⟩, ?_⟩, ?_⟩
          · -- The row of the finding is the stamped one.
            rw [TriageDb.flush_find?_stored _ stored]
            exact if_pos own.symm
          · -- The stamp changes no status, so it adds no audit row to those of the hops.
            rw [flush_audit stored none]
            have still : (applyHops run.now db finding (step :: rest)).2.status =
                (run.stamp statement (applyHops run.now db finding (step :: rest)).2).status := rfl
            rw [if_pos still, List.append_nil, applyHops_audit run.now present chain]
          · -- Every other finding is as it was.
            intro id other
            rw [TriageDb.flush_find?_stored _ stored, if_neg, found, if_neg other]
            exact fun same => other (same.trans own)
          · -- The keys are those of before, through the hops and the stamp.
            have stamped : SameKey (applyHops run.now db finding (step :: rest)).2
                (run.stamp statement (applyHops run.now db finding (step :: rest)).2) :=
              ⟨rfl, rfl, rfl, rfl⟩
            exact (flush_keys stamped stored none).trans keys

/-- What importing one unit does: it skips the unit, or moves the finding of a pair. -/
inductive Outcome (run : VexImport) (unit : VexUnit) (state : TriageDb × VexSummary) :
    TriageDb × VexSummary → Prop where
  | skipped (matched : Nat) (product : Option PyText) (reason : VexSkip)
      (named : product = unit.product ∨ product = unit.statement.products.head?) :
      Outcome run unit state (state.1, ⟨matched, state.2.applied,
        state.2.skipped ++ [(unit.statement.vuln, product, reason)], state.2.unwritable⟩)
  | applied (matched : Nat) (id : FindingId) (statement : VexStatement) (vuln : PyText)
      (target : FindingStatus) (purl : PyText) (pair : unit = .pair statement vuln target purl)
      (after : TriageDb) (moved : Moved run id vuln purl target state.1 after) :
      Outcome run unit state (after, ⟨matched, state.2.applied + 1, state.2.skipped,
        state.2.unwritable || run.unwritable statement⟩)

/-- Whether there is nothing to do for a unit. -/
def UnitSettled (run : VexImport) (index : VexIndex) (db : TriageDb) : VexUnit → Prop
  | .pair _ vuln target purl => ∀ id finding, index.matching vuln purl = [id] →
      db.findings.find? id = some finding → run.applies finding.status target = false
  | .whole _ _ => True

/-- A finding at its target is not moved there. -/
theorem applies_self (run : VexImport) (target : FindingStatus) : run.applies target target = false := by
  rw [VexImport.applies, legalPath_nil.mpr rfl]

variable {start : TriageDb} {scan : ScanId}

/-- A unit is skipped and the findings stay as they are, or it was not settled and its finding is moved. -/
theorem stepUnit_cases (state : TriageDb × VexSummary) {unit : VexUnit} (named : unit.Named)
    (same : findingKeys state.1 = findingKeys start) :
    (∃ matched product reason, (product = unit.product ∨ product = unit.statement.products.head?) ∧
        stepUnit run (loadFindingsIndex run.scope start scan) state unit =
          (state.1, ⟨matched, state.2.applied,
            state.2.skipped ++ [(unit.statement.vuln, product, reason)], state.2.unwritable⟩) ∧
        UnitSettled run (loadFindingsIndex run.scope start scan) state.1 unit) ∨
      ∃ matched after id statement vuln target purl, unit = .pair statement vuln target purl ∧
        stepUnit run (loadFindingsIndex run.scope start scan) state unit =
          (after, ⟨matched, state.2.applied + 1, state.2.skipped,
            state.2.unwritable || run.unwritable statement⟩) ∧
        (loadFindingsIndex run.scope start scan).matching vuln purl = [id] ∧
        Moved run id vuln purl target state.1 after ∧ findingKeys after = findingKeys start ∧
        ¬ UnitSettled run (loadFindingsIndex run.scope start scan) state.1 unit := by
  -- A whole statement is only counted as skipped.
  cases unit with
  | whole statement reason =>
    exact .inl ⟨state.2.matched, statement.products.head?, reason, .inl rfl, rfl, trivial⟩
  | pair statement vuln target purl =>
    obtain ⟨names, -, -⟩ := named
    -- A pair is matched with the findings: none, several, or exactly one.
    cases matched : (loadFindingsIndex run.scope start scan).matching vuln purl with
    | nil =>
      refine .inl ⟨state.2.matched, some purl,
        if (loadFindingsIndex run.scope start scan).any fun entry => PyText.of entry.1 = vuln then .unknownComponent
          else .unknownVulnerability, .inl rfl, ?_, fun id _ alone => by cases matched.symm.trans alone⟩
      rw [stepUnit, importProduct, matched, VexUnit.statement, names]
      dsimp only
      split_ifs <;> rfl
    | cons id more =>
      cases more with
      | cons second more =>
        refine .inl ⟨state.2.matched, some purl, .ambiguousMatch, .inl rfl, ?_,
          fun id _ alone => by cases matched.symm.trans alone⟩
        rw [stepUnit, importProduct, matched, VexUnit.statement, names]
        rfl
      | nil =>
        -- One finding is there, and the index has kept its names.
        obtain ⟨finding, found, vulnerability, component⟩ := matching_found same matched
        obtain rfl : finding.id = id := Table.key_of_find? found
        have imports : stepUnit run (loadFindingsIndex run.scope start scan) state
            (.pair statement vuln target purl) =
              applyToFinding run state.1 state.2 statement target finding := by
          simp [stepUnit, importProduct, matched, found]
        rw [imports]
        -- It is left alone, or it is moved to the state the statement asks for.
        obtain ⟨idle, reason, skips⟩ | ⟨busy, after, moves, moved, keys⟩ :=
          @applyToFinding_cases state.1 run statement target state.2 finding found
        · refine .inl ⟨_, _, reason, .inr rfl, skips, fun id other alone present => ?_⟩
          obtain rfl : finding.id = id := by simpa using matched.symm.trans alone
          rw [found] at present
          cases present
          exact idle
        · rw [vulnerability, component] at moved
          -- Moved means that the unit was not settled before.
          refine .inr ⟨_, after, _, _, _, _, _, rfl, moves, matched, moved, keys.trans same,
            fun settled => ?_⟩
          rw [settled finding.id finding matched found] at busy
          cases busy

/-- Every unit has one outcome. -/
theorem stepUnit_outcome (state : TriageDb × VexSummary) {unit : VexUnit} (named : unit.Named)
    (same : findingKeys state.1 = findingKeys start) :
    Outcome run unit state (stepUnit run (loadFindingsIndex run.scope start scan) state unit) ∧
      findingKeys (stepUnit run (loadFindingsIndex run.scope start scan) state unit).1 =
        findingKeys start := by
  obtain ⟨matched, product, reason, about, skips, -⟩ |
    ⟨matched, after, id, statement, vuln, target, purl, pair, moves, -, moved, keys, -⟩ :=
    @stepUnit_cases run start scan state unit named same
  · rw [skips]
    exact ⟨.skipped matched product reason about, same⟩
  · rw [moves]
    exact ⟨.applied matched id statement vuln target purl pair after moved, keys⟩

/-- A settled unit changes nothing and is not applied. -/
theorem stepUnit_settled (state : TriageDb × VexSummary) {unit : VexUnit} (named : unit.Named)
    (same : findingKeys state.1 = findingKeys start)
    (settled : UnitSettled run (loadFindingsIndex run.scope start scan) state.1 unit) :
    (stepUnit run (loadFindingsIndex run.scope start scan) state unit).1 = state.1 ∧
      (stepUnit run (loadFindingsIndex run.scope start scan) state unit).2.applied = state.2.applied ∧
      (stepUnit run (loadFindingsIndex run.scope start scan) state unit).2.unwritable = state.2.unwritable := by
  obtain ⟨matched, product, reason, -, skips, -⟩ |
    ⟨_, _, _, _, _, _, _, -, -, -, -, -, unsettled⟩ := @stepUnit_cases run start scan state unit named same
  · rw [skips]
    exact ⟨rfl, rfl, rfl⟩
  · exact absurd settled unsettled

/-- Two units that say the same of a vulnerability and a product, if they are about the same. -/
def Agrees : VexUnit → VexUnit → Prop
  | .pair _ vuln target purl, .pair _ other status product => vuln = other → purl = product → target = status
  | _, _ => True

/-- Importing a unit settles it, and leaves settled what agrees with it. -/
theorem stepUnit_settles (state : TriageDb × VexSummary) {unit other : VexUnit} (named : unit.Named)
    (same : findingKeys state.1 = findingKeys start) (agrees : Agrees unit other)
    (before : other = unit ∨ UnitSettled run (loadFindingsIndex run.scope start scan) state.1 other) :
    UnitSettled run (loadFindingsIndex run.scope start scan)
      (stepUnit run (loadFindingsIndex run.scope start scan) state unit).1 other := by
  obtain ⟨matched, product, reason, -, skips, settled⟩ |
    ⟨matched, after, id, statement, vuln, target, purl, rfl, moves, alone, moved, -, -⟩ :=
    @stepUnit_cases run start scan state unit named same
  · -- A skipped unit leaves the store, so what was settled stays so.
    rw [skips]
    exact before.elim (fun equal => equal ▸ settled) fun earlier => earlier
  · -- A unit that moves a finding settles its own pair.
    rw [moves]
    obtain ⟨finding, last, path, found, vulnerability, component, -, -, arrived, status, -⟩ := moved.move
    cases other with
    | whole => trivial
    | pair statement' vuln' target' purl' =>
      intro id' finding' alone' present
      by_cases own : id' = id
      · -- The finding that was moved answers to one vulnerability and one product.
        subst own
        obtain ⟨again, found', vulnerability', component'⟩ := matching_found same alone'
        rw [found] at found'
        cases found'
        rw [agrees (vulnerability.symm.trans vulnerability') (component.symm.trans component')] at status
        rw [arrived] at present
        cases present
        rw [status]
        exact applies_self run target'
      · -- A pair settled before is about another finding, which the move leaves alone.
        obtain equal | earlier := before
        · cases equal
          exact absurd (by simpa using alone'.symm.trans alone) own
        · rw [moved.others id' own] at present
          exact earlier id' finding' alone' present

end Steps

section Runs

variable {run : VexImport} {start : TriageDb} {scan : ScanId}

/-- Every unit has one outcome, in the order of the document. -/
inductive Accounts (run : VexImport) :
    List VexUnit → TriageDb × VexSummary → TriageDb × VexSummary → Prop where
  | done (state : TriageDb × VexSummary) : Accounts run [] state state
  | unit {unit : VexUnit} {units : List VexUnit} {state next last : TriageDb × VexSummary}
      (outcome : Outcome run unit state next) (later : Accounts run units next last) :
      Accounts run (unit :: units) state last

/-- Every unit is counted once. -/
theorem Accounts.counted {units : List VexUnit} {state last : TriageDb × VexSummary}
    (accounts : Accounts run units state last) :
    last.2.applied + last.2.skipped.length =
      state.2.applied + state.2.skipped.length + units.length := by
  induction accounts with
  | done => rfl
  | unit outcome later ih =>
    rw [ih, List.length_cons]
    cases outcome <;> simp <;> omega

/-- A run accounts for its units, and keeps the keys of the findings. -/
theorem foldl_accounts (units : List VexUnit) (state : TriageDb × VexSummary)
    (named : ∀ unit ∈ units, unit.Named) (same : findingKeys state.1 = findingKeys start) :
    Accounts run units state
        (units.foldl (stepUnit run (loadFindingsIndex run.scope start scan)) state) ∧
      findingKeys (units.foldl (stepUnit run (loadFindingsIndex run.scope start scan)) state).1 =
        findingKeys start := by
  induction units generalizing state with
  | nil => exact ⟨.done state, same⟩
  | cons unit rest ih =>
    obtain ⟨own, others⟩ := List.forall_mem_cons.mp named
    obtain ⟨outcome, keys⟩ := @stepUnit_outcome run start scan state unit own same
    obtain ⟨later, last⟩ := ih _ others keys
    exact ⟨.unit outcome later, last⟩

/-- A run settles its units when they agree with one another. -/
theorem foldl_settles (units others : List VexUnit) (state : TriageDb × VexSummary)
    (named : ∀ unit ∈ units, unit.Named) (same : findingKeys state.1 = findingKeys start)
    (agree : ∀ unit ∈ units, ∀ other ∈ others, Agrees unit other)
    (before : ∀ other ∈ others, other ∈ units ∨
      UnitSettled run (loadFindingsIndex run.scope start scan) state.1 other) :
    ∀ other ∈ others, UnitSettled run (loadFindingsIndex run.scope start scan)
      (units.foldl (stepUnit run (loadFindingsIndex run.scope start scan)) state).1 other := by
  -- Along the units; the ones still to come are what `before` names.
  induction units generalizing state with
  | nil => exact fun other listed => (before other listed).resolve_left List.not_mem_nil
  | cons unit rest ih =>
    obtain ⟨own, later⟩ := List.forall_mem_cons.mp named
    obtain ⟨agrees, agree⟩ := List.forall_mem_cons.mp agree
    obtain ⟨-, keys⟩ := @stepUnit_outcome run start scan state unit own same
    -- The unit itself is settled now, and no other unit that agrees with it is unsettled.
    refine ih _ later keys agree fun other listed => ?_
    have settles (now : other = unit ∨
        UnitSettled run (loadFindingsIndex run.scope start scan) state.1 other) :=
      @stepUnit_settles run start scan state unit other own same (agrees other listed) now
    -- A unit is still to come, or it is settled and stays so.
    obtain member | settled := before other listed
    · obtain here | after := List.mem_cons.mp member
      · exact .inr (settles (.inl here))
      · exact .inl after
    · exact .inr (settles (.inr settled))

/-- A run over settled units changes no finding and applies nothing. -/
theorem foldl_settled (units : List VexUnit) (state : TriageDb × VexSummary)
    (named : ∀ unit ∈ units, unit.Named) (same : findingKeys state.1 = findingKeys start)
    (settled : ∀ unit ∈ units,
      UnitSettled run (loadFindingsIndex run.scope start scan) state.1 unit) :
    (units.foldl (stepUnit run (loadFindingsIndex run.scope start scan)) state).1 = state.1 ∧
      (units.foldl (stepUnit run (loadFindingsIndex run.scope start scan)) state).2.applied =
        state.2.applied ∧
      (units.foldl (stepUnit run (loadFindingsIndex run.scope start scan)) state).2.unwritable =
        state.2.unwritable := by
  -- A settled unit leaves the store, so the next one is settled as well.
  induction units generalizing state with
  | nil => exact ⟨rfl, rfl, rfl⟩
  | cons unit rest ih =>
    obtain ⟨own, later⟩ := List.forall_mem_cons.mp named
    obtain ⟨here, rests⟩ := List.forall_mem_cons.mp settled
    obtain ⟨unmoved, uncounted, unmarked⟩ := @stepUnit_settled run start scan state unit own same here
    obtain ⟨kept, count, marks⟩ := ih (stepUnit run (loadFindingsIndex run.scope start scan) state unit) later
      (by rw [unmoved, same]) (by rwa [unmoved])
    exact ⟨kept.trans unmoved, count.trans uncounted, marks.trans unmarked⟩

end Runs

section Imports

variable {scope : TriageScope} {project : Project} {call : VexImportCall}

/-- Two statements that are not about one vulnerability and one product. -/
def Apart (first second : VexStatement) : Prop :=
  ∀ vuln, first.vuln = some vuln → second.vuln = some vuln → ∀ purl ∈ first.products, purl ∉ second.products

instance : Std.Symm Apart where
  symm _ _ apart vuln names names' purl within within' := apart vuln names' names purl within' within

/-- At most one statement is about each vulnerability and product. -/
def OneStatementEach (statements : List VexStatement) : Prop := statements.Pairwise Apart

/-- What a call makes of a document. -/
def VexImportCall.run (call : VexImportCall) (scope : TriageScope) (project : Project)
    (origin : List (String × Option PyText)) : VexImport where
  scope := scope
  actor := call.actor
  project := project
  origin := origin
  now := call.now
  nowText := call.nowText

/-- Every unit of a document is named. -/
theorem documentUnits_named (project : Project) (statements : List VexStatement) :
    ∀ unit ∈ documentUnits project statements, unit.Named := by
  intro unit listed
  unfold documentUnits at listed
  split at listed
  · obtain ⟨statement, -, rfl⟩ := List.mem_map.mp listed
    trivial
  · obtain ⟨statement, -, own⟩ := List.mem_flatMap.mp listed
    exact (units_named own).1

/-- Statements about different vulnerabilities and products make units that agree. -/
theorem units_agree {statements : List VexStatement} (each : OneStatementEach statements) :
    ∀ unit ∈ statements.flatMap VexStatement.units,
      ∀ other ∈ statements.flatMap VexStatement.units, Agrees unit other := by
  intro unit listed other listed'
  obtain ⟨first, member, own⟩ := List.mem_flatMap.mp listed
  obtain ⟨second, member', own'⟩ := List.mem_flatMap.mp listed'
  cases unit with
  | whole => trivial
  | pair statement vuln target purl =>
    cases other with
    | whole => trivial
    | pair statement' vuln' target' purl' =>
      rintro rfl rfl
      obtain ⟨⟨names, known, within⟩, rfl⟩ := units_named own
      obtain ⟨⟨names', known', within'⟩, rfl⟩ := units_named own'
      by_cases same : statement = statement'
      · subst same
        exact Option.some.inj (known.symm.trans known')
      · -- Two statements would be about this vulnerability and this product.
        exact absurd within' (each.forall member member' same vuln names names' purl within)

/-- Nothing can fail to be written where all statements are skipped as a whole. -/
theorem foldl_whole_unwritable (run : VexImport) (index : VexIndex) (statements : List VexStatement)
    (state : TriageDb × VexSummary) :
    (statements.map (.whole · .unknownVulnerability)).foldl (stepUnit run index) state =
      (state.1, statements.foldl (fun summary statement =>
        summary.skip statement.vuln statement.products.head? .unknownVulnerability) state.2) ∧
    ((statements.map (.whole · .unknownVulnerability)).foldl (stepUnit run index) state).2.unwritable =
      state.2.unwritable := by
  induction statements generalizing state with
  | nil => exact ⟨rfl, rfl⟩
  | cons statement rest ih => exact ih _

/-- An import that is accepted parses its document, runs over its units, and can write what it assigned. -/
theorem importVex_ok {after : TriageDb} {summary : VexSummary} :
    importVex scope db project call = .ok (after, summary) ↔
      ∃ doc parsed, decodeJson call.limits call.upload = .ok doc ∧
        detectAndParse call.limits doc = .ok parsed ∧ summary.unwritable = false ∧
        (after, summary) = (documentUnits project parsed.statements).foldl
          (stepUnit (call.run scope project parsed.origin)
            (loadFindingsIndex scope db (project.latestScanId.getD 0))) (db, .start) := by
  unfold importVex
  rw [bind_ok]
  -- Decoding and parsing come first, and an unwritable summary fails the commit.
  refine exists_congr fun doc => ?_
  rw [bind_ok, ← exists_and_left]
  refine exists_congr fun parsed => and_congr_right fun _ => and_congr_right fun _ => ?_
  unfold documentUnits
  -- Without a scan every statement is skipped whole, and nothing has to be written.
  cases latest : project.latestScanId with
  | none =>
    obtain ⟨whole, marks⟩ := foldl_whole_unwritable (call.run scope project parsed.origin)
      (loadFindingsIndex scope db 0) parsed.statements (db, .start)
    rw [whole] at marks
    simp only [pure, Except.pure, Except.ok.injEq, Option.getD_none]
    rw [whole, eq_comm]
    refine ⟨fun same => ⟨?_, same⟩, And.right⟩
    rw [(Prod.mk.inj same).2]
    exact marks
  -- With one the statements go through their units.
  | some scan =>
    dsimp only
    rw [commitImport_ok, Option.getD_some, ← importStatements_units]
    constructor
    · rintro ⟨written, same⟩
      rw [same] at written
      exact ⟨written, same.symm⟩
    · rintro ⟨written, same⟩
      exact ⟨(congrArg (fun outcome => outcome.2.unwritable) same).symm.trans written, same.symm⟩

/-- A parsed document in whose statuses, rationales and provenance no half of a pair stands alone. -/
structure VexDocument.Whole (parsed : VexDocument) : Prop where
  statements : ∀ statement ∈ parsed.statements, WholeStatement statement
  origin : ∀ field ∈ parsed.origin, ∀ text ∈ field.2, WholeText text

/-- What is wrong with an import shows while its document is parsed, when all its texts can be written. -/
theorem importVex_whole {doc : PyJson Rat} {parsed : VexDocument}
    (decoded : decodeJson call.limits call.upload = .ok doc)
    (detected : detectAndParse call.limits doc = .ok parsed) (whole : parsed.Whole) :
    ∃ after summary, importVex scope db project call = .ok (after, summary) := by
  refine ⟨_, _, importVex_ok.mpr ⟨doc, parsed, decoded, detected, ?_, rfl⟩⟩
  unfold documentUnits
  -- No succeeded scan: every statement is counted as unmatched, and none is written.
  cases project.latestScanId with
  | none => exact (foldl_whole_unwritable _ _ parsed.statements (db, .start)).2
  | some scan =>
    dsimp only
    rw [← importStatements_units]
    exact importStatements_writable _ _ (fun statement listed =>
      unwritable_of_whole (whole.statements statement listed) whole.origin) rfl

/-- An import that goes through counts every unit of its document once, as skipped with the findings as they were
or as one finding moved along a legal chain; and where at most one statement is about each vulnerability and
product, importing the document again is accepted, applies nothing and changes no finding. Every document without
half of a pair goes through. -/
theorem importVex_accounts {doc : PyJson Rat} {parsed : VexDocument}
    (decoded : decodeJson call.limits call.upload = .ok doc)
    (detected : detectAndParse call.limits doc = .ok parsed) :
    (∀ after summary, importVex scope db project call = .ok (after, summary) →
      Accounts (call.run scope project parsed.origin) (documentUnits project parsed.statements)
        (db, .start) (after, summary) ∧
      summary.applied + summary.skipped.length = (documentUnits project parsed.statements).length ∧
      (OneStatementEach parsed.statements → ∀ now nowText, ∃ again,
        importVex scope after project { call with now := now, nowText := nowText } = .ok (after, again) ∧
          again.applied = 0)) ∧
    (parsed.Whole → ∃ after summary, importVex scope db project call = .ok (after, summary)) := by
  refine ⟨fun after summary imported => ?_, importVex_whole decoded detected⟩
  obtain ⟨doc', parsed', decoded', detected', -, ran⟩ := importVex_ok.mp imported
  cases decoded.symm.trans decoded'
  cases detected.symm.trans detected'
  have named := documentUnits_named project parsed.statements
  -- Unit by unit, every statement is counted once, and the keys stay.
  obtain ⟨accounts, keys⟩ := @foldl_accounts (call.run scope project parsed.origin) db
    (project.latestScanId.getD 0) (documentUnits project parsed.statements) (db, .start) named rfl
  change Accounts _ _ _ (List.foldl (stepUnit _ (loadFindingsIndex scope db _)) _ _) at accounts
  change findingKeys (List.foldl (stepUnit _ (loadFindingsIndex scope db _)) _ _).1 = _ at keys
  rw [← ran] at accounts keys
  have counted := accounts.counted
  simp only [VexSummary.start, List.length_nil, Nat.add_zero, Nat.zero_add] at counted
  refine ⟨accounts, counted, fun each now nowText => ?_⟩
  -- After the import each unit finds the status it asks for.
  have settled : ∀ unit ∈ documentUnits project parsed.statements,
      UnitSettled (call.run scope project parsed.origin)
        (loadFindingsIndex scope db (project.latestScanId.getD 0)) after unit := by
    -- Units about one pair agree, since the document names each pair with one target.
    have agree : ∀ unit ∈ documentUnits project parsed.statements,
        ∀ other ∈ documentUnits project parsed.statements, Agrees unit other := by
      unfold documentUnits
      split
      · intro unit listed
        obtain ⟨statement, -, rfl⟩ := List.mem_map.mp listed
        exact fun _ _ => trivial
      · exact units_agree each
    have settles := @foldl_settles (call.run scope project parsed.origin) db (project.latestScanId.getD 0)
      (documentUnits project parsed.statements) (documentUnits project parsed.statements)
      (db, .start) named rfl agree fun other listed => .inl listed
    change ∀ other ∈ _, UnitSettled _ (loadFindingsIndex scope db _)
      (List.foldl (stepUnit _ (loadFindingsIndex scope db _)) _ _).1 other at settles
    rwa [← ran] at settles
  -- The index of the second import is that of the first one.
  obtain ⟨kept, count, marks⟩ := @foldl_settled
    (VexImportCall.run { call with now := now, nowText := nowText } scope project parsed.origin) after
    (project.latestScanId.getD 0) (documentUnits project parsed.statements) (after, .start) named rfl
    (by
      change ∀ unit ∈ _, UnitSettled _ (loadFindingsIndex scope after _) after unit
      rw [loadFindingsIndex_keys, keys, ← loadFindingsIndex_keys]
      exact settled)
  -- So the second import moves nothing, and says so in its summary.
  generalize again : List.foldl _ _ _ = second at kept count marks
  obtain ⟨last, summary⟩ := second
  obtain rfl : last = after := kept
  exact ⟨summary, importVex_ok.mpr ⟨doc, parsed, decoded, detected, marks, again.symm⟩, count⟩

end Imports

section Unmapped

/-- A call that imports statements about one vulnerability. -/
def importOf (statements : List Json) : VexImportCall where
  actor := ⟨1, .groupAdmin, [1], fun _ => some .groupAdmin, false⟩
  project := 1
  limits := ⟨1000000, 1000⟩
  upload := ⟨1000, some (Json.obj [("statements", .arr statements)]).decoded⟩
  now := 2
  nowText := "1970-01-01T00:00:02+00:00"

/-- A statement about two products. -/
def twoProducts (status : String) : Json :=
  .obj [("vulnerability", .str "CVE-1"), ("status", .str status),
    ("products", .arr [.str "pkg:npm/left-pad@1.3.0", .str "pkg:npm/right-pad@1.0.0"])]

/-- A document without provenance. -/
def unsigned : List (String × Option PyText) :=
  [("format", some (PyText.of "openvex")), ("id", none), ("author", none), ("timestamp", none)]

/-- The document of two products is parsed into one statement. -/
theorem detectAndParse_twoProducts (status : String) :
    detectAndParse ⟨1000000, 1000⟩ (Json.obj [("statements", .arr [twoProducts status])]).decoded =
      .ok ⟨.openvex, [parseOpenvexStatement (twoProducts status).decoded], unsigned⟩ := by
  simp [detectAndParse, parseOpenvex, Json.decoded, Json.decodedItems_eq, Json.decodedFields_eq, PyJson.get?,
    PyJson.isText, cleanProvenance, unsigned]

/-- The parsed document has no half of a pair. -/
theorem whole_twoProducts (status : String) :
    VexDocument.Whole ⟨.openvex, [parseOpenvexStatement (twoProducts status).decoded], unsigned⟩ := by
  constructor
  · intro statement listed
    obtain rfl := List.mem_singleton.mp listed
    exact parseOpenvexStatement_whole (twoProducts status)
  · simp only [unsigned, List.forall_mem_cons, List.not_mem_nil, false_imp_iff, implies_true, and_true,
      Option.not_mem_none]
    exact fun text same => Option.some.inj same ▸ whole_of "openvex"

/-- The import of that statement runs over its units. -/
theorem importVex_twoProducts (status : String) :
    importVex lossyScope lossyDb scannedProject (importOf [twoProducts status]) =
      .ok ((parseOpenvexStatement (twoProducts status).decoded).units.foldl
        (stepUnit ((importOf [twoProducts status]).run lossyScope scannedProject unsigned)
          (loadFindingsIndex lossyScope lossyDb 1)) (lossyDb, .start)) := by
  obtain ⟨after, summary, imported⟩ := @importVex_whole lossyDb lossyScope scannedProject
    (importOf [twoProducts status]) _ _ rfl (detectAndParse_twoProducts status) (whole_twoProducts status)
  obtain ⟨doc, parsed, decoded, detected, -, ran⟩ := importVex_ok.mp imported
  cases decoded
  cases detected.symm.trans (detectAndParse_twoProducts status)
  rw [imported, ran]
  simp [documentUnits, scannedProject]

/-- A statement with an unknown status is counted once, whatever its products. -/
theorem importVex_unmapped :
    ¬ ∀ (scope : TriageScope) (db : TriageDb) (project : Project) (call : VexImportCall) (doc : PyJson Rat)
        (parsed : VexDocument) (after : TriageDb) (summary : VexSummary),
        decodeJson call.limits call.upload = .ok doc → detectAndParse call.limits doc = .ok parsed →
        importVex scope db project call = .ok (after, summary) →
        summary.applied + summary.skipped.length =
          (parsed.statements.flatMap VexStatement.products).length := by
  intro counted
  have wrong := counted _ _ _ _ _ _ _ _ rfl (detectAndParse_twoProducts "unknown")
    (importVex_twoProducts "unknown")
  exact absurd wrong (by decide)

/-- A statement about two products of which one is in the scan: one is applied, one skipped, and neither is
applied again. -/
theorem importVex_accounts_twoProducts :
    ∃ after summary, importVex lossyScope lossyDb scannedProject (importOf [twoProducts "not_affected"]) =
        .ok (after, summary) ∧ summary.applied + summary.skipped.length = 2 ∧ summary.applied = 1 ∧
      ∃ again, importVex lossyScope after scannedProject (importOf [twoProducts "not_affected"]) =
          .ok (after, again) ∧ again.applied = 0 := by
  have imported := importVex_twoProducts "not_affected"
  have accounts := @importVex_accounts lossyDb lossyScope scannedProject (importOf [twoProducts "not_affected"])
    _ _ rfl (detectAndParse_twoProducts "not_affected")
  obtain ⟨-, -, again⟩ := accounts.1 _ _ imported
  exact ⟨_, _, imported, by decide, by decide,
    again (List.pairwise_singleton _ _) 2 "1970-01-01T00:00:02+00:00"⟩

end Unmapped

end Trusca
