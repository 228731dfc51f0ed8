import Trusca.Proofs.Triage.Update

/-! The bulk status update row by row, and where it parts from the single one. -/

namespace Trusca

open Store

variable {scope : TriageScope} {db : TriageDb} {call : BulkUpdate} {project : Project}

/-- What a bulk row makes of the finding it names. -/
def bulkFinding (scope : TriageScope) (call : BulkUpdate) (project : Project)
    (finding : VulnerabilityFinding) : VulnerabilityFinding :=
  if scope.scanProject finding.scanId = call.project ∧ finding.status ≠ call.target ∧
      assertCanTransition call.actor finding.status call.target project.teamId = .ok () then
    finding.transition call.target call.justification call.actor.id call.now
  else finding

/-- A bulk row replaces its own finding and leaves every other one alone. -/
theorem bulkRow_find? (scope : TriageScope) (call : BulkUpdate) (project : Project) (db : TriageDb)
    (id wanted : FindingId) :
    (bulkRow scope call project db id).1.findings.find? wanted =
      if wanted = id then (db.findings.find? wanted).map (bulkFinding scope call project)
      else db.findings.find? wanted := by
  cases stored : db.findings.find? id with
  | none =>
    -- There is no such finding before or after.
    simp only [bulkRow, stored]
    split
    · rename_i same
      simp [same, stored]
    · rfl
  | some finding =>
    have key : finding.id = id := Table.key_of_find? stored
    -- A row that changes nothing agrees with the specification on both sides of the split.
    have unchanged : bulkFinding scope call project finding = finding →
        db.findings.find? wanted =
          if wanted = id then (db.findings.find? wanted).map (bulkFinding scope call project)
          else db.findings.find? wanted := by
      intro kept
      split
      · rename_i same
        simp [same, stored, kept]
      · rfl
    simp only [bulkRow, stored]
    -- The row goes through its guards one after the other.
    split
    · rename_i foreign
      exact unchanged (by simp [bulkFinding, foreign])
    · rename_i own
      split
      · rename_i already
        exact unchanged (by simp [bulkFinding, already])
      · rename_i unfinished
        split
        · rename_i refused
          exact unchanged (by simp [bulkFinding, refused])
        · rename_i refused
          exact unchanged (by simp [bulkFinding, refused])
        · -- Past the guards the row is flushed, under its own key.
          rename_i allowed
          rw [TriageDb.flush_find?, VulnerabilityFinding.transition_id, key]
          split
          · rename_i same
            rw [same, stored]
            simp [bulkFinding, allowed, unfinished, not_not.mp own]
          · rfl

/-- A bulk call applies its row to each finding it names once, and to no other finding. -/
theorem bulkRows_find? (scope : TriageScope) (call : BulkUpdate) (project : Project)
    (wanted : FindingId) {ids : List FindingId} (unique : ids.Nodup) (db : TriageDb) :
    (bulkRows scope call project db ids).1.findings.find? wanted =
      if wanted ∈ ids then (db.findings.find? wanted).map (bulkFinding scope call project)
      else db.findings.find? wanted := by
  induction ids generalizing db with
  | nil => simp [bulkRows]
  | cons id rest ih =>
    -- The id is not named again, so the rest of the call leaves its finding as this row left it.
    obtain ⟨fresh, unique⟩ := List.nodup_cons.mp unique
    simp only [bulkRows]
    rw [ih unique, bulkRow_find?]
    by_cases same : wanted = id
    · subst same
      simp [fresh]
    · simp [same]

/-- The deduplicated ids are distinct, and the same ids. -/
theorem firstOccurrences_spec (ids : List FindingId) :
    (firstOccurrences ids).Nodup ∧ ∀ id, id ∈ firstOccurrences ids ↔ id ∈ ids := by
  -- The accumulator stays duplicate-free and collects exactly the ids already seen.
  have grows : ∀ (rest seen : List FindingId), seen.Nodup →
      (rest.foldl (fun unique id => if unique.contains id then unique else unique ++ [id]) seen).Nodup ∧
        ∀ id, id ∈ rest.foldl
          (fun unique id => if unique.contains id then unique else unique ++ [id]) seen ↔
          id ∈ seen ∨ id ∈ rest := by
    intro rest
    induction rest with
    | nil => simp
    | cons first rest ih =>
      intro seen unique
      simp only [List.foldl_cons]
      by_cases known : first ∈ seen
      · -- A repeated id adds nothing.
        have same : seen.contains first = true := by simpa using known
        rw [if_pos same]
        obtain ⟨nodup, members⟩ := ih seen unique
        refine ⟨nodup, fun id => ?_⟩
        rw [members, List.mem_cons]
        constructor
        · rintro (old | later)
          · exact .inl old
          · exact .inr (.inr later)
        · rintro (old | rfl | later)
          · exact .inl old
          · exact .inl known
          · exact .inr later
      · -- A new id goes to the end.
        have different : ¬seen.contains first = true := by simpa using known
        rw [if_neg different]
        have extended : (seen ++ [first]).Nodup := by
          rw [List.nodup_append]
          refine ⟨unique, by simp, fun id member other last => ?_⟩
          rw [List.mem_singleton] at last
          rintro rfl
          exact known (last ▸ member)
        obtain ⟨nodup, members⟩ := ih _ extended
        refine ⟨nodup, fun id => ?_⟩
        rw [members, List.mem_append, List.mem_singleton, List.mem_cons, or_assoc]
  obtain ⟨nodup, members⟩ := grows ids [] (by simp)
  exact ⟨nodup, fun id => (members id).trans (by simp)⟩

/-- The tables after a bulk call; a refused call is rolled back. -/
def afterBulk (scope : TriageScope) (db : TriageDb) (call : BulkUpdate) : TriageDb :=
  match bulkTransitionStatus scope db call with
  | .ok (after, _) => after
  | .error _ => db

/-- The tables after a single update; a refused one is rolled back. -/
def afterUpdate (scope : TriageScope) (db : TriageDb) (call : StatusUpdate) : TriageDb :=
  match updateVulnerabilityStatus scope db call with
  | .ok after => after
  | .error _ => db

/-- The single update that asks for the same change of one finding, without a snapshot to match
and without an approval. -/
def BulkUpdate.single (call : BulkUpdate) (finding : FindingId) (now : Time) : StatusUpdate where
  actor := call.actor
  finding := finding
  target := call.target
  justification := call.justification
  ifMatch := none
  approvedRequest := none
  now := now

/-- The actor may move the finding to the target, the justification aside. -/
structure Movable (scope : TriageScope) (actor : CurrentUser) (target : FindingStatus)
    (finding : VulnerabilityFinding) (project : Project) : Prop where
  reached : canAccessGroup scope.directory actor project.teamId = true
  different : finding.status ≠ target
  allowed : assertCanTransition actor finding.status target project.teamId = .ok ()
  unnamed : target ∉ scope.statusesRequiringApproval project.id

/-- The columns of a finding that carry its verdict. -/
def VulnerabilityFinding.verdict (finding : VulnerabilityFinding) :
    FindingStatus × Option String × Option String × Option UserId :=
  (finding.status, finding.analysisState, finding.analysisJustification, finding.analystUserId)

/-- The verdict a transition leaves does not depend on when it was made. -/
@[simp] theorem VulnerabilityFinding.transition_verdict (finding : VulnerabilityFinding)
    (target : FindingStatus) (justification : Option String) (actor : UserId) (now : Time) :
    (finding.transition target justification actor now).verdict =
      (target, some target.value, justification.or finding.analysisJustification, some actor) := rfl

/-- The bulk row changes the finding exactly when the single update does, and then both leave the
same verdict. -/
def BulkAgrees (scope : TriageScope) (db : TriageDb) (call : BulkUpdate) (id : FindingId)
    (now : Time) : Prop :=
  let before := db.findings.find? id
  let bulk := (afterBulk scope db call).findings.find? id
  let single := (afterUpdate scope db (call.single id now)).findings.find? id
  (bulk ≠ before ↔ single ≠ before) ∧
    (bulk ≠ before → bulk.map VulnerabilityFinding.verdict = single.map VulnerabilityFinding.verdict)

section Agreement

variable {finding : VulnerabilityFinding} {now : Time}
  (stored : db.findings.find? finding.id = some finding)
  (owner : scope.projects.find? call.project = some project)
  (own : scope.scanProject finding.scanId = call.project)

include stored owner own

/-- A bulk row moves a movable finding and leaves any other one alone. -/
theorem afterBulk_find? (named : finding.id ∈ call.findings)
    (bounded : call.findings.length ≤ bulkTransitionMax)
    [Decidable (Movable scope call.actor call.target finding project)] :
    (afterBulk scope db call).findings.find? finding.id =
      some (if Movable scope call.actor call.target finding project then
        finding.transition call.target call.justification call.actor.id call.now else finding) := by
  have key : project.id = call.project := Table.key_of_find? owner
  -- A call that names the finding is not empty, so it passes the first envelope check.
  have nonempty : call.findings.isEmpty = false := by
    cases listed : call.findings with
    | nil =>
      rw [listed] at named
      cases named
    | cons first rest => rfl
  have short : ¬bulkTransitionMax < call.findings.length := by omega
  obtain ⟨unique, members⟩ := firstOccurrences_spec call.findings
  unfold afterBulk bulkTransitionStatus
  simp only [nonempty, short, owner, Bool.false_eq_true, if_false, Bind.bind, Except.bind,
    Pure.pure, Except.pure]
  cases reach : canAccessGroup scope.directory call.actor project.teamId with
  | false =>
    -- The whole call is refused, and a finding of a project out of reach is not movable.
    have fixed : ¬Movable scope call.actor call.target finding project := fun movable => by
      have reached := movable.reached
      rw [reach] at reached
      cases reached
    simp [throw, throwThe, MonadExceptOf.throw, stored, fixed]
  | true =>
    cases policy : assertNoApprovalRequired (scope.statusesRequiringApproval call.project)
        call.target with
    | error reason =>
      -- The policy names the target, which again refuses the call and makes nothing movable.
      have fixed : ¬Movable scope call.actor call.target finding project := fun movable => by
        have free := assertNoApprovalRequired_ok.mpr movable.unnamed
        rw [key, policy] at free
        cases free
      simp [stored, fixed]
    | ok _ =>
      have unnamed := assertNoApprovalRequired_ok.mp policy
      simp only [Bool.not_true, Bool.false_eq_true, if_false]
      rw [bulkRows_find? scope call project finding.id unique, if_pos ((members _).mpr named),
        stored, Option.map_some, bulkFinding]
      -- Past the envelope, the row's own guards are what is left of being movable.
      congr 1
      refine if_congr ⟨?_, ?_⟩ rfl rfl
      · rintro ⟨_, different, allowed⟩
        exact ⟨reach, different, allowed, key ▸ unnamed⟩
      · intro movable
        exact ⟨own, movable.different, movable.allowed⟩

/-- A single update moves a movable finding with a sufficient justification and nothing else. -/
theorem afterUpdate_find? [Decidable (Movable scope call.actor call.target finding project)] :
    (afterUpdate scope db (call.single finding.id now)).findings.find? finding.id =
      some (if Movable scope call.actor call.target finding project ∧
          JustificationSuffices call.target call.justification then
        finding.transition call.target call.justification call.actor.id now else finding) := by
  have loaded : loadFindingWithProject scope db finding.id = some (finding, project) :=
    loadFindingWithProject_eq_some.mpr ⟨stored, own ▸ owner⟩
  -- The guards of the single update are those of a movable finding and the justification.
  have guards : checkStatusUpdate scope (call.single finding.id now) finding project false =
      .ok (some (finding.transition call.target call.justification call.actor.id now)) ↔
      Movable scope call.actor call.target finding project ∧
        JustificationSuffices call.target call.justification := by
    rw [checkStatusUpdate_eq_some]
    constructor
    · rintro ⟨reached, _, different, allowed, enough, unnamed, _⟩
      exact ⟨⟨reached, different.symm, allowed, unnamed.resolve_left (by simp)⟩, enough⟩
    · rintro ⟨⟨reached, different, allowed, unnamed⟩, enough⟩
      exact ⟨reached, rfl, different.symm, allowed, enough, .inr unnamed, rfl⟩
  unfold afterUpdate updateVulnerabilityStatus
  simp only [BulkUpdate.single, loaded, approvalAuthorises_none, Bool.false_eq_true, if_false,
    Bind.bind, Except.bind, Pure.pure, Except.pure]
  cases checked : checkStatusUpdate scope (call.single finding.id now) finding project false with
  | error reason =>
    -- A refused update leaves the finding as it is.
    rw [checked] at guards
    simp only [reduceCtorEq, false_iff] at guards
    simp only [BulkUpdate.single] at checked
    simp [checked, stored, guards]
  | ok result =>
    cases result with
    | none =>
      rw [checked] at guards
      simp only [Except.ok.injEq, reduceCtorEq, false_iff] at guards
      simp only [BulkUpdate.single] at checked
      simp [checked, stored, guards]
    | some changed =>
      have same := (checkStatusUpdate_eq_some.mp checked).2.2.2.2.2.2
      simp only [BulkUpdate.single] at same
      subst same
      have moved := guards.mp checked
      simp only [BulkUpdate.single] at checked
      simp [checked, TriageDb.flush_find?, stored, moved]

/-- A bulk row and the single update agree exactly when a movable finding comes with a sufficient
justification. -/
theorem bulk_agrees_iff (named : finding.id ∈ call.findings)
    (bounded : call.findings.length ≤ bulkTransitionMax) :
    BulkAgrees scope db call finding.id now ↔
      (Movable scope call.actor call.target finding project →
        JustificationSuffices call.target call.justification) := by
  classical
  have bulk := afterBulk_find? stored owner own named bounded
  have single : (afterUpdate scope db (call.single finding.id now)).findings.find? finding.id = _ :=
    afterUpdate_find? stored owner own
  simp only [BulkAgrees, bulk, single, stored]
  by_cases movable : Movable scope call.actor call.target finding project
  · -- A moved finding differs from the stored one in its status.
    have moved : ∀ time, finding.transition call.target call.justification call.actor.id time ≠
        finding := fun time same =>
      movable.different ((congrArg VulnerabilityFinding.status same).symm)
    by_cases enough : JustificationSuffices call.target call.justification
    · -- Both paths move it, and the verdict does not depend on the time.
      simp [movable, enough, moved]
    · -- The bulk row moves it and the single update refuses.
      simp [movable, enough, moved]
  · -- Neither path touches a finding that cannot be moved.
    simp [movable]

end Agreement

section Slip

/-- Project 1 of team 1, without a policy, and one finding under analysis. -/
def openScope : TriageScope where
  directory :=
    { path := fun _ => some [], isDemoGroup := fun _ => false, demoReadOnly := false
      groupCascadeEnabled := true }
  projects := ⟨[⟨1, "portal", 1, some 1, none⟩], by decide⟩
  scanProject := fun _ => 1
  latestScanOwn := by decide
  externalId := fun _ => "CVE-2024-0001"
  purlWithVersion := fun _ => "pkg:npm/left-pad@1.3.0"
  statusesRequiringApproval := fun _ => []

/-- A finding somebody has started to analyse. -/
def analyzedFinding : VulnerabilityFinding where
  id := 5
  scanId := 1
  componentVersionId := 1
  vulnerabilityId := 1
  status := .analyzing
  analysisState := some "analyzing"
  analysisJustification := none
  analysisSource := none
  vexOrigin := none
  analystUserId := none
  analyzedAt := none
  updatedAt := 0

/-- The tables with that finding alone. -/
def analyzedDb : TriageDb where
  findings := ⟨[analyzedFinding], by decide⟩
  approvals := ⟨[], by decide⟩
  audit := []

/-- A developer of team 1 closes the finding as not affected, with the given justification. -/
def closeAsNotAffected (justification : Option String) : BulkUpdate where
  actor :=
    { id := 7, role := .developer, teamIds := [1]
      teamRoles := fun team => if team = 1 then some .developer else none, isSuperuser := false }
  project := 1
  findings := [5]
  target := .notAffected
  justification := justification
  now := 100

/-- With a justification of ten characters both paths make the same change. -/
theorem bulk_agrees_iff_justified :
    BulkAgrees openScope analyzedDb (closeAsNotAffected (some "not called")) 5 100 := by
  have owner : openScope.projects.find? 1 = some ⟨1, "portal", 1, some 1, none⟩ := rfl
  have stored : analyzedDb.findings.find? analyzedFinding.id = some analyzedFinding := rfl
  exact (bulk_agrees_iff stored owner rfl (by decide) (by decide)).mpr fun _ => by decide

/-- Without a justification the bulk row closes a finding the single update refuses to close. -/
theorem bulk_skips_justification :
    ¬BulkAgrees openScope analyzedDb (closeAsNotAffected none) 5 100 := by
  intro agrees
  have changed : (afterBulk openScope analyzedDb (closeAsNotAffected none)).findings.find? 5 ≠
      analyzedDb.findings.find? 5 := by decide
  exact agrees.1.mp changed (by decide)

end Slip

end Trusca
