import Trusca.Triage.Finding

/-! What the single and the bulk status update do to a finding, and when they agree. -/

namespace Trusca

open Store

variable {scope : TriageScope} {db : TriageDb}

/-- A flush stores its row and leaves every other finding alone. -/
theorem TriageDb.flush_find? (db : TriageDb) (finding : VulnerabilityFinding)
    (approval : Option TransitionApprovalId) (wanted : FindingId) :
    (db.flush finding approval).findings.find? wanted =
      if wanted = finding.id then (db.findings.find? wanted).map fun _ => finding
      else db.findings.find? wanted := by
  unfold TriageDb.flush
  cases stored : db.findings.find? finding.id with
  | none =>
    -- A flush of a missing row stores nothing, and nothing is found under its key.
    dsimp only
    split
    · rename_i same
      simp [same, stored]
    · rfl
  | some old => exact Table.find?_put db.findings finding wanted

/-- A flush of a stored finding replaces its row and leaves every other finding alone. -/
theorem TriageDb.flush_find?_stored (finding : VulnerabilityFinding) {stored : VulnerabilityFinding}
    (present : db.findings.find? finding.id = some stored)
    (approval : Option TransitionApprovalId) (id : FindingId) :
    (db.flush finding approval).findings.find? id =
      if id = finding.id then some finding else db.findings.find? id := by
  rw [TriageDb.flush_find?]
  split
  · rename_i mine
    rw [mine, present, Option.map_some]
  · rfl

/-- The flushed row of a stored finding is the one found afterwards. -/
theorem TriageDb.flush_find?_self (finding : VulnerabilityFinding) {stored : VulnerabilityFinding}
    (present : db.findings.find? finding.id = some stored)
    (approval : Option TransitionApprovalId) :
    (db.flush finding approval).findings.find? finding.id = some finding := by
  rw [TriageDb.flush_find?_stored finding present, if_pos rfl]

/-- A flush never touches the approvals. -/
@[simp] theorem TriageDb.flush_approvals (db : TriageDb) (finding : VulnerabilityFinding)
    (approval : Option TransitionApprovalId) :
    (db.flush finding approval).approvals = db.approvals := by
  unfold TriageDb.flush
  split <;> rfl

/-- A transition keeps the identity of the finding. -/
@[simp] theorem VulnerabilityFinding.transition_id (finding : VulnerabilityFinding)
    (target : FindingStatus) (justification : Option String) (actor : UserId) (now : Time) :
    (finding.transition target justification actor now).id = finding.id := rfl

/-- A transition arrives at its target. -/
@[simp] theorem VulnerabilityFinding.transition_status (finding : VulnerabilityFinding)
    (target : FindingStatus) (justification : Option String) (actor : UserId) (now : Time) :
    (finding.transition target justification actor now).status = target := rfl

/-- A finding loads with the project its scan belongs to. -/
theorem loadFindingWithProject_eq_some {id : FindingId} {finding : VulnerabilityFinding}
    {project : Project} :
    loadFindingWithProject scope db id = some (finding, project) ↔
      db.findings.find? id = some finding ∧
        scope.projects.find? (scope.scanProject finding.scanId) = some project := by
  simp only [loadFindingWithProject, Option.bind_eq_some_iff, Option.map_eq_some_iff,
    Prod.mk.injEq]
  constructor
  · rintro ⟨found, stored, owner, owned, rfl, rfl⟩
    exact ⟨stored, owned⟩
  · rintro ⟨stored, owned⟩
    exact ⟨finding, stored, project, owned, rfl, rfl⟩

/-- Without an approval nothing is authorised. -/
@[simp] theorem approvalAuthorises_none (db : TriageDb) (finding : FindingId)
    (target : FindingStatus) : approvalAuthorises db none finding target = false := rfl

section Guards

variable {actor : CurrentUser} {current target : FindingStatus} {team : GroupId}

/-- The justification is long enough for the target. -/
def JustificationSuffices (target : FindingStatus) (justification : Option String) : Prop :=
  target.requiresJustification = true →
    minJustificationLen ≤ (strip (justification.getD "")).length

instance (target : FindingStatus) (justification : Option String) :
    Decidable (JustificationSuffices target justification) :=
  inferInstanceAs (Decidable (_ → _))

/-- The justification check passes exactly on sufficient justifications. -/
theorem assertJustificationSufficient_ok {justification : Option String} :
    assertJustificationSufficient target justification = .ok () ↔
      JustificationSuffices target justification := by
  unfold assertJustificationSufficient JustificationSuffices
  cases target.requiresJustification with
  -- Without a rationale to read, any justification will do.
  | false => simp
  | true =>
    simp only [Bool.not_true, Bool.false_eq_true, if_false, forall_const]
    split
    · rename_i short
      simp only [reduceCtorEq, false_iff]
      omega
    · rename_i long
      simp only [true_iff]
      omega

/-- The policy check passes exactly on statuses the policy does not name. -/
theorem assertNoApprovalRequired_ok {required : List FindingStatus} :
    assertNoApprovalRequired required target = .ok () ↔ target ∉ required := by
  unfold assertNoApprovalRequired
  -- The guard raises on a listed target and on no other.
  split
  · rename_i listed
    simp only [reduceCtorEq, false_iff, not_not]
    simpa using listed
  · rename_i unlisted
    simp only [true_iff]
    simpa using unlisted

end Guards

/-- The guards of a status update pass with a change exactly under these conditions. -/
theorem checkStatusUpdate_eq_some {call : StatusUpdate} {finding changed : VulnerabilityFinding}
    {project : Project} {authorised : Bool} :
    checkStatusUpdate scope call finding project authorised = .ok (some changed) ↔
      canAccessGroup scope.directory call.actor project.teamId = true ∧
        call.ifMatch.any (· ≠ finding.updatedAt) = false ∧ call.target ≠ finding.status ∧
        assertCanTransition call.actor finding.status call.target project.teamId = .ok () ∧
        JustificationSuffices call.target call.justification ∧
        (authorised = true ∨ call.target ∉ scope.statusesRequiringApproval project.id) ∧
        changed = finding.transition call.target call.justification call.actor.id call.now := by
  rw [← assertJustificationSufficient_ok, ← assertNoApprovalRequired_ok]
  unfold checkStatusUpdate
  -- Each guard either stops the update or leaves the rest of the conjunction.
  cases canAccessGroup scope.directory call.actor project.teamId with
  | false => simp [Bind.bind, Except.bind, throw, throwThe, MonadExceptOf.throw]
  | true =>
    cases call.ifMatch.any (· ≠ finding.updatedAt) with
    | true => simp [Bind.bind, Except.bind, throw, throwThe, MonadExceptOf.throw]
    | false =>
      by_cases same : call.target = finding.status
      · -- Nothing is to be changed, so no row comes back.
        simp [same, Pure.pure, Except.pure]
      · cases assertCanTransition call.actor finding.status call.target project.teamId with
        | error reason => simp [same, Bind.bind, Except.bind]
        | ok _ =>
          cases assertJustificationSufficient call.target call.justification with
          | error reason => simp [same, Bind.bind, Except.bind]
          | ok _ =>
            cases authorised with
            -- An authorised change skips the policy check.
            | true => simp [same, Bind.bind, Except.bind, Pure.pure, Except.pure, eq_comm]
            | false =>
              cases assertNoApprovalRequired (scope.statusesRequiringApproval project.id)
                  call.target with
              | error reason => simp [same, Bind.bind, Except.bind]
              | ok _ => simp [same, Bind.bind, Except.bind, Pure.pure, Except.pure, eq_comm]

/-- A successful status update changed nothing, or flushed the checked row. -/
theorem updateVulnerabilityStatus_cases {call : StatusUpdate} {after : TriageDb}
    (updated : updateVulnerabilityStatus scope db call = .ok after) :
    after = db ∨ ∃ finding project changed,
      loadFindingWithProject scope db call.finding = some (finding, project) ∧
      checkStatusUpdate scope call finding project
        (approvalAuthorises db call.approvedRequest finding.id call.target) = .ok (some changed) ∧
      after = db.flush changed
        (if approvalAuthorises db call.approvedRequest finding.id call.target then
          call.approvedRequest else none) := by
  unfold updateVulnerabilityStatus at updated
  cases loaded : loadFindingWithProject scope db call.finding with
  | none => simp [loaded, throw, throwThe, MonadExceptOf.throw] at updated
  | some pair =>
    obtain ⟨finding, project⟩ := pair
    simp only [loaded] at updated
    cases checked : checkStatusUpdate scope call finding project
        (approvalAuthorises db call.approvedRequest finding.id call.target) with
    | error reason => simp [checked, Bind.bind, Except.bind] at updated
    | ok result =>
      simp only [checked, Bind.bind, Except.bind] at updated
      cases result with
      -- The guards passed without a row to write.
      | none => exact .inl (Except.ok.inj updated).symm
      | some changed =>
        exact .inr ⟨finding, project, changed, rfl, checked, (Except.ok.inj updated).symm⟩

end Trusca
