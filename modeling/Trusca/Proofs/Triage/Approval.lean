import Trusca.Triage.Approval

/-! What a successful request and a successful decision have passed and have done. -/

namespace Trusca

variable {scope : TriageScope} {db after : TriageDb}

/-- A successful request opens a new pending row and changes nothing else. -/
theorem requestTransition_cases {request : TransitionRequest}
    (opened : requestTransition scope db request = .ok after) :
    ∃ row approvals, db.approvals.insert row = some approvals ∧
      after = { db with approvals := approvals } := by
  unfold requestTransition at opened
  simp only [Bind.bind, Except.bind, throw, throwThe, MonadExceptOf.throw] at opened
  -- Only the last branch of the guards reaches the insertion.
  split at opened
  · cases opened
  · rename_i finding project _
    split at opened
    · cases opened
    · split at opened
      · cases opened
      · split at opened
        · cases opened
        · split at opened
          · cases opened
          · -- One open request per finding, and the row is new.
            unfold openRequest at opened
            split at opened
            · cases opened
            · split at opened
              · cases opened
              · rename_i approvals added
                cases opened
                exact ⟨_, approvals, added, rfl⟩

/-- A successful decision was allowed, and recorded; an approval was applied as well. -/
theorem decideAndApply_cases {id : TransitionApprovalId} {decision : Decision}
    (decided : decideAndApply scope db id decision = .ok after) :
    ∃ row, db.approvals.find? id = some row ∧ assertDecidable decision row = .ok () ∧
      (if decision.approve then
        applyDecision scope { db with approvals := db.approvals.put (row.decide decision) } decision
          (row.decide decision)
      else .ok { db with approvals := db.approvals.put (row.decide decision) }) = .ok after := by
  unfold decideAndApply at decided
  cases found : db.approvals.find? id with
  | none => simp [found, throw, throwThe, MonadExceptOf.throw] at decided
  | some row =>
    simp only [found, Bind.bind, Except.bind, Pure.pure, Except.pure] at decided
    -- Each guard either stops the decision or lets it through.
    cases may : assertMayDecide scope decision row with
    | error reason => simp [may] at decided
    | ok _ =>
      cases applicable : assertApplicable scope db decision row with
      | error reason => simp [may, applicable] at decided
      | ok _ =>
        cases decidable : assertDecidable decision row with
        | error reason => simp [may, applicable, decidable] at decided
        | ok _ =>
          simp only [may, applicable, decidable] at decided
          exact ⟨row, rfl, decidable, decided⟩

/-- An applied decision is a status update under the request, followed by its stamp. -/
theorem applyDecision_cases {decision : Decision} {row : TransitionApproval}
    (applied : applyDecision scope db decision row = .ok after) :
    ∃ updated, updateVulnerabilityStatus scope db (decision.update row) = .ok updated ∧
      after = { updated with
        approvals := updated.approvals.put { row with appliedAt := some decision.now } } := by
  unfold applyDecision at applied
  -- A refused update fails the decision as a whole.
  cases updated : updateVulnerabilityStatus scope db (decision.update row) with
  | error reason => simp [updated, liftUpdate, Bind.bind, Except.bind] at applied
  | ok result =>
    simp only [updated, liftUpdate, Bind.bind, Except.bind, Pure.pure, Except.pure,
      Except.ok.injEq] at applied
    exact ⟨result, rfl, applied.symm⟩

/-- A request that may be decided is pending, and its requester is somebody else. -/
theorem assertDecidable_ok {decision : Decision} {row : TransitionApproval}
    (decidable : assertDecidable decision row = .ok ()) :
    row.state = .pending ∧ ∃ requester, row.requestedByUserId = some requester ∧
      decision.actor.id ≠ requester := by
  unfold assertDecidable at decidable
  split at decidable
  · cases decidable
  · rename_i pending
    split at decidable
    · -- A request without a requester is refused.
      cases decidable
    · rename_i requester named
      split at decidable
      · cases decidable
      · rename_i different
        exact ⟨by simpa using pending, requester, named, fun same => different same.symm⟩

end Trusca
