import Trusca.Triage.Approval
import Trusca.Triage.VexImport

/-! The user-driven triage operations, executed one after another. -/

namespace Trusca

/-- A user-driven operation on findings and their approvals. -/
inductive TriageOp where
  | update (call : StatusUpdate)
  | bulk (call : BulkUpdate)
  | importVex (call : VexImportCall)
  | request (request : TransitionRequest)
  | decide (approval : TransitionApprovalId) (decision : Decision)

/-- The import endpoint: the project must be visible and the actor an administrator of its team. -/
def importVexEndpoint (scope : TriageScope) (db : TriageDb) (call : VexImportCall) : TriageDb :=
  match scope.projects.find? call.project with
  -- A project that does not exist, or is out of reach, is not found.
  | none => db
  | some project =>
      if canAccessGroup scope.directory call.actor project.teamId &&
          triageHasTeamAdmin call.actor project.teamId then
        match importVex scope db project call with
        | .ok (after, _) => after
        | .error _ => db
      else db

/-- The tables after an operation; a refused one is rolled back. -/
def triageStep (scope : TriageScope) (db : TriageDb) : TriageOp → TriageDb
  -- The endpoint has no way to name an approval; only a decision passes one on.
  | .update call =>
      match updateVulnerabilityStatus scope db { call with approvedRequest := none } with
      | .ok after => after
      | .error _ => db
  | .bulk call =>
      match bulkTransitionStatus scope db call with
      | .ok (after, _) => after
      | .error _ => db
  | .importVex call => importVexEndpoint scope db call
  | .request request =>
      match requestTransition scope db request with
      | .ok after => after
      | .error _ => db
  | .decide approval decision =>
      match decideAndApply scope db approval decision with
      | .ok after => after
      | .error _ => db

/-- The tables after a whole run. -/
def triageRun (scope : TriageScope) (start : TriageDb) (operations : List TriageOp) : TriageDb :=
  operations.foldl (triageStep scope) start

end Trusca
