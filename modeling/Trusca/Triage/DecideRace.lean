import Trusca.Store.Row
import Trusca.Store.Session
import Trusca.Triage.Approval

/-! Concurrent decisions on one transition approval, statement by statement. -/

namespace Trusca

/-- The approval row and the row of the finding it is about. -/
structure DecideStore (τ : Type*) where
  approval : Store.Row τ TransitionApproval
  finding : Store.Row τ VulnerabilityFinding

namespace DecideStore

variable {τ : Type*} [DecidableEq τ]

/-- COMMIT of a transaction over both rows. -/
def commit (store : DecideStore τ) (tx : τ) : DecideStore τ :=
  ⟨store.approval.commit tx, store.finding.commit tx⟩

/-- ROLLBACK of a transaction over both rows. -/
def rollback (store : DecideStore τ) (tx : τ) : DecideStore τ :=
  ⟨store.approval.rollback tx, store.finding.rollback tx⟩

end DecideStore

/-- The UPDATE of a decision: only the columns assigned another value than the loaded one. -/
def TransitionApproval.flush (loaded assigned current : TransitionApproval) :
    TransitionApproval :=
  -- The UPDATE carries the columns that this session has changed.
  { current with
    state := Store.flushColumn loaded.state assigned.state current.state
    decidedByUserId :=
      Store.flushColumn loaded.decidedByUserId assigned.decidedByUserId current.decidedByUserId
    decisionNote := Store.flushColumn loaded.decisionNote assigned.decisionNote current.decisionNote
    decidedAt := Store.flushColumn loaded.decidedAt assigned.decidedAt current.decidedAt
    appliedAt := Store.flushColumn loaded.appliedAt assigned.appliedAt current.appliedAt }

/-- The UPDATE of a status change: only the columns assigned another value than the loaded one. -/
def VulnerabilityFinding.flush (loaded assigned current : VulnerabilityFinding) :
    VulnerabilityFinding :=
  -- As for the request: a column nobody assigned keeps what others committed.
  { current with
    status := Store.flushColumn loaded.status assigned.status current.status
    analysisState :=
      Store.flushColumn loaded.analysisState assigned.analysisState current.analysisState
    analysisJustification :=
      Store.flushColumn loaded.analysisJustification assigned.analysisJustification
        current.analysisJustification
    analystUserId :=
      Store.flushColumn loaded.analystUserId assigned.analystUserId current.analystUserId
    analyzedAt := Store.flushColumn loaded.analyzedAt assigned.analyzedAt current.analyzedAt
    updatedAt := Store.flushColumn loaded.updatedAt assigned.updatedAt current.updatedAt }

/-- A call of `decide_and_apply`, with what it reads outside the two rows. -/
structure DecideCall where
  scope : TriageScope
  decision : Decision

/-- How far a call has come.

The rows a phase carries are the attributes of the session's identity map: a later SELECT of the
same row, locking or not, does not refresh them. -/
inductive DecidePhase where
  | start (call : DecideCall)
  | loaded (call : DecideCall) (row : TransitionApproval)
  | checked (call : DecideCall) (row : TransitionApproval) (finding : Option VulnerabilityFinding)
  | locked (call : DecideCall) (row : TransitionApproval) (finding : Option VulnerabilityFinding)
  | decided (call : DecideCall) (row : TransitionApproval) (finding : Option VulnerabilityFinding)
  | findingLocked (call : DecideCall) (row : TransitionApproval) (finding : VulnerabilityFinding)
  | applied (call : DecideCall) (row : TransitionApproval)
  | stamped (call : DecideCall) (row : TransitionApproval)
  | done (call : DecideCall) (outcome : Except TransitionApprovalError Unit)

/-- A call takes its next step, or is cut off. -/
inductive DecideEvent where
  | advance
  | abort
  deriving Repr, DecidableEq

namespace DecidePhase

variable {τ : Type*} [DecidableEq τ]

/-- The call a phase belongs to. -/
def call : DecidePhase → DecideCall
  | .start call | .loaded call _ | .checked call _ _ | .locked call _ _ | .decided call _ _
  | .findingLocked call _ _ | .applied call _ | .stamped call _ | .done call _ => call

/-- An exception rolls the whole transaction back. -/
def refuse (tx : τ) (store : DecideStore τ) (call : DecideCall) (reason : TransitionApprovalError) :
    Option (DecideStore τ × DecidePhase) :=
  some (store.rollback tx, .done call (.error reason))

/-- The next statement of a call; absent while the statement waits for a lock. -/
def advance (tx : τ) (store : DecideStore τ) :
    DecidePhase → Option (DecideStore τ × DecidePhase)
  -- SELECT of the approval, without a lock, and the role checks.
  | .start call =>
      match store.approval.view tx with
      | none => refuse tx store call .notFound
      | some row =>
          match assertMayDecide call.scope call.decision row with
          | .error reason => refuse tx store call reason
          | .ok () => some (store, .loaded call row)
  -- An approval looks at the finding first, without a lock.
  | .loaded call row =>
      if call.decision.approve then
        match store.finding.view tx with
        | none => refuse tx store call .notFound
        | some finding =>
            match assertStillPossible call.decision row finding with
            | .error reason => refuse tx store call (.update reason)
            | .ok () => some (store, .checked call row (some finding))
      else some (store, .checked call row none)
  -- SELECT ... FOR UPDATE of the approval: the lock is new, the attributes are not.
  | .checked call row finding =>
      match store.approval.view tx with
      | none => refuse tx store call .notFound
      | some _ =>
          (store.approval.lock tx).map fun approval =>
            ({ store with approval := approval }, .locked call row finding)
  -- The state and the requester are judged on the attributes, not on the locked version.
  | .locked call row finding =>
      match assertDecidable call.decision row with
      | .error reason => refuse tx store call reason
      | .ok () =>
          let decided := row.decide call.decision
          (store.approval.change tx (fun _ => true) fun current =>
            some (row.flush decided current)).map fun sent =>
              ({ store with approval := sent.1 }, .decided call decided finding)
  | .decided call row finding =>
      match finding with
      -- A rejection is complete.
      | none => some (store.commit tx, .done call (.ok ()))
      -- SELECT ... FOR UPDATE of the finding, again without refreshing it.
      | some finding =>
          match store.finding.view tx with
          | none => refuse tx store call (.update .notFound)
          | some _ =>
              (store.finding.lock tx).map fun locked =>
                ({ store with finding := locked }, .findingLocked call row finding)
  | .findingLocked call row finding =>
      match call.scope.projects.find? (call.scope.scanProject finding.scanId) with
      | none => refuse tx store call (.update .notFound)
      | some project =>
          match checkStatusUpdate call.scope (call.decision.update row) finding project
              (row.authorises finding.id row.targetStatus) with
          | .error reason => refuse tx store call (.update reason)
          -- The finding already has the status; the request is stamped all the same.
          | .ok none => some (store, .applied call row)
          | .ok (some changed) =>
              (store.finding.change tx (fun _ => true) fun current =>
                some (finding.flush changed current)).map fun sent =>
                  ({ store with finding := sent.1 }, .applied call row)
  -- The stamp that spends the approval.
  | .applied call row =>
      let spent := { row with appliedAt := some call.decision.now }
      (store.approval.change tx (fun _ => true) fun current =>
        some (row.flush spent current)).map fun sent =>
          ({ store with approval := sent.1 }, .stamped call spent)
  | .stamped call _ => some (store.commit tx, .done call (.ok ()))
  | .done _ _ => none

/-- One event of one call. -/
def act (tx : τ) : DecideEvent → DecideStore τ → DecidePhase →
    Option (DecideStore τ × DecidePhase)
  | .advance, store, phase => advance tx store phase
  | .abort, _, .done _ _ => none
  | .abort, store, phase => refuse tx store phase.call .aborted

end DecidePhase

/-- One approval, its finding, and every decision on it. -/
abbrev DecideSystem (τ : Type*) := Store.Sessions (DecideStore τ) τ DecidePhase

/-- The next state of the two rows and the calls. -/
def decideStep {τ : Type*} [DecidableEq τ] (system : DecideSystem τ) (event : τ × DecideEvent) :
    Option (DecideSystem τ) :=
  Store.Sessions.step DecidePhase.act system event

end Trusca
