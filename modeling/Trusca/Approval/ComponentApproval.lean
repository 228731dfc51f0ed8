import Trusca.Authz.Access
import Trusca.Store.Row
import Trusca.Store.Session

/-! The component approval row and the two operations that write it after its creation. -/

namespace Trusca

/-- The lifecycle of a component approval. -/
inductive ApprovalStatus where
  | pending
  | underReview
  | approved
  | rejected
  deriving Repr, DecidableEq

namespace ApprovalStatus

/-- The statuses that a decision leaves for good. -/
def terminal : ApprovalStatus → Bool
  | .approved | .rejected => true
  | .pending | .underReview => false

/-- The statuses a reviewer may move an approval to. -/
def transitionMap : ApprovalStatus → List ApprovalStatus
  | .pending => [.rejected, .underReview]
  | .underReview => [.approved, .rejected]
  | .approved => []
  | .rejected => []

/-- The actions that need an administrator of the approval's team. -/
def requiresTeamAdmin : ApprovalStatus → Bool
  | .underReview | .approved | .rejected => true
  | .pending => false

end ApprovalStatus

/-- One row of the component approvals table, less the columns neither operation reads or writes. -/
structure ComponentApproval where
  componentId : Nat
  projectId : ProjectId
  teamId : GroupId
  requestedByUserId : Option UserId
  status : ApprovalStatus
  decidedByUserId : Option UserId
  decidedAt : Option Time
  decisionNote : Option String
  decidedLicenseIds : Option (List String)
  version : Int
  deriving Repr, DecidableEq

/-- The errors the two operations answer with. -/
inductive ApprovalError where
  | notFound
  | etagMismatch (expected got : Int)
  | invalidTransition (current action : ApprovalStatus) (allowedTo : List ApprovalStatus)
  | forbidden (action : ApprovalStatus)
  | terminalState (status : ApprovalStatus)
  /-- The request ended early: its connection or its process was lost. -/
  | aborted
  deriving Repr, DecidableEq

/-- A request to move an approval to another status, with what it reads outside the row. -/
structure TransitionCall where
  actor : CurrentUser
  directory : Directory
  action : ApprovalStatus
  decisionNote : Option String
  ifMatch : Int
  now : Time
  /-- The licence set the component carries in a project, as the request finds it. -/
  currentLicenseSet : ProjectId → Nat → List String

/-- A request to delete an approval. -/
structure DeleteCall where
  actor : CurrentUser
  directory : Directory

/-- The guards and the writes of a transition on the row it has locked. -/
def transitionApproval (call : TransitionCall) (row : ComponentApproval) :
    Except ApprovalError ComponentApproval :=
  -- Another team's approval is hidden, not forbidden.
  if !canAccessGroup call.directory call.actor row.teamId then .error .notFound
  else if call.ifMatch ≠ row.version then .error (.etagMismatch row.version call.ifMatch)
  else if !row.status.transitionMap.contains call.action then
    .error (.invalidTransition row.status call.action row.status.transitionMap)
  else if call.action.requiresTeamAdmin && !hasTeamAdmin call.directory call.actor row.teamId then
    .error (.forbidden call.action)
  else
    let moved := { row with status := call.action, version := row.version + 1 }
    -- Only a final decision records who took it and which licences it covered.
    if call.action.terminal then
      .ok { moved with
        decidedByUserId := some call.actor.id
        decidedAt := some call.now
        decisionNote := call.decisionNote
        decidedLicenseIds := some (call.currentLicenseSet row.projectId row.componentId) }
    else .ok moved

/-- The guards of a deletion on the row it has read. -/
def deleteApproval (call : DeleteCall) (row : ComponentApproval) : Except ApprovalError Unit :=
  if !canAccessGroup call.directory call.actor row.teamId then .error .notFound
  else if row.status.terminal then .error (.terminalState row.status)
  else if row.requestedByUserId = some call.actor.id ||
      hasTeamAdmin call.directory call.actor row.teamId then .ok ()
  -- A member who neither asked for the approval nor administers the team sees nothing to delete.
  else .error .notFound

/-- How far a request has come. -/
inductive ApprovalPhase where
  | transition (call : TransitionCall)
  | transitionLocked (call : TransitionCall) (row : ComponentApproval)
  | transitionWritten (row : ComponentApproval)
  | delete (call : DeleteCall)
  | deleteAllowed
  | deleteSent
  | done (outcome : Except ApprovalError Unit)

/-- A request takes its next step, or is cut off. -/
inductive ApprovalEvent where
  | advance
  | abort
  deriving Repr, DecidableEq

namespace ApprovalPhase

variable {τ : Type*} [DecidableEq τ]

/-- The next statement of a request; absent while the statement waits for a lock. -/
def advance (tx : τ) (row : Store.Row τ ComponentApproval) :
    ApprovalPhase → Option (Store.Row τ ComponentApproval × ApprovalPhase)
  -- SELECT ... FOR UPDATE
  | .transition call =>
      match row.view tx with
      | none => some (row.rollback tx, .done (.error .notFound))
      | some current => (row.lock tx).map fun locked => (locked, .transitionLocked call current)
  -- The guards, then the UPDATE of the locked row.
  | .transitionLocked call current =>
      match transitionApproval call current with
      | .error reason => some (row.rollback tx, .done (.error reason))
      | .ok moved =>
          (row.change tx (fun _ => true) fun _ => some moved).map fun written =>
            (written.1, .transitionWritten moved)
  | .transitionWritten _ => some (row.commit tx, .done (.ok ()))
  -- The deletion reads without a lock and checks what it read.
  | .delete call =>
      match row.view tx with
      | none => some (row, .done (.error .notFound))
      | some current =>
          match deleteApproval call current with
          | .error reason => some (row.rollback tx, .done (.error reason))
          | .ok () => some (row, .deleteAllowed)
  -- DELETE by primary key: no version is compared, and a missing row only warns.
  | .deleteAllowed =>
      (row.change tx (fun _ => true) fun _ => none).map fun sent => (sent.1, .deleteSent)
  | .deleteSent => some (row.commit tx, .done (.ok ()))
  | .done _ => none

/-- One event of one request. -/
def act (tx : τ) : ApprovalEvent → Store.Row τ ComponentApproval → ApprovalPhase →
    Option (Store.Row τ ComponentApproval × ApprovalPhase)
  | .advance, row, phase => advance tx row phase
  -- A request that has answered can no longer be cut off.
  | .abort, _, .done _ => none
  | .abort, row, _ => some (row.rollback tx, .done (.error .aborted))

/-- A request that has not started. -/
def initial : ApprovalPhase → Bool
  | .transition _ => true
  | .delete _ => true
  | _ => false

end ApprovalPhase

/-- One approval row and every request on it. -/
abbrev ApprovalSystem (τ : Type*) := Store.Sessions (Store.Row τ ComponentApproval) τ ApprovalPhase

/-- The next state of the row and its requests. -/
def approvalStep {τ : Type*} [DecidableEq τ] (system : ApprovalSystem τ)
    (event : τ × ApprovalEvent) : Option (ApprovalSystem τ) :=
  Store.Sessions.step ApprovalPhase.act system event

end Trusca
