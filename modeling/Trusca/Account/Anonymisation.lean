import Trusca.Authz.Access
import Trusca.Store.Rows
import Trusca.Store.Session

/-! The requests to anonymise a user, and the five writers that carry them from one state to the
next. -/

namespace Trusca

open Store

abbrev RequestId := Nat

/-- Where a request stands. -/
inductive AnonymisationState where
  | pending
  | approved
  | executed
  | cancelled
  | expired
  deriving Repr, DecidableEq

namespace AnonymisationState

/-- Whether the request occupies the subject's slot in the unique index. -/
def live : AnonymisationState → Bool
  | .pending | .approved => true
  | .executed | .cancelled | .expired => false

end AnonymisationState

/-- A request to anonymise a user. -/
structure AnonymisationRequest where
  subjectUserId : UserId
  requestedByUserId : UserId
  approvedByUserId : Option UserId
  state : AnonymisationState
  expiresAt : Time
  approvedAt : Option Time
  executedAt : Option Time
  deriving Repr, DecidableEq

/-- How long a request can be approved, in seconds. -/
def requestTtl : Int := 7 * 24 * 60 * 60

namespace AnonymisationRequest

/-- The UPDATE of a request: only the columns assigned another value than the loaded one. -/
def flush (loaded assigned current : AnonymisationRequest) : AnonymisationRequest :=
  -- Each column goes out only when the session has changed it, and shows the current value otherwise.
  { current with
    approvedByUserId :=
      flushColumn loaded.approvedByUserId assigned.approvedByUserId current.approvedByUserId
    state := flushColumn loaded.state assigned.state current.state
    approvedAt := flushColumn loaded.approvedAt assigned.approvedAt current.approvedAt
    executedAt := flushColumn loaded.executedAt assigned.executedAt current.executedAt }

/-- Whether the request is pending and its window has closed. -/
def due (now : Time) (request : AnonymisationRequest) : Bool :=
  request.state == .pending && request.expiresAt ≤ now

/-- Whether the request takes the slot of a subject. -/
def occupies (subject : UserId) (request : AnonymisationRequest) : Bool :=
  request.state.live && request.subjectUserId == subject

end AnonymisationRequest

/-- Why a call has no effect. -/
inductive AnonymisationError where
  | selfApproval
  | subjectNotFound
  | requestConflict
  | requestNotFound
  | requestExpired
  /-- The unique index or a vanished row failed a write that nobody expected to fail. -/
  | internal
  | aborted
  deriving Repr, DecidableEq

/-- A call, with what it reads outside the requests. -/
inductive AnonymisationCall where
  | openRequest (subject requestedBy : UserId) (subjectExists : Bool) (id : RequestId) (now : Time)
  | approve (id : RequestId) (approvedBy : UserId) (now : Time)
  | cancel (id : RequestId)
  | markExecuted (id : RequestId) (now : Time)
  | expireDue (now : Time)
  deriving Repr, DecidableEq

/-- How far a call has come. -/
inductive AnonymisationPhase where
  | start (call : AnonymisationCall)
  /-- The requests found due are marked one by one, before what comes after. -/
  | expiring (due : List (RequestId × AnonymisationRequest))
      (next : Option (RequestId × AnonymisationRequest))
  | inserting (id : RequestId) (request : AnonymisationRequest)
  | writing (id : RequestId) (loaded assigned : AnonymisationRequest)
      (answer : Except AnonymisationError Unit)
  | flushed (answer : Except AnonymisationError Unit)
  | done (answer : Except AnonymisationError Unit)

/-- A call takes its next step, or is cut off. -/
inductive AnonymisationEvent where
  | advance
  | abort
  deriving Repr, DecidableEq

/-- The table of the requests. -/
abbrev AnonymisationRequests (τ : Type*) := Rows RequestId τ AnonymisationRequest

namespace AnonymisationPhase

variable {τ : Type*} [DecidableEq τ]

/-- The requests that are due, as they are read, of one subject or of all. -/
def selectDue (rows : AnonymisationRequests τ) (tx : τ) (now : Time) (subject : Option UserId) :
    List (RequestId × AnonymisationRequest) :=
  rows.fetch tx fun request => request.due now && subject.all (request.subjectUserId == ·)

/-- What a call does once it has read. -/
def load (rows : AnonymisationRequests τ) (tx : τ) : AnonymisationCall → AnonymisationPhase
  | .openRequest subject requestedBy subjectExists id now =>
      if subject = requestedBy then .done (.error .selfApproval)
      else if !subjectExists then .done (.error .subjectNotFound)
      else
        .expiring (selectDue rows tx now (some subject))
          (some (id, ⟨subject, requestedBy, none, .pending, now + requestTtl, none, none⟩))
  | .approve id approvedBy now =>
      match rows.view tx id with
      | none => .done (.error .requestNotFound)
      | some request =>
          if request.state ≠ .pending then .done (.error .requestNotFound)
          -- The refusal is the answer, but the request is retired all the same.
          else if request.expiresAt ≤ now then
            .writing id request { request with state := .expired } (.error .requestExpired)
          else if approvedBy = request.requestedByUserId ∨ approvedBy = request.subjectUserId then
            .done (.error .selfApproval)
          else
            .writing id request
              { request with
                state := .approved, approvedByUserId := some approvedBy, approvedAt := some now }
              (.ok ())
  | .cancel id =>
      match rows.view tx id with
      | none => .done (.error .requestNotFound)
      | some request =>
          if !request.state.live then .done (.error .requestNotFound)
          else .writing id request { request with state := .cancelled } (.ok ())
  | .markExecuted id now =>
      match rows.view tx id with
      | none => .done (.error .requestNotFound)
      | some request =>
          if request.state ≠ .approved then .done (.error .requestNotFound)
          else
            .writing id request { request with state := .executed, executedAt := some now } (.ok ())
  | .expireDue now => .expiring (selectDue rows tx now none) none

/-- The UPDATE of one request by its key; absent while it waits for another transaction. -/
def update (rows : AnonymisationRequests τ) (tx : τ) (id : RequestId)
    (loaded assigned : AnonymisationRequest) (after : AnonymisationPhase) :
    Option (AnonymisationRequests τ × AnonymisationPhase) :=
  -- The unique index is asked whenever the new version takes a slot.
  if assigned.state.live && rows.contested tx id (·.occupies assigned.subjectUserId) then none
  else if assigned.state.live && rows.clashes tx id (·.occupies assigned.subjectUserId) then
    some (rows.rollback tx, .done (.error .internal))
  else
    (rows.change tx id (fun _ => true) fun current => some (loaded.flush assigned current)).map
      fun (next, matched) =>
        if matched then (next, after) else (rows.rollback tx, .done (.error .internal))

/-- The next statement of a call; absent while it waits for another transaction. -/
def advance (tx : τ) (rows : AnonymisationRequests τ) :
    AnonymisationPhase → Option (AnonymisationRequests τ × AnonymisationPhase)
  | .start call => some (rows, load rows tx call)
  -- The call has read the row, and decides what it will write.
  | .expiring ((id, request) :: rest) next =>
      -- Requests past their expiry are marked first, one statement each.
      update rows tx id request { request with state := .expired } (.expiring rest next)
  | .expiring [] (some (id, request)) => some (rows, .inserting id request)
  | .expiring [] none => some (rows, .flushed (.ok ()))
  | .inserting id request =>
      -- An uncommitted request for the same subject makes the insert wait.
      if rows.contested tx id (·.occupies request.subjectUserId) then none
      -- A committed one breaks the partial unique index, and the whole transaction goes back.
      else if rows.clashes tx id (·.occupies request.subjectUserId) then
        some (rows.rollback tx, .done (.error .requestConflict))
      else (rows.insert tx id request).map fun next => (next, .flushed (.ok ()))
  -- The approval and the execution are writes of the columns assigned.
  | .writing id loaded assigned answer => update rows tx id loaded assigned (.flushed answer)
  | .flushed answer => some (rows.commit tx, .done answer)
  | .done _ => none

/-- One event of one call. -/
def act (tx : τ) : AnonymisationEvent → AnonymisationRequests τ → AnonymisationPhase →
    Option (AnonymisationRequests τ × AnonymisationPhase)
  | .advance, rows, phase => advance tx rows phase
  | .abort, _, .done _ => none
  | .abort, rows, _ => some (rows.rollback tx, .done (.error .aborted))

end AnonymisationPhase

/-- The requests and every call on them. -/
abbrev AnonymisationSystem (τ : Type*) :=
  Sessions (AnonymisationRequests τ) τ AnonymisationPhase

/-- The next state of the requests and the calls. -/
def anonymisationStep {τ : Type*} [DecidableEq τ] (system : AnonymisationSystem τ)
    (event : τ × AnonymisationEvent) : Option (AnonymisationSystem τ) :=
  Sessions.step AnonymisationPhase.act system event

end Trusca
