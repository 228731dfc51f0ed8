import Trusca.Data.Text
import Trusca.Gate.Database
import Trusca.Store.Session

/-! Saves of one gate policy under an entity-tag precondition, statement by statement. -/

namespace Trusca

/-- The row of one scope, with the columns that only a save reads. -/
structure SavedGatePolicy extends GatePolicy where
  name : Option String
  /-- Finding statuses that need a second person; absent when none do. -/
  approvalRequiredStatuses : Option (List String)
  /-- In microseconds since the epoch, the resolution of the column. -/
  updatedAt : Time

/-- What a save asks to store; a field left out is stored as absent. -/
structure GatePolicyUpsert where
  name : Option String
  epssThreshold : Option Rat
  reachableCriticalOnly : Option Bool
  maliciousBlocks : Option Bool
  approvalRequiredStatuses : Option (List String)
  deriving DecidableEq

/-- What the caller believed the row looked like when the edit began. -/
structure WritePrecondition where
  /-- The opaque tags of the header, or absence of the header. -/
  ifMatch : Option (List String)
  ifNoneMatchAny : Bool
  deriving Repr, DecidableEq

/-- The text without the character at its ends. -/
def stripChar (character : Char) (text : String) : String :=
  let skip := List.dropWhile fun found => found == character
  String.ofList (skip (skip text.toList).reverse).reverse

/-- The text without a leading weakness mark. -/
def removeWeakMark (text : String) : String :=
  match text.toList with
  | 'W' :: '/' :: rest => String.ofList rest
  | _ => text

/-- The tags of an If-Match value, unquoted. -/
def entityTags (raw : String) : List String :=
  (raw.toList.splitOn ',').filterMap fun token =>
    let candidate := strip (String.ofList token)
    if candidate == "*" then some "*"
    else
      let tag := stripChar '"' (removeWeakMark candidate)
      -- A token that names no tag is dropped, and an empty list matches no row.
      if tag == "" then none else some tag

/-- The precondition the request headers state. -/
def writePrecondition (ifMatch ifNoneMatch : Option String) : WritePrecondition where
  ifMatch := ifMatch.map entityTags
  ifNoneMatchAny := ifNoneMatch.any fun value => strip value == "*"

/-- The entity tag of a row: the stamp of its last save. -/
def gatePolicyEtag (row : SavedGatePolicy) : String := row.updatedAt.repr

/-- Why a save is refused. -/
inductive GatePolicyError where
  | scopeNotFound
  | forbidden
  | alreadyExists
  | noLongerExists
  | changedAfterRead
  | integrity
  | aborted
  deriving Repr, DecidableEq

/-- The row that is there, or its absence, against what the caller read. -/
def checkPrecondition (existing : Option SavedGatePolicy) (precondition : WritePrecondition) :
    Except GatePolicyError Unit :=
  -- `If-None-Match: *` asks that there be nothing yet.
  if precondition.ifNoneMatchAny && existing.isSome then .error .alreadyExists
  else
    match precondition.ifMatch with
    | none => .ok ()
    | some tags =>
        match existing with
        | none => .error .noLongerExists
        | some row =>
            -- The star accepts any row, a tag only the row it was read from.
            if tags.contains "*" then .ok ()
            else if tags.contains (gatePolicyEtag row) then .ok ()
            else .error .changedAfterRead

/-- The scope a save addresses, with what the scope check finds there. -/
inductive GatePolicyTarget where
  | team (id : GroupId) (organizationId : Option OrganizationId)
  | organization (id : OrganizationId) (found : Bool)

/-- One save request. -/
structure GatePolicySave where
  directory : Directory
  actor : CurrentUser
  target : GatePolicyTarget
  payload : GatePolicyUpsert
  ifMatch : Option String
  ifNoneMatch : Option String

/-- Whether the actor may write the policy of the team: a rank, not one grade. -/
def mayAdministerTeam (directory : Directory) (actor : CurrentUser) (team : GroupId) : Bool :=
  superAdminReaches directory actor (some team) ||
    (actor.teamRoles team).any fun grade => Role.groupAdmin.priority ≤ grade.priority

namespace GatePolicySave

/-- The precondition of the request. -/
def precondition (save : GatePolicySave) : WritePrecondition :=
  writePrecondition save.ifMatch save.ifNoneMatch

/-- The checks before the row is touched, with the scope of the row. -/
def authorize (save : GatePolicySave) :
    Except GatePolicyError (OrganizationId × Option GroupId) :=
  match save.target with
  -- A scope that does not exist is told apart before the rights are asked for.
  | .team _ none => .error .scopeNotFound
  | .team team (some organization) =>
      if mayAdministerTeam save.directory save.actor team then .ok (organization, some team)
      else .error .forbidden
  | .organization _ false => .error .scopeNotFound
  | .organization organization true =>
      if superAdminReaches save.directory save.actor none then .ok (organization, none)
      else .error .forbidden

/-- The stamp of the save: the clock, or one step past the stored stamp when the clock is behind. -/
def stamp (now : Time) : Option SavedGatePolicy → Time
  | none => now
  | some row => if now ≤ row.updatedAt then row.updatedAt + 1 else now

/-- The row the save stores. -/
def apply (save : GatePolicySave) (scope : OrganizationId × Option GroupId)
    (existing : Option SavedGatePolicy) (now : Time) : SavedGatePolicy where
  organizationId := scope.1
  teamId := scope.2
  -- Every field of the payload is written, also those it leaves empty.
  name := save.payload.name
  epssThreshold := save.payload.epssThreshold
  reachableCriticalOnly := save.payload.reachableCriticalOnly
  maliciousBlocks := save.payload.maliciousBlocks
  approvalRequiredStatuses := save.payload.approvalRequiredStatuses
  updatedAt := stamp now existing

end GatePolicySave

/-- How far a save has come. -/
inductive SavePhase where
  | start (save : GatePolicySave)
  /-- About to read the row under its lock; the flag marks the second attempt. -/
  | attempt (save : GatePolicySave) (scope : OrganizationId × Option GroupId) (again : Bool)
  | read (save : GatePolicySave) (scope : OrganizationId × Option GroupId) (again : Bool)
      (existing : Option SavedGatePolicy)
  | flushed (save : GatePolicySave) (row : SavedGatePolicy)
  | done (save : GatePolicySave) (outcome : Except GatePolicyError SavedGatePolicy)

/-- A save takes its next step at some time on its clock, or is cut off. -/
inductive SaveEvent where
  | advance (now : Time)
  | abort
  deriving Repr, DecidableEq

namespace SavePhase

variable {τ : Type*} [DecidableEq τ]

/-- The request a phase belongs to. -/
def save : SavePhase → GatePolicySave
  | .start save | .attempt save _ _ | .read save _ _ _ | .flushed save _ | .done save _ => save

/-- An exception rolls the transaction back. -/
def refuse (tx : τ) (row : Store.Row τ SavedGatePolicy) (save : GatePolicySave)
    (reason : GatePolicyError) : Option (Store.Row τ SavedGatePolicy × SavePhase) :=
  some (row.rollback tx, .done save (.error reason))

/-- The UPDATE of the locked row. The stamp is always new, so there is a column to write. -/
def update (tx : τ) (row : Store.Row τ SavedGatePolicy) (save : GatePolicySave)
    (new : SavedGatePolicy) : Option (Store.Row τ SavedGatePolicy × SavePhase) :=
  (row.change tx (fun _ => true) fun _ => some new).bind fun (sent, matched) =>
    if matched then some (sent, .flushed save new) else refuse tx row save .aborted

/-- The INSERT of a first row. Losing the unique key rolls back, and the first attempt is
repeated. -/
def create (tx : τ) (row : Store.Row τ SavedGatePolicy) (save : GatePolicySave)
    (scope : OrganizationId × Option GroupId) (again : Bool) (new : SavedGatePolicy) :
    Option (Store.Row τ SavedGatePolicy × SavePhase) :=
  match row.committed with
  | some _ =>
      -- A second collision is not tried again.
      if again then refuse tx row save .integrity
      else some (row.rollback tx, .attempt save scope true)
  | none => (row.insert tx new).map fun sent => (sent, .flushed save new)

/-- The next statement of a save; absent while the statement waits for a lock. -/
def advance (tx : τ) (now : Time) (row : Store.Row τ SavedGatePolicy) :
    SavePhase → Option (Store.Row τ SavedGatePolicy × SavePhase)
  | .start save =>
      match save.authorize with
      | .error reason => refuse tx row save reason
      | .ok scope => some (row, .attempt save scope false)
  -- The row is read FOR UPDATE; a missing row is not locked.
  | .attempt save scope again =>
      (row.lock tx).map fun sent => (sent, .read save scope again (row.view tx))
  | .read save scope again existing =>
      match checkPrecondition existing save.precondition with
      | .error reason => refuse tx row save reason
      | .ok () =>
          match existing with
          | none => create tx row save scope again (save.apply scope none now)
          | some stored => update tx row save (save.apply scope (some stored) now)
  | .flushed save new => some (row.commit tx, .done save (.ok new))
  | .done _ _ => none

/-- One event of one save. -/
def act (tx : τ) : SaveEvent → Store.Row τ SavedGatePolicy → SavePhase →
    Option (Store.Row τ SavedGatePolicy × SavePhase)
  | .advance now, row, phase => advance tx now row phase
  | .abort, _, .done _ _ => none
  | .abort, row, phase => refuse tx row phase.save .aborted

/-- A save that has not begun. -/
def initial : SavePhase → Bool
  | .start _ => true
  | _ => false

/-- The row a save reported as stored. -/
def saved : SavePhase → Option SavedGatePolicy
  | .done _ (.ok row) => some row
  | _ => none

end SavePhase

/-- The row of one scope and every save of it. -/
abbrev SaveSystem (τ : Type*) := Store.Sessions (Store.Row τ SavedGatePolicy) τ SavePhase

/-- The next state of the row and the saves. -/
def saveStep {τ : Type*} [DecidableEq τ] (system : SaveSystem τ) (event : τ × SaveEvent) :
    Option (SaveSystem τ) :=
  Store.Sessions.step SavePhase.act system event

end Trusca
