import Trusca.License.Policy
import Trusca.Store.Row
import Trusca.Store.Session

/-! Concurrent writes to one team's licence policy, statement by statement. -/

namespace Trusca

/-- The UPDATE of a write: only the columns assigned another value than the loaded one. -/
def LicensePolicy.flush (loaded assigned current : LicensePolicy) : LicensePolicy :=
  -- Only the columns that the session has assigned a new value go into the UPDATE.
  { current with
    name := Store.flushColumn loaded.name assigned.name current.name
    categoryOverrides :=
      Store.flushColumn loaded.categoryOverrides assigned.categoryOverrides
        current.categoryOverrides
    licenseExceptions :=
      Store.flushColumn loaded.licenseExceptions assigned.licenseExceptions
        current.licenseExceptions
    maliciousExceptions :=
      Store.flushColumn loaded.maliciousExceptions assigned.maliciousExceptions
        current.maliciousExceptions
    unknownLicenseCategory :=
      Store.flushColumn loaded.unknownLicenseCategory assigned.unknownLicenseCategory
        current.unknownLicenseCategory
    compoundOperatorStrategy :=
      Store.flushColumn loaded.compoundOperatorStrategy assigned.compoundOperatorStrategy
        current.compoundOperatorStrategy
    enabled := Store.flushColumn loaded.enabled assigned.enabled current.enabled
    updatedAt := Store.flushColumn loaded.updatedAt assigned.updatedAt current.updatedAt }

/-- How far a call has come, with the row its session loaded. -/
inductive PolicyPhase where
  | start (call : PolicyCall)
  /-- A PUT has read the row without a lock. -/
  | loaded (call : PolicyCall) (payload : LicensePolicyUpsert) (row : Option LicensePolicy)
  /-- A shortcut has read the row under its lock. -/
  | locked (call : PolicyCall) (row : Option LicensePolicy)
  | flushed (call : PolicyCall)
  | done (call : PolicyCall) (outcome : Except LicensePolicyError Unit)

/-- A call takes its next step, or is cut off. -/
inductive PolicyEvent where
  | advance
  | abort
  deriving Repr, DecidableEq

namespace PolicyPhase

variable {τ : Type*} [DecidableEq τ]

/-- The call a phase belongs to. -/
def call : PolicyPhase → PolicyCall
  | .start call | .loaded call _ _ | .locked call _ | .flushed call | .done call _ => call

/-- An exception rolls the transaction back. -/
def refuse (tx : τ) (row : Store.Row τ LicensePolicy) (call : PolicyCall)
    (reason : LicensePolicyError) : Option (Store.Row τ LicensePolicy × PolicyPhase) :=
  some (row.rollback tx, .done call (.error reason))

/-- The UPDATE of an existing row. The time stamp is always new, so there is a column to write. -/
def update (tx : τ) (row : Store.Row τ LicensePolicy) (call : PolicyCall)
    (stored assigned : LicensePolicy) : Option (Store.Row τ LicensePolicy × PolicyPhase) :=
  (row.change tx (fun _ => true) fun current => some (stored.flush assigned current)).bind
    fun (sent, matched) =>
      if matched then some (sent, .flushed call) else refuse tx row call .aborted

/-- The INSERT of a new row; the unique key refuses a second one. -/
def create (tx : τ) (row : Store.Row τ LicensePolicy) (call : PolicyCall) (new : LicensePolicy) :
    Option (Store.Row τ LicensePolicy × PolicyPhase) :=
  match row.committed with
  -- Another call created the row in the meantime.
  | some _ => refuse tx row call .conflict
  | none => (row.insert tx new).map fun sent => (sent, .flushed call)

/-- The next statement of a call; absent while the statement waits for a lock. -/
def advance (tx : τ) (row : Store.Row τ LicensePolicy) :
    PolicyPhase → Option (Store.Row τ LicensePolicy × PolicyPhase)
  | .start call =>
      match assertMayWrite call.caller with
      | .error reason => refuse tx row call reason
      | .ok () =>
          match call.write with
          -- A PUT checks its payload and reads the row without a lock.
          | .upsert payload =>
              match assertUpsertValid payload call.caps call.clock with
              | .error reason => refuse tx row call reason
              | .ok () => some (row, .loaded call payload (row.view tx))
          -- The shortcuts read the row FOR UPDATE.
          | .add _ | .remove _ _ =>
              (row.lock tx).map fun sent => (sent, .locked call (row.view tx))
  -- The row the PUT has read decides between INSERT and UPDATE.
  | .loaded call payload none =>
      create tx row call (applyUpsert (.created call.caller call.clock) payload call.clock)
  | .loaded call payload (some stored) =>
      update tx row call stored (applyUpsert stored payload call.clock)
  -- Without a row there is nothing to lock; adding a waiver then creates the row.
  | .locked call none =>
      match call.write with
      | .add waiver =>
          match enforceForbiddenTtl [waiver] .empty .conditional call.caps.maxWaiveDays
              call.clock.forbiddenTtl with
          | .error reason => refuse tx row call reason
          | .ok () =>
              create tx row call
                { LicensePolicy.created call.caller call.clock with licenseExceptions := [waiver] }
      | _ => refuse tx row call .notFound
  | .locked call (some stored) =>
      match call.serve stored with
      | .error reason => refuse tx row call reason
      | .ok assigned => update tx row call stored assigned
  | .flushed call => some (row.commit tx, .done call (.ok ()))
  | .done _ _ => none

/-- One event of one call. -/
def act (tx : τ) : PolicyEvent → Store.Row τ LicensePolicy → PolicyPhase →
    Option (Store.Row τ LicensePolicy × PolicyPhase)
  | .advance, row, phase => advance tx row phase
  | .abort, _, .done _ _ => none
  | .abort, row, phase => refuse tx row phase.call .aborted

/-- A call that has not begun. -/
def initial : PolicyPhase → Bool
  | .start _ => true
  | _ => false

/-- The call a session has completed. -/
def completed : PolicyPhase → Option PolicyCall
  | .done call (.ok ()) => some call
  | _ => none

end PolicyPhase

/-- One policy row and every call on it. -/
abbrev PolicySystem (τ : Type*) := Store.Sessions (Store.Row τ LicensePolicy) τ PolicyPhase

/-- The next state of the row and the calls. -/
def policyStep {τ : Type*} [DecidableEq τ] (system : PolicySystem τ) (event : τ × PolicyEvent) :
    Option (PolicySystem τ) :=
  Store.Sessions.step PolicyPhase.act system event

end Trusca
