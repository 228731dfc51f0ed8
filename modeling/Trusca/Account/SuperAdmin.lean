import Trusca.Authz.Access
import Trusca.Store.Rows
import Trusca.Store.Session

/-! The super admins of a deployment, and the calls that give and take their seats. -/

namespace Trusca

open Store

/-- The columns of a user that a seat depends on. -/
structure AdminUser where
  isActive : Bool
  isSuperuser : Bool
  deriving Repr, DecidableEq

namespace AdminUser

/-- Whether the user is an active super admin. -/
def seat (user : AdminUser) : Bool := user.isActive && user.isSuperuser

/-- The UPDATE of a user: only the columns assigned another value than the loaded one. -/
def flush (loaded assigned current : AdminUser) : AdminUser where
  isActive := flushColumn loaded.isActive assigned.isActive current.isActive
  isSuperuser := flushColumn loaded.isSuperuser assigned.isSuperuser current.isSuperuser

end AdminUser

/-- Why a call has no effect. -/
inductive AdminUserError where
  | cannotModifySelf
  | userNotFound
  | invalidRoleAssignment
  | teamNotFound
  | lastSuperAdminProtected
  | internal
  | aborted
  deriving Repr, DecidableEq

/-- A call on a user, with what it reads of the team it names. -/
inductive AdminUserCall where
  | promote (actor user : UserId)
  /-- The role is one in a team, which may be missing in the request or in the database. -/
  | demote (actor user : UserId) (teamGiven teamExists : Bool)
  | deactivateUser (actor user : UserId)
  | activateUser (user : UserId)
  deriving Repr, DecidableEq

/-- How far a call has come. -/
inductive AdminUserPhase where
  | start (call : AdminUserCall)
  /-- The active super admins are about to be locked, before the write. -/
  | guard (id : UserId) (loaded assigned : AdminUser)
  /-- The locking read goes over the rows it has found, one by one. -/
  | locking (id : UserId) (loaded assigned : AdminUser) (rest locked : List UserId)
  | writing (id : UserId) (loaded assigned : AdminUser) (locked : List UserId)
  | flushed
  | done (answer : Except AdminUserError Unit)
  deriving DecidableEq

/-- A call takes its next step, or is cut off. -/
inductive AdminUserEvent where
  | advance
  | abort
  deriving Repr, DecidableEq

/-- The users of the deployment. -/
abbrev AdminUsers (τ : Type*) := Rows UserId τ AdminUser

/-- What the trigger on the users refuses: the last active super admin loses the seat. The others are
counted in a fresh snapshot. -/
def enforceLastSuperAdmin {τ : Type*} [DecidableEq τ] (rows : AdminUsers τ) (tx : τ) (id : UserId)
    (old new : AdminUser) : Bool :=
  old.seat && !new.seat && !(rows.select tx AdminUser.seat).any (· != id)

namespace AdminUserPhase

variable {τ : Type*} [DecidableEq τ]

/-- What a call does once it has read the user. -/
def load (rows : AdminUsers τ) (tx : τ) : AdminUserCall → AdminUserPhase
  | .promote actor id =>
      if id = actor then .done (.error .cannotModifySelf)
      else
        match rows.view tx id with
        | none => .done (.error .userNotFound)
        | some user => .writing id user { user with isSuperuser := true } []
  | .demote actor id teamGiven teamExists =>
      if id = actor then .done (.error .cannotModifySelf)
      else
        match rows.view tx id with
        | none => .done (.error .userNotFound)
        | some user =>
            if !teamGiven then .done (.error .invalidRoleAssignment)
            else if !teamExists then .done (.error .teamNotFound)
            -- Only who was read as a super admin is taken the grade, under the lock.
            else if user.isSuperuser then .guard id user { user with isSuperuser := false }
            else .writing id user user []
  | .deactivateUser actor id =>
      if id = actor then .done (.error .cannotModifySelf)
      else
        match rows.view tx id with
        | none => .done (.error .userNotFound)
        | some user =>
            if !user.isActive then .done (.ok ())
            else if user.isSuperuser then .guard id user { user with isActive := false }
            else .writing id user { user with isActive := false } []
  | .activateUser id =>
      match rows.view tx id with
      | none => .done (.error .userNotFound)
      | some user =>
          if user.isActive then .done (.ok ())
          else .writing id user { user with isActive := true } []

/-- The next statement of a call; absent while it waits for a lock. -/
def advance (tx : τ) (rows : AdminUsers τ) :
    AdminUserPhase → Option (AdminUsers τ × AdminUserPhase)
  | .start call => some (rows, load rows tx call)
  | .guard id loaded assigned =>
      some (rows, .locking id loaded assigned (rows.select tx AdminUser.seat) [])
  -- SELECT ... FOR UPDATE: a row that no longer qualifies once its lock is granted is left out.
  | .locking id loaded assigned (other :: rest) locked =>
      (rows.change tx other AdminUser.seat some).map fun (next, matched) =>
        (next, .locking id loaded assigned rest (if matched then other :: locked else locked))
  | .locking id loaded assigned [] locked =>
      -- A user who was read as inactive takes no seat with the grade.
      if loaded.isActive && locked.length ≤ 1 then
        some (rows.rollback tx, .done (.error .lastSuperAdminProtected))
      else some (rows, .writing id loaded assigned locked)
  | .writing id loaded assigned _ =>
      match rows.view tx id with
      | none => some (rows.rollback tx, .done (.error .internal))
      | some current =>
          (rows.change tx id (fun _ => true) fun current => some (loaded.flush assigned current)).map
            fun (next, _) =>
              -- The trigger runs once the row is locked, before the new version is stored.
              if enforceLastSuperAdmin rows tx id current (loaded.flush assigned current) then
                (rows.rollback tx, .done (.error .lastSuperAdminProtected))
              else (next, .flushed)
  | .flushed => some (rows.commit tx, .done (.ok ()))
  | .done _ => none

/-- One event of one call. -/
def act (tx : τ) : AdminUserEvent → AdminUsers τ → AdminUserPhase →
    Option (AdminUsers τ × AdminUserPhase)
  | .advance, rows, phase => advance tx rows phase
  | .abort, _, .done _ => none
  | .abort, rows, _ => some (rows.rollback tx, .done (.error .aborted))

end AdminUserPhase

/-- The users and every call on them. -/
abbrev AdminUserSystem (τ : Type*) := Sessions (AdminUsers τ) τ AdminUserPhase

/-- The next state of the users and the calls. -/
def adminUserStep {τ : Type*} [DecidableEq τ] (system : AdminUserSystem τ)
    (event : τ × AdminUserEvent) : Option (AdminUserSystem τ) :=
  Sessions.step AdminUserPhase.act system event

end Trusca
