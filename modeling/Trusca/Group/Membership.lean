import Trusca.Authz.Access
import Trusca.Store.Rows
import Trusca.Store.Session

/-! The memberships of one team and the three calls that write them. -/

namespace Trusca

abbrev MembershipId := Nat

/-- One membership of the team. -/
structure TeamMembership where
  userId : UserId
  role : Role
  deriving Repr, DecidableEq

namespace TeamMembership

/-- Whether the membership administers the team. -/
def admin (membership : TeamMembership) : Bool := membership.role == .groupAdmin

end TeamMembership

/-- What a call reads of the user it is about. -/
structure MemberAccount where
  isServiceAccount : Bool
  /-- Whether the call would take the last active super admin its grade. -/
  lastSuperAdmin : Bool
  deriving Repr, DecidableEq

/-- A call on the team. -/
inductive MemberCall where
  | addTeamMember (user : UserId) (role : Role)
  | removeTeamMember (user : UserId)
  | updateUserRole (actor user : UserId) (role : Role)
  deriving Repr, DecidableEq

/-- What a guarded call goes on to do with the membership it has read. -/
inductive GuardedWrite where
  | remove
  | demote (role : Role)
  deriving Repr, DecidableEq

/-- The way a call came to its write. -/
inductive WritePath where
  /-- The guard has locked these memberships of admins. -/
  | guarded (locked : List MembershipId)
  /-- The membership was read in a lower role, which the guard does not ask about. -/
  | lowerRole
  /-- The role was set from the user's own page, which has no guard. -/
  | upsert
  | joined
  deriving Repr, DecidableEq

/-- How far a call has come. -/
inductive MemberPhase where
  | start (call : MemberCall) (account : Option MemberAccount) (fresh : MembershipId)
  | guard (id : MembershipId) (loaded : Role) (write : GuardedWrite)
  /-- The locking read goes over the rows it has found, one by one. -/
  | locking (id : MembershipId) (loaded : Role) (write : GuardedWrite) (rest : List MembershipId)
      (locked : List MembershipId)
  | writing (id : MembershipId) (loaded role : Role) (path : WritePath)
  | deleting (id : MembershipId) (path : WritePath)
  | inserting (id : MembershipId) (membership : TeamMembership)
  | flushed (path : WritePath)
  | done
  deriving Repr, DecidableEq

/-- A session takes its next step, or is cut off. -/
inductive MemberEvent where
  | advance
  | abort
  deriving Repr, DecidableEq

/-- The memberships of the team. -/
abbrev Memberships (τ : Type*) := Store.Rows MembershipId τ TeamMembership

namespace Memberships

variable {τ : Type*} [DecidableEq τ]

/-- The membership of a user, as a plain SELECT finds it. -/
def find (rows : Memberships τ) (tx : τ) (user : UserId) :
    Option (MembershipId × TeamMembership) :=
  rows.keys.findSome? fun id =>
    match rows.view tx id with
    | some membership => if membership.userId = user then some (id, membership) else none
    | none => none

/-- The number of members, as a plain SELECT counts them. -/
def countTeamMembers (rows : Memberships τ) (tx : τ) : Nat := (rows.select tx fun _ => true).length

/-- Whether a committed row has the user, which the unique constraint refuses. -/
def duplicate (rows : Memberships τ) (user : UserId) : Bool :=
  rows.keys.any fun id => (rows.committed id).any fun membership => membership.userId == user

/-- Whether another transaction is about to add the user, which the unique constraint waits for. -/
def contested (rows : Memberships τ) (tx : τ) (user : UserId) : Bool :=
  rows.keys.any fun id => (rows.row id).held.any fun lock =>
    lock.1 != tx && lock.2.any fun membership => membership.userId == user

end Memberships

namespace MemberPhase

variable {τ : Type*} [DecidableEq τ]

/-- What a call does once it has read the user and the membership. -/
def load (rows : Memberships τ) (tx : τ) (fresh : MembershipId) : MemberCall →
    Option MemberAccount → MemberPhase
  | .addTeamMember user role, account =>
      match account with
      | none => .done
      | some account =>
          if account.isServiceAccount then .done
          else
            match rows.find tx user with
            | none => .inserting fresh ⟨user, role⟩
            | some (id, existing) =>
                if existing.role = role then .done
                else if existing.role = .groupAdmin ∧ role ≠ .groupAdmin then
                  .guard id existing.role (.demote role)
                else .writing id existing.role role .lowerRole
  | .removeTeamMember user, account =>
      match rows.find tx user with
      | none => .done
      | some (id, existing) =>
          -- A membership without a user can still be removed.
          if account.any MemberAccount.isServiceAccount then .done
          else if existing.role = .groupAdmin then .guard id existing.role .remove
          else .deleting id .lowerRole
  | .updateUserRole actor user role, account =>
      if user = actor then .done
      else
        match account with
        | none => .done
        | some account =>
            -- The global grade leaves the memberships alone.
            if account.isServiceAccount || role == .superAdmin || account.lastSuperAdmin then .done
            else
              match rows.find tx user with
              | none => .inserting fresh ⟨user, role⟩
              | some (id, existing) => .writing id existing.role role .upsert

/-- Whether the guard refuses: no other admin would be left, and other members would. -/
def refuses (rows : Memberships τ) (tx : τ) (locked : List MembershipId) : GuardedWrite → Bool
  | .remove => locked.length ≤ 1 && rows.countTeamMembers tx > 1
  | .demote _ => locked.length ≤ 1 && rows.countTeamMembers tx - 1 > 0

/-- The write that the guard has let through. -/
def permitted (id : MembershipId) (loaded : Role) (locked : List MembershipId) :
    GuardedWrite → MemberPhase
  | .remove => .deleting id (.guarded locked)
  | .demote role => .writing id loaded role (.guarded locked)

/-- The next statement of a call; absent while the statement waits for a lock. -/
def advance (tx : τ) (rows : Memberships τ) : MemberPhase → Option (Memberships τ × MemberPhase)
  | .start call account fresh => some (rows, load rows tx fresh call account)
  | .guard id loaded write =>
      some (rows, .locking id loaded write (rows.select tx TeamMembership.admin) [])
  -- A row is locked only when its newest version is still that of an admin.
  | .locking id loaded write (key :: rest) locked =>
      (rows.change tx key TeamMembership.admin some).map fun (rows, matched) =>
        (rows, .locking id loaded write rest (if matched then key :: locked else locked))
  | .locking id loaded write [] locked =>
      if refuses rows tx locked write then some (rows.rollback tx, .done)
      else some (rows, permitted id loaded locked write)
  | .writing id loaded role path =>
      (rows.change tx id (fun _ => true) fun membership =>
        some { membership with role := Store.flushColumn loaded role membership.role }).map
          fun (rows, matched) =>
            -- An UPDATE that finds no row fails; a DELETE that finds none does not.
            if matched then (rows, .flushed path) else (rows.rollback tx, .done)
  | .deleting id path =>
      (rows.change tx id (fun _ => true) fun _ => none).map fun (rows, _) => (rows, .flushed path)
  | .inserting id membership =>
      if rows.contested tx membership.userId then none
      else if rows.duplicate membership.userId then some (rows.rollback tx, .done)
      else (rows.insert tx id membership).map fun rows => (rows, .flushed .joined)
  | .flushed _ => some (rows.commit tx, .done)
  | .done => none

/-- One event of one session. -/
def act (tx : τ) : MemberEvent → Memberships τ → MemberPhase →
    Option (Memberships τ × MemberPhase)
  | .advance, rows, phase => advance tx rows phase
  | .abort, _, .done => none
  | .abort, rows, _ => some (rows.rollback tx, .done)

end MemberPhase

/-- The memberships and every call on them. -/
abbrev MemberSystem (τ : Type*) := Store.Sessions (Memberships τ) τ MemberPhase

/-- The next state of the memberships and the calls. -/
def memberStep {τ : Type*} [DecidableEq τ] (system : MemberSystem τ) (event : τ × MemberEvent) :
    Option (MemberSystem τ) :=
  Store.Sessions.step MemberPhase.act system event

end Trusca
