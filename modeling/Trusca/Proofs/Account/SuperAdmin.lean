import Trusca.Account.SuperAdmin
import Trusca.Store.Rows

/-! Some active super admin is left, unless a seat is taken from a user who was read without one. -/

namespace Trusca

open Store

variable {τ : Type*}

/-- Some user is an active super admin. -/
def HasSuperAdmin (rows : AdminUsers τ) : Prop :=
  ∃ id user, rows.committed id = some user ∧ user.seat = true

/-- The transaction holds nothing but locks, and the listed users among them are active super
admins. -/
structure SeatLocks (tx : τ) (rows : AdminUsers τ) (locked : List UserId) : Prop where
  unchanged : ∀ id version, rows.HeldBy tx id version → rows.committed id = version
  distinct : locked.Nodup
  seats : ∀ id ∈ locked, ∃ user, rows.HeldBy tx id (some user) ∧ user.seat = true

/-- What the transaction is about to publish leaves a seat: it takes none, or keeps another. -/
def LeavesSeat (tx : τ) (rows : AdminUsers τ) : Prop :=
  (∀ id version user, rows.HeldBy tx id version → rows.committed id = some user →
    user.seat = true → ∃ later, version = some later ∧ later.seat = true) ∨
  ∃ id user, rows.HeldBy tx id (some user) ∧ user.seat = true

namespace AdminUserPhase

/-- What a call may rely on between its own steps. -/
def Relies (tx : τ) (rows : AdminUsers τ) : AdminUserPhase → Prop
  | .start _ => SeatLocks tx rows []
  | .guard _ _ _ => SeatLocks tx rows []
  | .locking _ _ _ rest locked =>
      SeatLocks tx rows locked ∧ rest.Nodup ∧ ∀ id ∈ rest, id ∉ locked
  | .writing _ loaded assigned locked => SeatLocks tx rows locked ∧
      (loaded.seat = true → assigned.seat = false → 2 ≤ locked.length)
  | .flushed => LeavesSeat tx rows
  | .done _ => True

/-- Whether a write takes the grade or deactivates. -/
def takes (loaded assigned : AdminUser) : Bool :=
  loaded.isActive && !assigned.isActive || loaded.isSuperuser && !assigned.isSuperuser

/-- The side condition of a step: who is an active super admin when the grade is taken or the user is
deactivated was read as one. -/
def unovertaken (event : AdminUserEvent) (rows : AdminUsers τ) : AdminUserPhase → Bool
  | .writing id loaded assigned _ =>
      event == .abort || !takes loaded assigned ||
        (rows.committed id).all fun user => !user.seat || loaded.seat
  | _ => true

end AdminUserPhase

variable {tx : τ} {rows next : AdminUsers τ} {phase after : AdminUserPhase} {locked : List UserId}

/-- A transaction that holds nothing has only locks. -/
theorem SeatLocks.nothing (unheld : ∀ id version, ¬rows.HeldBy tx id version) :
    SeatLocks tx rows [] :=
  ⟨fun id version held => absurd held (unheld id version), List.nodup_nil, nofun⟩

/-- Locks survive what the others do. -/
theorem SeatLocks.kept (locks : SeatLocks tx rows locked) (steady : Rows.Undisturbed tx rows next) :
    SeatLocks tx next locked := by
  refine ⟨fun id version held => ?_, locks.distinct, fun id member => ?_⟩
  · have mine : rows.HeldBy tx id version := ((steady id).heldBy version).mp held
    exact ((steady id).committed _ mine).trans (locks.unchanged id version mine)
  · obtain ⟨user, held, seat⟩ := locks.seats id member
    exact ⟨user, ((steady id).heldBy _).mpr held, seat⟩

/-- What leaves a seat does so whatever the others do. -/
theorem LeavesSeat.kept (leaves : LeavesSeat tx rows) (steady : Rows.Undisturbed tx rows next) :
    LeavesSeat tx next := by
  rcases leaves with none_taken | ⟨id, user, held, seat⟩
  · refine .inl fun id version user held stored seat => ?_
    have mine : rows.HeldBy tx id version := ((steady id).heldBy version).mp held
    exact none_taken id version user mine (((steady id).committed _ mine).symm.trans stored) seat
  · exact .inr ⟨id, user, ((steady id).heldBy _).mpr held, seat⟩

/-- What a call relies on stays while others leave its rows alone. -/
theorem AdminUserPhase.Relies.kept (relies : phase.Relies tx rows)
    (steady : Rows.Undisturbed tx rows next) : phase.Relies tx next := by
  cases phase with
  | start call => exact SeatLocks.kept relies steady
  | guard id loaded assigned => exact SeatLocks.kept relies steady
  | locking id loaded assigned rest locked => exact ⟨relies.1.kept steady, relies.2⟩
  | writing id loaded assigned locked => exact ⟨relies.1.kept steady, relies.2⟩
  | flushed => exact LeavesSeat.kept relies steady
  | done answer => trivial

variable [DecidableEq τ]

/-- What a transaction with nothing but locks sees is what is committed. -/
theorem SeatLocks.view_eq (locks : SeatLocks tx rows locked) (id : UserId) :
    rows.view tx id = rows.committed id := by
  rcases Row.heldBy_or_unheld (rows.row id) tx with ⟨version, held⟩ | unheld
  · exact held.view_eq.trans (locks.unchanged id version held).symm
  · exact Row.view_eq_committed unheld

/-- The commit of a transaction that leaves a seat. -/
theorem LeavesSeat.commit (leaves : LeavesSeat tx rows) (some_admin : HasSuperAdmin rows) :
    HasSuperAdmin (rows.commit tx) := by
  rcases leaves with none_taken | ⟨id, user, held, seat⟩
  · obtain ⟨id, user, stored, seat⟩ := some_admin
    -- The seat that was there is kept by the transaction, or out of its hands.
    rcases Row.heldBy_or_unheld (rows.row id) tx with ⟨version, held⟩ | unheld
    · obtain ⟨later, rfl, still⟩ := none_taken id version user held stored seat
      exact ⟨id, later, Rows.commit_committed_of_heldBy held, still⟩
    · exact ⟨id, user, (Rows.commit_committed_of_unheld unheld).trans stored, seat⟩
  · exact ⟨id, user, Rows.commit_committed_of_heldBy held, seat⟩

/-- A step of a call: some active super admin is left, and the others keep their locks. -/
structure SeatAdvances (tx : τ) (rows next : AdminUsers τ) (after : AdminUserPhase) : Prop where
  admin : HasSuperAdmin rows → HasSuperAdmin next
  others : ∀ other, other ≠ tx → Rows.Undisturbed other rows next
  relies : after.Relies tx next

omit [DecidableEq τ] in
/-- A step that only reads. -/
theorem SeatAdvances.idle (relies : after.Relies tx rows) : SeatAdvances tx rows rows after :=
  ⟨id, fun other _ => .refl other rows, relies⟩

/-- A call that ends without a trace. -/
theorem SeatAdvances.rolled_back {answer : Except AdminUserError Unit} :
    SeatAdvances tx rows (rows.rollback tx) (.done answer) where
  admin := by
    rintro ⟨id, user, stored, seat⟩
    exact ⟨id, user, by rw [Rows.rollback_committed]; exact stored, seat⟩
  others := fun _ different => Rows.rollback_undisturbed different
  relies := trivial

/-- The locks of a transaction after one more row. -/
theorem SeatLocks.lock {other : UserId} {matched : Bool} (locks : SeatLocks tx rows locked)
    (new : other ∉ locked) (changed : rows.change tx other AdminUser.seat some = some (next, matched)) :
    SeatLocks tx next (if matched then other :: locked else locked) := by
  -- The lock writes back what is committed.
  have unchanged : ∀ id version, next.HeldBy tx id version → next.committed id = version := by
    intro id version held
    rw [Rows.change_committed changed]
    rcases Rows.change_heldBy changed held with before | ⟨rfl, found, seen, _, rfl⟩
    · exact locks.unchanged id version before
    · rw [← seen, locks.view_eq]
  -- The seats that were locked before stay so.
  have kept : ∀ id ∈ locked, ∃ user, next.HeldBy tx id (some user) ∧ user.seat = true := by
    intro id member
    obtain ⟨user, held, seat⟩ := locks.seats id member
    exact ⟨user, Rows.change_keeps changed (fun same => new (same ▸ member)) held, seat⟩
  -- The row is a seat when the lock has met it.
  cases matched with
  | false => exact ⟨unchanged, locks.distinct, kept⟩
  | true =>
    refine ⟨unchanged, List.nodup_cons.mpr ⟨new, locks.distinct⟩, fun id member => ?_⟩
    rcases List.mem_cons.mp member with rfl | earlier
    · obtain ⟨user, _, seat, held⟩ := Rows.change_matched changed
      exact ⟨user, held, seat⟩
    · exact kept id earlier

omit [DecidableEq τ] in
/-- A write that neither takes the grade nor deactivates leaves a seat in its place. -/
theorem AdminUser.seat_flush_of_not_takes {loaded assigned current : AdminUser}
    (seat : current.seat = true) (gives : AdminUserPhase.takes loaded assigned = false) :
    (loaded.flush assigned current).seat = true := by
  -- Each column is either left as it is, or set from false to true.
  obtain ⟨active, grade⟩ := loaded
  obtain ⟨active', grade'⟩ := assigned
  obtain ⟨active'', grade''⟩ := current
  revert seat gives
  cases active <;> cases active' <;> cases grade <;> cases grade' <;>
    simp +contextual [AdminUser.seat, AdminUser.flush, flushColumn, AdminUserPhase.takes]

/-- The write of a user who was read with the seat that it takes leaves another. -/
theorem SeatLocks.write {id : UserId} {loaded assigned : AdminUser} {matched : Bool}
    (locks : SeatLocks tx rows locked)
    (guarded : loaded.seat = true → assigned.seat = false → 2 ≤ locked.length)
    (current : AdminUserPhase.takes loaded assigned = true →
      (rows.committed id).all (fun user => !user.seat || loaded.seat) = true)
    (changed : rows.change tx id (fun _ => true)
      (fun current => some (loaded.flush assigned current)) = some (next, matched)) :
    LeavesSeat tx next := by
  by_cases many : 2 ≤ locked.length
  · -- Of two locked users one is not the one that is written.
    obtain ⟨other, member, different⟩ : ∃ other ∈ locked, other ≠ id := by
      match locked, many, locks.distinct with
      | first :: second :: rest, _, distinct =>
        have apart : first ≠ second := fun same => by simp [same] at distinct
        by_cases written : first = id
        · exact ⟨second, by simp, fun same => apart (written.trans same.symm)⟩
        · exact ⟨first, by simp, written⟩
    obtain ⟨user, held, seat⟩ := locks.seats other member
    exact .inr ⟨other, user, Rows.change_keeps changed different held, seat⟩
  · refine .inl fun other version user held stored seat => ?_
    rw [Rows.change_committed changed] at stored
    rcases Rows.change_heldBy changed held with before | ⟨rfl, found, seen, _, rfl⟩
    · -- The row is only locked.
      exact ⟨user, (locks.unchanged other version before).symm.trans stored, seat⟩
    · rw [locks.view_eq, stored] at seen
      cases seen
      refine ⟨_, rfl, ?_⟩
      -- A write that takes neither column leaves the seat as it is.
      by_cases taking : AdminUserPhase.takes loaded assigned = true
      swap
      · exact AdminUser.seat_flush_of_not_takes seat (by simpa using taking)
      -- The user was read with the seat, so that it is kept unless two seats are locked.
      have had : loaded.seat = true := by
        have read := current taking
        rw [stored] at read
        simpa [seat] using read
      have keeps : assigned.seat = true := by
        by_contra taken
        exact many (guarded had (by simpa using taken))
      have same : user = loaded := by
        cases user
        cases loaded
        simp_all [AdminUser.seat]
      subst same
      simpa only [AdminUser.seat, AdminUser.flush, flushColumn_self] using keeps

namespace AdminUserPhase

/-- What a call relies on once it has read the user. -/
theorem load_relies (call : AdminUserCall) (locks : SeatLocks tx rows []) :
    (load rows tx call).Relies tx rows := by
  cases call with
  | promote actor id =>
    simp only [load]
    split
    · trivial
    · split
      · trivial
      · -- A promotion leaves who had a seat in it.
        refine ⟨locks, fun had taken => ?_⟩
        simp only [AdminUser.seat, Bool.and_eq_true] at had
        simp [AdminUser.seat, had.1] at taken
  -- A demotion of a user who had a seat goes on under the guard, and any other takes nothing.
  | demote actor id teamGiven teamExists =>
    simp only [load]
    split
    · trivial
    · split
      · trivial
      · split
        · trivial
        · split
          · trivial
          · split
            · exact locks
            · rename_i user _ _ _ grade
              refine ⟨locks, fun had => absurd had ?_⟩
              simp [AdminUser.seat, grade]
  -- So does a deactivation.
  | deactivateUser actor id =>
    simp only [load]
    split
    · trivial
    · split
      · trivial
      · split
        · trivial
        · split
          · exact locks
          · rename_i user _ _ grade
            refine ⟨locks, fun had => absurd had ?_⟩
            simp [AdminUser.seat, grade]
  -- Whoever is activated had no seat before.
  | activateUser id =>
    simp only [load]
    split
    · trivial
    · split
      · trivial
      · rename_i user _ inactive
        refine ⟨locks, fun had => absurd had ?_⟩
        simp [AdminUser.seat, inactive]

/-- Every step that overtakes nobody leaves an active super admin. -/
theorem act_advances {event : AdminUserEvent} (relies : phase.Relies tx rows)
    (met : unovertaken event rows phase = true)
    (acted : act tx event rows phase = some (next, after)) : SeatAdvances tx rows next after := by
  -- An abort gives everything up; otherwise one case for each step of a call.
  cases event with
  | abort =>
    cases phase <;> simp only [act, Option.some.injEq, Prod.mk.injEq, reduceCtorEq] at acted <;>
      obtain ⟨rfl, rfl⟩ := acted <;> exact .rolled_back
  | advance =>
    cases phase with
    | start call =>
      cases acted
      exact .idle (load_relies call relies)
    | guard id loaded assigned =>
      cases acted
      exact .idle ⟨relies, rows.nodup.filter _, fun _ _ => List.not_mem_nil⟩
    | locking id loaded assigned rest locked =>
      obtain ⟨locks, distinct, apart⟩ := relies
      -- Every seat has been visited, and the count is made of the locked ones.
      cases rest with
      | nil =>
        simp only [act, advance] at acted
        split at acted
        · cases acted
          exact .rolled_back
        · -- There is a second seat beside the one that is given up.
          rename_i enough
          cases acted
          refine .idle ⟨locks, fun had _ => ?_⟩
          simp only [AdminUser.seat, Bool.and_eq_true] at had
          simp only [had.1, Bool.true_and, decide_eq_true_eq] at enough
          omega
      | cons other rest =>
        simp only [act, advance, Option.map_eq_some_iff, Prod.exists] at acted
        obtain ⟨written, matched, changed, result⟩ := acted
        -- One more seat is locked, and the rows that are committed stay as they are.
        cases result
        obtain ⟨first, later⟩ := List.nodup_cons.mp distinct
        refine ⟨?_, fun _ different => Rows.change_undisturbed changed different,
          locks.lock (apart other List.mem_cons_self) changed, later, fun id member => ?_⟩
        · rintro ⟨id, user, stored, seat⟩
          exact ⟨id, user, (Rows.change_committed changed id).trans stored, seat⟩
        · have old := apart id (List.mem_cons_of_mem _ member)
          split
          · rw [List.mem_cons, not_or]
            exact ⟨fun same => first (same ▸ member), old⟩
          · exact old
    | writing id loaded assigned locked =>
      -- The write takes a seat away only where the guard has counted another.
      obtain ⟨locks, guarded⟩ := relies
      simp only [act, advance] at acted
      split at acted
      · cases acted
        exact .rolled_back
      · simp only [Option.map_eq_some_iff, Prod.exists] at acted
        obtain ⟨written, matched, changed, result⟩ := acted
        -- A row that is gone ends the call without a write.
        split at result
        · cases result
          exact .rolled_back
        · cases result
          refine ⟨?_, fun _ different => Rows.change_undisturbed changed different,
            locks.write guarded (fun taking => by simpa [unovertaken, taking] using met) changed⟩
          rintro ⟨id, user, stored, seat⟩
          exact ⟨id, user, (Rows.change_committed changed id).trans stored, seat⟩
    | flushed =>
      cases acted
      exact ⟨LeavesSeat.commit relies, fun _ different => Rows.commit_undisturbed different, trivial⟩
    | done answer => cases acted

end AdminUserPhase

/-- Nobody holds a user, and no call has begun. -/
structure AdminUserSystem.Fresh (system : AdminUserSystem τ) : Prop where
  unlocked : ∀ id, (system.store.row id).held = none
  unbegun : ∀ tx, (∃ call, system.phase tx = .start call) ∨ ∃ answer, system.phase tx = .done answer

/-- An active super admin who is demoted or deactivated was read as one. -/
abbrev SeatUnovertaken : AdminUserSystem τ → τ × AdminUserEvent → Prop :=
  Sessions.Allows fun rows event phase => AdminUserPhase.unovertaken event rows phase = true

section Runs

variable {start last : AdminUserSystem τ}

/-- In every run in which nobody's seat is taken who was read without one, some active super admin
is left. -/
theorem super_admin_kept {events : List (τ × AdminUserEvent)} (fresh : start.Fresh)
    (some_admin : HasSuperAdmin start.store)
    (met : Guarded adminUserStep SeatUnovertaken start events)
    (ran : run adminUserStep start events = some last) : HasSuperAdmin last.store := by
  -- Before anything begins, nobody holds a row.
  have sound : Sessions.Annotated HasSuperAdmin (fun tx rows phase =>
      AdminUserPhase.Relies tx rows phase) start := by
    refine ⟨some_admin, fun tx => ?_⟩
    rcases fresh.unbegun tx with ⟨call, begun⟩ | ⟨answer, begun⟩
    · rw [begun]
      exact .nothing fun id => Row.not_heldBy_of_unlocked (fresh.unlocked id)
    · rw [begun]
      trivial
  -- Each event keeps a super-admin, and what the other sessions rely on.
  have kept : Sessions.Annotated HasSuperAdmin (fun tx rows phase =>
      AdminUserPhase.Relies tx rows phase) last := by
    refine run_invariant (fun world event next holds allowed taken => ?_) sound met ran
    obtain ⟨tx, event⟩ := event
    have acting : ∀ rows phase,
        AdminUserPhase.act tx event world.store (world.phase tx) = some (rows, phase) →
        SeatAdvances tx world.store rows phase := fun _ _ acted =>
      AdminUserPhase.act_advances (holds.own tx) allowed acted
    refine holds.step taken (fun rows phase acted => ?_) ?_
    · exact ⟨(acting rows phase acted).admin holds.shared, (acting rows phase acted).relies⟩
    · intro rows phase other progress acted different relies
      exact AdminUserPhase.Relies.kept relies ((acting rows phase acted).others other different)
  exact kept.shared

omit [DecidableEq τ] in
/-- A table in which no listed user has a seat. -/
theorem not_hasSuperAdmin {rows : AdminUsers τ}
    (none_seated : rows.keys.all (fun id => !(rows.committed id).any AdminUser.seat) = true) :
    ¬HasSuperAdmin rows := by
  rintro ⟨id, user, stored, seat⟩
  have vacant := List.all_eq_true.mp none_seated id (Rows.mem_keys_of_committed stored)
  simp [stored, seat] at vacant

/-- User 0 is a super admin. Two calls deactivate users 1 and 2, two more promote them, and a last
one takes user 0 the grade. -/
def fiveCalls : AdminUserSystem (Fin 5) where
  store := Rows.stored [(0, ⟨true, true⟩), (1, ⟨true, false⟩), (2, ⟨true, false⟩)]
  phase := fun tx =>
    match tx with
    | 0 => .start (.deactivateUser 0 1)
    | 1 => .start (.deactivateUser 0 2)
    | 2 => .start (.promote 0 1)
    | 3 => .start (.promote 0 2)
    | 4 => .start (.demote 1 0 true true)

/-- The five calls start fresh. -/
theorem fiveCalls_fresh : fiveCalls.Fresh := by
  refine ⟨fun _ => rfl, fun tx => .inl ?_⟩
  match tx with
  | 0 | 1 | 2 | 3 | 4 => exact ⟨_, rfl⟩

/-- The five calls start with a super-admin. -/
theorem fiveCalls_admin : HasSuperAdmin fiveCalls.store := ⟨0, ⟨true, true⟩, rfl, rfl⟩

/-- User 1 is promoted, and then user 0 loses the grade under the lock on both. -/
theorem super_admin_kept_handed_over : ∃ last, run adminUserStep fiveCalls
      (List.replicate 3 (2, AdminUserEvent.advance) ++
        List.replicate 7 (4, AdminUserEvent.advance)) = some last ∧
    last.store.committed 0 = some ⟨true, false⟩ ∧ HasSuperAdmin last.store := by
  have met : Guarded adminUserStep SeatUnovertaken fiveCalls
      (List.replicate 3 (2, AdminUserEvent.advance) ++
        List.replicate 7 (4, AdminUserEvent.advance)) := by decide
  exact ⟨_, rfl, by decide, super_admin_kept fiveCalls_fresh fiveCalls_admin met rfl⟩

/-- Users 1 and 2 are read before their promotion, so that nobody locks the others when they are
deactivated, and each write passes the trigger on the strength of the other's seat. -/
theorem super_admins_lost : fiveCalls.Fresh ∧ HasSuperAdmin fiveCalls.store ∧
    ∃ last, run adminUserStep fiveCalls
      ([(0, AdminUserEvent.advance), (1, .advance)] ++ List.replicate 3 (2, AdminUserEvent.advance) ++
        List.replicate 3 (3, AdminUserEvent.advance) ++ List.replicate 8 (4, AdminUserEvent.advance) ++
        [(0, AdminUserEvent.advance), (1, .advance), (0, .advance), (1, .advance)]) = some last ∧
      ¬HasSuperAdmin last.store := by
  refine ⟨fiveCalls_fresh, fiveCalls_admin, _, rfl, ?_⟩
  exact not_hasSuperAdmin (by decide)

end Runs

end Trusca
