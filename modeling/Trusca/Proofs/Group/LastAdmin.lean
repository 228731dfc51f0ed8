import Mathlib.Data.Fintype.Basic
import Trusca.Group.Membership

/-! When the last admin of a team can lose the role, over whole runs of the calls on the team. -/

namespace Trusca

open Store

variable {τ : Type*} [DecidableEq τ]

/-- No membership of the table is that of an admin. -/
def Memberships.NoAdmin (rows : Memberships τ) : Prop :=
  ∀ key membership, rows.committed key = some membership → membership.admin = false

instance (rows : Memberships τ) : Decidable rows.NoAdmin :=
  decidable_of_iff (∀ key ∈ rows.keys, ∀ membership ∈ rows.committed key,
    membership.admin = false) <| by
      constructor
      · intro listed key membership stored
        exact listed key (Rows.mem_keys_of_committed stored) membership stored
      · intro none_admin key _ membership stored
        exact none_admin key membership stored

/-- A step that takes the last admin away leaves nobody, or only the member it has demoted. -/
structure KeepsAdmin (before after : Memberships τ) : Prop where
  removal : ∀ id membership, before.committed id = some membership → membership.admin = true →
    after.committed id = none → after.NoAdmin → ∀ key, after.committed key = none
  demotion : ∀ id membership lowered, before.committed id = some membership →
    membership.admin = true → after.committed id = some lowered → lowered.admin = false →
    after.NoAdmin → ∀ key, key ≠ id → after.committed key = none

/-- At most one membership is committed. -/
def Memberships.Alone (rows : Memberships τ) : Prop :=
  ∀ first second, (rows.committed first).isSome = true → (rows.committed second).isSome = true →
    first = second

/-- The guard has let the call through because the team has no other member. -/
def MemberPhase.lastMember : MemberPhase → Bool
  | .writing _ _ _ (.guarded locked) | .deleting _ (.guarded locked)
  | .flushed (.guarded locked) => locked.length ≤ 1
  | _ => false

/-- Whether the transaction takes an admin's role or membership away at this row. -/
def Memberships.lowers (rows : Memberships τ) (tx : τ) (key : MembershipId) : Bool :=
  rows.ownedBy tx key && (rows.committed key).any TeamMembership.admin &&
    !(rows.view tx key).any TeamMembership.admin

/-- A commit does not go round the guard: nobody joins behind the back of a call that has counted
one member, no promotion is undone by a call that has read the lower role, and a role set from the
user's own page is not that of the last admin among others. -/
def MemberSystem.Sheltered (system : MemberSystem τ) (tx : τ) : MemberPhase → Prop
  | .flushed .joined => ∀ other, (system.phase other).lastMember = false
  | .flushed .lowerRole => ∀ key ∈ system.store.keys, system.store.lowers tx key = false
  | .flushed .upsert => ∀ key ∈ system.store.keys, system.store.lowers tx key = true →
      (∃ other ∈ system.store.keys, other ≠ key ∧
        (system.store.committed other).any TeamMembership.admin = true) ∨
      ∀ other ∈ system.store.keys, other ≠ key → system.store.committed other = none
  | _ => True

/-- With finitely many calls, whether a commit goes round the guard can be computed. -/
instance [Fintype τ] (system : MemberSystem τ) (tx : τ) : DecidablePred (system.Sheltered tx)
  | .flushed .joined =>
      inferInstanceAs (Decidable (∀ other, (system.phase other).lastMember = false))
  | .flushed .lowerRole =>
      inferInstanceAs (Decidable (∀ key ∈ system.store.keys, system.store.lowers tx key = false))
  | .flushed .upsert => inferInstanceAs (Decidable (∀ key ∈ system.store.keys,
      system.store.lowers tx key = true →
        (∃ other ∈ system.store.keys, other ≠ key ∧
          (system.store.committed other).any TeamMembership.admin = true) ∨
        ∀ other ∈ system.store.keys, other ≠ key → system.store.committed other = none))
  | .flushed (.guarded _) | .start .. | .guard .. | .locking .. | .writing .. | .deleting ..
  | .inserting .. | .done => .isTrue trivial

/-- What an event counts as: a call that is cut off does what one that is over could do. -/
def MemberPhase.acting (phase : MemberPhase) : MemberEvent → MemberPhase
  | .advance => phase
  | .abort => .done

/-- An event does not go round the guard. -/
def MemberSystem.KeepsGuard (system : MemberSystem τ) (event : τ × MemberEvent) : Prop :=
  system.Sheltered event.1 ((system.phase event.1).acting event.2)

instance [Fintype τ] (system : MemberSystem τ) : DecidablePred system.KeepsGuard :=
  fun event => inferInstanceAs (Decidable (system.Sheltered event.1 _))

/-- What the guard has locked: rows of admins, each once, and beside them at most the row that the
call writes. -/
structure GuardLocks (tx : τ) (rows : Memberships τ) (target : Option MembershipId)
    (locked : List MembershipId) : Prop where
  nodup : locked.Nodup
  locks : ∀ key ∈ locked, (∃ version, rows.HeldBy tx key version) ∧
    ∃ membership, rows.committed key = some membership ∧ membership.admin = true
  held : ∀ key version, rows.HeldBy tx key version → (rows.committed key).isSome = true ∧
    (some key = target ∨ key ∈ locked ∧ version = rows.committed key)

/-- What a call holds on its way to the write. -/
def PathHolds (tx : τ) (rows : Memberships τ) (target : Option MembershipId) : WritePath → Prop
  | .guarded locked => GuardLocks tx rows target locked ∧ (locked.length ≤ 1 → rows.Alone)
  | .lowerRole | .upsert => GuardLocks tx rows target []
  | .joined => ∀ key version, rows.HeldBy tx key version → rows.committed key = none

/-- What a call holds where it stands. -/
def CallHolds (tx : τ) (rows : Memberships τ) : MemberPhase → Prop
  | .locking _ _ _ rest locked => GuardLocks tx rows none locked ∧ rest.Nodup ∧
      ∀ key ∈ rest, key ∉ locked
  | .writing _ _ _ path | .deleting _ path => path ≠ .joined ∧ PathHolds tx rows none path
  | .flushed path => ∃ id, PathHolds tx rows (some id) path
  | _ => GuardLocks tx rows none []

section Locks

variable {tx : τ} {rows after : Memberships τ} {target : Option MembershipId}
  {locked : List MembershipId} {id key : MembershipId}

omit [DecidableEq τ] in
/-- A call that holds nothing has locked nothing. -/
theorem GuardLocks.empty (free : ∀ key version, ¬rows.HeldBy tx key version) :
    GuardLocks tx rows target [] :=
  ⟨List.nodup_nil, fun _ member => (by cases member),
    fun key version held => absurd held (free key version)⟩

omit [DecidableEq τ] in
/-- Without a target and without locks, a call holds nothing. -/
theorem GuardLocks.nothing (locks : GuardLocks tx rows none []) (key : MembershipId)
    (version : Option TeamMembership) : ¬rows.HeldBy tx key version := by
  intro held
  rcases (locks.held key version held).2 with none_some | ⟨member, _⟩
  · cases none_some
  · cases member

omit [DecidableEq τ] in
/-- The locks of a call survive what others do. -/
theorem GuardLocks.undisturbed (locks : GuardLocks tx rows target locked)
    (kept : Rows.Undisturbed tx rows after) : GuardLocks tx after target locked := by
  refine ⟨locks.nodup, fun key member => ?_, fun key version held => ?_⟩
  · -- A locked key is held, and its row stands as it was read.
    obtain ⟨⟨version, held⟩, membership, stored, admin⟩ := locks.locks key member
    exact ⟨⟨version, ((kept key).heldBy version).mpr held⟩, membership,
      ((kept key).committed version held).trans stored, admin⟩
  · -- And what is held was held before.
    have before := ((kept key).heldBy version).mp held
    have same : after.committed key = rows.committed key := (kept key).committed version before
    rw [same]
    exact locks.held key version before

/-- A locking read of a row that the call does not hold adds it when it is that of an admin. -/
theorem GuardLocks.lock {matched : Bool} (locks : GuardLocks tx rows none locked)
    (fresh : key ∉ locked)
    (changed : rows.change tx key TeamMembership.admin some = some (after, matched)) :
    GuardLocks tx after none (if matched then key :: locked else locked) := by
  -- The row is not among the locked ones, so nothing of it is held.
  have free : ∀ version, ¬(rows.row key).HeldBy tx version := by
    intro version held
    rcases (locks.held key version held).2 with absent | ⟨member, _⟩
    · cases absent
    · exact fresh member
  have steady := Rows.change_committed changed
  rcases Row.change_cases (Rows.change_here changed) with ⟨rfl, unchanged, _⟩ |
    ⟨membership, rfl, seen, admin, _, _, mine⟩
  · -- The row was left alone, and with it the whole table.
    refine locks.undisturbed fun other => ?_
    by_cases equal : other = key
    · rw [equal, unchanged]
      exact .refl tx _
    · rw [Rows.change_elsewhere changed equal]
      exact .refl tx _
  · -- The row was read as it is stored, an administrator, and is locked now.
    have stored : rows.committed key = some membership :=
      (Row.view_eq_committed free).symm.trans seen
    rw [if_pos rfl]
    refine ⟨List.nodup_cons.mpr ⟨fresh, locks.nodup⟩, fun other member => ?_,
      fun other version held => ?_⟩
    · -- The new lock, and the locks from before.
      rw [steady]
      by_cases equal : other = key
      · subst equal
        exact ⟨⟨_, mine⟩, membership, stored, admin⟩
      · unfold Rows.HeldBy
        rw [Rows.change_elsewhere changed equal]
        exact locks.locks other ((List.mem_cons.mp member).resolve_left equal)
    · -- What is held is a locked row, as it is stored.
      rw [steady]
      by_cases equal : other = key
      · subst equal
        obtain ⟨_, rfl⟩ := held.unique mine
        rw [stored]
        exact ⟨rfl, .inr ⟨List.mem_cons_self, rfl⟩⟩
      · unfold Rows.HeldBy at held
        rw [Rows.change_elsewhere changed equal] at held
        obtain ⟨present, absent | ⟨member, version_eq⟩⟩ := locks.held other version held
        · cases absent
        · exact ⟨present, .inr ⟨List.mem_cons_of_mem _ member, version_eq⟩⟩

/-- A write touches the row of its target only. -/
theorem GuardLocks.write {edit : TeamMembership → Option TeamMembership} {matched : Bool}
    (locks : GuardLocks tx rows none locked)
    (changed : rows.change tx id (fun _ => true) edit = some (after, matched)) :
    GuardLocks tx after (some id) locked := by
  have steady := Rows.change_committed changed
  have here := Row.change_cases (Rows.change_here changed)
  refine ⟨locks.nodup, fun other member => ?_, fun other version held => ?_⟩
  · -- A locked row stays locked, written or not.
    obtain ⟨⟨version, held⟩, stored⟩ := locks.locks other member
    rw [steady]
    refine ⟨?_, stored⟩
    by_cases equal : other = id
    · subst equal
      rcases here with ⟨_, unchanged, _⟩ | ⟨_, _, _, _, _, _, mine⟩
      · unfold Rows.HeldBy
        rw [unchanged]
        exact ⟨version, held⟩
      · exact ⟨_, mine⟩
    · unfold Rows.HeldBy
      rw [Rows.change_elsewhere changed equal]
      exact ⟨version, held⟩
  · -- What is held is the row written, or was held before.
    rw [steady]
    by_cases equal : other = id
    · subst equal
      refine ⟨?_, .inl rfl⟩
      rcases Row.heldBy_or_unheld (rows.row other) tx with ⟨before, mine⟩ | free
      · exact (locks.held other before mine).1
      · -- Without a lock of its own, the write saw the committed row.
        rcases here with ⟨_, unchanged, _⟩ | ⟨membership, _, seen, _⟩
        · unfold Rows.HeldBy at held
          rw [unchanged] at held
          exact absurd held (free version)
        · rw [Row.view_eq_committed free] at seen
          exact Option.isSome_iff_exists.mpr ⟨membership, seen⟩
    · unfold Rows.HeldBy at held
      rw [Rows.change_elsewhere changed equal] at held
      obtain ⟨present, absent | owned⟩ := locks.held other version held
      · cases absent
      · exact ⟨present, .inr owned⟩

end Locks

/-- What a step of a call leaves behind. -/
structure CallAdvanced (tx : τ) (rows : Memberships τ) (phase : MemberPhase) (after : Memberships τ)
    (next : MemberPhase) : Prop where
  others : ∀ other, other ≠ tx → Rows.Undisturbed other rows after
  holds : CallHolds tx after next
  published : (∃ path, phase = .flushed path ∧ after = rows.commit tx) ∨
    ∀ key, after.committed key = rows.committed key

section Steps

variable {tx : τ} {rows after : Memberships τ} {phase next : MemberPhase}

/-- A rolled-back call holds nothing, and has published nothing. -/
theorem CallAdvanced.rolled_back (phase : MemberPhase) {written : Memberships τ}
    (others : ∀ other, other ≠ tx → Rows.Undisturbed other rows written)
    (steady : ∀ key, written.committed key = rows.committed key) :
    CallAdvanced tx rows phase (written.rollback tx) .done where
  others := fun other different => (others other different).trans
    (Rows.rollback_undisturbed different)
  holds := .empty fun _ version => Row.rollback_unheld version
  published := .inr fun key => (congrFun Rows.rollback_committed key).trans (steady key)

/-- A statement that publishes nothing. -/
theorem CallAdvanced.statement
    (others : ∀ other, other ≠ tx → Rows.Undisturbed other rows after)
    (steady : ∀ key, after.committed key = rows.committed key) (holds : CallHolds tx after next) :
    CallAdvanced tx rows phase after next :=
  ⟨others, holds, .inr steady⟩

/-- What a call has read leaves it with nothing held. -/
theorem MemberPhase.load_holds (locks : GuardLocks tx rows none []) (fresh : MembershipId)
    (call : MemberCall) (account : Option MemberAccount) :
    CallHolds tx rows (load rows tx fresh call account) := by
  unfold load
  repeat' split
  all_goals first
    | exact locks
    | exact ⟨by simp, locks⟩

/-- A call that counts one member sees all of them. -/
theorem GuardLocks.alone {locked : List MembershipId} (locks : GuardLocks tx rows none locked)
    (few : rows.countTeamMembers tx ≤ 1) : rows.Alone := by
  -- What the call holds is as it is committed, so its count is that of the committed rows.
  have counted : ∀ key, (rows.committed key).isSome = true →
      key ∈ rows.select tx fun _ => true := by
    intro key present
    obtain ⟨membership, stored⟩ := Option.isSome_iff_exists.mp present
    refine Rows.mem_select.mpr ⟨membership, ?_, rfl⟩
    rcases Row.heldBy_or_unheld (rows.row key) tx with ⟨version, held⟩ | free
    · rcases (locks.held key version held).2 with absent | ⟨_, same⟩
      · cases absent
      · exact held.view_eq.trans (same.trans stored)
    · exact (Row.view_eq_committed free).trans stored
  intro first second here there
  have one := counted first here
  have two := counted second there
  unfold Memberships.countTeamMembers at few
  match found : rows.select tx (fun _ => true), few with
  | [], _ =>
    rw [found] at one
    cases one
  | [only], _ =>
    rw [found, List.mem_singleton] at one two
    rw [one, two]

/-- The guard lets a call through when another admin is locked or no other member is left. -/
theorem MemberPhase.permitted_holds {id : MembershipId} {loaded : Role} {write : GuardedWrite}
    {locked : List MembershipId} (locks : GuardLocks tx rows none locked)
    (passed : refuses rows tx locked write = false) :
    CallHolds tx rows (permitted id loaded locked write) := by
  -- The guard counts the admins, and a write that would leave none was refused.
  cases write with
  | remove =>
    refine ⟨by simp, locks, fun few => locks.alone ?_⟩
    simpa [refuses, few] using passed
  | demote role =>
    refine ⟨by simp, locks, fun few => locks.alone ?_⟩
    have counted : ¬rows.countTeamMembers tx - 1 > 0 := by
      simpa only [refuses, few, decide_true, Bool.true_and, decide_eq_false_iff_not] using passed
    omega

/-- A write by one path or another holds the row of its target beside what it held. -/
theorem PathHolds.write {edit : TeamMembership → Option TeamMembership} {matched : Bool}
    {id : MembershipId} {path : WritePath} (known : path ≠ .joined)
    (holds : PathHolds tx rows none path)
    (changed : rows.change tx id (fun _ => true) edit = some (after, matched)) :
    PathHolds tx after (some id) path := by
  -- By the path of the write, each with the locks its guard took.
  cases path with
  | guarded locked =>
    refine ⟨holds.1.write changed, fun few first second here there => ?_⟩
    rw [Rows.change_committed changed] at here there
    exact holds.2 few first second here there
  | lowerRole => exact GuardLocks.write holds changed
  | upsert => exact GuardLocks.write holds changed
  | joined => exact absurd rfl known

/-- What is published of a row that exists was there before, unless somebody joins. -/
theorem PathHolds.commit_shrinks {target : Option MembershipId} {path : WritePath}
    (holds : PathHolds tx rows target path) (known : path ≠ .joined) (key : MembershipId)
    (present : ((rows.commit tx).committed key).isSome = true) :
    (rows.committed key).isSome = true := by
  -- A held row was there before it was written; every other row is as committed.
  rcases Row.heldBy_or_unheld (rows.row key) tx with ⟨version, held⟩ | free
  · cases path with
    | guarded locked => exact (holds.1.held key version held).1
    | lowerRole => exact (GuardLocks.held holds key version held).1
    | upsert => exact (GuardLocks.held holds key version held).1
    | joined => exact absurd rfl known
  · unfold Rows.committed at present ⊢
    rw [Rows.commit_row, Row.commit_of_unheld free] at present
    exact present

/-- What any statement of any call leaves behind. -/
theorem CallAdvanced.of_advance (holds : CallHolds tx rows phase)
    (acted : MemberPhase.advance tx rows phase = some (after, next)) :
    CallAdvanced tx rows phase after next := by
  have quiet : ∀ other, other ≠ tx → Rows.Undisturbed other rows rows := fun other _ => .refl other _
  cases phase with
  -- The call has loaded what it needs, and goes to its statement.
  | start call account fresh =>
    cases acted
    exact .statement quiet (fun _ => rfl) (MemberPhase.load_holds holds fresh call account)
  | guard id loaded write =>
    cases acted
    exact .statement quiet (fun _ => rfl) ⟨holds, rows.nodup.filter _, fun _ _ => List.not_mem_nil⟩
  -- The administrators are locked one by one, and then counted.
  | locking id loaded write rest locked =>
    obtain ⟨locks, once, apart⟩ := holds
    cases rest with
    | nil =>
      simp only [MemberPhase.advance] at acted
      -- The last one may not go.
      split at acted
      · cases acted
        exact .rolled_back _ quiet fun _ => rfl
      · rename_i passed
        cases acted
        exact .statement quiet (fun _ => rfl) (MemberPhase.permitted_holds locks (by simpa using passed))
    | cons key rest =>
      simp only [MemberPhase.advance, Option.map_eq_some_iff, Prod.exists, Prod.mk.injEq] at acted
      obtain ⟨written, matched, changed, rfl, rfl⟩ := acted
      obtain ⟨fresh, once⟩ := List.nodup_cons.mp once
      refine .statement (fun other => Rows.change_undisturbed changed)
        (Rows.change_committed changed)
        ⟨locks.lock (apart key List.mem_cons_self) changed, once, fun other member => ?_⟩
      -- The rows still to be visited are neither this one nor one of those locked before.
      have unlocked := apart other (List.mem_cons_of_mem _ member)
      have different : other ≠ key := fun same => fresh (same ▸ member)
      cases matched <;> simp [unlocked, different]
  -- The write happens under the locks, or the row is gone and the call fails.
  | writing id loaded role path =>
    simp only [MemberPhase.advance, Option.map_eq_some_iff, Prod.exists] at acted
    obtain ⟨written, matched, changed, outcome⟩ := acted
    split at outcome
    · cases outcome
      exact .statement (fun other => Rows.change_undisturbed changed)
        (Rows.change_committed changed) ⟨id, holds.2.write holds.1 changed⟩
    · cases outcome
      exact .rolled_back _ (fun other => Rows.change_undisturbed changed)
        (Rows.change_committed changed)
  | deleting id path =>
    simp only [MemberPhase.advance, Option.map_eq_some_iff, Prod.exists, Prod.mk.injEq] at acted
    obtain ⟨written, matched, changed, rfl, rfl⟩ := acted
    exact .statement (fun other => Rows.change_undisturbed changed)
      (Rows.change_committed changed) ⟨id, holds.2.write holds.1 changed⟩
  -- An insertion meets a row of the same member, waits for one, or goes in.
  | inserting id membership =>
    simp only [MemberPhase.advance] at acted
    split at acted
    · cases acted
    · split at acted
      · cases acted
        exact .rolled_back _ quiet fun _ => rfl
      · simp only [Option.map_eq_some_iff, Prod.mk.injEq] at acted
        obtain ⟨written, inserted, rfl, rfl⟩ := acted
        refine .statement (fun other => Rows.insert_undisturbed inserted)
          (Rows.insert_committed inserted) ⟨id, fun key version held => ?_⟩
        obtain ⟨rfl, _, missing⟩ := Rows.insert_heldBy (GuardLocks.nothing holds) inserted held
        exact (Rows.insert_committed inserted key).trans missing
  -- The commit shows the write to the others.
  | flushed path =>
    cases acted
    exact ⟨fun other different => Rows.commit_undisturbed different,
      .empty fun _ version => Row.commit_unheld version, .inl ⟨path, rfl, rfl⟩⟩
  | done => cases acted

/-- A call that is cut off is rolled back and over. -/
theorem MemberPhase.act_abort (acted : act tx .abort rows phase = some (after, next)) :
    after = rows.rollback tx ∧ next = .done := by
  cases phase <;> cases acted <;> exact ⟨rfl, rfl⟩

/-- What any event of any call leaves behind. -/
theorem CallAdvanced.of_act {event : MemberEvent} (holds : CallHolds tx rows phase)
    (acted : MemberPhase.act tx event rows phase = some (after, next)) :
    CallAdvanced tx rows (phase.acting event) after next := by
  cases event with
  | advance => exact .of_advance holds acted
  | abort =>
    obtain ⟨rfl, rfl⟩ := MemberPhase.act_abort acted
    exact .rolled_back _ (fun other _ => .refl other _) fun _ => rfl

/-- A row that a commit changes is one that the call holds. -/
theorem Memberships.commit_changes {key : MembershipId}
    (changed : (rows.commit tx).committed key ≠ rows.committed key) :
    ∃ version, rows.HeldBy tx key version ∧ (rows.commit tx).committed key = version := by
  rcases Row.heldBy_or_unheld (rows.row key) tx with ⟨version, held⟩ | free
  · exact ⟨version, held, congrArg Row.committed held.commit_eq⟩
  · exact absurd (congrArg Row.committed (Row.commit_of_unheld free)) changed

/-- A call that takes an admin away and leaves none leaves no other member either. -/
theorem PathHolds.lost_last {path : WritePath} {target id : MembershipId}
    {membership : TeamMembership} {system : MemberSystem τ}
    (holds : PathHolds tx system.store (some target) path)
    (sheltered : system.Sheltered tx (.flushed path))
    (stored : system.store.committed id = some membership) (admin : membership.admin = true)
    (lost : ∀ left, (system.store.commit tx).committed id = some left → left.admin = false)
    (last : Memberships.NoAdmin (system.store.commit tx)) (key : MembershipId) (other : key ≠ id) :
    (system.store.commit tx).committed key = none := by
  -- The admin's row has changed, so the call holds it.
  have changed : (system.store.commit tx).committed id ≠ system.store.committed id := by
    intro same
    cases (lost membership (same.trans stored)).symm.trans admin
  obtain ⟨version, held, written⟩ := Memberships.commit_changes changed
  have lowers : system.store.lowers tx id = true := by
    have owned : system.store.ownedBy tx id = true := Rows.ownedBy_iff.mpr ⟨version, held⟩
    have seen : system.store.view tx id = version := held.view_eq
    have unseen : version.any TeamMembership.admin = false := by
      cases version with
      | none => rfl
      | some left => exact lost left written
    simp [Memberships.lowers, owned, stored, admin, seen, unseen]
  cases path with
  | guarded locked =>
    by_cases few : locked.length ≤ 1
    · -- The team had this one member.
      by_contra present
      have before := holds.commit_shrinks (by simp) key (Option.isSome_iff_ne_none.mpr present)
      exact other (holds.2 few key id before (by simp [stored]))
    · -- Another admin is locked, and stays one.
      exfalso
      obtain ⟨spare, member, apart⟩ : ∃ spare ∈ locked, spare ≠ target := by
        by_contra all
        simp only [not_exists, not_and, not_not] at all
        have bounded := (List.nodup_replicate (n := locked.length) (a := target)).mp
          (List.eq_replicate_iff.mpr ⟨rfl, all⟩ ▸ holds.1.nodup)
        exact few bounded
      obtain ⟨⟨found, mine⟩, admin, kept, grade⟩ := holds.1.locks spare member
      rcases (holds.1.held spare found mine).2 with same | ⟨_, same⟩
      · exact apart (Option.some.inj same)
      · have after : (system.store.commit tx).committed spare = some admin :=
          (congrArg Row.committed mine.commit_eq).trans (same.trans kept)
        cases (last spare admin after).symm.trans grade
  | lowerRole =>
    have kept := sheltered id (Rows.mem_keys_of_committed stored)
    cases kept.symm.trans lowers
  | upsert =>
    -- The call holds the one row it has written.
    have only : ∀ key version, system.store.HeldBy tx key version → key = id := by
      have mine : ∀ key version, system.store.HeldBy tx key version → key = target := by
        intro key version held
        rcases (GuardLocks.held holds key version held).2 with same | ⟨member, _⟩
        · exact Option.some.inj same
        · cases member
      intro key found owned
      rw [mine key found owned, mine id version held]
    have elsewhere : ∀ key, key ≠ id →
        (system.store.commit tx).committed key = system.store.committed key := by
      intro key different
      exact congrArg Row.committed
        (Row.commit_of_unheld fun found owned => different (only key found owned))
    rcases sheltered id (Rows.mem_keys_of_committed stored) lowers with
      ⟨spare, _, apart, grade⟩ | empty
    · exfalso
      rw [Option.any_eq_true] at grade
      obtain ⟨admin, kept, grade⟩ := grade
      cases (last spare admin ((elsewhere spare apart).trans kept)).symm.trans grade
    · rw [elsewhere key other]
      by_contra present
      obtain ⟨left, kept⟩ := Option.ne_none_iff_exists'.mp present
      exact present (empty key (Rows.mem_keys_of_committed kept) other)
  | joined =>
    cases (holds id version held).symm.trans stored

end Steps

section Runs

variable {system next : MemberSystem τ} {tx : τ}

omit [DecidableEq τ] in
/-- What a call holds on its way to the write survives a step of another one. -/
theorem PathHolds.kept {rows after : Memberships τ} {target : Option MembershipId}
    {path : WritePath} (holds : PathHolds tx rows target path)
    (kept : Rows.Undisturbed tx rows after)
    (shrinks : ∀ locked, path = .guarded locked → locked.length ≤ 1 →
      ∀ key, (after.committed key).isSome = true → (rows.committed key).isSome = true) :
    PathHolds tx after target path := by
  -- By the path: the guard's locks are undisturbed, and so is an upsert's row.
  cases path with
  | guarded locked =>
    refine ⟨holds.1.undisturbed kept, fun few first second here there => ?_⟩
    exact holds.2 few first second (shrinks locked rfl few first here)
      (shrinks locked rfl few second there)
  | lowerRole => exact GuardLocks.undisturbed holds kept
  | upsert => exact GuardLocks.undisturbed holds kept
  | joined =>
    intro key version held
    have before := ((kept key).heldBy version).mp held
    exact ((kept key).committed version before).trans (holds key version before)

omit [DecidableEq τ] in
/-- What a call holds survives a step of another one that brings no member behind its back. -/
theorem CallHolds.kept {rows after : Memberships τ} {progress : MemberPhase}
    (holds : CallHolds tx rows progress) (kept : Rows.Undisturbed tx rows after)
    (shrinks : progress.lastMember = true → ∀ key, (after.committed key).isSome = true →
      (rows.committed key).isSome = true) : CallHolds tx after progress := by
  -- A call holds its guard's locks, and behind the guard a row of its own as well.
  cases progress with
  | locking id loaded write rest locked => exact ⟨holds.1.undisturbed kept, holds.2⟩
  | writing id loaded role path =>
    -- The guard let one last member pass only where it counted few admins.
    refine ⟨holds.1, holds.2.kept kept fun locked same few => shrinks ?_⟩
    subst same
    exact decide_eq_true few
  | deleting id path =>
    refine ⟨holds.1, holds.2.kept kept fun locked same few => shrinks ?_⟩
    subst same
    exact decide_eq_true few
  | flushed path =>
    obtain ⟨id, owned⟩ := holds
    refine ⟨id, owned.kept kept fun locked same few => shrinks ?_⟩
    subst same
    exact decide_eq_true few
  | start | guard | inserting | done => exact GuardLocks.undisturbed holds kept

/-- A call that commits has flushed what it holds. -/
theorem MemberPhase.of_acting_flushed {phase : MemberPhase} {event : MemberEvent}
    {path : WritePath} (same : phase.acting event = .flushed path) : phase = .flushed path := by
  cases event with
  | advance => exact same
  | abort => cases same

/-- No call has begun, and no membership is locked. -/
structure MemberSystem.Fresh (system : MemberSystem τ) : Prop where
  unlocked : ∀ key, (system.store.row key).held = none
  unbegun : ∀ tx, system.phase tx = .done ∨
    ∃ call account fresh, system.phase tx = .start call account fresh

/-- Every call holds what it should where it stands. -/
abbrev MemberSystem.Stand (system : MemberSystem τ) : Prop :=
  Sessions.Annotated (fun _ => True) CallHolds system

omit [DecidableEq τ] in
/-- A system in which no call has begun stands. -/
theorem MemberSystem.Fresh.stand (fresh : system.Fresh) : system.Stand := by
  refine ⟨trivial, fun tx => ?_⟩
  have nothing : GuardLocks tx system.store none [] :=
    .empty fun key version => Row.not_heldBy_of_unlocked (fresh.unlocked key) version
  -- Past or at its start, a call holds nothing.
  rcases fresh.unbegun tx with past | ⟨call, account, id, begun⟩
  · rw [past]
    exact nothing
  · rw [begun]
    exact nothing

/-- A step that does not go round the guard leaves every call standing. -/
theorem MemberSystem.Stand.step {event : τ × MemberEvent} (stand : system.Stand)
    (keeps : system.KeepsGuard event) (taken : memberStep system event = some next) :
    next.Stand := by
  obtain ⟨tx, event⟩ := event
  refine stand.step_at taken
    (fun store phase acted => ⟨trivial, (CallAdvanced.of_act (stand.own tx) acted).holds⟩)
    fun store phase other acted different holds => ?_
  have advanced := CallAdvanced.of_act (stand.own tx) acted
  refine holds.kept (advanced.others other different) fun last key present => ?_
  rcases advanced.published with ⟨path, flushed, rfl⟩ | steady
  · have sheltered : system.Sheltered tx ((system.phase tx).acting event) := keeps
    have owned := stand.own tx
    rw [MemberPhase.of_acting_flushed flushed] at owned
    rw [flushed] at sheltered
    obtain ⟨id, owned⟩ := owned
    refine owned.commit_shrinks (fun joined => ?_) key present
    -- Nobody joins while a call relies on its count.
    subst joined
    cases (sheltered other).symm.trans last
  · rw [steady] at present
    exact present

/-- A step of a standing system that does not go round the guard keeps the team its admin. -/
theorem MemberSystem.Stand.keepsAdmin {event : τ × MemberEvent} (stand : system.Stand)
    (keeps : system.KeepsGuard event) (taken : memberStep system event = some next) :
    KeepsAdmin system.store next.store := by
  obtain ⟨tx, event⟩ := event
  obtain ⟨store, phase, acted, rfl⟩ := Sessions.step_eq_some.mp taken
  have advanced := CallAdvanced.of_act (stand.own tx) acted
  have sheltered : system.Sheltered tx ((system.phase tx).acting event) := keeps
  rcases advanced.published with ⟨path, flushed, rfl⟩ | steady
  · -- A commit of a flushed call: the target is the only row it changes.
    have owned := stand.own tx
    rw [MemberPhase.of_acting_flushed flushed] at owned
    rw [flushed] at sheltered
    obtain ⟨target, owned⟩ := owned
    refine ⟨fun id membership stored admin gone last key => ?_,
      fun id membership lowered stored admin left demoted last key other => ?_⟩
    · -- An administrator that is gone is the target, or the guard has seen the last one.
      by_cases same : key = id
      · rw [same]
        exact gone
      · refine owned.lost_last sheltered stored admin (fun left found => ?_) last key same
        cases gone.symm.trans found
    · -- A lowered one likewise.
      refine owned.lost_last sheltered stored admin (fun still found => ?_) last key other
      cases left.symm.trans found
      exact demoted
  · -- Nothing is published, so no admin is lost.
    refine ⟨fun id membership stored _ gone => ?_,
      fun id membership lowered stored admin left demoted => ?_⟩
    · cases stored.symm.trans ((steady id).symm.trans gone)
    · cases stored.symm.trans ((steady id).symm.trans left)
      cases demoted.symm.trans admin

/-- In every order of steps of calls that do not go round the guard, a removal of the last admin
leaves the team empty, and a demotion of the last admin leaves only the demoted member. -/
theorem last_admin_kept {start : MemberSystem τ} {events : List (τ × MemberEvent)}
    {event : τ × MemberEvent} (fresh : start.Fresh)
    (keeps : Guarded memberStep MemberSystem.KeepsGuard start (events ++ [event]))
    (ran : run memberStep start events = some system)
    (taken : memberStep system event = some next) : KeepsAdmin system.store next.store := by
  obtain ⟨before, now⟩ := keeps.append ran
  have stand : system.Stand :=
    run_invariant (fun _ _ _ stand condition step => stand.step condition step) fresh.stand before ran
  exact stand.keepsAdmin now.1 taken

/-- A team with the given memberships and one call on it. -/
def oneCall (members : List (MembershipId × TeamMembership)) (call : MemberCall) :
    MemberSystem (Fin 1) where
  store := .stored members
  phase := fun _ => .start call (some ⟨false, false⟩) 9

/-- A system with one call starts fresh. -/
theorem oneCall_fresh (members : List (MembershipId × TeamMembership)) (call : MemberCall) :
    (oneCall members call).Fresh :=
  ⟨fun _ => rfl, fun _ => .inr ⟨call, _, _, rfl⟩⟩

/-- An admin and two developers. One developer is promoted from its own page, the admin and the other
developer are removed, and a fourth user joins. -/
def handover : MemberSystem (Fin 4) where
  store := .stored [(1, ⟨1, .groupAdmin⟩), (2, ⟨2, .developer⟩), (3, ⟨3, .developer⟩)]
  phase := fun tx =>
    match tx with
    | 0 => .start (.updateUserRole 7 2 .groupAdmin) (some ⟨false, false⟩) 9
    | 1 => .start (.removeTeamMember 1) (some ⟨false, false⟩) 9
    | 2 => .start (.addTeamMember 4 .developer) (some ⟨false, false⟩) 9
    | 3 => .start (.removeTeamMember 3) (some ⟨false, false⟩) 9

/-- The handover starts fresh. -/
theorem handover_fresh : handover.Fresh := by
  refine ⟨fun _ => rfl, fun tx => .inr ?_⟩
  match tx with
  | 0 | 1 | 2 | 3 => exact ⟨_, _, _, rfl⟩

/-- The steps of the four calls but for the last commit: each goes on while others are under way. -/
def handoverSteps : List (Fin 4 × MemberEvent) :=
  [(1, .advance), (0, .advance), (0, .advance), (2, .advance), (0, .advance), (3, .advance),
   (1, .advance), (1, .advance), (2, .advance), (1, .advance), (3, .advance), (2, .advance),
   (1, .advance), (3, .advance), (1, .advance)]

/-- The first admin is removed while the others go on: the guard has locked the promoted one too. -/
theorem last_admin_kept_handed_over :
    ∃ system next, run memberStep handover handoverSteps = some system ∧
      memberStep system (1, .advance) = some next ∧
      system.store.committed 1 = some ⟨1, .groupAdmin⟩ ∧ next.store.committed 1 = none ∧
      next.store.committed 2 = some ⟨2, .groupAdmin⟩ ∧ next.store.committed 3 = none ∧
      next.store.committed 9 = some ⟨4, .developer⟩ ∧ KeepsAdmin system.store next.store := by
  refine ⟨_, _, rfl, rfl, rfl, rfl, rfl, rfl, rfl, ?_⟩
  have keeps : Guarded memberStep MemberSystem.KeepsGuard handover
      (handoverSteps ++ [(1, MemberEvent.advance)]) := by decide
  exact last_admin_kept handover_fresh keeps rfl rfl

/-- A role set from the user's own page takes the last admin away from the other members. -/
theorem last_admin_lowered :
    (oneCall [(1, ⟨1, .groupAdmin⟩), (2, ⟨2, .developer⟩)]
        (.updateUserRole 7 1 .developer)).Fresh ∧
      ∃ system next, run memberStep (oneCall [(1, ⟨1, .groupAdmin⟩), (2, ⟨2, .developer⟩)]
          (.updateUserRole 7 1 .developer)) [(0, .advance), (0, .advance)] = some system ∧
        memberStep system (0, .advance) = some next ∧
        ¬KeepsAdmin system.store next.store := by
  refine ⟨oneCall_fresh _ _, _, _, rfl, rfl, ?_⟩
  intro keeps
  cases keeps.demotion 1 _ _ rfl rfl rfl rfl (by decide +kernel) 2 (by decide)

end Runs

end Trusca
