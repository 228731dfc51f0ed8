import Trusca.License.PolicyRace
import Trusca.Store.Serial

/-! Writes to a licence policy serialise, unless a PUT leaves out a column that has moved on. -/

namespace Trusca

open Store

/-- A column the flush writes, or one that still has the value the session loaded. -/
def columnCurrent {β : Type*} [DecidableEq β] (loaded assigned current : β) : Bool :=
  assigned ≠ loaded || current = loaded

/-- Every column a flush leaves out still has the value the session loaded. -/
def LicensePolicy.current (loaded assigned current : LicensePolicy) : Bool :=
  columnCurrent loaded.name assigned.name current.name &&
    columnCurrent loaded.categoryOverrides assigned.categoryOverrides current.categoryOverrides &&
    columnCurrent loaded.licenseExceptions assigned.licenseExceptions current.licenseExceptions &&
    columnCurrent loaded.maliciousExceptions assigned.maliciousExceptions
      current.maliciousExceptions &&
    columnCurrent loaded.unknownLicenseCategory assigned.unknownLicenseCategory
      current.unknownLicenseCategory &&
    columnCurrent loaded.compoundOperatorStrategy assigned.compoundOperatorStrategy
      current.compoundOperatorStrategy &&
    columnCurrent loaded.enabled assigned.enabled current.enabled &&
    columnCurrent loaded.updatedAt assigned.updatedAt current.updatedAt

/-- The side condition of a step: when the UPDATE of a PUT runs, every column it leaves out, since
the payload repeats what the PUT loaded, still has that value in the committed row. -/
def PolicyPhase.unovertaken {τ : Type*} (row : Row τ LicensePolicy) :
    PolicyEvent → PolicyPhase → Bool
  | .advance, .loaded call payload (some stored) =>
      row.committed.all fun current =>
        stored.current (applyUpsert stored payload call.clock) current
  | _, _ => true

/-- A current column ends up as assigned. -/
theorem flushColumn_of_current {β : Type*} [DecidableEq β] {loaded assigned current : β}
    (fresh : columnCurrent loaded assigned current = true) :
    flushColumn loaded assigned current = assigned := by
  simp only [columnCurrent, ne_eq, decide_not, Bool.or_eq_true, Bool.not_eq_eq_eq_not,
    Bool.not_true, decide_eq_false_iff_not, decide_eq_true_eq] at fresh
  unfold flushColumn
  split
  · -- A column left out keeps the row's value, which is the loaded and the assigned one.
    rename_i same
    rcases fresh with written | kept
    · exact absurd same written
    · rw [kept, same]
  · rfl

/-- A PUT flushed over a current row stores the whole payload. -/
theorem flush_applyUpsert {loaded current : LicensePolicy} {payload : LicensePolicyUpsert}
    {clock : PolicyClock}
    (fresh : loaded.current (applyUpsert loaded payload clock) current = true) :
    loaded.flush (applyUpsert loaded payload clock) current = applyUpsert current payload clock := by
  -- Column by column, the flush stores the payload's value.
  simp only [LicensePolicy.current, Bool.and_eq_true] at fresh
  obtain ⟨⟨⟨⟨⟨⟨⟨name, overrides⟩, waivers⟩, malicious⟩, posture⟩, strategy⟩, enabled⟩, updated⟩ :=
    fresh
  rw [LicensePolicy.flush, flushColumn_of_current name, flushColumn_of_current overrides,
    flushColumn_of_current waivers, flushColumn_of_current malicious,
    flushColumn_of_current posture, flushColumn_of_current strategy,
    flushColumn_of_current enabled, flushColumn_of_current updated]
  rfl

/-- A flush over the row it loaded stores what was assigned. -/
theorem LicensePolicy.flush_loaded {stored assigned : LicensePolicy}
    (organization : assigned.organizationId = stored.organizationId)
    (team : assigned.teamId = stored.teamId) : stored.flush assigned stored = assigned := by
  cases assigned
  simp_all [LicensePolicy.flush]

/-- No call moves the row to another team. -/
theorem PolicyCall.serve_scope {call : PolicyCall} {row after : LicensePolicy}
    (served : call.serve row = .ok after) :
    after.organizationId = row.organizationId ∧ after.teamId = row.teamId := by
  unfold PolicyCall.serve at served
  simp only [Bind.bind, Except.bind, Pure.pure, Except.pure] at served
  split at served
  · cases served
  · split at served
    · -- A PUT copies its payload, which has no team in it.
      split at served
      · cases served
      · cases served
        exact ⟨rfl, rfl⟩
    · -- Adding a waiver replaces the list of waivers and the time stamp.
      unfold addException at served
      simp only [Bind.bind, Except.bind, Pure.pure, Except.pure, throw, throwThe,
        MonadExceptOf.throw] at served
      split at served
      · cases served
      · split at served
        · cases served
        · cases served
          exact ⟨rfl, rfl⟩
    · cases served
      exact ⟨rfl, rfl⟩

/-- A PUT that passed its guards serves every row with its payload. -/
theorem PolicyCall.serve_upsert {call : PolicyCall} {payload : LicensePolicyUpsert}
    (put : call.write = .upsert payload) (may : assertMayWrite call.caller = .ok ())
    (valid : assertUpsertValid payload call.caps call.clock = .ok ()) (row : LicensePolicy) :
    call.serve row = .ok (applyUpsert row payload call.clock) := by
  unfold PolicyCall.serve
  simp only [put, may, valid, Bind.bind, Except.bind, Pure.pure, Except.pure]

section Invariant

variable {τ : Type*} {tx : τ} {row next : Row τ LicensePolicy}

/-- What a call may rely on about the row between its own steps. -/
def PolicyPhase.Relies (tx : τ) (row : Row τ LicensePolicy) : PolicyPhase → Prop
  | .start _ => ∀ version, ¬row.HeldBy tx version
  | .loaded call payload found =>
      (∀ version, ¬row.HeldBy tx version) ∧ found.isSome = true ∧ call.write = .upsert payload ∧
        assertMayWrite call.caller = .ok () ∧
        assertUpsertValid payload call.caps call.clock = .ok ()
  | .locked _ found =>
      ∃ stored, found = some stored ∧ row.HeldBy tx (some stored) ∧ row.committed = some stored
  | .flushed call =>
      ∃ current later, row.HeldBy tx (some later) ∧ row.committed = some current ∧
        call.serve current = .ok later
  | .done _ _ => ∀ version, ¬row.HeldBy tx version

/-- What a call relies on survives the steps of the others. -/
theorem PolicyPhase.Relies.undisturbed {phase : PolicyPhase} (relies : phase.Relies tx row)
    (steady : Row.Undisturbed tx row next) : phase.Relies tx next := by
  cases phase with
  | start call => exact steady.unheld relies
  | loaded call payload loaded => exact ⟨steady.unheld relies.1, relies.2⟩
  | locked call loaded =>
    -- Under the lock both the version held and the committed one stay.
    obtain ⟨stored, found, held, committed⟩ := relies
    exact ⟨stored, found, (steady.heldBy _).mpr held,
      (steady.committed _ held).trans committed⟩
  | flushed call =>
    obtain ⟨current, later, held, committed, served⟩ := relies
    exact ⟨current, later, (steady.heldBy _).mpr held, (steady.committed _ held).trans committed,
      served⟩
  | done call outcome => exact steady.unheld relies

variable [DecidableEq τ] {call : PolicyCall} {current : LicensePolicy} {after : PolicyPhase}

omit [DecidableEq τ] in
/-- What a step that completes nothing does: it disturbs nobody and commits nothing. -/
structure PolicyPhase.Quiet (tx : τ) (row next : Row τ LicensePolicy) (after : PolicyPhase)
    (current : LicensePolicy) : Prop where
  undisturbed : ∀ other, other ≠ tx → Row.Undisturbed other row next
  relies : after.Relies tx next
  committed : next.committed = some current
  pending : after.completed = none

/-- A refused call is quiet. -/
theorem PolicyPhase.refuse_quiet {reason : LicensePolicyError}
    (committed : row.committed = some current)
    (refused : refuse tx row call reason = some (next, after)) :
    Quiet tx row next after current := by
  unfold refuse at refused
  cases refused
  exact ⟨fun _ different => Row.rollback_undisturbed different, Row.rollback_unheld,
    Row.rollback_committed.trans committed, rfl⟩

/-- An UPDATE of the locked or committed row leaves its version to be committed. -/
theorem PolicyPhase.update_quiet {stored assigned later : LicensePolicy}
    (committed : row.committed = some current) (seen : row.view tx = some current)
    (stores : stored.flush assigned current = later) (serves : call.serve current = .ok later)
    (updated : update tx row call stored assigned = some (next, after)) :
    Quiet tx row next after current := by
  unfold update at updated
  rw [Option.bind_eq_some_iff] at updated
  obtain ⟨⟨sent, matched⟩, changed, result⟩ := updated
  rcases Row.change_cases changed with ⟨_, _, refused⟩ | ⟨version, found, view, _, _, kept, held⟩
  · -- The row is there and the statement has no condition, so it matches.
    cases refused current seen
  · rw [seen] at view
    cases view
    dsimp only at result
    rw [found, if_pos rfl] at result
    cases result
    rw [stores] at held
    exact ⟨fun _ different => Row.change_undisturbed different changed,
      ⟨current, later, held, kept.trans committed, serves⟩, kept.trans committed, rfl⟩

/-- The first step of a call is quiet. -/
theorem PolicyPhase.start_quiet (committed : row.committed = some current)
    (unheld : ∀ version, ¬row.HeldBy tx version)
    (taken : advance tx row (.start call) = some (next, after)) :
    Quiet tx row next after current := by
  have seen : row.view tx = some current := (Row.view_eq_committed unheld).trans committed
  -- A locking read finds the committed row and locks it.
  have locks : ∀ sent, row.lock tx = some sent →
      Quiet tx row sent (.locked call (row.view tx)) current := by
    intro sent locked
    obtain ⟨held, kept⟩ := Row.lock_unheld unheld seen locked
    exact ⟨fun _ different => Row.lock_undisturbed different locked, ⟨current, seen, held, kept⟩,
      kept, rfl⟩
  -- The role, the write asked for, and then its payload, as the call checks them.
  cases may : assertMayWrite call.caller with
  | error reason =>
    simp only [advance, may] at taken
    exact refuse_quiet committed taken
  | ok _ =>
    cases put : call.write with
    | upsert payload =>
      cases valid : assertUpsertValid payload call.caps call.clock with
      | error reason =>
        simp only [advance, may, put, valid] at taken
        exact refuse_quiet committed taken
      | ok _ =>
        simp only [advance, may, put, valid, Option.some.injEq, Prod.mk.injEq] at taken
        obtain ⟨rfl, rfl⟩ := taken
        exact ⟨fun other _ => .refl other row, ⟨unheld, by rw [seen]; rfl, put, may, valid⟩,
          committed, rfl⟩
    -- Both calls about a waiver lock the row.
    | add waiver =>
      simp only [advance, may, put, Option.map_eq_some_iff, Prod.mk.injEq] at taken
      obtain ⟨sent, locked, rfl, rfl⟩ := taken
      exact locks sent locked
    | remove spdxId componentPurl =>
      simp only [advance, may, put, Option.map_eq_some_iff, Prod.mk.injEq] at taken
      obtain ⟨sent, locked, rfl, rfl⟩ := taken
      exact locks sent locked

/-- Every allowed step of a call before its commit is quiet. -/
theorem PolicyPhase.advance_quiet {phase : PolicyPhase} (committed : row.committed = some current)
    (relies : phase.Relies tx row) (fresh : unovertaken row .advance phase = true)
    (before : ∀ call, phase ≠ .flushed call)
    (taken : advance tx row phase = some (next, after)) : Quiet tx row next after current := by
  cases phase with
  | start call => exact start_quiet committed relies taken
  | loaded call payload found =>
    obtain ⟨unheld, present, put, may, valid⟩ := relies
    obtain ⟨stored, rfl⟩ := Option.isSome_iff_exists.mp present
    -- The columns the UPDATE leaves out are current, so the row becomes the payload.
    rw [unovertaken, committed, Option.all_some] at fresh
    exact update_quiet committed ((Row.view_eq_committed unheld).trans committed)
      (flush_applyUpsert fresh) (call.serve_upsert put may valid current) taken
  | locked call found =>
    -- The shortcut works on the committed row itself, so its own rules are checked on that row.
    obtain ⟨stored, rfl, held, same⟩ := relies
    cases committed.symm.trans same
    cases served : call.serve current with
    | error reason =>
      simp only [advance, served] at taken
      exact refuse_quiet committed taken
    | ok assigned =>
      simp only [advance, served] at taken
      have scope := PolicyCall.serve_scope served
      exact update_quiet committed held.view_eq (LicensePolicy.flush_loaded scope.1 scope.2) served
        taken
  | flushed call => exact absurd rfl (before call)
  | done call outcome => cases taken

/-- Every allowed step is quiet and starts from an unfinished call, or commits what the call makes
of the row. -/
theorem PolicyPhase.act_cases {phase : PolicyPhase} {event : PolicyEvent}
    (committed : row.committed = some current) (relies : phase.Relies tx row)
    (fresh : unovertaken row event phase = true)
    (taken : act tx event row phase = some (next, after)) :
    Quiet tx row next after current ∧ phase.completed = none ∨
      ∃ call later, phase = .flushed call ∧ call.serve current = .ok later ∧
        row.HeldBy tx (some later) ∧ next = row.commit tx ∧ after = .done call (.ok ()) := by
  cases event with
  | abort =>
    cases phase with
    | done call outcome => cases taken
    | start call => exact .inl ⟨refuse_quiet committed taken, rfl⟩
    | loaded call payload found => exact .inl ⟨refuse_quiet committed taken, rfl⟩
    | locked call found => exact .inl ⟨refuse_quiet committed taken, rfl⟩
    | flushed call => exact .inl ⟨refuse_quiet committed taken, rfl⟩
  | advance =>
    cases phase with
    | done call outcome => cases taken
    | start call => exact .inl ⟨advance_quiet committed relies fresh (by simp) taken, rfl⟩
    | loaded call payload found =>
      exact .inl ⟨advance_quiet committed relies fresh (by simp) taken, rfl⟩
    | locked call found =>
      exact .inl ⟨advance_quiet committed relies fresh (by simp) taken, rfl⟩
    | flushed call =>
      -- The commit publishes what the call makes of the row that was committed until now.
      obtain ⟨before, later, held, same, served⟩ := relies
      cases committed.symm.trans same
      cases taken
      exact .inr ⟨call, later, rfl, served, held, rfl, rfl⟩

/-- The three writers serialise by their commits. -/
theorem policyWrites_serialising : Sessions.Serialising (PolicyPhase.act (τ := τ))
    (fun tx row phase => phase.Relies tx row)
    (fun row event phase => PolicyPhase.unovertaken row event phase = true) PolicyPhase.initial
    PolicyPhase.completed (fun call row => (PolicyCall.serve call row).toOption) := by
  refine ⟨?_, ?_, ?_⟩
  · -- A fresh call is at its start, and what it has not loaded it has not completed.
    intro tx row phase fresh unheld
    cases phase with
    | start call => exact ⟨unheld, rfl⟩
    | loaded call payload found => cases fresh
    | locked call found => cases fresh
    | flushed call => cases fresh
    | done call outcome => cases fresh
  · -- What a call relies on is its own lock, which no quiet step of another takes away.
    intro tx row next phase relies steady
    exact relies.undisturbed steady
  · -- The steps before the commit leave the committed row; the commit serves the whole call.
    intro tx event row phase next after current committed relies fresh taken
    rcases PolicyPhase.act_cases committed relies fresh taken with
      ⟨quiet, pending⟩ | ⟨call, later, rfl, served, held, rfl, rfl⟩
    · exact ⟨quiet.undisturbed, quiet.relies,
        .inl ⟨quiet.committed, quiet.pending.trans pending.symm⟩⟩
    · refine ⟨fun _ different => Row.commit_undisturbed different, Row.commit_unheld, .inr ?_⟩
      refine ⟨call, later, rfl, rfl, by rw [served]; rfl, ?_⟩
      rw [held.commit_eq, Row.free_committed]

end Invariant

section Serial

variable {τ : Type*} [DecidableEq τ] {start last : PolicySystem τ}

/-- In every run whose PUTs leave out only columns that have not moved on, the policy row is what
the successful calls make of the initial row, one after the other. -/
theorem policy_writes_serialise {events : List (τ × PolicyEvent)} {policy : LicensePolicy}
    (fresh : start.Fresh PolicyPhase.initial) (present : start.store.committed = some policy)
    (met : Guarded policyStep (Sessions.Allows fun row event phase =>
      PolicyPhase.unovertaken row event phase = true) start events)
    (ran : run policyStep start events = some last) :
    ∃ order : List τ, order.Nodup ∧
      (∀ tx, tx ∈ order ↔ (last.phase tx).completed.isSome = true) ∧
      last.store.committed = Sessions.serially PolicyPhase.completed
        (fun call row => (PolicyCall.serve call row).toOption) last.phase order policy := by
  obtain ⟨order, inOrder⟩ := policyWrites_serialising.serializable fresh present met ran
  exact ⟨order, inOrder.distinct, inOrder.complete, inOrder.result⟩

/-- A team administrator. -/
def policyAdmin : PolicyCaller where
  directory :=
    { path := fun _ => some [], isDemoGroup := fun _ => false, demoReadOnly := false
      groupCascadeEnabled := true }
  actor := ⟨1, .groupAdmin, [1], fun _ => some .groupAdmin, false⟩
  team := 1
  organization := 1

/-- The policy of the team: nothing overridden, nothing waived. -/
def plainPolicy : LicensePolicy := .created policyAdmin ⟨0, 0, 0, 0⟩

/-- A PUT that forbids a licence and repeats the rest. -/
def forbidMit : PolicyCall where
  caller := policyAdmin
  write := .upsert
    { name := none, categoryOverrides := ⟨[("MIT", .forbidden)], by decide⟩, licenseExceptions := []
      maliciousExceptions := [], unknownLicenseCategory := .conditional
      compoundOperatorStrategy := .default, enabled := true }
  caps := ⟨90, 30⟩
  clock := ⟨1, 1, 1, 1⟩

/-- A waiver for that licence, without an expiry. -/
def waiveMit : PolicyCall where
  caller := policyAdmin
  write := .add ⟨"MIT", "cleared", none, none⟩
  caps := ⟨90, 30⟩
  clock := ⟨2, 2, 2, 2⟩

/-- Both calls, about to start on the plain policy. -/
def bothCalls : PolicySystem Bool where
  store := .free (some plainPolicy)
  phase := fun put => .start (if put then forbidMit else waiveMit)

/-- One call after the other: the waiver is added, and the PUT then replaces the waivers. -/
theorem policy_writes_serialise_sequential :
    (run policyStep bothCalls [(false, .advance), (false, .advance), (false, .advance),
        (true, .advance), (true, .advance), (true, .advance)]).isSome = true ∧
      ∀ last, run policyStep bothCalls [(false, .advance), (false, .advance), (false, .advance),
          (true, .advance), (true, .advance), (true, .advance)] = some last →
        ∃ order : List Bool, order.Nodup ∧
          (∀ tx, tx ∈ order ↔ (last.phase tx).completed.isSome = true) ∧
          last.store.committed = Sessions.serially PolicyPhase.completed
            (fun call row => (PolicyCall.serve call row).toOption) last.phase order plainPolicy := by
  refine ⟨rfl, fun last ran => ?_⟩
  exact policy_writes_serialise ⟨rfl, fun _ => rfl⟩ rfl (by decide) ran

/-- The waiver is added between the PUT's read and its UPDATE, which leaves the waivers out: the
row ends with a forbidden licence that is waived for good, as no order of the two calls leaves
it. -/
theorem policy_writes_mixed :
    ∃ last, run policyStep bothCalls [(true, .advance), (false, .advance), (false, .advance),
        (false, .advance), (true, .advance), (true, .advance)] = some last ∧
      (last.phase true).completed.isSome = true ∧ (last.phase false).completed.isSome = true ∧
      (∃ row, last.store.committed = some row ∧
        baseCategory "MIT" row.categoryOverrides row.unknownLicenseCategory = .forbidden ∧
        row.licenseExceptions = [⟨"MIT", "cleared", none, none⟩]) ∧
      ∀ order : List Bool, order.Nodup →
        (∀ tx, tx ∈ order ↔ (last.phase tx).completed.isSome = true) →
        last.store.committed ≠ Sessions.serially PolicyPhase.completed
          (fun call row => (PolicyCall.serve call row).toOption) last.phase order plainPolicy := by
  refine ⟨_, rfl, rfl, rfl, ⟨_, rfl, by decide, by decide⟩, ?_⟩
  intro order distinct complete
  -- There are only two orders.
  have both : order.Perm [true, false] := by
    refine (List.perm_ext_iff_of_nodup distinct (by decide)).mpr fun tx => ?_
    rw [complete]
    cases tx <;> decide
  obtain ⟨first, second, rfl⟩ := List.length_eq_two.mp both.length_eq
  have different : first ≠ second := by simpa using distinct
  -- One order refuses the waiver, the other drops it.
  cases first <;> cases second
  · exact absurd rfl different
  · decide
  · decide
  · exact absurd rfl different

end Serial

end Trusca
