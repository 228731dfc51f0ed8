import Trusca.Proofs.Triage.Approval
import Trusca.Store.RowLaws
import Trusca.Triage.DecideRace

/-! At most one decision on a transition approval, unless a stale read is decided on. -/

namespace Trusca

open Store

/-- A decision flushed over the row it loaded is stored as a whole. -/
theorem TransitionApproval.flush_decide (row : TransitionApproval) (decision : Decision) :
    row.flush (row.decide decision) row = row.decide decision := by
  -- Columns that were assigned take the new value, and the others still hold the loaded one.
  simp [TransitionApproval.flush, TransitionApproval.decide]

/-- The application stamp flushed over the decided row is stored as a whole. -/
theorem TransitionApproval.flush_stamp (row : TransitionApproval) (now : Time) :
    row.flush { row with appliedAt := some now } row = { row with appliedAt := some now } := by
  simp [TransitionApproval.flush]

/-- A decision never leaves a request pending. -/
theorem Decision.state_ne_pending (decision : Decision) : decision.state ≠ .pending := by
  unfold Decision.state
  split <;> simp

section Invariant

variable {τ : Type*} (origin : TransitionApproval) (before : Option VulnerabilityFinding)

/-- The call holds neither row. -/
structure DecideStore.Idle (store : DecideStore τ) (tx : τ) : Prop where
  approval : ∀ version, ¬store.approval.HeldBy tx version
  finding : ∀ version, ¬store.finding.HeldBy tx version

/-- The committed approval is the request nobody has decided yet. -/
def DecideStore.Undecided (store : DecideStore τ) : Prop :=
  store.approval.committed = some origin ∧ origin.state = .pending

/-- What always holds of the two committed rows: an approval still pending is the original one, and
the finding is the original one unless the approval was approved. -/
def DecideStore.Consistent (store : DecideStore τ) : Prop :=
  ∃ current, store.approval.committed = some current ∧
    (current.state = .pending → current = origin) ∧
    (store.finding.committed = before ∨ current.state = .approved)

/-- The call holds the approval with its own decision on it, over an undecided request. -/
structure DecideStore.Deciding (store : DecideStore τ) (tx : τ) (call : DecideCall)
    (row : TransitionApproval) : Prop where
  held : store.approval.HeldBy tx (some row)
  undecided : store.Undecided origin
  state : row.state = call.decision.state
  decider : row.decidedByUserId = some call.decision.actor.id

/-- The committed decision and decider are those of the call. -/
def DecideStore.DecidedBy (store : DecideStore τ) (call : DecideCall) : Prop :=
  ∃ current, store.approval.committed = some current ∧ current.state = call.decision.state ∧
    current.decidedByUserId = some call.decision.actor.id

/-- What a call may rely on about the two rows between its own steps. -/
def DecidePhase.Relies (tx : τ) (store : DecideStore τ) : DecidePhase → Prop
  | .start _ => store.Idle tx
  | .loaded _ row => store.Idle tx ∧ (row.state = .pending → row = origin)
  | .checked call row finding =>
      store.Idle tx ∧ (row.state = .pending → row = origin) ∧
        finding.isSome = call.decision.approve
  -- The lock is taken; what it covers need not be the row the call carries.
  | .locked call row finding =>
      (∃ current, store.approval.HeldBy tx (some current) ∧
        store.approval.committed = some current) ∧
      (∀ version, ¬store.finding.HeldBy tx version) ∧
      (assertDecidable call.decision row = .ok () →
        row = origin ∧ store.Undecided origin) ∧
      finding.isSome = call.decision.approve
  -- The decision is written under the lock and waits for the commit.
  | .decided call row finding =>
      store.Deciding origin tx call row ∧ (∀ version, ¬store.finding.HeldBy tx version) ∧
        finding.isSome = call.decision.approve
  | .findingLocked call row _ | .applied call row | .stamped call row =>
      store.Deciding origin tx call row ∧ call.decision.approve = true
  -- A success stays visible: nobody may decide again.
  | .done call (.ok ()) => store.Idle tx ∧ store.DecidedBy call
  | .done _ (.error _) => store.Idle tx

/-- The side condition of a step: the approval is locked while it is still pending, unless the
decision is refused anyway. -/
def DecidePhase.unovertaken (store : DecideStore τ) : DecideEvent → DecidePhase → Bool
  | .advance, .checked call row _ =>
      (match assertDecidable call.decision row with
        | .error _ => true
        | .ok () => false) ||
        store.approval.committed.any fun current => current.state == .pending
  | _, _ => true

/-- What the other calls may assume about one step of a call: their locks stay, and a committed
approval changes only while it is undecided. -/
structure DecideStore.Fair (tx : τ) (store next : DecideStore τ) : Prop where
  approval : ∀ other, other ≠ tx → Row.Undisturbed other store.approval next.approval
  finding : ∀ other, other ≠ tx → Row.Undisturbed other store.finding next.finding
  decision : next.approval.committed = store.approval.committed ∨ store.Undecided origin

variable {origin before} {tx : τ} {store next : DecideStore τ}

/-- An idle call stays idle while others act. -/
theorem DecideStore.Idle.undisturbed (idle : store.Idle tx)
    (approval : Row.Undisturbed tx store.approval next.approval)
    (finding : Row.Undisturbed tx store.finding next.finding) : next.Idle tx :=
  ⟨approval.unheld idle.approval, finding.unheld idle.finding⟩

/-- A deciding call keeps its decision while others act. -/
theorem DecideStore.Deciding.undisturbed {call : DecideCall} {row : TransitionApproval}
    (deciding : store.Deciding origin tx call row)
    (approval : Row.Undisturbed tx store.approval next.approval) :
    next.Deciding origin tx call row := by
  -- A row under the call's lock is committed by nobody else.
  refine ⟨(approval.heldBy _).mpr deciding.held, ⟨?_, deciding.undecided.2⟩, deciding.state,
    deciding.decider⟩
  exact (approval.committed _ deciding.held).trans deciding.undecided.1

/-- What a call relies on survives the steps of the others. -/
theorem DecidePhase.Relies.fair {actor : τ} {phase : DecidePhase} (different : tx ≠ actor)
    (relies : Relies origin tx store phase) (fair : DecideStore.Fair origin actor store next) :
    Relies origin tx next phase := by
  have approval := fair.approval tx different
  have finding := fair.finding tx different
  cases phase with
  | start call => exact DecideStore.Idle.undisturbed relies approval finding
  | loaded call row => exact ⟨relies.1.undisturbed approval finding, relies.2⟩
  | checked call row loaded => exact ⟨relies.1.undisturbed approval finding, relies.2⟩
  | locked call row loaded =>
    -- The lock keeps the committed request in place, pending or not.
    obtain ⟨⟨current, held, committed⟩, free, fresh, approves⟩ := relies
    have same := approval.committed _ held
    refine ⟨⟨current, (approval.heldBy _).mpr held, same.trans committed⟩, finding.unheld free, ?_,
      approves⟩
    intro decidable
    obtain ⟨loaded, stored, pending⟩ := fresh decidable
    exact ⟨loaded, same.trans stored, pending⟩
  -- From the flush on, the call relies on the lock it holds.
  | decided call row loaded =>
    exact ⟨relies.1.undisturbed approval, finding.unheld relies.2.1, relies.2.2⟩
  | findingLocked call row loaded => exact ⟨relies.1.undisturbed approval, relies.2⟩
  | applied call row => exact ⟨relies.1.undisturbed approval, relies.2⟩
  | stamped call row => exact ⟨relies.1.undisturbed approval, relies.2⟩
  | done call outcome =>
    cases outcome with
    | error reason => exact DecideStore.Idle.undisturbed relies approval finding
    | ok _ =>
      obtain ⟨idle, current, committed, state, decider⟩ := relies
      refine ⟨idle.undisturbed approval finding, current, ?_, state, decider⟩
      -- A commit of the approval by another call needs the request undecided.
      rcases fair.decision with same | undecided
      · exact same.trans committed
      · -- A decided approval is not the undecided one, so nobody could have changed it.
        have pending : current.state = .pending := by
          rw [undecided.1] at committed
          rw [← Option.some.inj committed]
          exact undecided.2
        exact absurd (state.symm.trans pending) call.decision.state_ne_pending

variable [DecidableEq τ] {call : DecideCall} {row : TransitionApproval} {phase after : DecidePhase}

variable (origin before tx store next after) in
/-- A step that keeps the committed rows consistent, leaves its call with what it relies on, and is
fair to the other calls. -/
structure DecideStore.Sound : Prop where
  consistent : next.Consistent origin before
  relies : DecidePhase.Relies origin tx next after
  fair : DecideStore.Fair origin tx store next

omit [DecidableEq τ] in
/-- A step that commits nothing keeps the committed rows consistent. -/
theorem DecideStore.Consistent.of_committed (consistent : store.Consistent origin before)
    (approval : next.approval.committed = store.approval.committed)
    (finding : next.finding.committed = store.finding.committed) :
    next.Consistent origin before := by
  obtain ⟨current, committed, pending, moved⟩ := consistent
  exact ⟨current, approval.trans committed, pending, by rwa [finding]⟩

omit [DecidableEq τ] in
/-- A step that changes neither row is sound. -/
theorem DecideStore.Sound.unchanged (consistent : store.Consistent origin before)
    (relies : DecidePhase.Relies origin tx store after) :
    DecideStore.Sound origin before tx store store after :=
  ⟨consistent, relies, fun other _ => .refl other _, fun other _ => .refl other _, .inl rfl⟩

/-- A call that rolls back holds nothing any more. -/
theorem DecideStore.rollback_idle : (store.rollback tx).Idle tx :=
  ⟨Row.rollback_unheld, Row.rollback_unheld⟩

/-- A call that commits holds nothing any more. -/
theorem DecideStore.commit_idle : (store.commit tx).Idle tx :=
  ⟨Row.commit_unheld, Row.commit_unheld⟩

/-- A refused call is sound. -/
theorem DecidePhase.refuse_sound {reason : TransitionApprovalError}
    (consistent : store.Consistent origin before)
    (taken : refuse tx store call reason = some (next, after)) :
    DecideStore.Sound origin before tx store next after := by
  -- A rollback publishes nothing and frees both rows.
  cases taken
  exact ⟨consistent.of_committed Row.rollback_committed Row.rollback_committed,
    DecideStore.rollback_idle, fun _ different => Row.rollback_undisturbed different,
    fun _ different => Row.rollback_undisturbed different, .inl Row.rollback_committed⟩

/-- The commit of a decision is sound: a rejection has not touched the finding. -/
theorem DecideStore.Deciding.commit_sound (consistent : store.Consistent origin before)
    (deciding : store.Deciding origin tx call row)
    (touched : call.decision.approve = true ∨ ∀ version, ¬store.finding.HeldBy tx version) :
    DecideStore.Sound origin before tx store (store.commit tx) (.done call (.ok ())) := by
  -- The commit publishes the version the call holds.
  have committed : (store.commit tx).approval.committed = some row := by
    simp [DecideStore.commit, deciding.held.commit_eq]
  refine ⟨⟨row, committed, ?_, ?_⟩,
    ⟨DecideStore.commit_idle, row, committed, deciding.state, deciding.decider⟩,
    fun _ different => Row.commit_undisturbed different,
    fun _ different => Row.commit_undisturbed different, .inr deciding.undecided⟩
  · -- What is published is decided.
    intro pending
    exact absurd (deciding.state.symm.trans pending) call.decision.state_ne_pending
  · -- An approval may have moved the finding; a rejection has not held it.
    rcases touched with approved | free
    · exact .inr (by rw [deciding.state, Decision.state, if_pos approved])
    · -- The finding is not held, so it is still the one next to the undecided request.
      obtain ⟨current, stored, _, moved⟩ := consistent
      rw [deciding.undecided.1] at stored
      cases stored
      have unmoved := moved.resolve_right (by simp [deciding.undecided.2])
      exact .inl (by rw [DecideStore.commit, Row.commit_of_unheld free]; exact unmoved)

omit [DecidableEq τ] in
/-- A statement on the approval that commits nothing is fair. -/
theorem DecideStore.Fair.of_approval {approval : Row τ TransitionApproval}
    (undisturbed : ∀ other, other ≠ tx → Row.Undisturbed other store.approval approval)
    (same : approval.committed = store.approval.committed) :
    DecideStore.Fair origin tx store { store with approval := approval } :=
  ⟨undisturbed, fun other _ => .refl other _, .inl same⟩

omit [DecidableEq τ] in
/-- A statement on the finding that commits nothing is fair. -/
theorem DecideStore.Fair.of_finding {finding : Row τ VulnerabilityFinding}
    (undisturbed : ∀ other, other ≠ tx → Row.Undisturbed other store.finding finding) :
    DecideStore.Fair origin tx store { store with finding := finding } :=
  ⟨fun other _ => .refl other _, undisturbed, .inl rfl⟩

/-- Every step of a call that is not overtaken is sound. -/
theorem DecidePhase.advance_sound (consistent : store.Consistent origin before)
    (relies : Relies origin tx store phase) (met : unovertaken store .advance phase = true)
    (taken : advance tx store phase = some (next, after)) :
    DecideStore.Sound origin before tx store next after := by
  cases phase with
  | start call =>
    -- The first read takes no lock.
    simp only [advance] at taken
    split at taken
    · exact refuse_sound consistent taken
    · -- The row just read decides whether the actor may decide at all.
      rename_i row seen
      split at taken
      · exact refuse_sound consistent taken
      · cases taken
        refine .unchanged consistent ⟨relies, fun pending => ?_⟩
        -- The row just read is the committed one.
        obtain ⟨current, committed, original, _⟩ := consistent
        rw [Row.view_eq_committed relies.approval, committed] at seen
        cases seen
        exact original pending
  | loaded call row =>
    -- Only an approval reads the finding, which is how the two kinds are told apart later.
    simp only [advance] at taken
    split at taken
    · rename_i approves
      split at taken
      · exact refuse_sound consistent taken
      · split at taken
        · exact refuse_sound consistent taken
        · cases taken
          exact .unchanged consistent ⟨relies.1, relies.2, by simp [approves]⟩
    · rename_i rejects
      cases taken
      exact .unchanged consistent ⟨relies.1, relies.2, by simpa using rejects⟩
  | checked call row finding =>
    -- The second SELECT takes the lock and leaves the attributes as they were first read.
    obtain ⟨idle, original, approves⟩ := relies
    simp only [advance] at taken
    split at taken
    · exact refuse_sound consistent taken
    · -- The lock is on the committed version, while the call still carries the one it read.
      rename_i current seen
      simp only [Option.map_eq_some_iff] at taken
      obtain ⟨approval, locked, result⟩ := taken
      cases result
      obtain ⟨held, committed⟩ := Row.lock_unheld idle.approval seen locked
      have same := Row.lock_committed locked
      refine ⟨consistent.of_committed same rfl,
        ⟨⟨current, held, committed⟩, idle.finding, ?_, approves⟩,
        .of_approval (fun _ different => Row.lock_undisturbed different locked) same⟩
      -- An admissible decision meets the side condition only on a request that is still pending.
      intro decidable
      have pending := (assertDecidable_ok decidable).1
      have stored : store.approval.committed = some current := same.symm.trans committed
      simp only [unovertaken, decidable, stored, Option.any_some, Bool.false_or,
        beq_iff_eq] at met
      obtain ⟨found, published, first, _⟩ := consistent
      cases published.symm.trans stored
      refine ⟨original pending, committed.trans (by rw [first met]), ?_⟩
      rw [← original pending]
      exact pending
  | locked call row finding =>
    obtain ⟨⟨current, held, committed⟩, free, fresh, approves⟩ := relies
    simp only [advance] at taken
    split at taken
    · exact refuse_sound consistent taken
    · -- The attributes allow the decision, so the row under the lock is the undecided request.
      rename_i decidable
      obtain ⟨rfl, undecided⟩ := fresh decidable
      simp only [Option.map_eq_some_iff, Prod.exists] at taken
      obtain ⟨approval, matched, changed, result⟩ := taken
      cases result
      have same := Row.change_committed changed
      -- The locked version is the loaded one, so the decision is stored as a whole.
      cases committed.symm.trans undecided.1
      have stored := held.change changed
      rw [TransitionApproval.flush_decide] at stored
      exact ⟨consistent.of_committed same rfl,
        ⟨⟨stored, ⟨same.trans undecided.1, undecided.2⟩, rfl, rfl⟩, free, approves⟩,
        .of_approval (fun _ different => Row.change_undisturbed different changed) same⟩
  | decided call row finding =>
    obtain ⟨deciding, free, approves⟩ := relies
    cases finding with
    | none =>
      -- A rejection commits without having touched the finding.
      cases taken
      exact deciding.commit_sound consistent (.inr free)
    | some finding =>
      simp only [advance] at taken
      split at taken
      · exact refuse_sound consistent taken
      · -- An approval goes on to lock the finding; the decision stays under its own lock.
        simp only [Option.map_eq_some_iff] at taken
        obtain ⟨locked, waited, result⟩ := taken
        cases result
        exact ⟨consistent.of_committed rfl (Row.lock_committed waited),
          ⟨⟨deciding.held, deciding.undecided, deciding.state, deciding.decider⟩,
            by simpa using approves.symm⟩,
          .of_finding fun _ different => Row.lock_undisturbed different waited⟩
  | findingLocked call row finding =>
    obtain ⟨deciding, approves⟩ := relies
    simp only [advance] at taken
    split at taken
    · exact refuse_sound consistent taken
    · split at taken
      · exact refuse_sound consistent taken
      · -- Nothing to write: the finding already has the status.
        cases taken
        exact .unchanged consistent ⟨deciding, approves⟩
      · -- The status change is written to the finding and not yet committed.
        simp only [Option.map_eq_some_iff, Prod.exists] at taken
        obtain ⟨written, matched, changed, result⟩ := taken
        cases result
        exact ⟨consistent.of_committed rfl (Row.change_committed changed),
          ⟨⟨deciding.held, deciding.undecided, deciding.state, deciding.decider⟩, approves⟩,
          .of_finding fun _ different => Row.change_undisturbed different changed⟩
  | applied call row =>
    obtain ⟨deciding, approves⟩ := relies
    simp only [advance, Option.map_eq_some_iff, Prod.exists] at taken
    obtain ⟨approval, matched, changed, result⟩ := taken
    cases result
    have same := Row.change_committed changed
    -- The call's own version is the decided row, so the stamp is added to exactly that.
    have stored := deciding.held.change changed
    rw [TransitionApproval.flush_stamp] at stored
    exact ⟨consistent.of_committed same rfl,
      ⟨⟨stored, ⟨same.trans deciding.undecided.1, deciding.undecided.2⟩, deciding.state,
        deciding.decider⟩, approves⟩,
      .of_approval (fun _ different => Row.change_undisturbed different changed) same⟩
  | stamped call row =>
    -- The commit publishes the decision, the finding and the stamp together.
    cases taken
    exact relies.1.commit_sound consistent (.inl relies.2)
  | done call outcome => cases taken

/-- Every event of a call that is not overtaken is sound. -/
theorem DecidePhase.act_sound {event : DecideEvent} (consistent : store.Consistent origin before)
    (relies : Relies origin tx store phase) (met : unovertaken store event phase = true)
    (taken : act tx event store phase = some (next, after)) :
    DecideStore.Sound origin before tx store next after := by
  cases event with
  | advance => exact advance_sound consistent relies met taken
  -- A call may be cut off at any point before its answer.
  | abort =>
    cases phase with
    | done call outcome => cases taken
    | _ => exact refuse_sound consistent taken

/-- A call succeeds only by committing a decision on the undecided request. -/
theorem DecidePhase.act_succeeds {event : DecideEvent} (relies : Relies origin tx store phase)
    (taken : act tx event store phase = some (next, .done call (.ok ()))) :
    store.Undecided origin := by
  cases event with
  -- A call that is cut off never answers with success.
  | abort => cases phase <;> simp [act, refuse] at taken
  | advance =>
    -- Two phases commit; every other step leaves the call unanswered or refused.
    cases phase with
    | decided call row finding => exact relies.1.undecided
    | stamped call row => exact relies.1.undecided
    | start call =>
      simp only [act, advance, refuse] at taken
      split at taken
      · simp at taken
      · split at taken <;> simp at taken
    | loaded call row =>
      simp only [act, advance, refuse] at taken
      split at taken
      · split at taken
        · simp at taken
        · split at taken <;> simp at taken
      · simp at taken
    | checked call row finding =>
      simp only [act, advance, refuse] at taken
      split at taken <;> simp at taken
    | locked call row finding =>
      simp only [act, advance, refuse] at taken
      split at taken <;> simp at taken
    | findingLocked call row finding =>
      simp only [act, advance, refuse] at taken
      split at taken
      · simp at taken
      · split at taken <;> simp at taken
    | applied call row => simp [act, advance] at taken
    | done call outcome => cases taken

end Invariant

section Runs

variable {τ : Type*}

/-- No call has started, nobody holds a row, and the request is pending. -/
structure DecideSystem.Fresh (origin : TransitionApproval) (system : DecideSystem τ) : Prop where
  approval : system.store.approval = Row.free (some origin)
  finding : system.store.finding.held = none
  pending : origin.state = .pending
  initial : ∀ tx, ∃ call, system.phase tx = .start call

/-- The call of the session has answered with success. -/
def DecideSystem.Succeeded (system : DecideSystem τ) (tx : τ) (call : DecideCall) : Prop :=
  system.phase tx = .done call (.ok ())

/-- The rows are consistent, every call can rely on what it has seen, and one call at most has
succeeded. -/
structure DecideSystem.Sound (origin : TransitionApproval) (before : Option VulnerabilityFinding)
    (system : DecideSystem τ) : Prop where
  annotated : Sessions.Annotated (DecideStore.Consistent origin before)
    (DecidePhase.Relies origin) system
  single : ∀ first second call other, system.Succeeded first call →
    system.Succeeded second other → first = second

variable {origin : TransitionApproval} {before : Option VulnerabilityFinding}
  {start final : DecideSystem τ}

/-- A fresh system is sound. -/
theorem DecideSystem.Fresh.sound (fresh : start.Fresh origin) :
    start.Sound origin start.store.finding.committed := by
  -- Nobody holds a lock before the first call.
  have idle : ∀ tx, start.store.Idle tx := by
    intro tx
    refine ⟨Row.not_heldBy_of_unlocked ?_, Row.not_heldBy_of_unlocked fresh.finding⟩
    rw [fresh.approval, Row.free_held]
  refine ⟨⟨⟨origin, by simp [fresh.approval], fun _ => rfl, .inl rfl⟩, fun tx => ?_⟩, ?_⟩
  · obtain ⟨call, waiting⟩ := fresh.initial tx
    rw [waiting]
    exact idle tx
  · -- No call has answered yet.
    intro first second call other succeeded
    obtain ⟨waiting, phase⟩ := fresh.initial first
    rw [DecideSystem.Succeeded, phase] at succeeded
    cases succeeded

variable [DecidableEq τ]

/-- Each locking read of the approval finds it pending, unless its decision is refused anyway. -/
abbrev DecideUnovertaken : DecideSystem τ → τ × DecideEvent → Prop :=
  Sessions.Allows fun store event phase => DecidePhase.unovertaken store event phase = true

/-- Each guarded step keeps the system sound. -/
theorem decideStep_sound (system : DecideSystem τ) (event : τ × DecideEvent)
    (next : DecideSystem τ) (sound : system.Sound origin before)
    (met : DecideUnovertaken system event) (taken : decideStep system event = some next) :
    next.Sound origin before := by
  obtain ⟨tx, event⟩ := event
  -- What the acting call does is sound, whoever acts.
  have acting : ∀ store phase,
      DecidePhase.act tx event system.store (system.phase tx) = some (store, phase) →
      DecideStore.Sound origin before tx system.store store phase :=
    fun _ _ acted =>
      DecidePhase.act_sound sound.annotated.shared (sound.annotated.own tx) met acted
  refine ⟨Sessions.Annotated.step sound.annotated taken ?_ ?_, ?_⟩
  · intro store phase acted
    exact ⟨(acting store phase acted).consistent, (acting store phase acted).relies⟩
  · intro store phase other progress acted different relies
    exact relies.fair different (acting store phase acted).fair
  · obtain ⟨store, phase, acted, rfl⟩ := Sessions.step_eq_some.mp taken
    -- A call that succeeds now found the request undecided, so no other call had succeeded.
    have alone : ∀ other answered call, other ≠ tx → system.Succeeded other answered →
        phase ≠ .done call (.ok ()) := by
      rintro other answered call different succeeded rfl
      have undecided := DecidePhase.act_succeeds (sound.annotated.own tx) acted
      have relied := sound.annotated.own other
      rw [succeeded] at relied
      obtain ⟨_, current, committed, state, _⟩ := relied
      cases committed.symm.trans undecided.1
      exact answered.decision.state_ne_pending (state.symm.trans undecided.2)
    -- Either of two successes may be the new one, and both may be old.
    intro first second call other
    simp only [DecideSystem.Succeeded]
    by_cases mine : first = tx
    · by_cases yours : second = tx
      · rintro - -
        exact mine.trans yours.symm
      · subst mine
        rw [Function.update_self, Function.update_of_ne yours]
        intro now earlier
        exact absurd now (alone second other call yours earlier)
    · rw [Function.update_of_ne mine]
      by_cases yours : second = tx
      · subst yours
        rw [Function.update_self]
        intro earlier now
        exact absurd now (alone first call other mine earlier)
      · rw [Function.update_of_ne yours]
        exact sound.single first second call other

/-- Any number of deciders, in any order: at most one call succeeds, the committed decision and
decider are those of that call, and the finding has changed only under an approved request, in
every run whose locking reads find the request still pending. -/
theorem decision_unique {events : List (τ × DecideEvent)} (fresh : start.Fresh origin)
    (met : Guarded decideStep DecideUnovertaken start events)
    (ran : run decideStep start events = some final) :
    (∀ first second call other, final.Succeeded first call → final.Succeeded second other →
      first = second) ∧
    (∀ tx call, final.Succeeded tx call → ∃ row, final.store.approval.committed = some row ∧
      row.state = call.decision.state ∧ row.decidedByUserId = some call.decision.actor.id) ∧
    (final.store.finding.committed ≠ start.store.finding.committed →
      ∃ row, final.store.approval.committed = some row ∧ row.state = .approved) := by
  -- The invariant holds along the whole run.
  have sound : final.Sound origin start.store.finding.committed :=
    run_invariant decideStep_sound fresh.sound met ran
  refine ⟨sound.single, ?_, ?_⟩
  · -- A call that has answered with success relies on its decision being the committed one.
    intro tx call succeeded
    have relied := sound.annotated.own tx
    rw [succeeded] at relied
    exact relied.2
  · -- A finding that has moved did so under an approved request.
    intro moved
    obtain ⟨row, committed, _, unmoved⟩ := sound.annotated.shared
    exact ⟨row, committed, unmoved.resolve_left moved⟩

end Runs

section Race

/-- A pending request of user 5 to suppress a finding. -/
def suppressRequest : TransitionApproval where
  id := 1
  findingId := 5
  teamId := 1
  targetStatus := .suppressed
  justification := "accepted until the next release"
  requestedByUserId := some 5
  state := .pending
  decidedByUserId := none
  decisionNote := none
  decidedAt := none
  appliedAt := none

/-- The finding the request is about. -/
def requestedFinding : VulnerabilityFinding where
  id := 5
  scanId := 1
  componentVersionId := 1
  vulnerabilityId := 1
  status := .analyzing
  analysisState := some "analyzing"
  analysisJustification := none
  analysisSource := none
  vexOrigin := none
  analystUserId := none
  analyzedAt := none
  updatedAt := 0

/-- The project of the finding. -/
def suppressionProject : Project := ⟨1, "portal", 1, some 1, none⟩

/-- The one project has an id of its own. -/
theorem suppressionProject_unique : ([suppressionProject].map Project.id).Nodup := List.nodup_singleton _

/-- The latest scan belongs to the one project. -/
theorem suppressionProject_latest : ∀ project ∈ [suppressionProject], ∀ scan : ScanId, project.latestScanId = some scan →
    (1 : ProjectId) = project.id := by
  decide

/-- Project 1 of team 1, whose policy puts suppression behind a second person. -/
def suppressionScope : TriageScope where
  directory :=
    { path := fun _ => some [], isDemoGroup := fun _ => false, demoReadOnly := false
      groupCascadeEnabled := true }
  projects := ⟨[suppressionProject], suppressionProject_unique⟩
  scanProject := fun _ => 1
  latestScanOwn := suppressionProject_latest
  externalId := fun _ => "CVE-2024-0001"
  purlWithVersion := fun _ => "pkg:npm/left-pad@1.3.0"
  statusesRequiringApproval := fun _ => [.suppressed]

/-- An administrator of team 1 decides the request. -/
def decideCall (user : UserId) (approve : Bool) : DecideCall where
  scope := suppressionScope
  decision :=
    { actor :=
        { id := user, role := .groupAdmin, teamIds := [1]
          teamRoles := fun team => if team = 1 then some .groupAdmin else none
          isSuperuser := false }
      approve := approve, note := none, now := 100 }

/-- User 8 approves the request while user 9 rejects it. -/
def approveAndReject : DecideSystem Bool where
  store := ⟨Row.free (some suppressRequest), Row.free (some requestedFinding)⟩
  phase := fun rejects =>
    if rejects then .start (decideCall 9 false) else .start (decideCall 8 true)

/-- Neither call has started. -/
theorem approveAndReject_fresh : approveAndReject.Fresh suppressRequest := by
  refine ⟨rfl, rfl, rfl, fun rejects => ?_⟩
  cases rejects
  · exact ⟨decideCall 8 true, rfl⟩
  · exact ⟨decideCall 9 false, rfl⟩

/-- The approval from its first read to its commit. -/
def approves : List (Bool × DecideEvent) := List.replicate 8 (false, .advance)

/-- One after the other, the second call finds the request decided. -/
theorem decision_unique_sequential :
    ∃ final, run decideStep approveAndReject (approves ++ List.replicate 4 (true, DecideEvent.advance)) =
        some final ∧
      final.Succeeded false (decideCall 8 true) ∧
      (∀ other, ¬final.Succeeded true other) ∧
      (final.store.finding.committed ≠ some requestedFinding →
        ∃ row, final.store.approval.committed = some row ∧ row.state = .approved) := by
  -- The second call locks the request after it was decided, and is refused at its own check.
  have met : Guarded decideStep DecideUnovertaken approveAndReject
      (approves ++ List.replicate 4 (true, DecideEvent.advance)) := by decide
  refine ⟨_, rfl, rfl, ?_, (decision_unique approveAndReject_fresh met rfl).2.2⟩
  intro other succeeded
  cases (decision_unique approveAndReject_fresh met rfl).1 true false other (decideCall 8 true)
    succeeded rfl

/-- A rejection that read the request before the approval committed overwrites the decision: both
calls succeed and the finding stays suppressed under a rejected request. -/
theorem decision_overwritten :
    ¬∀ (origin : TransitionApproval) (start final : DecideSystem Bool)
      (events : List (Bool × DecideEvent)), start.Fresh origin →
      run decideStep start events = some final →
      (∀ first second call other, final.Succeeded first call → final.Succeeded second other →
        first = second) ∧
      (∀ tx call, final.Succeeded tx call → ∃ row, final.store.approval.committed = some row ∧
        row.state = call.decision.state ∧ row.decidedByUserId = some call.decision.actor.id) ∧
      (final.store.finding.committed ≠ start.store.finding.committed →
        ∃ row, final.store.approval.committed = some row ∧ row.state = .approved) := by
  intro unique
  -- The rejection has read the request before the approval runs, and locks it afterwards.
  have broken := unique suppressRequest approveAndReject _
    ([(true, DecideEvent.advance), (true, .advance)] ++ approves ++
      List.replicate 3 (true, DecideEvent.advance))
    approveAndReject_fresh rfl
  cases broken.1 true false (decideCall 9 false) (decideCall 8 true) rfl rfl

end Race

end Trusca
