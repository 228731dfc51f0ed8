import Trusca.Approval.ComponentApproval
import Trusca.Store.Final

/-! A decided component approval is permanent unless a deletion overtakes its own check. -/

namespace Trusca

open Store

variable {τ : Type*}

/-- An accepted transition passed every guard, in particular the transition map. -/
theorem transitionApproval_accepts {call : TransitionCall} {row moved : ComponentApproval}
    (accepted : transitionApproval call row = .ok moved) :
    canAccessGroup call.directory call.actor row.teamId = true ∧ call.ifMatch = row.version ∧
      row.status.transitionMap.contains call.action = true := by
  unfold transitionApproval at accepted
  -- The guards are nested, and each refusal is an error.
  split at accepted
  · cases accepted
  · rename_i reached
    split at accepted
    · cases accepted
    · rename_i current
      split at accepted
      · cases accepted
      · rename_i listed
        exact ⟨by simpa using reached, by simpa using current, by simpa using listed⟩

/-- A transition never starts from a terminal status. -/
theorem transitionApproval_from_open {call : TransitionCall} {row moved : ComponentApproval}
    (accepted : transitionApproval call row = .ok moved) : row.status.terminal = false := by
  -- The terminal statuses have an empty entry in the transition map.
  have listed := (transitionApproval_accepts accepted).2.2
  cases status : row.status <;>
    simp [status, ApprovalStatus.transitionMap, ApprovalStatus.terminal] at listed ⊢

namespace ApprovalPhase

/-- What a request may rely on about the row between its own steps. -/
def Relies (tx : τ) (row : Row τ ComponentApproval) : ApprovalPhase → Prop
  | .transitionLocked _ current => row.HeldBy tx (some current) ∧ row.committed = some current
  | .transitionWritten _ => True
  | .deleteSent => True
  | _ => ∀ version, ¬row.HeldBy tx version

/-- What a request relies on survives every change that does not disturb it. -/
theorem Relies.undisturbed {tx : τ} {row next : Row τ ComponentApproval} {phase : ApprovalPhase}
    (relies : Relies tx row phase) (kept : Row.Undisturbed tx row next) : Relies tx next phase := by
  cases phase with
  | transitionLocked call current =>
    -- While the request holds the lock, nobody else commits a version of the row.
    obtain ⟨held, published⟩ := relies
    exact ⟨(kept.heldBy _).mpr held, (kept.committed _ held).trans published⟩
  | transitionWritten moved => trivial
  | deleteSent => trivial
  | transition call => exact kept.unheld relies
  | delete call => exact kept.unheld relies
  | deleteAllowed => exact kept.unheld relies
  | done outcome => exact kept.unheld relies

/-- A committed approval in a terminal status. -/
def Decided (row : ComponentApproval) : Prop := row.status.terminal = true

/-- The deletion's own terminal-state check would still pass on the committed row. -/
def stillOpen (row : Row τ ComponentApproval) : Bool :=
  match row.committed with
  | none => true
  | some current => !current.status.terminal

/-- A row that is still open has no decided version. -/
theorem stillOpen_undecided {row : Row τ ComponentApproval} (undecided : stillOpen row = true) :
    ∀ current, row.committed = some current → ¬Decided current := by
  intro current published
  simpa [stillOpen, published, Decided] using undecided

variable [DecidableEq τ]

/-- The side condition of a step: a DELETE is sent while the committed row is still open. -/
def unovertaken (event : ApprovalEvent) (row : Row τ ComponentApproval) : ApprovalPhase → Bool
  | .deleteAllowed => event == .abort || stillOpen row
  | _ => true

/-- Every guarded step is harmless to decided rows and re-establishes what its request relies on. -/
theorem act_harmless {tx : τ} {event : ApprovalEvent} {row next : Row τ ComponentApproval}
    {phase after : ApprovalPhase} (relies : Relies tx row phase)
    (met : unovertaken event row phase = true) (taken : act tx event row phase = some (next, after)) :
    Row.Harmless id Decided tx row next ∧ Relies tx next after := by
  cases event with
  | abort =>
    -- A cut connection rolls back, wherever the request stands.
    cases phase <;> simp only [act, Option.some.injEq, Prod.mk.injEq, reduceCtorEq] at taken <;>
      obtain ⟨rfl, rfl⟩ := taken <;> exact Row.rollback_ends
  | advance =>
    cases phase with
    | transition call =>
      simp only [act, advance] at taken
      split at taken
      · -- The row is gone, and the request answers so.
        cases taken
        exact Row.rollback_ends
      · -- The lock is taken on the committed version, which the request then works from.
        rename_i current seen
        simp only [Option.map_eq_some_iff] at taken
        obtain ⟨locked, waited, result⟩ := taken
        cases result
        exact ⟨.of_lock waited, Row.lock_unheld relies seen waited⟩
    | transitionLocked call current =>
      obtain ⟨held, committed⟩ := relies
      simp only [act, advance] at taken
      split at taken
      · cases taken
        exact Row.rollback_ends
      · rename_i moved accepted
        simp only [Option.map_eq_some_iff, Prod.exists] at taken
        obtain ⟨written, matched, changed, result⟩ := taken
        cases result
        refine ⟨.of_change changed fun _ _ _ => .inr fun found same => ?_, trivial⟩
        -- The locked row is the committed one, and its transition map entry is not empty.
        rw [committed] at same
        cases same
        simp [Decided, transitionApproval_from_open accepted]
    | transitionWritten moved =>
      cases taken
      exact Row.commit_ends
    | delete call =>
      -- The deletion only reads here, and takes no lock on what it read.
      simp only [act, advance] at taken
      split at taken
      · cases taken
        exact ⟨.refl, relies⟩
      · split at taken <;> cases taken
        · exact Row.rollback_ends
        · exact ⟨.refl, relies⟩
    | deleteAllowed =>
      simp only [act, advance, Option.map_eq_some_iff, Prod.exists] at taken
      obtain ⟨sent, matched, changed, result⟩ := taken
      cases result
      -- Nothing but the side condition keeps the DELETE off a decided row.
      have undecided : ∀ found, row.committed = some found → ¬Decided found :=
        stillOpen_undecided (by simpa [unovertaken] using met)
      exact ⟨.of_change changed fun _ _ _ => .inr undecided, trivial⟩
    | deleteSent =>
      cases taken
      exact Row.commit_ends
    | done outcome => cases taken

/-- The requests on an approval respect its decision while no deletion is overtaken. -/
theorem discipline : Sessions.Discipline (@act τ _) Relies
    (fun row event phase => unovertaken event row phase = true) initial id Decided where
  starts := by
    -- Both starting phases rely on holding nothing.
    intro tx row phase waiting unheld
    cases phase <;> simp [initial] at waiting <;> exact unheld
  undisturbed := fun tx row next phase relies kept => relies.undisturbed kept
  harmless := fun tx event row phase next after relies met taken => act_harmless relies met taken
  determined := fun current other last same => ⟨current, same, last⟩

end ApprovalPhase

/-- Each DELETE is sent while the committed row would still pass the deletion's terminal check. -/
abbrev DeleteUnovertaken [DecidableEq τ] : ApprovalSystem τ → τ × ApprovalEvent → Prop :=
  Sessions.Allows fun row event phase => ApprovalPhase.unovertaken event row phase = true

/-- Once an approved or rejected row is committed, no later step of any request changes or deletes
it, in every run whose deletions are not overtaken by a decision. -/
theorem decided_approval_permanent [DecidableEq τ] {start middle final : ApprovalSystem τ}
    {before after : List (τ × ApprovalEvent)} (fresh : start.Fresh ApprovalPhase.initial)
    (met : Guarded approvalStep DeleteUnovertaken start (before ++ after))
    (reached : run approvalStep start before = some middle)
    (continued : run approvalStep middle after = some final) {row : ComponentApproval}
    (published : middle.store.committed = some row) (decided : row.status.terminal = true) :
    final.store.committed = some row :=
  ApprovalPhase.discipline.permanent fresh met reached continued published decided

section Race

/-- An approval under review by team 1, requested by user 7. -/
def reviewedApproval : ComponentApproval where
  componentId := 3
  projectId := 2
  teamId := 1
  requestedByUserId := some 7
  status := .underReview
  decidedByUserId := none
  decidedAt := none
  decisionNote := none
  decidedLicenseIds := none
  version := 2

/-- The approval as user 9 decides it. -/
def approvedApproval : ComponentApproval :=
  { reviewedApproval with
    status := .approved, version := 3, decidedByUserId := some 9, decidedAt := some 100
    decisionNote := some "ok", decidedLicenseIds := some ["MIT"] }

/-- A deployment with one group and no demo mode. -/
def plainDirectory : Directory where
  path := fun _ => some []
  isDemoGroup := fun _ => false
  demoReadOnly := false
  groupCascadeEnabled := true

/-- A member of team 1 with the given role. -/
def teamMember (id : UserId) (role : Role) : CurrentUser where
  id := id
  role := role
  teamIds := [1]
  teamRoles := fun team => if team = 1 then some role else none
  isSuperuser := false

/-- The administrator approves and the requester deletes, both on the row under review. -/
def approveAndDelete : ApprovalSystem Bool where
  store := Row.free (some reviewedApproval)
  phase := fun deletes =>
    if deletes then .delete { actor := teamMember 7 .developer, directory := plainDirectory }
    else .transition
      { actor := teamMember 9 .groupAdmin, directory := plainDirectory, action := .approved
        decisionNote := some "ok", ifMatch := 2, now := 100
        currentLicenseSet := fun _ _ => ["MIT"] }

/-- Neither request of the race has started. -/
theorem approveAndDelete_fresh : approveAndDelete.Fresh ApprovalPhase.initial := by
  refine ⟨rfl, fun deletes => ?_⟩
  cases deletes <;> rfl

/-- The deletion comes after the decision, finds it, and is refused. -/
theorem decided_approval_permanent_sequential :
    ∃ middle final : ApprovalSystem Bool,
      run approvalStep approveAndDelete
        [(false, ApprovalEvent.advance), (false, .advance), (false, .advance)] = some middle ∧
      run approvalStep middle [(true, ApprovalEvent.advance)] = some final ∧
      final.phase true = .done (.error (.terminalState .approved)) ∧
      final.store.committed = some approvedApproval := by
  refine ⟨_, _, rfl, rfl, rfl, ?_⟩
  -- The deletion never gets as far as its DELETE, so the side condition is met throughout.
  have met : Guarded approvalStep DeleteUnovertaken approveAndDelete
      ([(false, ApprovalEvent.advance), (false, .advance), (false, .advance)] ++
        [(true, ApprovalEvent.advance)]) := by
    decide
  exact decided_approval_permanent approveAndDelete_fresh met rfl rfl rfl rfl

/-- A deletion that read the row before the decision removes the decided row. -/
theorem decided_approval_deleted :
    ¬∀ (start middle final : ApprovalSystem Bool) (before after : List (Bool × ApprovalEvent))
      (row : ComponentApproval), start.Fresh ApprovalPhase.initial →
      run approvalStep start before = some middle → run approvalStep middle after = some final →
      middle.store.committed = some row → row.status.terminal = true →
      final.store.committed = some row := by
  intro permanent
  -- The deletion passes its check first, then the decision commits, then the DELETE goes out.
  have kept := permanent approveAndDelete _ _
    [(true, .advance), (false, .advance), (false, .advance), (false, .advance)]
    [(true, .advance), (true, .advance)] approvedApproval approveAndDelete_fresh rfl rfl rfl rfl
  cases kept

end Race

end Trusca
