import Trusca.Scan.Lifecycle
import Trusca.Store.Final

/-! The ending of a scan is final unless a writer that compares nothing overtakes it. -/

namespace Trusca

open Store

/-- A flush that assigns the loaded status keeps the stored one. -/
theorem Scan.flush_status {loaded assigned current : Scan}
    (same : assigned.status = loaded.status) :
    (loaded.flush assigned current).status = current.status := by
  simp [Scan.flush, flushColumn, same]

/-- The scan has ended. -/
def Scan.Ended (scan : Scan) : Prop := scan.status.terminal = true

/-- A scan whose failure may be recorded has not ended. -/
theorem ScanStatus.failable_open {status : ScanStatus} (failable : status.failable = true) :
    status.terminal = false := by
  cases status <;> simp [ScanStatus.failable, ScanStatus.terminal] at failable ⊢

namespace ScanPhase

variable {τ : Type*}

/-- What a writer may rely on about the row between its own steps. -/
def Relies (tx : τ) (row : Row τ Scan) : ScanPhase → Prop
  | .cancelLocked _ loaded => row.HeldBy tx (some loaded) ∧ row.committed = some loaded
  -- A statement has been sent; only the commit follows.
  | .triggerInserted _ | .triggerStamped _ | .triggerFailed | .workerMarked _ | .claimed _
  | .failSent _ _ | .cancelSent => True
  | _ => ∀ version, ¬row.HeldBy tx version

/-- What a writer relies on survives every change that does not disturb it. -/
theorem Relies.undisturbed {tx : τ} {row next : Row τ Scan} {phase : ScanPhase}
    (relies : Relies tx row phase) (kept : Row.Undisturbed tx row next) : Relies tx next phase := by
  cases phase with
  | cancelLocked call loaded =>
    -- The cancel holds the lock, so the committed row cannot move under it.
    obtain ⟨held, published⟩ := relies
    exact ⟨(kept.heldBy _).mpr held, (kept.committed _ held).trans published⟩
  | _ => first | trivial | exact kept.unheld relies

/-- The committed scan has not ended. -/
def stillOpen (row : Row τ Scan) : Bool :=
  match row.committed with
  | none => true
  | some current => !current.status.terminal

/-- A row that is still open has no ended version. -/
theorem stillOpen_unended {row : Row τ Scan} (unended : stillOpen row = true) :
    ∀ current, row.committed = some current → ¬current.Ended := by
  intro current published
  simpa [stillOpen, published, Scan.Ended] using unended

/-- The side condition of a step: an UPDATE that compares nothing and writes the status column is
sent while the committed scan has not ended. -/
def unovertaken (row : Row τ Scan) : ScanEvent → ScanPhase → Bool
  | .fail _, .triggerLoaded _ loaded => loaded.status == .failed || stillOpen row
  | .fail _, .triggerStored call => !call.system || stillOpen row
  | .advance, .workerLoaded call loaded =>
      call.refusal.isSome || loaded.status == .running || stillOpen row
  | _, _ => true

variable [DecidableEq τ] {tx : τ} {row next : Row τ Scan} {phase after : ScanPhase}

/-- A row step that is harmless to ended scans, and the phase it leaves its writer in. -/
def Good (tx : τ) (row next : Row τ Scan) (after : ScanPhase) : Prop :=
  Row.Harmless (Option.map Scan.status) Scan.Ended tx row next ∧ Relies tx next after

/-- An UPDATE that keeps the status column, or finds no ended scan, is harmless. -/
theorem update_good {edit : Scan → Scan} {target : ScanPhase}
    (fresh : row.view tx = row.committed)
    (taken : update tx row edit target = some (next, after))
    (allowed : (∀ current, (edit current).status = current.status) ∨
      ∀ current, row.committed = some current → ¬current.Ended)
    (relies : ∀ store, Relies tx store target) : Good tx row next after := by
  simp only [update, Option.map_eq_some_iff, Prod.exists] at taken
  obtain ⟨sent, matched, changed, result⟩ := taken
  have harmless : Row.Harmless (Option.map Scan.status) Scan.Ended tx row sent := by
    refine .of_change changed fun version seen _ => ?_
    -- The statement edits the committed version, since the writer has no other of its own.
    rw [fresh] at seen
    rcases allowed with kept | unended
    · exact .inl (by simp [seen, kept version])
    · exact .inr unended
  rcases Row.change_cases changed with ⟨rfl, rfl, _⟩ | ⟨_, rfl, _⟩
  · -- No row was matched, so the writer stops with nothing held.
    cases result
    exact Row.rollback_ends
  · cases result
    exact ⟨harmless, relies _⟩

/-- The success claim and the failure record change only a scan that has not ended. -/
theorem conditional_harmless {accepts : Scan → Bool} {edit : Scan → Option Scan} {matched : Bool}
    (fresh : row.view tx = row.committed)
    (unended : ∀ scan, accepts scan = true → scan.status.terminal = false)
    (changed : row.change tx accepts edit = some (next, matched)) :
    Row.Harmless (Option.map Scan.status) Scan.Ended tx row next := by
  -- The condition is checked on the committed version and refuses an ended one.
  refine .of_change changed fun version seen accepted => .inr fun current published => ?_
  rw [fresh, published] at seen
  cases seen
  simp [Scan.Ended, unended version accepted]

/-- Every step of the normal course is good when it is not overtaken. -/
theorem advance_good (relies : Relies tx row phase)
    (met : unovertaken row .advance phase = true)
    (taken : advance tx row phase = some (next, after)) : Good tx row next after := by
  have released : Good tx row (row.rollback tx) .done := Row.rollback_ends
  cases phase with
  | trigger call =>
    simp only [advance, Option.map_eq_some_iff] at taken
    obtain ⟨inserted, added, result⟩ := taken
    cases result
    exact ⟨.of_insert added, trivial⟩
  | triggerInserted call | triggerStamped call | triggerFailed | workerMarked call | claimed call
  | failSent guarded now | cancelSent =>
    -- The statement is out; only the commit follows.
    cases taken
    exact Row.commit_ends
  | triggerCommitted call =>
    simp only [advance] at taken
    split at taken <;> cases taken
    · exact released
    · exact ⟨.refl, relies⟩
  | triggerLoaded call loaded =>
    -- The write-back assigns the task id only, so the flush leaves the status column out.
    exact update_good (Row.view_eq_committed relies) taken
      (.inl fun current => Scan.flush_status rfl) fun _ => trivial
  | triggerStored call =>
    cases taken
    exact ⟨.refl, relies⟩
  | worker call =>
    -- The worker reads the row and remembers it, without a lock.
    simp only [advance] at taken
    split at taken
    · cases taken
      exact ⟨.refl, relies⟩
    · split at taken <;> cases taken <;> exact ⟨.refl, relies⟩
  | workerLoaded call loaded =>
    simp only [advance] at taken
    split at taken
    · cases taken
      exact ⟨.refl, relies⟩
    · rename_i accepted
      refine update_good (Row.view_eq_committed relies) taken ?_ fun _ => trivial
      simp only [unovertaken, accepted, Option.isSome_none, Bool.false_or, Bool.or_eq_true,
        beq_iff_eq] at met
      -- A row loaded as running has no status to write; otherwise the scan must still be open.
      rcases met with already | unended
      · exact .inl fun current => Scan.flush_status already.symm
      · exact .inr (stillOpen_unended unended)
  | pipeline call =>
    -- The claim matches a running scan or no scan.
    simp only [advance, Option.map_eq_some_iff, Prod.exists] at taken
    obtain ⟨sent, matched, changed, result⟩ := taken
    have harmless := conditional_harmless (Row.view_eq_committed relies)
      (fun scan accepted => by simp [beq_iff_eq.mp accepted, ScanStatus.terminal]) changed
    rcases Row.change_cases changed with ⟨rfl, rfl, _⟩ | ⟨_, rfl, _⟩ <;> cases result
    · exact released
    · exact ⟨harmless, trivial⟩
  | failing guarded message now =>
    simp only [advance, Option.map_eq_some_iff, Prod.exists] at taken
    obtain ⟨sent, matched, changed, result⟩ := taken
    cases result
    exact ⟨conditional_harmless (Row.view_eq_committed relies)
      (fun scan accepted => ScanStatus.failable_open accepted) changed, trivial⟩
  | reaper call =>
    -- The reaper's own reading decides nothing yet; the UPDATE that follows checks again.
    simp only [advance] at taken
    split at taken
    · cases taken
      exact ⟨.refl, relies⟩
    · split at taken <;> cases taken <;> exact ⟨.refl, relies⟩
  | cancel call =>
    simp only [advance] at taken
    split at taken
    · cases taken
      exact released
    · -- The lock is on the committed row, and the checks that follow read that row.
      rename_i loaded seen
      simp only [Option.map_eq_some_iff] at taken
      obtain ⟨locked, waited, result⟩ := taken
      cases result
      exact ⟨.of_lock waited, Row.lock_unheld relies seen waited⟩
  | cancelLocked call loaded =>
    obtain ⟨held, committed⟩ := relies
    simp only [advance] at taken
    split at taken
    · -- The locked row is the committed one, and the cancel saw that it is not terminal.
      rename_i allowed
      simp only [Bool.and_eq_true, Bool.not_eq_eq_eq_not, Bool.not_true] at allowed
      refine update_good (held.view_eq.trans committed.symm) taken
        (.inr fun current found => ?_) fun _ => trivial
      rw [committed] at found
      cases found
      simp [Scan.Ended, allowed.2]
    · cases taken
      exact released
  | done => cases taken

/-- Every handled exception is good when it is not overtaken. -/
theorem fail_good {message : String} (relies : Relies tx row phase)
    (met : unovertaken row (.fail message) phase = true)
    (taken : fail tx row message phase = some (next, after)) : Good tx row next after := by
  cases phase with
  | triggerLoaded call loaded =>
    -- The enqueue failed, and the trigger writes that over whatever the row has become.
    refine update_good (Row.view_eq_committed relies) taken ?_ fun _ => trivial
    simp only [unovertaken, Bool.or_eq_true, beq_iff_eq] at met
    rcases met with already | unended
    · exact .inl fun current => Scan.flush_status already.symm
    · exact .inr (stillOpen_unended unended)
  | triggerStored call =>
    simp only [fail] at taken
    split at taken
    · rename_i system
      refine update_good (Row.view_eq_committed relies) taken (.inr ?_) fun _ => trivial
      exact stillOpen_unended (by simpa [unovertaken, system] using met)
    · cases taken
      exact ⟨.refl, relies⟩
  | failing guarded message now =>
    cases guarded <;> cases taken <;> exact Row.rollback_ends
  | failSent guarded now =>
    cases guarded <;> cases taken <;> exact Row.rollback_ends
  | done => cases taken
  -- Every other phase gives up what it held.
  | _ =>
    cases taken
    exact Row.rollback_ends

/-- Every event of a writer is good when it is not overtaken. -/
theorem act_good {event : ScanEvent} (relies : Relies tx row phase)
    (met : unovertaken row event phase = true) (taken : act tx event row phase = some (next, after)) :
    Good tx row next after := by
  cases event with
  | advance => exact advance_good relies met taken
  | fail message => exact fail_good relies met taken
  | abort =>
    -- A rollback ends every call that is not done.
    cases phase with
    | done => cases taken
    | _ =>
      cases taken
      exact Row.rollback_ends

/-- The writers of a scan respect its ending while no unconditional UPDATE is overtaken. -/
theorem discipline : Sessions.Discipline (@act τ _) Relies
    (fun row event phase => unovertaken row event phase = true) initial (Option.map Scan.status)
    Scan.Ended where
  starts := by
    intro tx row phase waiting unheld
    cases phase <;> simp [initial] at waiting <;> exact unheld
  undisturbed := fun tx row next phase relies kept => relies.undisturbed kept
  harmless := fun tx event row phase next after relies met taken => act_good relies met taken
  determined := by
    -- The key is the status itself, so a version with the same key has ended too.
    intro current other ended same
    obtain ⟨version, rfl, alike⟩ := Option.map_eq_some_iff.mp same
    exact ⟨version, rfl, by rw [Scan.Ended, alike]; exact ended⟩

end ScanPhase

/-- Each UPDATE that compares nothing and writes the status finds a scan that has not ended. -/
abbrev StartUnovertaken {τ : Type*} [DecidableEq τ] : ScanSystem τ → τ × ScanEvent → Prop :=
  Sessions.Allows fun row event phase => ScanPhase.unovertaken row event phase = true

/-- Once a scan is committed as succeeded, failed or cancelled, no later step of any writer changes
its status, in every run whose unconditional writes are not overtaken by an ending. -/
theorem ended_scan_final {τ : Type*} [DecidableEq τ] {start middle final : ScanSystem τ}
    {before after : List (τ × ScanEvent)} (fresh : start.Fresh ScanPhase.initial)
    (met : Guarded scanStep StartUnovertaken start (before ++ after))
    (reached : run scanStep start before = some middle)
    (continued : run scanStep middle after = some final) {status : ScanStatus}
    (published : middle.store.committed.map Scan.status = some status)
    (ended : status.terminal = true) : final.store.committed.map Scan.status = some status := by
  obtain ⟨scan, found, rfl⟩ := Option.map_eq_some_iff.mp published
  exact ScanPhase.discipline.permanent fresh met reached continued found ended

section Race

/-- A trigger, the worker that gets its task, and an administrator who cancels the scan. -/
def triggerStartCancel : ScanSystem (Fin 3) where
  store := Row.free none
  phase
    | 0 => .trigger { kind := .source, now := 10, taskId := "task", system := false }
    | 1 => .worker { kind := .source, refusal := none, startedAt := 20, endedAt := 90 }
    | 2 => .cancel
      { actor :=
          { id := 1, role := .superAdmin, teamIds := [], teamRoles := fun _ => none
            isSuperuser := true }
        directory :=
          { path := fun _ => some [], isDemoGroup := fun _ => false, demoReadOnly := false
            groupCascadeEnabled := true }
        admin := true, team := some 1, reason := "cancelled by admin", now := 30 }

/-- None of the three writers has started. -/
theorem triggerStartCancel_fresh : triggerStartCancel.Fresh ScanPhase.initial :=
  ⟨rfl, by decide⟩

/-- There is a first of three sessions. -/
theorem three_sessions_pos : 0 < 3 := Nat.zero_lt_succ 2

/-- The trigger runs to its end. -/
def triggered : List (Fin 3 × ScanEvent) :=
  List.replicate 6 (⟨0, three_sessions_pos⟩, .advance)

/-- A scan cancelled while it runs stays cancelled when its worker finishes. -/
theorem ended_scan_final_cancelled :
    ∃ middle final : ScanSystem (Fin 3),
      run scanStep triggerStartCancel (triggered ++
        [(1, ScanEvent.advance), (1, .advance), (1, .advance),
        (2, .advance), (2, .advance), (2, .advance)]) = some middle ∧
      run scanStep middle [(1, ScanEvent.advance)] = some final ∧
      final.store.committed.map Scan.status = some .cancelled := by
  refine ⟨_, _, rfl, rfl, ?_⟩
  -- The worker started before the cancel, and its success claim finds no running scan.
  have met : Guarded scanStep StartUnovertaken triggerStartCancel
      ((triggered ++ [(1, ScanEvent.advance), (1, .advance), (1, .advance), (2, .advance), (2, .advance),
        (2, .advance)]) ++ [(1, ScanEvent.advance)]) := by decide
  exact ended_scan_final triggerStartCancel_fresh met rfl rfl rfl rfl

/-- A worker that read the queued row before the cancel flips the cancelled scan to running. -/
theorem ended_scan_restarted :
    ¬∀ (start middle final : ScanSystem (Fin 3)) (before after : List (Fin 3 × ScanEvent))
      (status : ScanStatus), start.Fresh ScanPhase.initial →
      run scanStep start before = some middle → run scanStep middle after = some final →
      middle.store.committed.map Scan.status = some status → status.terminal = true →
      final.store.committed.map Scan.status = some status := by
  intro kept
  -- The worker reads the queued row, the cancel commits, and only then the worker's UPDATE goes out.
  have same := kept triggerStartCancel _ _
    (triggered ++ [(1, ScanEvent.advance), (2, .advance), (2, .advance), (2, .advance)])
    [(1, ScanEvent.advance), (1, .advance)] .cancelled triggerStartCancel_fresh rfl rfl rfl rfl
  cases same

end Race

end Trusca
