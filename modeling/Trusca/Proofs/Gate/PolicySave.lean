import Mathlib.Data.Int.Basic
import Trusca.Gate.PolicySave
import Trusca.Store.Final

/-! Every successful save of a gate policy gets a new tag, and was based on the row it replaced. -/

namespace Trusca

open Store

section Text

/-- Two numbers written alike are the same. -/
theorem natText_injective {first second : Nat} (same : first.repr = second.repr) :
    first = second := by
  have digits : Nat.toDigits 10 first = Nat.toDigits 10 second := by
    rw [← Nat.toList_repr, ← Nat.toList_repr, same]
  rw [← Nat.ofDigitChars_ten_toDigits (n := first), digits, Nat.ofDigitChars_ten_toDigits]

/-- A number without a sign does not start with one. -/
theorem natText_ne_signed (positive negative : Nat) : positive.repr ≠ "-" ++ negative.repr := by
  intro same
  have digits : Nat.toDigits 10 positive = '-' :: Nat.toDigits 10 negative := by
    rw [← Nat.toList_repr, ← Nat.toList_repr, same]
    simp
  have sign : '-' ∈ Nat.toDigits 10 positive := by simp [digits]
  exact absurd (Nat.isDigit_of_mem_toDigits (by omega) (by omega) sign) (by decide)

/-- Two integers written alike are the same. -/
theorem intText_injective {first second : Int} (same : first.repr = second.repr) :
    first = second := by
  -- A sign tells the negative numbers apart, and what follows it is a number again.
  cases first with
  | ofNat left =>
    cases second with
    | ofNat right => exact congrArg Int.ofNat (natText_injective same)
    | negSucc right => exact absurd same (natText_ne_signed left (right + 1))
  | negSucc left =>
    cases second with
    | ofNat right => exact absurd same.symm (natText_ne_signed right (left + 1))
    | negSucc right =>
      have unsigned : (left + 1).repr = (right + 1).repr := by
        have texts : "-" ++ (left + 1).repr = "-" ++ (right + 1).repr := same
        simpa [← String.toList_inj] using texts
      have next := natText_injective unsigned
      rw [Nat.succ.inj next]

end Text

/-- A save moves the stamp past the stored one, whatever its clock says. -/
theorem GatePolicySave.stamp_gt (now : Time) (row : SavedGatePolicy) :
    row.updatedAt < stamp now (some row) := by
  simp only [stamp]
  split
  · exact Int.lt_add_one_of_le (le_refl _)
  · rename_i ahead
    exact not_le.mp ahead

/-- A later stamp is another tag. -/
theorem gatePolicyEtag_ne {old new : SavedGatePolicy} (later : old.updatedAt < new.updatedAt) :
    gatePolicyEtag old ≠ gatePolicyEtag new := by
  intro same
  exact absurd (intText_injective same) (ne_of_lt later)

/-- A precondition that holds names the row that is there, or its absence. -/
theorem checkPrecondition_ok {existing : Option SavedGatePolicy} {precondition : WritePrecondition}
    (passed : checkPrecondition existing precondition = .ok ()) :
    (∀ tags, precondition.ifMatch = some tags →
        ∃ row, existing = some row ∧ ("*" ∈ tags ∨ gatePolicyEtag row ∈ tags)) ∧
      (precondition.ifNoneMatchAny = true → existing = none) := by
  unfold checkPrecondition at passed
  split at passed
  · cases passed
  · rename_i free
    constructor
    · intro tags named
      rw [named] at passed
      cases existing with
      | none => cases passed
      | some row =>
        refine ⟨row, rfl, ?_⟩
        dsimp only at passed
        -- The list has the wildcard, or else it has the tag of the row.
        split at passed
        · rename_i wildcard
          exact .inl (by simpa using wildcard)
        · split at passed
          · rename_i listed
            exact .inr (by simpa using listed)
          · cases passed
    · intro anyRow
      simpa [anyRow] using free

section Invariant

variable {τ : Type*} {tx : τ} {row next : Row τ SavedGatePolicy}

/-- What a save may rely on about the row between its own steps. -/
def SavePhase.Relies (tx : τ) (row : Row τ SavedGatePolicy) : SavePhase → Prop
  | .start _ | .attempt _ _ _ | .read _ _ _ none | .done _ _ => ∀ version, ¬row.HeldBy tx version
  | .read _ _ _ (some stored) => row.HeldBy tx (some stored) ∧ row.committed = some stored
  | .flushed save new =>
      row.HeldBy tx (some new) ∧ checkPrecondition row.committed save.precondition = .ok () ∧
        ∀ old, row.committed = some old → old.updatedAt < new.updatedAt

/-- What a save relies on survives the steps of the others. -/
theorem SavePhase.Relies.undisturbed {phase : SavePhase} (relies : phase.Relies tx row)
    (steady : Row.Undisturbed tx row next) : phase.Relies tx next := by
  cases phase with
  | start save => exact steady.unheld relies
  | attempt save scope again => exact steady.unheld relies
  | read save scope again existing =>
    cases existing with
    | none => exact steady.unheld relies
    | some stored =>
      -- The lock keeps the committed row where the save has read it.
      exact ⟨(steady.heldBy _).mpr relies.1, (steady.committed _ relies.1).trans relies.2⟩
  | flushed save new =>
    obtain ⟨held, passed, later⟩ := relies
    refine ⟨(steady.heldBy _).mpr held, ?_⟩
    rw [steady.committed _ held]
    exact ⟨passed, later⟩
  | done save outcome => exact steady.unheld relies

variable [DecidableEq τ] {save : GatePolicySave} {after : SavePhase}

omit [DecidableEq τ] in
/-- What a step that is not a commit does: it disturbs nobody and publishes nothing. -/
structure SavePhase.Quiet (tx : τ) (row next : Row τ SavedGatePolicy) (after : SavePhase) :
    Prop where
  undisturbed : ∀ other, other ≠ tx → Row.Undisturbed other row next
  relies : after.Relies tx next
  committed : next.committed = row.committed
  pending : after.saved = none

/-- A rollback is quiet wherever the save goes on from. -/
theorem SavePhase.rollback_quiet (after : SavePhase)
    (relies : (∀ version, ¬(row.rollback tx).HeldBy tx version) → after.Relies tx (row.rollback tx))
    (pending : after.saved = none) : Quiet tx row (row.rollback tx) after :=
  ⟨fun _ different => Row.rollback_undisturbed different, relies Row.rollback_unheld,
    Row.rollback_committed, pending⟩

/-- A refused save is quiet. -/
theorem SavePhase.refuse_quiet {reason : GatePolicyError}
    (refused : refuse tx row save reason = some (next, after)) : Quiet tx row next after := by
  unfold refuse at refused
  cases refused
  exact rollback_quiet _ (fun unheld => unheld) rfl

/-- An UPDATE of the row that was read leaves the new version to be committed. -/
theorem SavePhase.update_quiet {stored new : SavedGatePolicy}
    (held : row.HeldBy tx (some stored)) (committed : row.committed = some stored)
    (passed : checkPrecondition (some stored) save.precondition = .ok ())
    (later : stored.updatedAt < new.updatedAt)
    (updated : update tx row save new = some (next, after)) : Quiet tx row next after := by
  unfold update at updated
  rw [Option.bind_eq_some_iff] at updated
  obtain ⟨⟨sent, matched⟩, changed, result⟩ := updated
  rcases Row.change_cases changed with ⟨_, _, refused⟩ | ⟨version, found, _, _, _, kept, mine⟩
  · -- The row is held and the statement has no condition, so it matches.
    cases refused stored held.view_eq
  · dsimp only at result
    rw [found, if_pos rfl] at result
    cases result
    refine ⟨fun _ different => Row.change_undisturbed different changed, ⟨mine, ?_, ?_⟩, kept, rfl⟩
    · rw [kept, committed]
      exact passed
    · intro old published
      rw [kept, committed] at published
      cases published
      exact later

/-- A first INSERT leaves the new version to be committed; one that comes too late starts over or
is refused. -/
theorem SavePhase.create_quiet {scope : OrganizationId × Option GroupId} {again : Bool}
    {new : SavedGatePolicy} (passed : checkPrecondition none save.precondition = .ok ())
    (created : create tx row save scope again new = some (next, after)) :
    Quiet tx row next after := by
  unfold create at created
  cases published : row.committed with
  | some current =>
    -- Another save has created the row in the meantime.
    simp only [published] at created
    split at created
    · exact refuse_quiet created
    · cases created
      exact rollback_quiet _ (fun unheld => unheld) rfl
  | none =>
    simp only [published, Option.map_eq_some_iff, Prod.mk.injEq] at created
    obtain ⟨sent, inserted, rfl, rfl⟩ := created
    obtain ⟨_, _, missing, held⟩ := Row.insert_cases inserted
    refine ⟨fun _ different => Row.insert_undisturbed different inserted, ⟨held, ?_, ?_⟩,
      missing.trans published.symm, rfl⟩
    · rw [missing]
      exact passed
    · -- There is no older row to compare with.
      intro old stored
      rw [missing] at stored
      cases stored

/-- Every step of a save before its commit is quiet. -/
theorem SavePhase.advance_quiet {phase : SavePhase} {now : Time} (relies : phase.Relies tx row)
    (before : ∀ save new, phase ≠ .flushed save new)
    (taken : advance tx now row phase = some (next, after)) : Quiet tx row next after := by
  cases phase with
  -- The rights are checked before the row is looked at.
  | start save =>
    simp only [advance] at taken
    cases checked : save.authorize with
    | error reason =>
      rw [checked] at taken
      exact refuse_quiet taken
    | ok scope =>
      rw [checked] at taken
      cases taken
      exact ⟨fun other _ => .refl other row, relies, rfl, rfl⟩
  -- The locking read.
  | attempt save scope again =>
    simp only [advance, Option.map_eq_some_iff, Prod.mk.injEq] at taken
    obtain ⟨sent, locked, rfl, rfl⟩ := taken
    refine ⟨fun _ different => Row.lock_undisturbed different locked, ?_,
      Row.lock_committed locked, rfl⟩
    cases seen : row.view tx with
    | none =>
      -- A missing row is not locked.
      rcases Row.lock_cases locked with ⟨_, rfl⟩ | ⟨version, found, _⟩
      · exact relies
      · cases seen.symm.trans found
    | some stored => exact Row.lock_unheld relies seen locked
  -- The precondition decides between a refusal, an insert and an update.
  | read save scope again existing =>
    simp only [advance] at taken
    cases checked : checkPrecondition existing save.precondition with
    | error reason =>
      rw [checked] at taken
      exact refuse_quiet taken
    | ok _ =>
      rw [checked] at taken
      cases existing with
      | none => exact create_quiet checked taken
      | some stored =>
        exact update_quiet relies.1 relies.2 checked (GatePolicySave.stamp_gt now stored) taken
  | flushed save new => exact absurd rfl (before save new)
  | done save outcome => cases taken

/-- Every step is quiet, or commits the row of its save. -/
theorem SavePhase.act_cases {phase : SavePhase} {event : SaveEvent} (relies : phase.Relies tx row)
    (taken : act tx event row phase = some (next, after)) :
    Quiet tx row next after ∨
      ∃ save new, phase = .flushed save new ∧ next = row.commit tx ∧
        after = .done save (.ok new) := by
  -- Only the last advance of a save writes; an abort and the reads leave the row to others.
  cases event with
  | abort =>
    cases phase with
    | done save outcome => cases taken
    | start save => exact .inl (refuse_quiet taken)
    | attempt save scope again => exact .inl (refuse_quiet taken)
    | read save scope again existing => exact .inl (refuse_quiet taken)
    | flushed save new => exact .inl (refuse_quiet taken)
  | advance now =>
    cases phase with
    | done save outcome => cases taken
    | start save =>
      exact .inl (advance_quiet relies (by simp) (show advance tx now row _ = _ from taken))
    | attempt save scope again =>
      exact .inl (advance_quiet relies (by simp) (show advance tx now row _ = _ from taken))
    | read save scope again existing =>
      exact .inl (advance_quiet relies (by simp) (show advance tx now row _ = _ from taken))
    -- The flushed save commits, and the row's new version is everybody's.
    | flushed save new =>
      cases taken
      exact .inr ⟨save, new, rfl, rfl, rfl⟩

end Invariant

section Runs

variable {τ : Type*} [DecidableEq τ] {start early middle next : SaveSystem τ}

/-- What holds between the steps: every save can rely on the row. -/
def SaveSystem.Sound (system : SaveSystem τ) : Prop :=
  Sessions.Annotated (fun _ => True) (fun tx row phase => SavePhase.Relies tx row phase) system

/-- The row of the later state is there if the earlier one's is, with no older stamp. -/
def SaveSystem.Advances (first second : SaveSystem τ) : Prop :=
  ∀ old, first.store.committed = some old →
    ∃ new, second.store.committed = some new ∧ old.updatedAt ≤ new.updatedAt

/-- A step that is not a commit keeps the committed row; a commit publishes a later stamp. -/
theorem saveStep_advances (system : SaveSystem τ) (event : τ × SaveEvent) (next : SaveSystem τ)
    (sound : system.Sound) (_ : True) (taken : saveStep system event = some next) :
    next.Sound ∧ system.Advances next := by
  obtain ⟨tx, event⟩ := event
  have cases : ∀ store phase, SavePhase.act tx event system.store (system.phase tx) =
      some (store, phase) → _ := fun store phase acted =>
    SavePhase.act_cases (sound.own tx) acted
  refine ⟨Sessions.Annotated.step sound taken ?_ ?_, ?_⟩
  · intro store phase acted
    rcases cases store phase acted with quiet | ⟨save, new, _, rfl, rfl⟩
    · exact ⟨trivial, quiet.relies⟩
    · exact ⟨trivial, Row.commit_unheld⟩
  · intro store phase other progress acted different relies
    rcases cases store phase acted with quiet | ⟨save, new, _, rfl, rfl⟩
    · exact relies.undisturbed (quiet.undisturbed other different)
    · exact relies.undisturbed (Row.commit_undisturbed different)
  · intro old published
    obtain ⟨store, phase, acted, rfl⟩ := Sessions.step_eq_some.mp taken
    rcases cases store phase acted with quiet | ⟨save, new, flushed, rfl, rfl⟩
    · exact ⟨old, quiet.committed.trans published, le_refl _⟩
    · -- The save holds the row with its new version, stamped past the committed one.
      have relies := sound.own tx
      rw [flushed] at relies
      obtain ⟨held, _, later⟩ := relies
      refine ⟨new, ?_, le_of_lt (later old published)⟩
      dsimp only
      rw [held.commit_eq, Row.free_committed]

omit [DecidableEq τ] in
/-- Before anything happened, every save can rely on the row. -/
theorem SaveSystem.sound_of_fresh (fresh : start.Fresh SavePhase.initial) : start.Sound := by
  refine ⟨trivial, fun tx => ?_⟩
  -- A row nobody has locked is held by nobody.
  have unheld : ∀ version, ¬start.store.HeldBy tx version :=
    Row.not_heldBy_of_unlocked fresh.unlocked
  have begun := fresh.initial tx
  -- Each save is at its start, so the other phases do not occur.
  cases phase : start.phase tx with
  | start save => exact unheld
  | attempt save scope again =>
    rw [phase] at begun
    cases begun
  | read save scope again existing =>
    rw [phase] at begun
    cases begun
  | flushed save new =>
    rw [phase] at begun
    cases begun
  | done save outcome =>
    rw [phase] at begun
    cases begun

omit [DecidableEq τ] in
/-- Stamps never go back along consecutive parts of a run. -/
theorem SaveSystem.Advances.trans {first second third : SaveSystem τ}
    (earlier : first.Advances second) (later : second.Advances third) : first.Advances third := by
  intro old published
  obtain ⟨mid, stored, atMost⟩ := earlier old published
  obtain ⟨new, kept, further⟩ := later mid stored
  exact ⟨new, kept, le_trans atMost further⟩

/-- In every run, a save that succeeds publishes its row with a tag that the row never had before,
and its precondition held of the row it replaced: an If-Match that it carries names that row's tag
or the wildcard, and with an If-None-Match wildcard there was no row. -/
theorem save_guarded {first second : List (τ × SaveEvent)} {tx : τ} {event : SaveEvent}
    {row : SavedGatePolicy} (fresh : start.Fresh SavePhase.initial)
    (reached : run saveStep start first = some early)
    (continued : run saveStep early second = some middle)
    (taken : saveStep middle (tx, event) = some next)
    (success : (next.phase tx).saved = some row) :
    next.store.committed = some row ∧
      (∀ old, early.store.committed = some old →
        old.updatedAt < row.updatedAt ∧ gatePolicyEtag old ≠ gatePolicyEtag row) ∧
      (∀ tags, (middle.phase tx).save.precondition.ifMatch = some tags →
        ∃ current, middle.store.committed = some current ∧
          ("*" ∈ tags ∨ gatePolicyEtag current ∈ tags)) ∧
      ((middle.phase tx).save.precondition.ifNoneMatchAny = true →
        middle.store.committed = none) := by
  -- The annotation holds at both states the statement speaks of.
  have sound_early : early.Sound :=
    run_invariant (fun _ _ _ holds met taken => (saveStep_advances _ _ _ holds met taken).1)
      (SaveSystem.sound_of_fresh fresh) (.trivially start first) reached
  have sound : middle.Sound :=
    run_invariant (fun _ _ _ holds met taken => (saveStep_advances _ _ _ holds met taken).1)
      sound_early (.trivially early second) continued
  have advances : early.Advances middle :=
    run_relation SaveSystem.Sound SaveSystem.Advances
      (fun state old published => ⟨old, published, le_refl _⟩) (fun one two => one.trans two)
      (fun state event after holds met taken => saveStep_advances state event after holds met taken)
      sound_early (.trivially early second) continued
  obtain ⟨store, phase, acted, rfl⟩ := Sessions.step_eq_some.mp taken
  dsimp only at success
  rw [Function.update_self] at success
  rcases SavePhase.act_cases (sound.own tx) acted with quiet | ⟨save, new, flushed, rfl, rfl⟩
  · -- A step that is not a commit reports no stored row.
    rw [quiet.pending] at success
    cases success
  · cases success
    have relies := sound.own tx
    rw [flushed] at relies
    obtain ⟨held, passed, later⟩ := relies
    obtain ⟨named, absent⟩ := checkPrecondition_ok passed
    rw [flushed]
    refine ⟨?_, ?_, named, absent⟩
    · dsimp only
      rw [held.commit_eq, Row.free_committed]
    · intro old published
      obtain ⟨current, stored, atMost⟩ := advances old published
      have newer : old.updatedAt < row.updatedAt := lt_of_le_of_lt atMost (later current stored)
      exact ⟨newer, gatePolicyEtag_ne newer⟩

/-- A save of the team's policy by its administrator, who blocks malicious packages or not. -/
def teamSave (blocks : Bool) (ifMatch : String) : GatePolicySave where
  directory :=
    { path := fun _ => some [], isDemoGroup := fun _ => false, demoReadOnly := false
      groupCascadeEnabled := true }
  actor := ⟨1, .groupAdmin, [1], fun _ => some .groupAdmin, false⟩
  target := .team 1 (some 1)
  payload := ⟨none, none, none, some blocks, none⟩
  ifMatch := some ifMatch
  ifNoneMatch := none

/-- A policy saved at time 3, and two saves of it: the second one lists both tags it has seen. -/
def twoSaves : SaveSystem Bool where
  store := .free (some
    { organizationId := 1, teamId := some 1, epssThreshold := none, reachableCriticalOnly := none
      maliciousBlocks := none, name := none, approvalRequiredStatuses := none, updatedAt := 3 })
  phase := fun listed => .start (teamSave listed (if listed then "\"3\", \"5\"" else "\"3\""))

/-- All the steps of a save, at one time on its clock. -/
def wholeSave (tx : Bool) (now : Time) : List (Bool × SaveEvent) :=
  List.replicate 4 (tx, .advance now)

/-- The first save, stamped 5, replaces the row stamped 3. -/
theorem save_guarded_first :
    ((run saveStep twoSaves (wholeSave false 5)).map fun last =>
        (last.phase false).saved.isSome) = some true ∧
      ∀ middle next row, run saveStep twoSaves ((wholeSave false 5).take 3) = some middle →
        saveStep middle (false, .advance 5) = some next → (next.phase false).saved = some row →
        next.store.committed = some row ∧ gatePolicyEtag row ≠ "3" := by
  refine ⟨rfl, ?_⟩
  intro middle next row continued taken success
  have guarded := save_guarded ⟨rfl, fun _ => rfl⟩ (run_nil twoSaves) continued taken success
  have differs := (guarded.2.1 _ rfl).2
  exact ⟨guarded.1, fun same => differs (same ▸ by decide)⟩

/-- The second save succeeds on the row stamped 5, although its header names the older tag too. -/
theorem save_names_older :
    ∃ middle current last, run saveStep twoSaves (wholeSave false 5) = some middle ∧
      middle.store.committed = some current ∧ gatePolicyEtag current = "5" ∧
      (middle.phase true).save.precondition.ifMatch = some ["3", "5"] ∧
      run saveStep middle (wholeSave true 7) = some last ∧
      (last.phase true).saved.isSome = true := by
  exact ⟨_, _, _, rfl, rfl, by decide, by decide, rfl, rfl⟩

end Runs

end Trusca
