import Trusca.Scan.Retention

/-! What every step of a finalisation, of the retention task, and of the other writers does to the
scans, and which scans the two sweeps can reclaim. -/

namespace Trusca

open Store

variable {τ : Type*} [DecidableEq τ]

/-- A scan that a finalisation retires, by the one rule or by the other. -/
def RetainedScan.RetiredFor (row scan : RetainedScan) : Prop :=
  (∃ ref, row.ref = some ref ∧ scan.retiredByRef row.projectId ref = true) ∨
    ∃ label, row.claimedLabel = some label ∧ scan.retiredByLabel row.projectId label = true

/-- A retired scan is of the winner's project, and was live. -/
theorem RetainedScan.RetiredFor.was_live {row scan : RetainedScan} (retired : row.RetiredFor scan) :
    scan.projectId = row.projectId ∧ scan.live = true := by
  rcases retired with ⟨ref, _, found⟩ | ⟨label, _, found⟩
  · simp only [RetainedScan.retiredByRef, Bool.and_eq_true, beq_iff_eq] at found
    obtain ⟨⟨⟨⟨project, _⟩, succeeded⟩, current⟩, _⟩ := found
    exact ⟨project, by simp [RetainedScan.live, succeeded, current]⟩
  · simp only [RetainedScan.retiredByLabel, Bool.and_eq_true, beq_iff_eq] at found
    obtain ⟨⟨⟨project, succeeded⟩, current⟩, _⟩ := found
    exact ⟨project, by simp [RetainedScan.live, succeeded, current]⟩

/-- The scan that a finalisation has claimed. -/
def RetentionPhase.winner : RetentionPhase → Option (ScanId × RetainedScan)
  | .claimed id _ row | .refRead id _ row _ | .refDone id _ row | .labelRead id _ row _
  | .retired id row => some (id, row)
  | _ => none

/-- The scans that a session has found and goes on to write or to delete. -/
def RetentionPhase.collected : RetentionPhase → List ScanId
  | .refRead _ _ _ ids | .labelRead _ _ _ ids | .supersededRead _ _ ids => ids
  | .agedRead _ _ _ stale _ => stale
  | _ => []

/-- What a finalisation has written over a committed scan. -/
inductive Pending (id : ScanId) (row : RetainedScan) :
    ScanId → RetainedScan → RetainedScan → Prop
  | won {before : RetainedScan} (running : before.status = .running)
      (finished : row = { before with status := .succeeded }) : Pending id row id before row
  | retired {key : ScanId} {before : RetainedScan} (other : key ≠ id)
      (found : row.RetiredFor before) (now : Time) :
      Pending id row key before (before.supersede id now)

/-- What a session holds: nothing, until a finalisation has claimed its scan. -/
structure Holds (tx : τ) (store : RetentionStore τ) (phase : RetentionPhase) : Prop where
  held : ∀ key version, store.scans.HeldBy tx key version →
    ∃ id row before written, phase.winner = some (id, row) ∧ version = some written ∧
      store.scans.committed key = some before ∧ Pending id row key before written
  claims : ∀ id row, phase.winner = some (id, row) → store.scans.HeldBy tx id (some row)
  apart : ∀ id row, phase.winner = some (id, row) → id ∉ phase.collected

omit [DecidableEq τ] in
/-- A session that has claimed nothing holds nothing. -/
theorem Holds.nothing {tx : τ} {store : RetentionStore τ} {phase : RetentionPhase}
    (holds : Holds tx store phase) (idle : phase.winner = none) (key : ScanId)
    (version : Option RetainedScan) : ¬(store.scans.row key).HeldBy tx version := by
  intro found
  obtain ⟨id, row, before, written, claimed, _⟩ := holds.held key version found
  rw [idle] at claimed
  cases claimed

omit [DecidableEq τ] in
/-- A session that holds nothing and has claimed nothing is in order. -/
theorem Holds.idle {tx : τ} {store : RetentionStore τ} {phase : RetentionPhase}
    (idle : phase.winner = none) (free : ∀ key version, ¬(store.scans.row key).HeldBy tx version) :
    Holds tx store phase := by
  refine ⟨fun key version found => absurd found (free key version), ?_, ?_⟩
  · intro id row claimed
    rw [idle] at claimed
    cases claimed
  · intro id row claimed
    rw [idle] at claimed
    cases claimed

omit [DecidableEq τ] in
/-- What a session holds survives what others do. -/
theorem Holds.undisturbed {tx : τ} {store after : RetentionStore τ} {phase : RetentionPhase}
    (holds : Holds tx store phase) (kept : Rows.Undisturbed tx store.scans after.scans) :
    Holds tx after phase := by
  refine ⟨fun key version found => ?_, fun id row claimed => ?_, holds.apart⟩
  · have before := ((kept key).heldBy version).mp found
    obtain ⟨id, row, scan, written, claimed, same, published, pending⟩ :=
      holds.held key version before
    -- While the session holds the row, its committed version stays too.
    exact ⟨id, row, scan, written, claimed, same,
      ((kept key).committed version before).trans published, pending⟩
  · exact ((kept id).heldBy _).mpr (holds.claims id row claimed)

/-- What a step of a session can do to the committed version of one scan. -/
inductive Effect (store : RetentionStore τ) :
    RetentionPhase → ScanId → Option RetainedScan → Option RetainedScan → Prop
  | kept (phase : RetentionPhase) (key : ScanId) (version : Option RetainedScan) :
      Effect store phase key version version
  | triggered (id : ScanId) (scan : RetainedScan) (fresh : id ∉ store.scans.keys)
      (alone : store.activeElsewhere id scan.queued = false) :
      Effect store (.trigger id scan) id none (some scan.queued)
  | started (id : ScanId) (loaded : ScanStatus) (before : RetainedScan)
      (alone : ({ before with status := flushColumn loaded .running before.status } :
        RetainedScan).active = true → store.activeElsewhere id before = false) :
      Effect store (.starting id loaded) id (some before)
        (some { before with status := flushColumn loaded .running before.status })
  | ended (id : ScanId) (outcome : ScanStatus) (before : RetainedScan)
      (inFlight : before.active = true) (past : outcome.terminal = true)
      (unsuccessful : outcome ≠ .succeeded) :
      Effect store (.finish id outcome) id (some before) (some { before with status := outcome })
  | finalised (id : ScanId) (row : RetainedScan) (key : ScanId) (before after : RetainedScan)
      (pending : Pending id row key before after) :
      Effect store (.retired id row) key (some before) (some after)
  | deleted (id : ScanId) (before : RetainedScan) :
      Effect store (.deleting id) id (some before) none
  | reclaimedSuperseded (policy : RetentionPolicy) (now : Time) (ids : List ScanId) (key : ScanId)
      (before : RetainedScan) (member : key ∈ ids) :
      Effect store (.supersededRead policy now ids) key (some before) none
  | reclaimedAged (policy : RetentionPolicy) (now : Time) (project : ProjectId)
      (stale : List ScanId) (projects : List ProjectId) (key : ScanId) (before : RetainedScan)
      (member : key ∈ stale) (older : store.latestScanId project ≠ some key)
      (deletable : before.agedDeletable project (now - policy.maxAge) = true) :
      Effect store (.agedRead policy now project stale projects) key (some before) none

/-- What a step leaves behind. -/
structure Advanced (tx : τ) (store : RetentionStore τ) (phase : RetentionPhase)
    (after : RetentionStore τ) (next : RetentionPhase) : Prop where
  others : ∀ other, other ≠ tx → Rows.Undisturbed other store.scans after.scans
  holds : Holds tx after next
  effect : ∀ key, Effect store phase key (store.scans.committed key)
    (after.scans.committed key)
  listed : ∀ key, key ∈ store.scans.keys → key ∈ after.scans.keys
  latest : ∀ project, after.latestScanId project = store.latestScanId project ∨
    after.latestScanId project = none ∨
    ∃ id scan, phase = .trigger id scan ∧ id ∉ store.scans.keys ∧
      after.latestScanId project = some id

/-- A commit keeps or clears the latest pointer of a project. -/
theorem RetentionStore.commit_latest (store : RetentionStore τ) (tx : τ) (project : ProjectId) :
    (store.commit tx).latestScanId project = store.latestScanId project ∨
      (store.commit tx).latestScanId project = none := by
  simp only [RetentionStore.commit]
  cases store.latestScanId project with
  | none => exact .inl rfl
  | some id =>
    by_cases present : ((store.scans.commit tx).committed id).isSome = true
    · exact .inl (Option.filter_some_pos present)
    · exact .inr (Option.filter_some_neg (by simpa using present))

section Steps

variable {tx : τ} {store after : RetentionStore τ} {phase next : RetentionPhase}

omit [DecidableEq τ] in
/-- A read leaves the store alone. -/
theorem Advanced.read (holds : Holds tx store phase) (same : next.winner = phase.winner)
    (apart : ∀ id row, next.winner = some (id, row) → id ∉ next.collected) :
    Advanced tx store phase store next where
  others := fun other _ => .refl other store.scans
  holds := ⟨same ▸ holds.held, same ▸ holds.claims, apart⟩
  effect := fun key => .kept phase key _
  listed := fun _ listed => listed
  latest := fun _ => .inl rfl

omit [DecidableEq τ] in
/-- A read by a session that has claimed nothing leaves the store alone. -/
theorem Advanced.read_idle (holds : Holds tx store phase) (idle : phase.winner = none)
    (same : next.winner = none) : Advanced tx store phase store next :=
  .read holds (same.trans idle.symm) fun _ _ claimed => by
    rw [same] at claimed
    cases claimed

/-- A cut-off session leaves no trace. -/
theorem Advanced.rolled_back (written : Rows ScanId τ RetainedScan)
    (listed : ∀ key, key ∈ store.scans.keys → key ∈ written.keys)
    (rows : ∀ key, written.row key = (store.scans.row key).rollback tx) (phase : RetentionPhase) :
    Advanced tx store phase { store with scans := written } .done where
  others := fun other different key => by
    show Row.Undisturbed other (store.scans.row key) (written.row key)
    rw [rows]
    exact Row.rollback_undisturbed different
  holds := .idle rfl fun key version => by
    show ¬(written.row key).HeldBy tx version
    rw [rows]
    exact Row.rollback_unheld version
  effect := fun key => by
    have same : written.committed key = store.scans.committed key := by
      unfold Rows.committed
      rw [rows, Row.rollback_committed]
    rw [same]
    exact .kept phase key _
  listed := listed
  latest := fun project => .inl rfl

/-- The commit of a statement by a session that held nothing. -/
theorem Advanced.executed {accepts : RetainedScan → Bool}
    {edit : RetainedScan → Option RetainedScan} {ids : List ScanId}
    {written : Rows ScanId τ RetainedScan}
    (holds : Holds tx store phase) (idle : phase.winner = none) (ended : next.winner = none)
    (visits : ∀ key, Rows.Visited tx accepts edit ids key (store.scans.row key) (written.row key))
    (listed : ∀ key, key ∈ store.scans.keys → key ∈ written.keys)
    (effect : ∀ key before, key ∈ ids → store.scans.committed key = some before →
      accepts before = true → Effect store phase key (some before) (edit before)) :
    Advanced tx store phase (RetentionStore.commit { store with scans := written } tx) next where
  others := fun other different key =>
    ((visits key).undisturbed different).trans (Row.commit_undisturbed different)
  holds := .idle ended fun key version => Row.commit_unheld version
  effect := fun key => by
    rcases (visits key).commit_committed (holds.nothing idle key) with same |
      ⟨member, before, published, accepted, edited⟩
    · -- The statement left the row alone.
      have kept : (RetentionStore.commit { store with scans := written } tx).scans.committed key =
          store.scans.committed key := same
      rw [kept]
      exact .kept phase key _
    · have changed : (RetentionStore.commit { store with scans := written } tx).scans.committed key =
          edit before := edited
      have found : store.scans.committed key = some before := published
      rw [changed, found]
      exact effect key before member found accepted
  listed := listed
  latest := fun project =>
    (RetentionStore.commit_latest { store with scans := written } tx project).imp
      (fun kept => kept) .inl

/-- A statement over many scans that deletes, committed at once. -/
theorem Advanced.deleted {accepts : RetainedScan → Bool} {ids : List ScanId}
    (holds : Holds tx store phase) (idle : phase.winner = none) (ended : next.winner = none)
    (done : store.execute tx ids accepts (fun _ => none) = some after)
    (effect : ∀ key before, key ∈ ids → accepts before = true →
      Effect store phase key (some before) none) :
    Advanced tx store phase after next := by
  simp only [RetentionStore.execute, Option.map_eq_some_iff] at done
  obtain ⟨written, changed, rfl⟩ := done
  -- A statement visits a row once, and changes only what its predicate accepts.
  refine .executed holds idle ended (Rows.changeAll_visits ?_ changed)
    (fun key => Rows.mem_changeAll_keys changed) ?_
  · intro version edited _ same
    cases same
  · intro key before member _ accepted
    exact effect key before member accepted

/-- A statement over one scan, committed at once. -/
theorem Advanced.changed {accepts : RetainedScan → Bool}
    {edit : RetainedScan → Option RetainedScan} {id : ScanId}
    (holds : Holds tx store phase) (idle : phase.winner = none) (ended : next.winner = none)
    (done : store.execute tx [id] accepts edit = some after)
    (effect : ∀ before, store.scans.committed id = some before → accepts before = true →
      Effect store phase id (some before) (edit before)) :
    Advanced tx store phase after next := by
  simp only [RetentionStore.execute, Option.map_eq_some_iff] at done
  obtain ⟨written, changed, rfl⟩ := done
  refine .executed holds idle ended (Rows.changeAll_singleton_visits changed)
    (fun key => Rows.mem_changeAll_keys changed) ?_
  intro key before member published accepted
  cases List.mem_singleton.mp member
  exact effect before published accepted

/-- The conditional UPDATE of a finalisation claims a running scan, or leaves no trace. -/
theorem Advanced.claim {id : ScanId} {now : Time} (holds : Holds tx store (.finalise id now))
    (acted : RetentionPhase.advance tx store (.finalise id now) = some (after, next)) :
    Advanced tx store (.finalise id now) after next := by
  simp only [RetentionPhase.advance, Option.map_eq_some_iff, Prod.exists] at acted
  obtain ⟨written, matched, changed, outcome⟩ := acted
  obtain ⟨row, taken, rfl⟩ := Rows.change_cases changed
  have free := holds.nothing rfl
  -- The statement matched no running row, or rewrote the one it claims.
  rcases Row.change_cases taken with ⟨rfl, rfl, _⟩ |
    ⟨before, rfl, seen, running, alone, published, mine⟩
  · -- Nothing was running under that id, and the session is rolled back.
    simp only [Prod.mk.injEq] at outcome
    obtain ⟨rfl, rfl⟩ := outcome
    refine .rolled_back _ ?_ ?_ _
    · intro key listed
      exact Rows.mem_set_keys (store.scans.row id) listed
    · intro key
      rw [Rows.rollback_row, Rows.set_row]
      split
      · rename_i same
        rw [same]
      · rfl
  · rw [Row.view_eq_committed (free id)] at seen
    have found : (store.scans.set id row).view tx id =
        some { before with status := .succeeded } := by
      unfold Rows.view
      rw [Rows.set_row, if_pos rfl]
      exact mine.view_eq
    simp only [found, Prod.mk.injEq] at outcome
    obtain ⟨rfl, rfl⟩ := outcome
    -- Nothing is committed by the statement itself.
    have steady : ∀ key, (store.scans.set id row).committed key = store.scans.committed key := by
      intro key
      unfold Rows.committed
      rw [Rows.set_row]
      split
      · rename_i same
        rw [published, same]
      · rfl
    refine ⟨fun other different => .of_set ?_, ⟨?_, ?_, ?_⟩, fun key => ?_,
      fun key => Rows.mem_set_keys row, fun project => .inl rfl⟩
    · exact Row.change_undisturbed different taken
    · -- The claimed scan is all the session holds.
      intro key version owned
      unfold Rows.HeldBy at owned
      rw [Rows.set_row] at owned
      split at owned
      · rename_i same
        subst same
        obtain ⟨_, rfl⟩ := owned.unique mine
        refine ⟨key, _, before, _, rfl, rfl, (steady key).trans seen, .won ?_ rfl⟩
        simpa using running
      · exact absurd owned (free key version)
    · intro claimed found same
      cases same
      unfold Rows.HeldBy
      rw [Rows.set_row, if_pos rfl]
      exact mine
    · -- The list of rows to be retired is still empty.
      intro claimed found same
      exact List.not_mem_nil
    · simp only [steady]
      exact .kept _ key _

/-- A retirement visits each scan once: a superseded scan is no longer one that it takes. -/
theorem retire_visits {accepts : RetainedScan → Bool} {id : ScanId} {row : RetainedScan}
    {now : Time} {ids : List ScanId} {written : Rows ScanId τ RetainedScan}
    (finds : ∀ scan, accepts scan = true → row.RetiredFor scan)
    (changed : store.scans.changeAll tx accepts (fun scan => some (scan.supersede id now)) ids =
      some written) (key : ScanId) :
    Rows.Visited tx accepts (fun scan => some (scan.supersede id now)) ids key
      (store.scans.row key) (written.row key) := by
  refine Rows.changeAll_visits ?_ changed key
  intro version edited _ same
  cases same
  by_contra taken
  have live := (finds _ (by simpa using taken)).was_live.2
  simp [RetainedScan.live, RetainedScan.supersede] at live

/-- A retirement stamps the scans it has found, each in its newest version. -/
theorem Advanced.retire {accepts : RetainedScan → Bool} {id : ScanId} {row : RetainedScan}
    {now : Time} {written : Rows ScanId τ RetainedScan} (holds : Holds tx store phase)
    (claimed : phase.winner = some (id, row)) (same : next.winner = some (id, row))
    (apart : id ∉ next.collected)
    (finds : ∀ scan, accepts scan = true → row.RetiredFor scan)
    (changed : store.scans.changeAll tx accepts (fun scan => some (scan.supersede id now))
      phase.collected = some written) :
    Advanced tx store phase { store with scans := written } next := by
  have visits := retire_visits finds changed
  refine ⟨fun other different key => (visits key).undisturbed different, ⟨?_, ?_, ?_⟩,
    fun key => ?_, fun key => Rows.mem_changeAll_keys changed, fun project => .inl rfl⟩
  · intro key version owned
    have published := (visits key).committed
    -- A row that was visited without a match is held as before.
    rcases visits key with ⟨unchanged, _⟩ | ⟨member, before, seen, accepted, _, _, mine⟩
    · unfold Rows.HeldBy at owned
      rw [unchanged] at owned
      obtain ⟨winner, found, before, edited, whose, version_eq, stored, pending⟩ :=
        holds.held key version owned
      rw [claimed] at whose
      cases whose
      exact ⟨id, row, before, edited, same, version_eq, published.trans stored, pending⟩
    · obtain ⟨_, rfl⟩ := owned.unique mine
      -- A row that matched is another one than the claimed.
      have other : key ≠ id := by
        intro equal
        exact holds.apart id row claimed (equal ▸ member)
      -- A row held before is superseded already, so the one it takes now is a committed one.
      have free : ∀ version, ¬(store.scans.row key).HeldBy tx version := by
        intro version mine
        obtain ⟨winner, found, old, edited, whose, version_eq, _, pending⟩ :=
          holds.held key version mine
        rw [claimed] at whose
        cases whose
        rw [mine.view_eq, version_eq] at seen
        cases seen
        cases pending with
        | won => exact other rfl
        | retired _ _ earlier =>
          have live := (finds _ accepted).was_live.2
          simp [RetainedScan.live, RetainedScan.supersede] at live
      rw [Row.view_eq_committed free] at seen
      exact ⟨id, row, before, _, same, rfl, published.trans seen,
        .retired other (finds before accepted) now⟩
  · -- The claim stands: its own row is not among those visited.
    intro winner found whose
    rw [same] at whose
    cases whose
    have mine := holds.claims id row claimed
    rcases visits id with ⟨unchanged, _⟩ | ⟨member, _⟩
    · unfold Rows.HeldBy at mine ⊢
      rw [unchanged]
      exact mine
    · exact absurd member (holds.apart id row claimed)
  · intro winner found whose
    rw [same] at whose
    cases whose
    exact apart
  · -- Nothing is committed yet.
    have steady : written.committed key = store.scans.committed key := (visits key).committed
    rw [steady]
    exact .kept phase key _

/-- The commit of a finalisation publishes what it has written. -/
theorem Advanced.publish {id : ScanId} {row : RetainedScan}
    (holds : Holds tx store (.retired id row)) :
    Advanced tx store (.retired id row) (store.commit tx) .done where
  others := fun other different => Rows.commit_undisturbed different
  holds := .idle rfl fun key version => Row.commit_unheld version
  effect := fun key => by
    -- The rows this transaction held are the winner's retirements; all others stay.
    rcases Row.heldBy_or_unheld (store.scans.row key) tx with ⟨version, mine⟩ | free
    · obtain ⟨winner, found, before, written, whose, version_eq, stored, pending⟩ :=
        holds.held key version mine
      -- What is published is what was written.
      cases whose
      have published : (store.commit tx).scans.committed key = some written := by
        show ((store.scans.row key).commit tx).committed = some written
        rw [mine.commit_eq, version_eq]
        rfl
      rw [published, stored]
      exact .finalised id row key before written pending
    · have same : (store.commit tx).scans.committed key = store.scans.committed key := by
        show ((store.scans.row key).commit tx).committed = (store.scans.row key).committed
        rw [Row.commit_of_unheld free]
      rw [same]
      exact .kept _ key _
  listed := fun _ listed => listed
  latest := fun project => (store.commit_latest tx project).imp (fun kept => kept) .inl

/-- A trigger inserts its scan and points the project at it, or is refused. -/
theorem Advanced.trigger {id : ScanId} {scan : RetainedScan}
    (holds : Holds tx store (.trigger id scan))
    (done : store.trigger tx id scan = some after) :
    Advanced tx store (.trigger id scan) after .done := by
  unfold RetentionStore.trigger at done
  -- The one-active index and the capacity are checked; a refusal ends the transaction.
  split at done
  · cases done
    exact .read_idle holds rfl rfl
  · rename_i refused
    simp only [Option.map_eq_some_iff] at done
    -- The fresh scan goes in and becomes the project's latest.
    obtain ⟨written, inserted, rfl⟩ := done
    obtain ⟨fresh, row, taken, rfl⟩ := Rows.insert_cases inserted
    obtain ⟨missing, _, _, mine⟩ := Row.insert_cases taken
    refine ⟨fun other different => ?_, .idle rfl fun key version => Row.commit_unheld version,
      fun key => ?_, fun key listed => ?_, fun project => ?_⟩
    · exact (Rows.Undisturbed.of_set (Row.insert_undisturbed different taken)).trans
        (Rows.commit_undisturbed different)
    · show Effect _ _ key _ (((store.scans.set id row).row key).commit tx).committed
      rw [Rows.set_row]
      -- Its key was free, every other row stays as it is committed.
      by_cases same : key = id
      · subst same
        have absent : store.scans.committed key = none := missing
        rw [if_pos rfl, mine.commit_eq, absent]
        exact .triggered key scan fresh (by simpa using refused)
      · rw [if_neg same, Row.commit_of_unheld (holds.nothing rfl key)]
        exact .kept _ key _
    · exact Rows.mem_set_keys row listed
    · -- Only this project's latest scan moves.
      by_cases same : project = scan.projectId
      · subst same
        exact .inr (.inr ⟨id, scan, rfl, fresh, Function.update_self ..⟩)
      · dsimp only
        rw [Function.update_of_ne same]
        exact (RetentionStore.commit_latest _ tx project).imp (fun kept => kept) .inl

/-- A worker flushes the status it assigned, or fails. -/
theorem Advanced.mark_running {id : ScanId} {loaded : ScanStatus}
    (holds : Holds tx store (.starting id loaded))
    (done : store.markRunning tx id loaded = some after) :
    Advanced tx store (.starting id loaded) after .done := by
  unfold RetentionStore.markRunning at done
  dsimp only at done
  -- The row is gone, or its status is not the one the worker has loaded.
  split at done
  · cases done
    exact .read_idle holds rfl rfl
  · rename_i scan stored
    split at done
    · cases done
      exact .read_idle holds rfl rfl
    · -- The column-diff UPDATE writes the status only where the load has seen another.
      rename_i refused
      refine .changed holds rfl rfl done ?_
      intro before found _
      cases stored.symm.trans found
      refine .started id loaded scan fun inFlight => ?_
      simpa [inFlight] using refused

/-- What any statement of any session leaves behind. -/
theorem Advanced.of_advance (holds : Holds tx store phase)
    (acted : RetentionPhase.advance tx store phase = some (after, next)) :
    Advanced tx store phase after next := by
  -- One case a phase, in the order of the flow: finalise, sweep, trigger, start, finish, delete.
  cases phase with
  | finalise id now => exact .claim holds acted
  | claimed id now row =>
    simp only [RetentionPhase.advance] at acted
    -- No ref is given, so nothing is collected under one.
    split at acted
    · cases acted
      exact .read holds rfl fun _ _ _ => List.not_mem_nil
    · cases acted
      refine .read holds rfl fun winner found whose => ?_
      cases whose
      simp [RetentionPhase.collected]
  | refRead id now row ids =>
    simp only [RetentionPhase.advance] at acted
    split at acted
    · cases acted
    · rename_i ref named
      simp only [Option.map_eq_some_iff, Prod.mk.injEq] at acted
      -- The retirements under the ref, and below those under the label.
      obtain ⟨written, changed, rfl, rfl⟩ := acted
      exact .retire holds rfl rfl List.not_mem_nil
        (fun scan accepted => .inl ⟨ref, named, accepted⟩) changed
  | refDone id now row =>
    simp only [RetentionPhase.advance] at acted
    split at acted
    · cases acted
      exact .read holds rfl fun _ _ _ => List.not_mem_nil
    · cases acted
      refine .read holds rfl fun winner found whose => ?_
      cases whose
      simp [RetentionPhase.collected]
  | labelRead id now row ids =>
    simp only [RetentionPhase.advance] at acted
    split at acted
    · cases acted
    · rename_i label named
      simp only [Option.map_eq_some_iff, Prod.mk.injEq] at acted
      obtain ⟨written, changed, rfl, rfl⟩ := acted
      exact .retire holds rfl rfl List.not_mem_nil
        (fun scan accepted => .inr ⟨label, named, accepted⟩) changed
  -- The commit publishes the winner and what it has retired.
  | retired id row =>
    cases acted
    exact .publish holds
  | sweep policy now =>
    simp only [RetentionPhase.advance] at acted
    split at acted
    · cases acted
      exact .read_idle holds rfl rfl
    · cases acted
      exact .read_idle holds rfl rfl
  -- The DELETE takes what its own WHERE still accepts.
  | supersededRead policy now ids =>
    simp only [RetentionPhase.advance, Option.map_eq_some_iff, Prod.mk.injEq] at acted
    obtain ⟨store, done, rfl, rfl⟩ := acted
    refine .deleted holds rfl rfl done ?_
    intro key before member _
    exact .reclaimedSuperseded policy now ids key before member
  | aged policy now =>
    cases acted
    exact .read_idle holds rfl rfl
  -- Project by project; the reads alone change nothing.
  | agedProjects policy now projects =>
    cases projects with
    | nil =>
      cases acted
      exact .read_idle holds rfl rfl
    | cons project rest =>
      simp only [RetentionPhase.advance] at acted
      split at acted
      · cases acted
        exact .read_idle holds rfl rfl
      · cases acted
        exact .read_idle holds rfl rfl
  | agedRead policy now project stale rest =>
    simp only [RetentionPhase.advance, Option.map_eq_some_iff, Prod.mk.injEq] at acted
    obtain ⟨store, done, rfl, rfl⟩ := acted
    refine .deleted holds rfl rfl done ?_
    -- The rows are deleted unless something cites them.
    intro key before member accepted
    rw [List.mem_filter] at member
    refine .reclaimedAged policy now project stale rest key before member.1 ?_ accepted
    simpa using member.2
  | trigger id scan =>
    simp only [RetentionPhase.advance, Option.map_eq_some_iff, Prod.mk.injEq] at acted
    obtain ⟨store, done, rfl, rfl⟩ := acted
    exact .trigger holds done
  | start id =>
    simp only [RetentionPhase.advance] at acted
    split at acted
    · cases acted
      exact .read_idle holds rfl rfl
    · split at acted
      · cases acted
        exact .read_idle holds rfl rfl
      · cases acted
        exact .read_idle holds rfl rfl
  | starting id loaded =>
    simp only [RetentionPhase.advance, Option.map_eq_some_iff, Prod.mk.injEq] at acted
    obtain ⟨store, done, rfl, rfl⟩ := acted
    exact .mark_running holds done
  -- The end of a run is written over an active row only.
  | finish id outcome =>
    simp only [RetentionPhase.advance, Option.map_eq_some_iff, Prod.mk.injEq] at acted
    obtain ⟨store, done, rfl, rfl⟩ := acted
    refine .changed holds rfl rfl done ?_
    intro before _ accepted
    simp only [Bool.and_eq_true, bne_iff_ne, ne_eq] at accepted
    exact .ended id outcome before accepted.1.1 accepted.1.2 accepted.2
  | delete id force admin =>
    simp only [RetentionPhase.advance] at acted
    split at acted
    · cases acted
      exact .read_idle holds rfl rfl
    · split at acted
      · cases acted
        exact .read_idle holds rfl rfl
      · cases acted
        exact .read_idle holds rfl rfl
  -- And a delete takes its row whatever it has become.
  | deleting id =>
    simp only [RetentionPhase.advance, Option.map_eq_some_iff, Prod.mk.injEq] at acted
    obtain ⟨store, done, rfl, rfl⟩ := acted
    refine .changed holds rfl rfl done ?_
    intro before _ _
    exact .deleted id before
  | done => cases acted

/-- What an event counts as: a session that is cut off does what one that is over could do. -/
def RetentionPhase.acting (phase : RetentionPhase) : RetentionEvent → RetentionPhase
  | .advance => phase
  | .abort => .done

/-- A session that is cut off is rolled back and over. -/
theorem RetentionPhase.act_abort
    (acted : RetentionPhase.act tx .abort store phase = some (after, next)) :
    after = { store with scans := store.scans.rollback tx } ∧ next = .done := by
  cases phase <;> cases acted <;> exact ⟨rfl, rfl⟩

/-- What any event of any session leaves behind. -/
theorem Advanced.of_act {event : RetentionEvent} (holds : Holds tx store phase)
    (acted : RetentionPhase.act tx event store phase = some (after, next)) :
    Advanced tx store (phase.acting event) after next := by
  cases event with
  | advance => exact .of_advance holds acted
  | abort =>
    obtain ⟨rfl, rfl⟩ := RetentionPhase.act_abort acted
    exact .rolled_back (store.scans.rollback tx) (fun _ listed => listed) (fun _ => rfl) _

end Steps

end Trusca
