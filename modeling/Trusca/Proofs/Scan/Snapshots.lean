import Trusca.Proofs.Scan.Reclaim

/-! The live snapshots of a branch, over whole runs of finalisations and sweeps. -/

namespace Trusca

open Store

variable {τ : Type*}

namespace RetentionStore

/-- The branch has a live scan. -/
def HasLive (store : RetentionStore τ) (project : ProjectId) (ref : ScanRef) : Prop :=
  ∃ id scan, store.scans.committed id = some scan ∧ scan.live = true ∧
    scan.projectId = project ∧ scan.ref = some ref

instance (store : RetentionStore τ) (project : ProjectId) (ref : ScanRef) :
    Decidable (store.HasLive project ref) :=
  decidable_of_iff (∃ id ∈ store.scans.keys, ∃ scan ∈ store.scans.committed id,
    scan.live = true ∧ scan.projectId = project ∧ scan.ref = some ref) <| by
      constructor
      · intro found
        obtain ⟨id, _, scan, stored, live⟩ := found
        exact ⟨id, scan, stored, live⟩
      · intro found
        obtain ⟨id, scan, stored, live⟩ := found
        exact ⟨id, Rows.mem_keys_of_committed stored, scan, stored, live⟩

/-- No branch has two live scans without a release label. -/
def OneUnlabelled (store : RetentionStore τ) : Prop :=
  ∀ first second before after ref, store.scans.committed first = some before →
    store.scans.committed second = some after → before.live = true → after.live = true →
    before.releaseAbsent = true → after.releaseAbsent = true →
    before.projectId = after.projectId → before.ref = some ref → after.ref = some ref →
    first = second

/-- The committed scans as the rules mean to keep them. -/
structure Consistent (store : RetentionStore τ) : Prop where
  /-- The unique index: a branch has at most one scan in flight. -/
  oneActive : ∀ first second before after, store.scans.committed first = some before →
    store.scans.committed second = some after → before.active = true → after.active = true →
    before.projectId = after.projectId → before.ref = after.ref → first = second
  /-- Only a scan that has succeeded is superseded. -/
  succeeded : ∀ id scan, store.scans.committed id = some scan → scan.supersededAt.isSome = true →
    scan.status = .succeeded
  oneUnlabelled : store.OneUnlabelled
  live : ∀ id scan ref, store.scans.committed id = some scan → scan.status = .succeeded →
    scan.ref = some ref → store.HasLive scan.projectId ref

end RetentionStore

/-- A branch that a finalisation takes a live scan from by its label keeps another one. -/
def RetentionStore.LabelSpares [DecidableEq τ] (store : RetentionStore τ) (tx : τ) (id : ScanId)
    (row : RetainedScan) : Prop :=
  ∀ key ∈ store.scans.keys, key ≠ id → store.scans.ownedBy tx key = true →
    ∀ before ∈ store.scans.committed key, ∀ ref ∈ before.ref, row.ref ≠ some ref →
      ∃ other ∈ store.scans.keys, store.scans.ownedBy tx other = false ∧
        ∃ scan ∈ store.scans.committed other, scan.live = true ∧
          scan.projectId = before.projectId ∧ scan.ref = some ref

instance [DecidableEq τ] (store : RetentionStore τ) (tx : τ) (id : ScanId) (row : RetainedScan) :
    Decidable (store.LabelSpares tx id row) := by
  delta RetentionStore.LabelSpares
  infer_instance

/-- A statement leaves every branch its snapshot: a label is not taken from the only live scan of
another branch, and no live scan is pulled away from under the rules. -/
def RetentionSystem.Unpulled [DecidableEq τ] (system : RetentionSystem τ) (tx : τ) :
    RetentionPhase → Prop
  | .retired id row => system.store.LabelSpares tx id row ∧
      (row.ref.isSome = true → ∀ other, id ∉ (system.phase other).agedIds)
  -- Neither of these two is a finalisation or a sweep.
  | .starting id loaded => ∀ scan ∈ system.store.scans.committed id,
      scan.status = .succeeded → loaded = .running
  | .deleting id => ∀ scan ∈ system.store.scans.committed id,
      (scan.live && scan.ref.isSome) = false
  | _ => True

/-- With finitely many sessions, whether a statement leaves every branch its snapshot can be
computed. -/
instance [DecidableEq τ] [Fintype τ] (system : RetentionSystem τ) (tx : τ) :
    DecidablePred (system.Unpulled tx)
  | .retired id row => inferInstanceAs (Decidable (system.store.LabelSpares tx id row ∧
      (row.ref.isSome = true → ∀ other, id ∉ (system.phase other).agedIds)))
  | .starting id loaded => inferInstanceAs (Decidable (∀ scan ∈ system.store.scans.committed id,
      scan.status = .succeeded → loaded = .running))
  | .deleting id => inferInstanceAs (Decidable (∀ scan ∈ system.store.scans.committed id,
      (scan.live && scan.ref.isSome) = false))
  | .finalise .. | .claimed .. | .refRead .. | .refDone .. | .labelRead .. | .sweep ..
  | .supersededRead .. | .aged .. | .agedProjects .. | .agedRead .. | .trigger .. | .start ..
  | .finish .. | .delete .. | .done => .isTrue trivial

/-- An event leaves every branch its snapshot. -/
def RetentionSystem.KeepsSnapshots [DecidableEq τ] (system : RetentionSystem τ)
    (event : τ × RetentionEvent) : Prop :=
  system.Unpulled event.1 ((system.phase event.1).acting event.2)

instance [DecidableEq τ] [Fintype τ] (system : RetentionSystem τ) :
    DecidablePred system.KeepsSnapshots :=
  fun event => inferInstanceAs (Decidable (system.Unpulled event.1 _))

section Effects

variable {store : RetentionStore τ} {phase : RetentionPhase} {key : ScanId}
  {version result : Option RetainedScan} {scan : RetainedScan}

/-- Nothing but a finalisation makes a scan succeed, and nothing changes a scan that has. -/
theorem Effect.succeeded_before (effect : Effect store phase key version (some scan))
    (succeeded : scan.status = .succeeded) :
    (∃ row, phase = .retired key row ∧ scan = row) ∨
      ∃ before, version = some before ∧ before.status = .succeeded ∧
        before.projectId = scan.projectId ∧ before.ref = scan.ref ∧
        (scan.live = true → before = scan) := by
  cases effect with
  | kept => exact .inr ⟨scan, rfl, succeeded, rfl, rfl, fun _ => rfl⟩
  | triggered => cases succeeded
  | started _ loaded before =>
    by_cases same : ScanStatus.running = loaded
    · -- Nothing was assigned, and the scan stays as it was.
      subst same
      simp only [flushColumn, if_true] at succeeded ⊢
      exact .inr ⟨before, rfl, succeeded, rfl, rfl, fun _ => rfl⟩
    · simp [flushColumn, same] at succeeded
  | ended _ outcome before _ _ unsuccessful => exact absurd succeeded unsuccessful
  | finalised id row _ before _ pending =>
    cases pending with
    | won => exact .inl ⟨scan, rfl, rfl⟩
    | retired other found now =>
      refine .inr ⟨before, rfl, succeeded, rfl, rfl, fun live => ?_⟩
      simp [RetainedScan.live, RetainedScan.supersede] at live

/-- A scan in flight was in flight before, or the unique index has let it in. -/
theorem Effect.active_before (effect : Effect store phase key version (some scan))
    (active : scan.active = true) :
    (∃ before, version = some before ∧ before.active = true ∧
      before.projectId = scan.projectId ∧ before.ref = scan.ref) ∨
      ((∃ row, phase = .trigger key row) ∨ ∃ loaded, phase = .starting key loaded) ∧
        store.activeElsewhere key scan = false := by
  -- An active row was active before, or is the one this trigger or start adds.
  cases effect with
  | kept => exact .inl ⟨scan, rfl, active, rfl, rfl⟩
  | triggered _ row _ alone => exact .inr ⟨.inl ⟨row, rfl⟩, alone⟩
  | started _ loaded before alone => exact .inr ⟨.inr ⟨loaded, rfl⟩, alone active⟩
  | ended _ outcome before inFlight => exact .inl ⟨before, rfl, inFlight, rfl, rfl⟩
  | finalised id row _ before _ pending =>
    cases pending with
    -- The winner has finished, so it is not active.
    | won running finished =>
      subst finished
      cases active
    | retired other found now => exact .inl ⟨before, rfl, active, rfl, rfl⟩

/-- The index lets a scan in only where no other one is in flight. -/
theorem RetentionStore.not_active_elsewhere {other : ScanId} {found : RetainedScan}
    (alone : store.activeElsewhere key scan = false) (different : other ≠ key)
    (stored : store.scans.committed other = some found)
    (project : found.projectId = scan.projectId) (ref : found.ref = scan.ref) :
    found.active = false := by
  have listed := Rows.mem_keys_of_committed stored
  have none_active := List.any_eq_false.mp alone other listed
  simpa [different, stored, project, ref] using none_active

end Effects

/-- The scans of its branch that a finalisation has still to stamp. -/
def RetentionPhase.retiring : RetentionPhase → Option (ScanId × RetainedScan × List ScanId)
  | .refRead id _ row ids => some (id, row, ids)
  | .refDone id _ row | .labelRead id _ row _ | .retired id row => some (id, row, [])
  | _ => none

/-- A session that retires scans has claimed one. -/
theorem RetentionPhase.winner_of_retiring {phase : RetentionPhase} {id : ScanId}
    {row : RetainedScan} {rest : List ScanId} (retiring : phase.retiring = some (id, row, rest)) :
    phase.winner = some (id, row) := by
  cases phase <;> cases retiring <;> rfl

/-- Once it has read its branch, a finalisation has stamped, or goes on to stamp, every scan that
its branch rule retires. -/
def Retiring (tx : τ) (store : RetentionStore τ) (phase : RetentionPhase) : Prop :=
  ∀ id row rest, phase.retiring = some (id, row, rest) → ∀ ref key scan, row.ref = some ref →
    key ≠ id → store.scans.committed key = some scan →
    scan.retiredByRef row.projectId ref = true →
    key ∈ rest ∨ ∃ version, store.scans.HeldBy tx key version

/-- What a sweep has collected is superseded, or is not the live scan of a branch. -/
structure Doomed (store : RetentionStore τ) (phase : RetentionPhase) : Prop where
  superseded : ∀ id ∈ phase.supersededIds, id ∈ store.scans.keys ∧
    ∀ scan, store.scans.committed id = some scan → scan.supersededAt.isSome = true
  aged : ∀ id ∈ phase.agedIds, id ∈ store.scans.keys ∧
    ∀ scan, store.scans.committed id = some scan → (scan.live && scan.ref.isSome) = false

/-- A superseded scan stays superseded as long as it exists. -/
theorem Effect.superseded_stays {store : RetentionStore τ} {phase : RetentionPhase} {id : ScanId}
    {version : Option RetainedScan} {scan : RetainedScan}
    (effect : Effect store phase id version (some scan)) (listed : id ∈ store.scans.keys)
    (known : ∀ before, version = some before → before.supersededAt.isSome = true) :
    scan.supersededAt.isSome = true := by
  -- The row was listed, so it is no trigger's; each other step keeps the mark or sets it.
  cases effect with
  | kept => exact known scan rfl
  | triggered _ _ fresh => exact absurd listed fresh
  | started _ loaded before => exact known before rfl
  | ended _ outcome before => exact known before rfl
  | finalised winner row _ before _ pending =>
    cases pending with
    | won running finished =>
      subst finished
      exact known before rfl
    | retired other found now => rfl

/-- The scan that a finalisation has claimed is still running for everybody else. -/
theorem Holds.running {tx : τ} {store : RetentionStore τ} {phase : RetentionPhase} {id : ScanId}
    {row : RetainedScan} (holds : Holds tx store phase) (claimed : phase.winner = some (id, row)) :
    ∃ before, store.scans.committed id = some before ∧ before.status = .running ∧
      row = { before with status := .succeeded } := by
  have mine := holds.claims id row claimed
  obtain ⟨winner, found, before, written, whose, _, stored, pending⟩ := holds.held id _ mine
  rw [claimed] at whose
  cases whose
  cases pending with
  | won running finished => exact ⟨before, stored, running, finished⟩
  | retired other => exact absurd rfl other

section Interference

variable [DecidableEq τ] {tx other : τ} {store after : RetentionStore τ}
  {phase reached progress : RetentionPhase}

omit [DecidableEq τ] in
/-- What a sweep has collected survives a step of another session. -/
theorem Doomed.kept (doomed : Doomed store progress) (advanced : Advanced tx store phase after reached)
    (unclaimed : ∀ id row, phase = .retired id row → row.ref.isSome = true →
      id ∉ progress.agedIds) : Doomed after progress := by
  -- The two lists of the sweep are alike, but for an aged row that a finalisation has claimed.
  refine ⟨fun id member => ?_, fun id member => ?_⟩
  · obtain ⟨listed, known⟩ := doomed.superseded id member
    refine ⟨advanced.listed id listed, fun scan stored => ?_⟩
    have effect := advanced.effect id
    rw [stored] at effect
    exact effect.superseded_stays listed known
  · obtain ⟨listed, known⟩ := doomed.aged id member
    refine ⟨advanced.listed id listed, (advanced.effect id).aged_not_live listed ?_ known⟩
    -- A labelled row that is being finalised is not in the aged list.
    intro row finalising
    by_contra named
    exact unclaimed id row finalising (Option.isSome_iff_ne_none.mpr named) member

/-- What a sweep collects is superseded, or is not the live scan of a branch. -/
theorem Doomed.found (holds : Holds tx store phase)
    (acted : RetentionPhase.advance tx store phase = some (after, reached)) :
    Doomed after reached := by
  refine ⟨fun id member => ?_, fun id member => ?_⟩
  · obtain ⟨listed, known⟩ := RetentionPhase.superseded_found_stored holds acted member
    exact ⟨listed, fun scan stored => (known scan stored).1⟩
  · exact RetentionPhase.aged_found_not_live holds acted member

/-- A scan that the branch rule retires has succeeded, and is live, unlabelled and of the branch. -/
theorem RetainedScan.retiredByRef_iff {project : ProjectId} {ref : ScanRef} {scan : RetainedScan} :
    scan.retiredByRef project ref = true ↔
      scan.projectId = project ∧ scan.ref = some ref ∧ scan.live = true ∧
        scan.releaseAbsent = true := by
  simp only [retiredByRef, live, Bool.and_eq_true, beq_iff_eq]
  tauto

omit [DecidableEq τ] in
/-- Nobody else brings a live scan to a branch on which a finalisation is under way. -/
theorem Retiring.kept (retiring : Retiring other store progress) (holds : Holds other store progress)
    (consistent : store.Consistent)
    (actor : ∀ id row, phase = .retired id row → Holds tx store phase) (different : other ≠ tx)
    (advanced : Advanced tx store phase after reached) : Retiring other after progress := by
  intro id row rest under ref key scan named apart stored retired
  obtain ⟨project, branch, live, absent⟩ := RetainedScan.retiredByRef_iff.mp retired
  have succeeded : scan.status = .succeeded := by
    simp only [RetainedScan.live, Bool.and_eq_true, beq_iff_eq] at live
    exact live.1
  have effect := advanced.effect key
  rw [stored] at effect
  rcases effect.succeeded_before succeeded with ⟨winner, finalising, same⟩ |
    ⟨before, stored, _, _, _, unchanged⟩
  · -- Two scans of the branch would be in flight: the one it claimed, and the one made live.
    subst finalising same
    obtain ⟨claimed, committed, running, rfl⟩ := (actor key scan rfl).running rfl
    obtain ⟨mine, held, inFlight, rfl⟩ := holds.running (RetentionPhase.winner_of_retiring under)
    exact absurd (consistent.oneActive key id claimed mine committed held
      (by simp [RetainedScan.active, running]) (by simp [RetainedScan.active, inFlight]) project
      (branch.trans named.symm)) apart
  · cases unchanged live
    rcases retiring id row rest under ref key scan named apart stored retired with waiting |
      ⟨version, held⟩
    · exact .inl waiting
    · exact .inr ⟨version, ((advanced.others other different key).heldBy version).mpr held⟩

omit [DecidableEq τ] in
/-- A statement that publishes nothing and keeps its locks keeps what a finalisation has done. -/
theorem Retiring.carried {next : RetentionPhase} {id : ScanId} {row : RetainedScan}
    {rest later : List ScanId} (retiring : Retiring tx store phase)
    (before : phase.retiring = some (id, row, rest)) (now : next.retiring = some (id, row, later))
    (steady : ∀ key, after.scans.committed key = store.scans.committed key)
    (locks : ∀ key version, store.scans.HeldBy tx key version →
      ∃ version, after.scans.HeldBy tx key version)
    (visited : ∀ key scan ref, key ∈ rest → row.ref = some ref →
      store.scans.committed key = some scan → scan.retiredByRef row.projectId ref = true →
      key ∈ later ∨ ∃ version, after.scans.HeldBy tx key version) : Retiring tx after next := by
  intro winner found left under ref key scan named apart stored retired
  rw [now] at under
  cases under
  rw [steady] at stored
  -- A row still to be retired was so before, or is held by this transaction.
  rcases retiring id row rest before ref key scan named apart stored retired with waiting |
    ⟨version, held⟩
  · exact visited key scan ref waiting named stored retired
  · exact .inr (locks key version held)

omit [DecidableEq τ] in
/-- A session that retires nothing has nothing to keep. -/
theorem Retiring.idle (idle : phase.retiring = none) : Retiring tx store phase := by
  intro id row rest under
  rw [idle] at under
  cases under

/-- Only a finalisation that has read its branch has scans to retire. -/
theorem RetentionPhase.retiring_of_advance
    (acted : RetentionPhase.advance tx store phase = some (after, reached))
    (unclaimed : phase.winner = none) : reached.retiring = none := by
  unfold RetentionPhase.advance at acted
  split at acted <;>
    grind [RetentionPhase.retiring, RetentionPhase.winner, Option.map_eq_some_iff]

/-- A finalisation goes on to stamp what it has read. -/
theorem Retiring.advance (retiring : Retiring tx store phase) (holds : Holds tx store phase)
    (acted : RetentionPhase.advance tx store phase = some (after, reached)) :
    Retiring tx after reached := by
  cases phase with
  | claimed id now row =>
    simp only [RetentionPhase.advance] at acted
    split at acted
    · -- Without a branch there is nothing to retire by branch.
      rename_i adHoc
      cases acted
      intro winner found left under ref key scan named
      cases under
      cases adHoc.symm.trans named
    · rename_i ref branch
      cases acted
      intro winner found left under other key scan named apart stored retired
      cases under
      cases branch.symm.trans named
      by_cases held : ∃ version, store.scans.HeldBy tx key version
      · exact .inr held
      · -- An unheld row shows the read its committed version.
        refine .inl (List.mem_filter.mpr ⟨Rows.mem_select.mpr ⟨scan, ?_, retired⟩, by simp [apart]⟩)
        exact (Row.view_eq_committed fun version mine => held ⟨version, mine⟩).trans stored
  | refRead id now row ids =>
    simp only [RetentionPhase.advance] at acted
    split at acted
    · cases acted
    · rename_i ref branch
      simp only [Option.map_eq_some_iff, Prod.mk.injEq] at acted
      obtain ⟨written, changed, rfl, rfl⟩ := acted
      have visits := retire_visits (fun scan accepted => .inl ⟨ref, branch, accepted⟩) changed
      refine retiring.carried rfl rfl (fun key => (visits key).committed)
        (fun key version => (visits key).keeps_lock)
        fun key scan other member named stored retired => .inr ?_
      cases branch.symm.trans named
      by_cases held : ∃ version, store.scans.HeldBy tx key version
      · obtain ⟨version, mine⟩ := held
        exact (visits key).keeps_lock mine
      · have seen : (store.scans.row key).view tx = some scan :=
          (Row.view_eq_committed fun version mine => held ⟨version, mine⟩).trans stored
        rcases visits key with ⟨_, refused⟩ | ⟨_, found, _, _, _, _, mine⟩
        · -- The row was to be visited and met the condition, so it cannot have been left alone.
          cases (refused member scan seen).symm.trans retired
        · exact ⟨_, mine⟩
  | refDone id now row =>
    simp only [RetentionPhase.advance] at acted
    split at acted
    · cases acted
      exact retiring.carried rfl rfl (fun _ => rfl) (fun _ version held => ⟨version, held⟩)
        fun _ _ _ member => by cases member
    · cases acted
      exact retiring.carried rfl rfl (fun _ => rfl) (fun _ version held => ⟨version, held⟩)
        fun _ _ _ member => by cases member
  | labelRead id now row ids =>
    simp only [RetentionPhase.advance] at acted
    split at acted
    · cases acted
    · rename_i label named
      simp only [Option.map_eq_some_iff, Prod.mk.injEq] at acted
      obtain ⟨written, changed, rfl, rfl⟩ := acted
      have visits := retire_visits (fun scan accepted => .inr ⟨label, named, accepted⟩) changed
      exact retiring.carried rfl rfl (fun key => (visits key).committed)
        (fun key version => (visits key).keeps_lock) fun _ _ _ member => by cases member
  | retired id row =>
    cases acted
    exact .idle rfl
  | _ => exact .idle (RetentionPhase.retiring_of_advance acted rfl)

end Interference

section Consistency

variable [DecidableEq τ] {tx : τ} {store after : RetentionStore τ} {phase reached : RetentionPhase}

omit [DecidableEq τ] in
/-- A live scan has succeeded and is not superseded. -/
theorem RetainedScan.live_iff {scan : RetainedScan} :
    scan.live = true ↔ scan.status = .succeeded ∧ scan.supersededAt = none := by
  simp [RetainedScan.live]

omit [DecidableEq τ] in
/-- The unique index keeps one scan in flight on a branch. -/
theorem RetentionStore.Consistent.oneActive_step (consistent : store.Consistent)
    (advanced : Advanced tx store phase after reached) :
    ∀ first second before last, after.scans.committed first = some before →
      after.scans.committed second = some last → before.active = true → last.active = true →
      before.projectId = last.projectId → before.ref = last.ref → first = second := by
  intro first second before last stored found active running project ref
  by_contra different
  have one := advanced.effect first
  have two := advanced.effect second
  rw [stored] at one
  rw [found] at two
  rcases one.active_before active with ⟨old, kept, wasActive, sameProject, sameRef⟩ |
    ⟨target, alone⟩
  · rcases two.active_before running with ⟨past, held, wasRunning, itsProject, itsRef⟩ |
      ⟨_, alone⟩
    · -- Both were in flight before.
      exact different (consistent.oneActive first second old past kept held wasActive wasRunning
        (by rw [sameProject, itsProject, project]) (by rw [sameRef, itsRef, ref]))
    · -- The second was let in beside the first.
      have idle := RetentionStore.not_active_elsewhere alone different kept
        (sameProject.trans project) (sameRef.trans ref)
      cases idle.symm.trans wasActive
  · rcases two.active_before running with ⟨past, held, wasRunning, itsProject, itsRef⟩ |
      ⟨other, _⟩
    · have idle := RetentionStore.not_active_elsewhere alone (Ne.symm different) held
        (itsProject.trans project.symm) (itsRef.trans ref.symm)
      cases idle.symm.trans wasRunning
    · -- One statement lets in one scan.
      rcases target with ⟨row, same⟩ | ⟨loaded, same⟩ <;>
        rcases other with ⟨row, again⟩ | ⟨loaded, again⟩ <;>
        cases same.symm.trans again <;> exact different rfl

omit [DecidableEq τ] in
/-- Only a scan that has succeeded is ever superseded. -/
theorem RetentionStore.Consistent.succeeded_step (consistent : store.Consistent)
    (advanced : Advanced tx store phase after reached)
    (unstarted : ∀ id loaded scan, phase = .starting id loaded →
      store.scans.committed id = some scan → scan.status = .succeeded → loaded = .running) :
    ∀ id scan, after.scans.committed id = some scan → scan.supersededAt.isSome = true →
      scan.status = .succeeded := by
  intro id scan stored superseded
  have effect := advanced.effect id
  rw [stored] at effect
  generalize published : store.scans.committed id = version at effect
  -- By what the step did to the scan's row.
  cases effect with
  | kept => exact consistent.succeeded id scan published superseded
  | triggered => cases superseded
  -- A scan that had succeeded is not started again, which is the condition on the start.
  | started _ loaded before =>
    have done := consistent.succeeded id before published superseded
    simp [unstarted id loaded before rfl published done, flushColumn, done]
  -- An active scan had not succeeded, so it was not superseded.
  | ended _ outcome before inFlight =>
    have done := consistent.succeeded id before published superseded
    simp [RetainedScan.active, done] at inFlight
  -- The winner has just succeeded, and what it retires was live.
  | finalised winner row _ before _ pending =>
    cases pending with
    | won running finished =>
      subst finished
      rfl
    | retired other found now => exact (RetainedScan.live_iff.mp found.was_live.2).1

/-- Beside the scan it finalises, a finalisation leaves its branch no live scan without a label. -/
theorem Retiring.alone {id key : ScanId} {row scan : RetainedScan} {ref : ScanRef}
    (retiring : Retiring tx store (.retired id row)) (holds : Holds tx store (.retired id row))
    (stored : (store.commit tx).scans.committed key = some scan) (live : scan.live = true)
    (absent : scan.releaseAbsent = true) (project : scan.projectId = row.projectId)
    (branch : scan.ref = some ref) (named : row.ref = some ref) : key = id := by
  by_contra apart
  have effect := (Advanced.publish holds).effect key
  rw [stored] at effect
  rcases effect.succeeded_before (RetainedScan.live_iff.mp live).1 with ⟨_, same, _⟩ |
    ⟨before, committed, _, _, _, unchanged⟩
  · cases same
    exact apart rfl
  · cases unchanged live
    have taken := RetainedScan.retiredByRef_iff.mpr ⟨project, branch, live, absent⟩
    rcases retiring id row [] rfl ref key scan named apart committed taken with waiting |
      ⟨version, held⟩
    · cases waiting
    · -- It holds the scan, and what it holds of another scan is superseded.
      obtain ⟨_, _, before, written, whose, rfl, _, pending⟩ := holds.held key version held
      cases whose
      have published : (store.commit tx).scans.committed key = some written :=
        congrArg Row.committed held.commit_eq
      cases stored.symm.trans published
      cases pending with
      | won => exact apart rfl
      | retired => simp [RetainedScan.live, RetainedScan.supersede] at live

/-- No step gives a branch a second live scan without a label. -/
theorem RetentionStore.Consistent.oneUnlabelled_step (consistent : store.Consistent)
    (retiring : Retiring tx store phase) (holds : Holds tx store phase)
    (acted : RetentionPhase.advance tx store phase = some (after, reached)) :
    after.OneUnlabelled := by
  intro first second before last ref stored found live alive unlabelled absent project branch named
  have advanced := Advanced.of_advance holds acted
  have one := advanced.effect first
  have two := advanced.effect second
  rw [stored] at one
  rw [found] at two
  rcases one.succeeded_before (RetainedScan.live_iff.mp live).1 with ⟨row, winning, rfl⟩ |
    ⟨old, kept, _, _, _, unchanged⟩
  · subst winning
    cases acted
    exact (retiring.alone holds found alive absent project.symm named branch).symm
  · rcases two.succeeded_before (RetainedScan.live_iff.mp alive).1 with ⟨row, winning, rfl⟩ |
      ⟨past, held, _, _, _, same⟩
    · subst winning
      cases acted
      exact retiring.alone holds stored live unlabelled project branch named
    · -- Neither scan has changed.
      cases unchanged live
      cases same alive
      exact consistent.oneUnlabelled first second _ _ ref kept held live alive unlabelled absent
        project branch named

/-- What a statement of a session leaves of the branches, as far as it may be asked for. -/
structure Spares (tx : τ) (store : RetentionStore τ) (phase : RetentionPhase) : Prop where
  label : ∀ id row, phase = .retired id row → store.LabelSpares tx id row
  unstarted : ∀ id loaded scan, phase = .starting id loaded →
    store.scans.committed id = some scan → scan.status = .succeeded → loaded = .running
  undeleted : ∀ id scan, phase = .deleting id → store.scans.committed id = some scan →
    (scan.live && scan.ref.isSome) = false

/-- The scan that a finalisation publishes is live. -/
theorem RetentionStore.Consistent.winner_live {id : ScanId} {row : RetainedScan}
    (consistent : store.Consistent) (holds : Holds tx store (.retired id row)) :
    (store.commit tx).scans.committed id = some row ∧ row.live = true := by
  obtain ⟨before, stored, running, finished⟩ := holds.running rfl
  refine ⟨congrArg Row.committed (holds.claims id row rfl).commit_eq, ?_⟩
  -- A running scan is not superseded, so the one it becomes is not either.
  have current : before.supersededAt = none := by
    by_contra superseded
    have past := consistent.succeeded id before stored (Option.isSome_iff_ne_none.mpr superseded)
    cases running.symm.trans past
  rw [finished]
  exact RetainedScan.live_iff.mpr ⟨rfl, current⟩

/-- A branch with a live scan keeps one. -/
theorem RetentionStore.HasLive.step {project : ProjectId} {ref : ScanRef}
    (live : store.HasLive project ref) (consistent : store.Consistent)
    (holds : Holds tx store phase) (doomed : Doomed store phase) (spares : Spares tx store phase)
    (acted : RetentionPhase.advance tx store phase = some (after, reached)) :
    after.HasLive project ref := by
  obtain ⟨key, scan, stored, alive, rfl, branch⟩ := live
  have effect := (Advanced.of_advance holds acted).effect key
  obtain ⟨succeeded, current⟩ := RetainedScan.live_iff.mp alive
  rw [stored] at effect
  generalize published : after.scans.committed key = result at effect
  cases effect with
  | kept => exact ⟨key, scan, published, alive, rfl, branch⟩
  | started _ loaded before =>
    refine ⟨key, scan, ?_, alive, rfl, branch⟩
    rw [published, spares.unstarted key loaded scan rfl stored succeeded]
    simp [flushColumn]
  | ended _ outcome before inFlight => simp [RetainedScan.active, succeeded] at inFlight
  | finalised id row _ before _ pending =>
    cases acted
    cases pending with
    | won running => cases running.symm.trans succeeded
    | retired other found now =>
      have project := found.was_live.1
      by_cases same : row.ref = some ref
      · -- The branch rule hands the branch to the scan it finalises.
        obtain ⟨winner, wins⟩ := consistent.winner_live holds
        exact ⟨id, row, winner, wins, project.symm, same⟩
      · -- The label rule took it, and the branch has another live scan that is left alone.
        obtain ⟨version, held⟩ : ∃ version, store.scans.HeldBy tx key version := by
          by_contra free
          have untouched : (store.commit tx).scans.committed key = store.scans.committed key :=
            congrArg Row.committed
              (Row.commit_of_unheld fun version held => free ⟨version, held⟩)
          rw [untouched, stored] at published
          have stamped := congrArg RetainedScan.supersededAt (Option.some.inj published)
          simp [RetainedScan.supersede, current] at stamped
        obtain ⟨spare, _, free, kept, there, going, whose, on⟩ :=
          spares.label id row rfl key (Rows.mem_keys_of_committed stored) other
            (Rows.ownedBy_iff.mpr ⟨version, held⟩) scan stored ref branch same
        refine ⟨spare, kept, ?_, going, whose, on⟩
        refine (congrArg Row.committed (Row.commit_of_unheld fun version held => ?_)).trans there
        cases free.symm.trans (Rows.ownedBy_iff.mpr ⟨version, held⟩)
  | deleted =>
    have dead := spares.undeleted key scan rfl stored
    simp [alive, branch] at dead
  | reclaimedSuperseded policy now ids _ _ member =>
    have superseded := (doomed.superseded key member).2 scan stored
    simp [current] at superseded
  | reclaimedAged policy now project stale rest _ _ member =>
    have dead := (doomed.aged key member).2 scan stored
    simp [alive, branch] at dead

/-- Every branch with a scan that has succeeded has a live one after a step, too. -/
theorem RetentionStore.Consistent.live_step (consistent : store.Consistent)
    (holds : Holds tx store phase) (doomed : Doomed store phase) (spares : Spares tx store phase)
    (acted : RetentionPhase.advance tx store phase = some (after, reached)) :
    ∀ id scan ref, after.scans.committed id = some scan → scan.status = .succeeded →
      scan.ref = some ref → after.HasLive scan.projectId ref := by
  intro id scan ref stored succeeded branch
  have effect := (Advanced.of_advance holds acted).effect id
  rw [stored] at effect
  rcases effect.succeeded_before succeeded with ⟨row, winning, rfl⟩ |
    ⟨before, committed, done, project, sameRef, _⟩
  · -- The scan was just finalised, and is live itself.
    subst winning
    obtain ⟨_, wins⟩ := consistent.winner_live holds
    exact ⟨id, scan, stored, wins, rfl, branch⟩
  · have live := consistent.live id before ref committed done (sameRef.trans branch)
    rw [project] at live
    exact live.step consistent holds doomed spares acted

/-- A statement that leaves every branch its snapshot keeps the scans consistent. -/
theorem RetentionStore.Consistent.advance (consistent : store.Consistent)
    (retiring : Retiring tx store phase) (holds : Holds tx store phase)
    (doomed : Doomed store phase) (spares : Spares tx store phase)
    (acted : RetentionPhase.advance tx store phase = some (after, reached)) :
    after.Consistent where
  -- One field for each clause, each with the step lemma of its clause.
  oneActive := consistent.oneActive_step (Advanced.of_advance holds acted)
  succeeded := consistent.succeeded_step (Advanced.of_advance holds acted) spares.unstarted
  oneUnlabelled := consistent.oneUnlabelled_step retiring holds acted
  live := consistent.live_step holds doomed spares acted

end Consistency

section Runs

variable [DecidableEq τ] {system next : RetentionSystem τ}

/-- What a session relies on: its locks, the branch it retires, and what it has collected. -/
structure Obeys (tx : τ) (store : RetentionStore τ) (phase : RetentionPhase) : Prop where
  holds : Holds tx store phase
  retiring : Retiring tx store phase
  doomed : Doomed store phase

/-- The scans are consistent, and every session follows the rules. -/
abbrev RetentionSystem.Orderly (system : RetentionSystem τ) : Prop :=
  Sessions.Annotated RetentionStore.Consistent Obeys system

omit [DecidableEq τ] in
/-- A system over consistent scans in which nobody has begun is orderly. -/
theorem RetentionSystem.Fresh.orderly (fresh : system.Fresh)
    (consistent : system.store.Consistent) : system.Orderly := by
  refine ⟨consistent, fun tx => ⟨(fresh.stand.own tx).1, .idle ?_, ⟨?_, ?_⟩⟩⟩ <;>
  · have unbegun := fresh.unbegun tx
    revert unbegun
    cases system.phase tx <;>
      simp [RetentionPhase.unbegun, RetentionPhase.retiring, RetentionPhase.supersededIds,
        RetentionPhase.agedIds]

/-- A session that is cut off publishes nothing. -/
theorem RetentionStore.Consistent.aborted {tx : τ} {store : RetentionStore τ}
    (consistent : store.Consistent) :
    RetentionStore.Consistent { store with scans := store.scans.rollback tx } := by
  have same : (store.scans.rollback tx).committed = store.scans.committed := Rows.rollback_committed
  refine ⟨?_, ?_, ?_, ?_⟩
  · simpa only [same] using consistent.oneActive
  · simpa only [same] using consistent.succeeded
  · simpa only [RetentionStore.OneUnlabelled, same] using consistent.oneUnlabelled
  · simpa only [RetentionStore.HasLive, same] using consistent.live

/-- What the condition on an event asks of the statement it stands for. -/
theorem RetentionSystem.Unpulled.spares {tx : τ} {phase : RetentionPhase}
    (unpulled : system.Unpulled tx phase) : Spares tx system.store phase := by
  refine ⟨fun id row same => ?_, fun id loaded scan same stored => ?_, fun id scan same => ?_⟩
  · subst same
    exact unpulled.1
  · subst same
    exact unpulled scan stored
  · subst same
    exact unpulled scan

/-- The acting session of such a step follows the rules, over consistent scans. -/
theorem RetentionSystem.Orderly.acting {tx : τ} {event : RetentionEvent}
    {store : RetentionStore τ} {phase : RetentionPhase} (orderly : system.Orderly)
    (unpulled : system.Unpulled tx ((system.phase tx).acting event))
    (acted : RetentionPhase.act tx event system.store (system.phase tx) = some (store, phase)) :
    store.Consistent ∧ Obeys tx store phase := by
  obtain ⟨holds, retiring, doomed⟩ := orderly.own tx
  have held := (Advanced.of_act holds acted).holds
  -- A step of its own goes to the lemmas of `advance`, a rollback leaves the committed rows.
  cases event with
  | advance =>
    exact ⟨orderly.shared.advance retiring holds doomed unpulled.spares acted, held,
      retiring.advance holds acted, .found holds acted⟩
  | abort =>
    obtain ⟨rfl, rfl⟩ := RetentionPhase.act_abort acted
    refine ⟨orderly.shared.aborted, held, .idle rfl, ?_, ?_⟩
    · intro id member
      cases member
    · intro id member
      cases member

/-- A step that leaves every branch its snapshot keeps the system orderly. -/
theorem RetentionSystem.Orderly.step {event : τ × RetentionEvent} (orderly : system.Orderly)
    (keeps : system.KeepsSnapshots event) (taken : retentionStep system event = some next) :
    next.Orderly := by
  obtain ⟨tx, event⟩ := event
  have unpulled : system.Unpulled tx ((system.phase tx).acting event) := keeps
  -- The other transactions: what they hold does not change, the rest is kept row by row.
  refine orderly.step_at taken (fun store phase acted => orderly.acting unpulled acted)
    fun store phase other acted different stands => ?_
  have holds := (orderly.own tx).holds
  have advanced := Advanced.of_act holds acted
  refine ⟨stands.holds.undisturbed (advanced.others other different),
    stands.retiring.kept stands.holds orderly.shared (fun id row finalising => ?_) different advanced,
    stands.doomed.kept advanced fun id row finalising named => ?_⟩
  · -- The event is another transaction's, so its own finalisation is in `unpulled`.
    cases event with
    | advance => exact holds
    | abort => cases finalising
  · rw [finalising] at unpulled
    exact unpulled.2 named other

/-- A step that leaves every branch its snapshot keeps every live branch live. -/
theorem RetentionSystem.Orderly.live_step {event : τ × RetentionEvent} {project : ProjectId}
    {ref : ScanRef} (orderly : system.Orderly) (keeps : system.KeepsSnapshots event)
    (taken : retentionStep system event = some next) (live : system.store.HasLive project ref) :
    next.store.HasLive project ref := by
  obtain ⟨tx, event⟩ := event
  obtain ⟨store, phase, acted, rfl⟩ := Sessions.step_eq_some.mp taken
  have unpulled : system.Unpulled tx ((system.phase tx).acting event) := keeps
  obtain ⟨holds, retiring, doomed⟩ := orderly.own tx
  -- Only a commit can move the live snapshot, and it does so inside `advance`.
  cases event with
  | advance => exact live.step orderly.shared holds doomed unpulled.spares acted
  | abort =>
    obtain ⟨rfl, rfl⟩ := RetentionPhase.act_abort acted
    simpa only [RetentionStore.HasLive, Rows.rollback_committed] using live

/-- Over every run of finalisations and sweeps that leaves each branch its snapshot, a branch has at
most one live scan without a release label, and once a scan of it has succeeded it always has a
live scan. -/
theorem live_snapshot {start final : RetentionSystem τ} {events later : List (τ × RetentionEvent)}
    (fresh : start.Fresh) (consistent : start.store.Consistent)
    (keeps : Guarded retentionStep RetentionSystem.KeepsSnapshots start (events ++ later))
    (ran : run retentionStep start events = some system)
    (went : run retentionStep system later = some final) :
    final.store.OneUnlabelled ∧
      ∀ id scan ref, system.store.scans.committed id = some scan → scan.status = .succeeded →
        scan.ref = some ref → final.store.HasLive scan.projectId ref := by
  obtain ⟨before, after⟩ := keeps.append ran
  have step : ∀ (state : RetentionSystem τ) event next, state.Orderly → state.KeepsSnapshots event →
      retentionStep state event = some next → next.Orderly :=
    fun _ _ _ orderly condition taken => orderly.step condition taken
  have middle : system.Orderly := run_invariant step (fresh.orderly consistent) before ran
  have last : final.Orderly := run_invariant step middle after went
  refine ⟨last.shared.oneUnlabelled, fun id scan ref stored succeeded branch => ?_⟩
  have live := middle.shared.live id scan ref stored succeeded branch
  -- A branch that is live at one point of the run is live at every later one.
  have stays := run_relation RetentionSystem.Orderly
    (fun first second => first.store.HasLive scan.projectId ref →
      second.store.HasLive scan.projectId ref)
    (fun _ live => live) (fun one two live => two (one live))
    (fun state event next orderly condition taken =>
      ⟨orderly.step condition taken, orderly.live_step condition taken⟩) middle after went
  exact stays live

/-- The two scans start consistent. -/
theorem twoScans_consistent : (twoScans .running 1).Consistent := by
  refine ⟨?_, ?_, ?_, ?_⟩
  · -- Two rows, so at most four pairs: the same row, or not both of the kind the clause asks for.
    intro first second before after stored found active running _ _
    have one := Rows.mem_of_stored stored
    have two := Rows.mem_of_stored found
    simp only [List.mem_cons, Prod.mk.injEq, List.not_mem_nil, or_false] at one two
    obtain ⟨rfl, rfl⟩ | ⟨rfl, rfl⟩ := one <;> obtain ⟨rfl, rfl⟩ | ⟨rfl, rfl⟩ := two <;>
      first
        | rfl
        | exact absurd active (by decide)
        | exact absurd running (by decide)
  · -- Neither of the two is superseded.
    intro id scan stored superseded
    have one := Rows.mem_of_stored stored
    simp only [List.mem_cons, Prod.mk.injEq, List.not_mem_nil, or_false] at one
    obtain ⟨rfl, rfl⟩ | ⟨rfl, rfl⟩ := one <;> cases superseded
  · intro first second before after ref stored found live alive _ _ _ _ _
    have one := Rows.mem_of_stored stored
    have two := Rows.mem_of_stored found
    simp only [List.mem_cons, Prod.mk.injEq, List.not_mem_nil, or_false] at one two
    obtain ⟨rfl, rfl⟩ | ⟨rfl, rfl⟩ := one <;> obtain ⟨rfl, rfl⟩ | ⟨rfl, rfl⟩ := two <;>
      first
        | rfl
        | exact absurd live (by decide)
        | exact absurd alive (by decide)
  · -- Of the two only the second has succeeded, and it is the latest.
    intro id scan ref stored succeeded branch
    have one := Rows.mem_of_stored stored
    simp only [List.mem_cons, Prod.mk.injEq, List.not_mem_nil, or_false] at one
    obtain ⟨rfl, rfl⟩ | ⟨rfl, rfl⟩ := one
    · cases succeeded
    · exact ⟨2, _, stored, rfl, rfl, branch⟩

/-- A branch hands its snapshot from one scan to the next, and the sweep reclaims the old one. -/
theorem live_snapshot_handed_over :
    ∃ system final, run retentionStep (twoScanSystem .running 1) finaliseThenSweep = some system ∧
      run retentionStep system [(2, RetentionEvent.advance)] = some final ∧
      final.store.scans.committed 2 = none ∧ final.store.OneUnlabelled ∧
      final.store.HasLive 1 ⟨"main", by decide⟩ := by
  refine ⟨_, _, rfl, rfl, rfl, ?_⟩
  have keeps : Guarded retentionStep RetentionSystem.KeepsSnapshots (twoScanSystem .running 1)
      (finaliseThenSweep ++ [(2, RetentionEvent.advance)]) := by decide
  have snapshot := live_snapshot (twoScanSystem_fresh .running 1) twoScans_consistent keeps rfl rfl
  exact ⟨snapshot.1, snapshot.2 1 _ _ rfl rfl rfl⟩

/-- The name of the main branch is not empty. -/
theorem main_ne_empty : "main" ≠ "" := by decide

/-- A version that was scanned on one branch, and is scanned again on another. -/
def labelOnTwoBranches : RetentionSystem (Fin 1) where
  store :=
    let shipped : RetainedScan :=
      { projectId := 1, ref := some ⟨"main", main_ne_empty⟩, kind := .source, status := .succeeded
        release := some (.str "4.0"), supersededAt := none, supersededByScanId := none
        createdAt := 0 }
    let again := { shipped with ref := some ⟨"release", by decide⟩, status := .running, createdAt := 1 }
    { scans := .stored [(1, shipped), (2, again)], latestScanId := fun _ => some 2 }
  phase := fun _ => .finalise 2 10

/-- The second scan takes the label, and leaves the first branch without a live scan. -/
theorem live_snapshot_taken_by_label :
    labelOnTwoBranches.Fresh ∧ labelOnTwoBranches.store.HasLive 1 ⟨"main", by decide⟩ ∧
      ∃ final, run retentionStep labelOnTwoBranches (List.replicate 6 (0, .advance)) = some final ∧
        ((final.store.scans.committed 1).any fun scan => scan.status == .succeeded) = true ∧
        ¬final.store.HasLive 1 ⟨"main", by decide⟩ := by
  refine ⟨⟨fun _ => rfl, fun _ => rfl⟩, by decide, _, rfl, rfl, by decide +kernel⟩

end Runs

end Trusca
