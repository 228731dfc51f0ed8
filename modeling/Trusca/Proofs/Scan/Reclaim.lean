import Mathlib.Data.Fintype.Basic
import Mathlib.Data.List.TakeWhile
import Trusca.Proofs.Scan.Retention

/-! Which scans the two sweeps of the retention task can reclaim. -/

namespace Trusca

open Store

variable {τ : Type*} [DecidableEq τ]

/-- The absolute protections: a scan that retention must never reclaim. -/
def RetentionStore.isProtected (store : RetentionStore τ) (id : ScanId) (scan : RetainedScan) :
    Bool :=
  scan.active || store.latestScanId scan.projectId == some id || scan.hasReleaseLabel ||
    (scan.live && scan.ref.isSome)

namespace RetentionPhase

/-- Whether the next statement of the session is one of the task's deletions. -/
def reclaims : RetentionPhase → Bool
  | .supersededRead .. | .agedRead .. => true
  | _ => false

/-- Whether the session has not begun, or is over. -/
def unbegun : RetentionPhase → Bool
  | .finalise .. | .sweep .. | .trigger .. | .start .. | .finish .. | .delete .. | .done => true
  | _ => false

/-- The scans that an open sweep over superseded scans has collected. -/
def supersededIds : RetentionPhase → List ScanId
  | .supersededRead _ _ ids => ids
  | _ => []

/-- The scans that an open sweep over aged scans has collected. -/
def agedIds : RetentionPhase → List ScanId
  | .agedRead _ _ _ stale _ => stale
  | _ => []

end RetentionPhase

/-- No session has begun, and no scan is locked. -/
structure RetentionSystem.Fresh (system : RetentionSystem τ) : Prop where
  unlocked : ∀ key, (system.store.scans.row key).held = none
  unbegun : ∀ tx, (system.phase tx).unbegun = true

/-- Whether no superseded scan past its grace period is in flight or the latest of its project. -/
def RetentionStore.supersededAtRest (store : RetentionStore τ) (cutoff : Time) : Bool :=
  store.scans.keys.all fun id => (store.scans.committed id).all fun scan =>
    !scan.graceOver cutoff || (!scan.active && store.latestScanId scan.projectId != some id)

/-- The sweeps are not undercut by a statement: what they collect is at rest, and is neither started
nor finalised on a branch before they delete it. -/
def RetentionSystem.Unhindered (system : RetentionSystem τ) : RetentionPhase → Prop
  | .sweep policy now => system.store.supersededAtRest (now - policy.supersededGrace) = true
  | .starting id loaded => loaded ≠ .running → ∀ other, id ∉ (system.phase other).supersededIds
  | .retired id row => row.ref.isSome = true → ∀ other, id ∉ (system.phase other).agedIds
  | _ => True

/-- With finitely many sessions, whether a statement undercuts a sweep can be computed. -/
instance [Fintype τ] (system : RetentionSystem τ) : DecidablePred system.Unhindered
  | .sweep _ _ => inferInstanceAs (Decidable (_ = true))
  | .starting id _ =>
      inferInstanceAs (Decidable (_ → ∀ other, id ∉ (system.phase other).supersededIds))
  | .retired id _ => inferInstanceAs (Decidable (_ → ∀ other, id ∉ (system.phase other).agedIds))
  | .finalise .. | .claimed .. | .refRead .. | .refDone .. | .labelRead .. | .supersededRead ..
  | .aged .. | .agedProjects .. | .agedRead .. | .trigger .. | .start .. | .finish .. | .delete ..
  | .deleting .. | .done => .isTrue trivial

/-- The sweeps are not undercut by an event. -/
def RetentionSystem.NotUndercut (system : RetentionSystem τ) (event : τ × RetentionEvent) : Prop :=
  system.Unhindered ((system.phase event.1).acting event.2)

instance [Fintype τ] (system : RetentionSystem τ) : DecidablePred system.NotUndercut :=
  fun _ => inferInstanceAs (Decidable (system.Unhindered _))

/-- Trimming both ends of a text leaves nothing exactly when the whole text is trimmed. -/
theorem trimmed_eq_nil {trims : Char → Bool} {text : List Char} :
    ((text.dropWhile trims).reverse.dropWhile trims).reverse = [] ↔
      ∀ character ∈ text, trims character = true := by
  rw [List.reverse_eq_nil_iff, List.dropWhile_eq_nil_iff]
  constructor
  · intro all
    rw [← List.dropWhile_eq_nil_iff]
    -- What is left after the first trim would start with a character that is not trimmed.
    by_contra left
    have kept := List.head_dropWhile_not trims left
    rw [all _ (List.mem_reverse.mpr (List.head_mem left))] at kept
    cases kept
  · intro all character member
    rw [List.mem_reverse] at member
    exact all character ((List.dropWhile_sublist trims).subset member)

/-- A label of blanks only is blank to the service as well. -/
theorem strip_eq_empty_of_btrim {text : String} (blank : btrim text = "") : strip text = "" := by
  -- Nothing but blanks were in the text.
  have nothing : ((text.toList.dropWhile (· == ' ')).reverse.dropWhile (· == ' ')).reverse = [] := by
    simpa [btrim] using congrArg String.toList blank
  have spaces := trimmed_eq_nil.mp nothing
  have stripped : ((text.toList.dropWhile isSpace).reverse.dropWhile isSpace).reverse = [] := by
    refine trimmed_eq_nil.mpr fun character member => ?_
    have space := spaces character member
    rw [beq_iff_eq] at space
    subst space
    decide
  simp only [strip, stripped]

/-- What the database reads as no label, the service does too. -/
theorem RetainedScan.hasReleaseLabel_of_absent {scan : RetainedScan}
    (absent : scan.releaseAbsent = true) : scan.hasReleaseLabel = false := by
  unfold releaseAbsent at absent
  unfold hasReleaseLabel
  split
  · rename_i label found
    simp only [found, beq_iff_eq] at absent
    simp [strip_eq_empty_of_btrim absent]
  · rfl

/-- What a sweep knows of the scans it has collected, as far as its deletion does not ask again. -/
def Collected (store : RetentionStore τ) : RetentionPhase → Prop
  | .supersededRead _ _ ids => ∀ id ∈ ids, id ∈ store.scans.keys ∧
      ∀ scan, store.scans.committed id = some scan → scan.supersededAt.isSome = true ∧
        scan.releaseAbsent = true ∧ scan.active = false ∧
        store.latestScanId scan.projectId ≠ some id
  | .agedRead _ _ _ stale _ => ∀ id ∈ stale, id ∈ store.scans.keys ∧
      ∀ scan, store.scans.committed id = some scan → (scan.live && scan.ref.isSome) = false
  | _ => True

omit [DecidableEq τ] in
/-- What the sweep over superseded scans knows of a scan survives what others do to it. -/
theorem Effect.superseded_at_rest {store after : RetentionStore τ} {phase : RetentionPhase}
    {id : ScanId} {version : Option RetainedScan}
    (effect : Effect store phase id version (after.scans.committed id))
    (listed : id ∈ store.scans.keys)
    (unstarted : ∀ loaded, phase = .starting id loaded → loaded = .running)
    (latest : ∀ project, after.latestScanId project = store.latestScanId project ∨
      after.latestScanId project ≠ some id)
    (known : ∀ scan, version = some scan → scan.supersededAt.isSome = true ∧
      scan.releaseAbsent = true ∧ scan.active = false ∧
      store.latestScanId scan.projectId ≠ some id) :
    ∀ scan, after.scans.committed id = some scan → scan.supersededAt.isSome = true ∧
      scan.releaseAbsent = true ∧ scan.active = false ∧
      after.latestScanId scan.projectId ≠ some id := by
  -- No new scan takes the id, and no pointer moves to it.
  have elsewhere : ∀ project, store.latestScanId project ≠ some id →
      after.latestScanId project ≠ some id := by
    intro project apart
    rcases latest project with same | moved
    · rw [same]
      exact apart
    · exact moved
  generalize after.scans.committed id = result at effect
  intro scan stored
  subst stored
  cases effect with
  | kept =>
    obtain ⟨superseded, absent, idle, apart⟩ := known scan rfl
    exact ⟨superseded, absent, idle, elsewhere _ apart⟩
  | triggered _ _ fresh => exact absurd listed fresh
  | started _ loaded before =>
    obtain ⟨superseded, absent, idle, apart⟩ := known before rfl
    -- The worker read the scan as running, so its flush leaves the status alone.
    cases unstarted loaded rfl
    refine ⟨superseded, absent, ?_, elsewhere _ apart⟩
    simpa [flushColumn] using idle
  | ended _ outcome before inFlight =>
    obtain ⟨_, _, idle, _⟩ := known before rfl
    cases idle.symm.trans inFlight
  | finalised winner row _ before _ pending =>
    obtain ⟨superseded, absent, idle, apart⟩ := known before rfl
    cases pending with
    | won running =>
      -- A claimed scan is in flight, and the collected ones are not.
      simp [RetainedScan.active, running] at idle
    | retired other found now => exact ⟨rfl, absent, idle, elsewhere _ apart⟩

omit [DecidableEq τ] in
/-- What the sweep over aged scans knows of a scan survives what others do to it. -/
theorem Effect.aged_not_live {store after : RetentionStore τ} {phase : RetentionPhase}
    {id : ScanId} {version : Option RetainedScan}
    (effect : Effect store phase id version (after.scans.committed id))
    (listed : id ∈ store.scans.keys)
    (unclaimed : ∀ row, phase = .retired id row → row.ref = none)
    (known : ∀ scan, version = some scan → (scan.live && scan.ref.isSome) = false) :
    ∀ scan, after.scans.committed id = some scan → (scan.live && scan.ref.isSome) = false := by
  generalize after.scans.committed id = result at effect
  intro scan stored
  subst stored
  cases effect with
  | kept => exact known scan rfl
  | triggered _ _ fresh => exact absurd listed fresh
  | started _ loaded before =>
    have dead := known before rfl
    by_cases same : ScanStatus.running = loaded
    · -- Nothing was assigned, and the scan stays as it was.
      simpa [flushColumn, same, RetainedScan.live] using dead
    · simp [flushColumn, same, RetainedScan.live]
  | ended _ outcome before _ _ unsuccessful => simp [RetainedScan.live, unsuccessful]
  | finalised winner row _ before _ pending =>
    cases pending with
    | won running finished =>
      -- A scan finalised while it is collected has no branch.
      simp [unclaimed scan rfl]
    | retired other found now => simp [RetainedScan.live, RetainedScan.supersede]

section Runs

variable {system next : RetentionSystem τ} {tx : τ}

omit [DecidableEq τ] in
/-- What a sweep has collected survives a step of another session. -/
theorem Collected.kept {store after : RetentionStore τ} {phase reached progress : RetentionPhase}
    (collected : Collected store progress) (advanced : Advanced tx store phase after reached)
    (unstarted : ∀ id loaded, phase = .starting id loaded → loaded ≠ .running →
      id ∉ progress.supersededIds)
    (unclaimed : ∀ id row, phase = .retired id row → row.ref.isSome = true →
      id ∉ progress.agedIds) : Collected after progress := by
  cases progress with
  | supersededRead policy now ids =>
    intro id member
    obtain ⟨listed, known⟩ := collected id member
    -- A superseded row at rest stays one: it is not started, and no pointer moves to it.
    refine ⟨advanced.listed id listed,
      (advanced.effect id).superseded_at_rest listed ?_ ?_ known⟩
    · intro loaded starting
      by_contra waiting
      exact unstarted id loaded starting waiting member
    · intro project
      rcases advanced.latest project with same | cleared | ⟨fresh, scan, _, unused, moved⟩
      · exact .inl same
      · exact .inr (by simp [cleared])
      · -- The pointer moves to a scan under a key that was never used.
        refine .inr fun equal => unused ?_
        rw [moved] at equal
        cases equal
        exact listed
  | agedRead policy now project stale rest =>
    intro id member
    obtain ⟨listed, known⟩ := collected id member
    -- An aged row stays behind, unless a finalisation has claimed its label.
    refine ⟨advanced.listed id listed, (advanced.effect id).aged_not_live listed ?_ known⟩
    intro row finalising
    by_contra named
    exact unclaimed id row finalising (Option.isSome_iff_ne_none.mpr named) member
  | _ => trivial

/-- A stale scan was one that the retirement rules do not manage. -/
theorem RetentionPhase.mem_staleIds {scans : Rows ScanId τ RetainedScan} {policy : RetentionPolicy}
    {now : Time} {project : ProjectId} {id : ScanId}
    (stale : id ∈ staleIds scans tx policy now project) :
    ∃ scan, scans.view tx id = some scan ∧ scan.agedCandidate = true := by
  simp only [staleIds, List.mem_map, List.mem_filter] at stale
  obtain ⟨⟨found, created⟩, ⟨kept, _⟩, rfl⟩ := stale
  -- Dropping the newest and sorting leave members of what the SELECT found.
  have sorted := List.mem_of_mem_drop kept
  rw [List.mem_mergeSort, List.mem_map] at sorted
  obtain ⟨other, selected, same⟩ := sorted
  cases same
  obtain ⟨scan, seen, wanted⟩ := Rows.mem_select.mp selected
  simp only [Bool.and_eq_true] at wanted
  exact ⟨scan, seen, wanted.2⟩

/-- Only the reads of the two sweeps are followed by a deletion of the task. -/
theorem RetentionPhase.not_reclaims_of_advance {store after : RetentionStore τ}
    {phase reached : RetentionPhase} (acted : advance tx store phase = some (after, reached))
    (first : ∀ policy now, phase ≠ .sweep policy now)
    (second : ∀ policy now projects, phase ≠ .agedProjects policy now projects) :
    reached.reclaims = false := by
  unfold advance at acted
  split at acted <;> grind [RetentionPhase.reclaims, Option.map_eq_some_iff]

/-- The sweep over superseded scans collects what a read has found past its grace period. -/
theorem RetentionPhase.superseded_found {store after : RetentionStore τ}
    {phase reached : RetentionPhase} {id : ScanId}
    (acted : advance tx store phase = some (after, reached)) (member : id ∈ reached.supersededIds) :
    ∃ policy now scan, phase = .sweep policy now ∧ after = store ∧
      store.scans.view tx id = some scan ∧
      scan.graceOver (now - policy.supersededGrace) = true := by
  -- Only the sweep itself reads superseded scans.
  cases phase with
  | sweep policy now =>
    simp only [advance] at acted
    split at acted
    · cases acted
      cases member
    · -- They are selected in the sweep's own view, past their grace.
      cases acted
      obtain ⟨scan, seen, past⟩ := Rows.mem_select.mp member
      exact ⟨policy, now, scan, rfl, rfl, seen, past⟩
  | agedProjects policy now projects =>
    cases projects with
    | nil =>
      cases acted
      cases member
    | cons project rest =>
      simp only [advance] at acted
      split at acted <;> cases acted <;> cases member
  -- No other phase reaches one that carries such a list.
  | _ =>
    have idle := not_reclaims_of_advance acted (by simp) (by simp)
    cases reached with
    | supersededRead => cases idle
    | _ => cases member

/-- The sweep over aged scans collects what a read has found outside the retirement rules. -/
theorem RetentionPhase.aged_found {store after : RetentionStore τ}
    {phase reached : RetentionPhase} {id : ScanId}
    (acted : advance tx store phase = some (after, reached)) (member : id ∈ reached.agedIds) :
    ∃ scan, phase.winner = none ∧ after = store ∧ store.scans.view tx id = some scan ∧
      scan.agedCandidate = true := by
  -- Only the walk over the projects reads aged scans.
  cases phase with
  | sweep policy now =>
    simp only [advance] at acted
    split at acted <;> cases acted <;> cases member
  | agedProjects policy now projects =>
    cases projects with
    | nil =>
      cases acted
      cases member
    | cons project rest =>
      simp only [advance] at acted
      split at acted
      · cases acted
        cases member
      · -- They are the stale ones among the project's, all of them candidates.
        cases acted
        obtain ⟨scan, seen, candidate⟩ := mem_staleIds member
        exact ⟨scan, rfl, rfl, seen, candidate⟩
  -- No other phase reaches one that carries them.
  | _ =>
    have idle := not_reclaims_of_advance acted (by simp) (by simp)
    cases reached with
    | agedRead => cases idle
    | _ => cases member

/-- A scan collected by its age is not the live scan of a branch. -/
theorem RetentionPhase.aged_found_not_live {store after : RetentionStore τ}
    {phase reached : RetentionPhase} {id : ScanId} (holds : Holds tx store phase)
    (acted : advance tx store phase = some (after, reached)) (member : id ∈ reached.agedIds) :
    id ∈ after.scans.keys ∧
      ∀ scan, after.scans.committed id = some scan → (scan.live && scan.ref.isSome) = false := by
  obtain ⟨scan, idle, rfl, seen, candidate⟩ := aged_found acted member
  refine ⟨Rows.mem_keys_of_view seen, fun found stored => ?_⟩
  have published : after.scans.view tx id = some found :=
    (Row.view_eq_committed (holds.nothing idle id)).trans stored
  cases seen.symm.trans published
  -- A candidate has not succeeded, or has no branch.
  simp only [RetainedScan.agedCandidate, Bool.and_eq_true, Bool.or_eq_true, bne_iff_ne,
    ne_eq] at candidate
  rcases candidate.2 with failed | adHoc
  · simp [RetainedScan.live, failed]
  · simp [Option.isNone_iff_eq_none.mp adHoc]

/-- A scan collected past its grace period is superseded, and has no release label. -/
theorem RetentionPhase.superseded_found_stored {store after : RetentionStore τ}
    {phase reached : RetentionPhase} {id : ScanId} (holds : Holds tx store phase)
    (acted : advance tx store phase = some (after, reached)) (member : id ∈ reached.supersededIds) :
    id ∈ after.scans.keys ∧ ∀ scan, after.scans.committed id = some scan →
      scan.supersededAt.isSome = true ∧ scan.releaseAbsent = true := by
  obtain ⟨policy, now, scan, rfl, rfl, seen, past⟩ := superseded_found acted member
  refine ⟨Rows.mem_keys_of_view seen, fun found stored => ?_⟩
  -- This transaction holds nothing, so it sees what is committed.
  have published : after.scans.view tx id = some found :=
    (Row.view_eq_committed (holds.nothing rfl id)).trans stored
  cases seen.symm.trans published
  simp only [RetainedScan.graceOver, Bool.and_eq_true] at past
  obtain ⟨superseded, absent⟩ := past
  rw [Option.any_eq_true] at superseded
  obtain ⟨past, present, _⟩ := superseded
  exact ⟨by simp [present], absent⟩

/-- A sweep knows what it collects when it collects it. -/
theorem Collected.found {store after : RetentionStore τ} {phase reached : RetentionPhase}
    (holds : Holds tx store phase)
    (rest : ∀ policy now, phase = .sweep policy now →
      store.supersededAtRest (now - policy.supersededGrace) = true)
    (acted : RetentionPhase.advance tx store phase = some (after, reached)) :
    Collected after reached := by
  cases reached with
  | supersededRead policy now ids =>
    intro id member
    obtain ⟨listed, known⟩ := RetentionPhase.superseded_found_stored holds acted member
    refine ⟨listed, fun scan stored => ?_⟩
    obtain ⟨superseded, absent⟩ := known scan stored
    obtain ⟨_, _, found, rfl, rfl, seen, past⟩ := RetentionPhase.superseded_found acted member
    have published : after.scans.view tx id = some scan :=
      (Row.view_eq_committed (holds.nothing rfl id)).trans stored
    cases seen.symm.trans published
    -- The condition on the read speaks of every listed scan past its grace period.
    have idle := List.all_eq_true.mp (rest _ _ rfl) id listed
    rw [stored] at idle
    simp only [Option.all_some, past, Bool.not_true, Bool.false_or, Bool.and_eq_true,
      bne_iff_ne, ne_eq] at idle
    exact ⟨superseded, absent, by simpa using idle.1, idle.2⟩
  | agedRead policy now project stale rest =>
    intro id member
    exact RetentionPhase.aged_found_not_live holds acted member
  | _ => trivial

/-- Where a session stands: what it holds and what it has collected. -/
def Stands (tx : τ) (store : RetentionStore τ) (phase : RetentionPhase) : Prop :=
  Holds tx store phase ∧ Collected store phase

/-- Where every session stands. -/
abbrev RetentionSystem.Stand (system : RetentionSystem τ) : Prop :=
  Sessions.Annotated (fun _ => True) Stands system

omit [DecidableEq τ] in
/-- A system in which nobody has begun stands. -/
theorem RetentionSystem.Fresh.stand (fresh : system.Fresh) : system.Stand := by
  refine ⟨trivial, fun tx => ⟨.idle ?_ fun key version => ?_, ?_⟩⟩
  · -- A call that has not begun has no winner, and has collected nothing.
    have unbegun := fresh.unbegun tx
    revert unbegun
    cases system.phase tx <;> simp [RetentionPhase.unbegun, RetentionPhase.winner]
  · exact Row.not_heldBy_of_unlocked (fresh.unlocked key) version
  · have unbegun := fresh.unbegun tx
    revert unbegun
    cases system.phase tx <;> simp [RetentionPhase.unbegun, Collected]

/-- A step that undercuts no sweep leaves every session standing. -/
theorem RetentionSystem.Stand.step {event : τ × RetentionEvent} (stand : system.Stand)
    (safe : system.NotUndercut event) (taken : retentionStep system event = some next) :
    next.Stand := by
  obtain ⟨tx, event⟩ := event
  refine stand.step_at taken (fun store phase acted => ⟨trivial, ?_⟩)
    fun store phase other acted different stands => ?_
  · -- The acting session holds what its statement took, and knows what it collected.
    refine ⟨(Advanced.of_act (stand.own tx).1 acted).holds, ?_⟩
    cases event with
    | abort =>
      rw [(RetentionPhase.act_abort acted).2]
      trivial
    | advance =>
      refine Collected.found (stand.own tx).1 (fun policy now sweeping => ?_) acted
      have condition : system.Unhindered (system.phase tx) := safe
      rw [sweeping] at condition
      exact condition
  · -- The others are not disturbed, and what they collected is not undercut.
    have advanced := Advanced.of_act (stand.own tx).1 acted
    have condition : system.Unhindered ((system.phase tx).acting event) := safe
    refine ⟨stands.1.undisturbed (advanced.others other different),
      stands.2.kept advanced (fun id loaded starting waiting => ?_)
        fun id row finalising named => ?_⟩
    · rw [starting] at condition
      exact condition waiting other
    · rw [finalising] at condition
      exact condition named other

/-- No protected scan is gone after the step. -/
def SparesProtected (system next : RetentionSystem τ) : Prop :=
  ∀ id scan, system.store.scans.committed id = some scan → next.store.scans.committed id = none →
    system.store.isProtected id scan = false

/-- The deletion of a standing sweep spares what is protected at that moment. -/
theorem RetentionSystem.Stand.spares (stand : system.Stand)
    (taken : retentionStep system (tx, .advance) = some next)
    (deletes : (system.phase tx).reclaims = true) : SparesProtected system next := by
  intro id scan stored gone
  obtain ⟨store, phase, acted, rfl⟩ := Sessions.step_eq_some.mp taken
  have effect := (Advanced.of_act (stand.own tx).1 acted).effect id
  have collected := (stand.own tx).2
  have same : (system.phase tx).acting .advance = system.phase tx := rfl
  rw [same, stored, show store.scans.committed id = none from gone] at effect
  generalize system.phase tx = doing at effect deletes collected
  cases effect with
  | deleted => cases deletes
  | reclaimedSuperseded policy now ids _ _ member =>
    obtain ⟨superseded, absent, idle, apart⟩ := (collected id member).2 scan stored
    have dead : scan.live = false := by
      simp [RetainedScan.live, superseded]
    simp [RetentionStore.isProtected, idle, apart, dead,
      RetainedScan.hasReleaseLabel_of_absent absent]
  | reclaimedAged policy now project stale rest _ _ member older deletable =>
    have dead := (collected id member).2 scan stored
    -- The deletion itself asks for the project, the label, the status and the pointer again.
    simp only [RetainedScan.agedDeletable, Bool.and_eq_true, beq_iff_eq] at deletable
    obtain ⟨⟨⟨⟨whose, _⟩, _⟩, absent⟩, idle⟩ := deletable
    subst whose
    simp only [RetentionStore.isProtected, RetainedScan.hasReleaseLabel_of_absent absent, dead,
      Bool.or_false, Bool.or_eq_false_iff]
    exact ⟨by simpa using idle, by simpa using older⟩

/-- From every state of the database and in every order of steps, the task deletes no scan that is
protected at the moment of the deletion, as long as no step undercuts a sweep. -/
theorem reclaim_spares_protected {start : RetentionSystem τ} {events : List (τ × RetentionEvent)}
    (fresh : start.Fresh) (safe : Guarded retentionStep RetentionSystem.NotUndercut start events)
    (ran : run retentionStep start events = some system)
    (taken : retentionStep system (tx, .advance) = some next)
    (deletes : (system.phase tx).reclaims = true) : SparesProtected system next := by
  have stand : system.Stand :=
    run_invariant (fun _ _ _ stand condition step => stand.step condition step) fresh.stand safe ran
  exact stand.spares taken deletes

/-- Two scans of one branch: an earlier one in the given status, and one that has succeeded. -/
def twoScans (status : ScanStatus) (latest : ScanId) : RetentionStore (Fin 3) :=
  let earlier : RetainedScan :=
    { projectId := 1, ref := some ⟨"main", by decide⟩, kind := .sbom, status := status
      release := none, supersededAt := none, supersededByScanId := none, createdAt := 0 }
  { scans := .stored [(1, earlier), (2, { earlier with status := .succeeded, createdAt := 1 })]
    latestScanId := fun project => if project = 1 then some latest else none }

/-- A worker that starts the earlier scan, its finalisation, and a run of the task much later. -/
def twoScanSystem (status : ScanStatus) (latest : ScanId) : RetentionSystem (Fin 3) where
  store := twoScans status latest
  phase
    | 0 => .start 1
    | 1 => .finalise 1 10
    | 2 => .sweep ⟨7, 30, 180⟩ 100

/-- A finalisation, and the read of the sweep. -/
def finaliseThenSweep : List (Fin 3 × RetentionEvent) :=
  [(1, .advance), (1, .advance), (1, .advance), (1, .advance), (1, .advance), (2, .advance)]

/-- The system of two scans starts fresh. -/
theorem twoScanSystem_fresh (status : ScanStatus) (latest : ScanId) :
    (twoScanSystem status latest).Fresh := by
  refine ⟨fun key => rfl, fun tx => ?_⟩
  match tx with
  | 0 | 1 | 2 => rfl

/-- The sweep reclaims a scan that another one has superseded, and spares what is protected. -/
theorem reclaim_spares_protected_superseded :
    ∃ system next, run retentionStep (twoScanSystem .running 1) finaliseThenSweep = some system ∧
      retentionStep system (2, .advance) = some next ∧
      (system.store.scans.committed 2).isSome = true ∧ next.store.scans.committed 2 = none ∧
      SparesProtected system next := by
  refine ⟨_, _, rfl, rfl, rfl, rfl, ?_⟩
  have safe : Guarded retentionStep RetentionSystem.NotUndercut (twoScanSystem .running 1)
      finaliseThenSweep := by decide +kernel
  exact @reclaim_spares_protected (Fin 3) _ _ _ 2 _ _ (twoScanSystem_fresh .running 1) safe
    rfl rfl rfl

/-- A redelivered import that succeeds after all supersedes the latest scan of the project, and the
sweep deletes it. -/
theorem reclaim_takes_latest :
    (twoScanSystem .failed 2).Fresh ∧
      ∃ system next, run retentionStep (twoScanSystem .failed 2)
          ((0, .advance) :: (0, .advance) :: finaliseThenSweep) = some system ∧
        retentionStep system (2, .advance) = some next ∧
        (system.phase 2).reclaims = true ∧ ¬SparesProtected system next := by
  refine ⟨twoScanSystem_fresh .failed 2, _, _, rfl, rfl, rfl, ?_⟩
  intro spares
  cases spares 2 _ rfl rfl

end Runs

end Trusca
