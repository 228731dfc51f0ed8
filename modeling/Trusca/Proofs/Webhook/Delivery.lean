import Trusca.Webhook.Delivery

/-! A delivery whose scan was never dispatched is processed again when it is redelivered, unless an
attempt was cut off after it had claimed the delivery or the broker refused its scan. -/

namespace Trusca

open Store

/-- The stored row lets a redelivery through. -/
def Recoverable (row : Option DeliveryRow) : Prop :=
  ∀ stored ∈ row, stored.outcome.any DeliveryOutcome.supersedable = true

/-- A redelivery is new exactly when the stored row lets it through. -/
theorem recordDelivery_isSome {row : Option DeliveryRow} :
    (recordDelivery row).2.isSome = true ↔ Recoverable row := by
  cases row with
  | none => simp [recordDelivery, Recoverable]
  | some stored =>
    by_cases supersedable : stored.outcome.any DeliveryOutcome.supersedable = true
    · simp [recordDelivery, Recoverable, supersedable]
    · simp [recordDelivery, Recoverable, supersedable]

/-- Superseding a row commits nothing. -/
theorem recordDelivery_pending {row : Option DeliveryRow} {pending : Option DeliveryRow}
    (new : (recordDelivery row).2 = some pending) (flushed : pending.isSome = true) :
    (recordDelivery row).1 = row ∧ Recoverable row := by
  have recoverable : Recoverable row := recordDelivery_isSome.mp (by rw [new]; rfl)
  -- A first delivery is added, not found pending; a stored one may be superseded.
  cases row with
  | none =>
    cases new
    cases flushed
  | some stored =>
    have supersedable := recoverable stored rfl
    exact ⟨by simp [recordDelivery, supersedable], recoverable⟩

/-- What the stored row has to be, given how far the attempt has come. -/
def DeliveryPhase.Keeps (row : Option DeliveryRow) : DeliveryPhase → Prop
  | .done _ => Recoverable row
  | .received => Recoverable row
  | .retrying _ => Recoverable row
  | .recorded pending => pending.isSome = true → Recoverable row
  | .enqueueing .gitHost pending => pending.isSome = true → Recoverable row
  | .enqueueing .capacityRetry _ => Recoverable row
  | .dispatching _ _ => True
  | .stamping .gitHost pending outcome scan =>
      outcome.supersedable = true ∧ scan = none ∧ (pending.isSome = true → Recoverable row)
  | .stamping .capacityRetry _ outcome _ => outcome.supersedable = true ∧ Recoverable row

/-- No scan waits in the queue without a task, but the one that is about to be dispatched. -/
def DeliveryPhase.Orphaned (scans : List DeliveryScanStatus) : DeliveryPhase → Prop
  | .dispatching _ _ => False
  | _ => .queued ∈ scans

/-- A delivery that has come to nothing so far can still be recovered. -/
structure NotLost (state : DeliveryState) : Prop where
  keeps : state.phase.Keeps state.row
  queue : ¬state.phase.Orphaned state.scans

/-- A scan was dispatched, another one covers the ref, or the delivery can still be recovered. -/
def Accounted (state : DeliveryState) : Prop :=
  state.dispatched = true ∨ state.covered = true ∨ NotLost state

/-- A step forgets neither a dispatch nor a scan that covers the ref. -/
structure Remembers (state next : DeliveryState) : Prop where
  dispatched : state.dispatched = true → next.dispatched = true
  covered : state.covered = true → next.covered = true

section Steps

variable {state next : DeliveryState} {event : DeliveryEvent}

/-- A step of the handler forgets no delivery. -/
theorem advance_remembers {scannable : Bool} (taken : state.advance scannable = some next) :
    Remembers state next := by
  unfold DeliveryState.advance at taken
  repeat' split at taken
  all_goals cases taken
  all_goals exact ⟨fun was => was, fun was => by simp [was]⟩

/-- A step of the system forgets no delivery. -/
theorem step_remembers {scannable : Bool} (taken : state.step scannable event = some next) :
    Remembers state next := by
  cases event with
  | advance => exact advance_remembers taken
  -- A dispatch and every event but a step leave the recorded row.
  | dispatch result =>
    simp only [DeliveryState.step, DeliveryState.dispatch] at taken
    repeat' split at taken
    all_goals cases taken
    all_goals exact ⟨fun was => by simp [was], fun was => was⟩
  | _ =>
    simp only [DeliveryState.step] at taken
    repeat' split at taken
    all_goals cases taken
    all_goals exact ⟨fun was => was, fun was => was⟩

/-- A step of an attempt. -/
theorem NotLost.advance (alive : NotLost state) (taken : state.advance true = some next) :
    Accounted next := by
  obtain ⟨keeps, queue⟩ := alive
  cases phase : state.phase with
  | done answer => simp [DeliveryState.advance, phase] at taken
  -- The row is taken, or was recorded before and may be superseded.
  | received =>
    rw [phase] at keeps queue
    simp only [DeliveryState.advance, phase] at taken
    split at taken
    · rename_i row recorded
      have new := recordDelivery_isSome.mpr keeps
      rw [recorded] at new
      cases new
    · rename_i row pending recorded
      cases taken
      refine .inr (.inr ⟨fun flushed => ?_, queue⟩)
      obtain ⟨same, recoverable⟩ := recordDelivery_pending (by rw [recorded]) flushed
      rw [recorded] at same
      simp only at same
      rw [same]
      exact recoverable
  -- Refused for capacity the row is kept, otherwise the scan is enqueued.
  | recorded pending =>
    rw [phase] at keeps queue
    simp only [DeliveryState.advance, phase, Bool.not_true, Bool.false_eq_true, ↓reduceIte] at taken
    split at taken
    · cases taken
      exact .inr (.inr ⟨⟨rfl, rfl, keeps⟩, queue⟩)
    · cases taken
      exact .inr (.inr ⟨keeps, queue⟩)
  -- A retry ends, waits, or goes on to enqueue: the row is kept in each case.
  | retrying attempt =>
    rw [phase] at keeps queue
    simp only [DeliveryState.advance, phase] at taken
    repeat' split at taken
    · cases taken
      exact .inr (.inr ⟨keeps, queue⟩)
    · cases taken
      exact .inr (.inr ⟨keeps, queue⟩)
    · cases taken
      exact .inr (.inr ⟨⟨rfl, keeps⟩, queue⟩)
    · cases taken
      exact .inr (.inr ⟨keeps, queue⟩)
    · cases taken
      exact .inr (.inr ⟨keeps, queue⟩)
  | enqueueing origin pending =>
    rw [phase] at queue
    simp only [DeliveryState.advance, phase] at taken
    split at taken
    · -- Only a scan of another origin can be active here.
      rename_i active
      cases taken
      right
      left
      simp only [DeliveryState.refActive, Bool.or_eq_true, List.contains_iff_mem] at active ⊢
      exact .inr (active.resolve_right queue)
    · -- No active scan, so this one is put into the queue, and is the worker's to find.
      cases taken
      exact .inr (.inr ⟨trivial, fun orphaned => orphaned⟩)
  | dispatching origin scan => simp [DeliveryState.advance, phase] at taken
  | stamping origin pending outcome scan =>
    rw [phase] at keeps queue
    simp only [DeliveryState.advance, phase] at taken
    cases taken
    -- Whatever the origin, the outcome allows a later delivery to take over.
    have supersedable : outcome.supersedable = true := by
      cases origin with
      | gitHost => exact keeps.1
      | capacityRetry => exact keeps.1
    refine .inr (.inr ⟨fun stored here => ?_, queue⟩)
    obtain ⟨row, _, rfl⟩ := Option.map_eq_some_iff.mp here
    simpa [DeliveryRow.finish] using supersedable

/-- What is cut off without a claim leaves a row that lets a redelivery through. -/
theorem DeliveryPhase.Keeps.recoverable {phase : DeliveryPhase} {row : Option DeliveryRow}
    (keeps : phase.Keeps row) (unclaimed : phase.claims = false) : Recoverable row := by
  cases phase with
  -- Idle, received or retrying, the row is recoverable as it stands.
  | done answer => exact keeps
  | received => exact keeps
  | retrying attempt => exact keeps
  | recorded pending =>
    refine keeps ?_
    cases pending with
    | none => cases unclaimed
    | some flushed => rfl
  -- A capacity retry keeps the row, and a delivery keeps it while nothing is flushed.
  | enqueueing origin pending =>
    cases origin with
    | capacityRetry => exact keeps
    | gitHost =>
      refine keeps ?_
      cases pending with
      | none => cases unclaimed
      | some flushed => rfl
  | dispatching origin scan => cases unclaimed
  -- The stamp of a scan: it may be superseded, or it claims the delivery.
  | stamping origin pending outcome scan =>
    cases origin with
    | capacityRetry => exact keeps.2
    | gitHost =>
      obtain ⟨supersedable, rfl, flushed⟩ := keeps
      refine flushed ?_
      cases pending with
      | some row => rfl
      | none =>
        -- Only the skip of an active scan claims nothing here, and it is not superseded.
        simp only [DeliveryPhase.claims, Option.isNone_none, Bool.true_and, bne_eq_false_iff_eq]
          at unclaimed
        subst unclaimed
        cases supersedable

/-- What is not orphaned while an attempt is under way is not when it has ended. -/
theorem DeliveryPhase.not_queued {phase : DeliveryPhase} {scans : List DeliveryScanStatus}
    (queue : ¬phase.Orphaned scans) (unclaimed : phase.claims = false) : .queued ∉ scans := by
  cases phase with
  | dispatching origin scan => cases unclaimed
  | _ => exact queue

/-- A harmless event keeps account of the delivery. -/
theorem Accounted.step (accounted : Accounted state) (fine : event.harmless state.phase = true)
    (taken : state.step true event = some next) : Accounted next := by
  rcases accounted with dispatched | covered | alive
  · -- A scan was dispatched or covers the commit: no step forgets it.
    exact .inl ((step_remembers taken).dispatched dispatched)
  · exact .inr (.inl ((step_remembers taken).covered covered))
  obtain ⟨keeps, queue⟩ := id alive
  cases event with
  -- A new delivery or retry begins, with the row as it was left.
  | deliver =>
    simp only [DeliveryState.step] at taken
    split at taken
    · rename_i answer phase
      rw [phase] at keeps queue
      cases taken
      exact .inr (.inr ⟨keeps, queue⟩)
    · cases taken
  | retry attempt =>
    simp only [DeliveryState.step] at taken
    split at taken
    · rename_i answer phase
      rw [phase] at keeps queue
      cases taken
      exact .inr (.inr ⟨keeps, queue⟩)
    · cases taken
  | advance => exact alive.advance taken
  -- An accepted dispatch is the scan the delivery asked for.
  | dispatch result =>
    simp only [DeliveryState.step, DeliveryState.dispatch] at taken
    split at taken
    · cases result with
      | accepted =>
        cases taken
        exact .inl rfl
      | unrecorded =>
        cases taken
        exact .inl rfl
      | refused marked => cases fine
    · cases taken
  -- The stamp or the process fails, and nothing had been claimed by then.
  | stampFails =>
    have unclaimed : state.phase.claims = false := by simpa [DeliveryEvent.harmless] using fine
    have recoverable := keeps.recoverable unclaimed
    have empty := DeliveryPhase.not_queued queue unclaimed
    simp only [DeliveryState.step] at taken
    split at taken
    · cases taken
      exact .inr (.inr ⟨recoverable, empty⟩)
    · cases taken
      exact .inr (.inr ⟨recoverable, empty⟩)
    · cases taken
  | crash =>
    have unclaimed : state.phase.claims = false := by simpa [DeliveryEvent.harmless] using fine
    simp only [DeliveryState.step] at taken
    split at taken
    · cases taken
    · cases taken
      exact .inr (.inr ⟨keeps.recoverable unclaimed, DeliveryPhase.not_queued queue unclaimed⟩)
  -- The surroundings change, and the row does not.
  | capacity block =>
    cases taken
    exact .inr (.inr ⟨keeps, queue⟩)
  | otherScan active =>
    cases taken
    exact .inr (.inr ⟨keeps, queue⟩)
  | scanEnds scan =>
    cases taken
    refine .inr (.inr ⟨keeps, fun orphaned => queue ?_⟩)
    -- A scan that leaves the queue puts none into it.
    have fewer : .queued ∈ state.scans.set scan .ended → .queued ∈ state.scans := by
      intro member
      rcases List.mem_or_eq_of_mem_set member with old | new
      · exact old
      · cases new
    cases phase : state.phase with
    | dispatching origin scan =>
      simp only [phase] at orphaned
      exact orphaned
    | _ =>
      simp only [phase] at orphaned
      exact fewer orphaned

end Steps

/-- In every sequence of attempts and retries in which none is cut off after it has claimed the
delivery and no scan is refused: while no scan of the delivery was dispatched and none of another
origin was active at an attempt, the next redelivery is processed again. -/
theorem redelivery_processed {block : Option CapacityBlock} {otherActive : Bool}
    {events : List DeliveryEvent} {final : DeliveryState} {answer : DeliveryAnswer}
    (fine : Guarded (DeliveryState.step true)
      (fun state event => event.harmless state.phase = true) (.initial block otherActive) events)
    (ran : run (DeliveryState.step true) (.initial block otherActive) events = some final)
    (ended : final.phase = .done answer) (undispatched : final.dispatched = false)
    (uncovered : final.covered = false) :
    ∃ next pending, run (DeliveryState.step true) final [.deliver, .advance] = some next ∧
      next.phase = .recorded pending := by
  -- At the start no delivery was taken, so there is none to account for.
  have fresh : Accounted (.initial block otherActive) :=
    .inr (.inr ⟨nofun, List.not_mem_nil⟩)
  -- The invariant over the run: dispatched, covered by another, or still recoverable.
  have accounted : Accounted final :=
    run_invariant (fun _ _ _ holds fine taken => holds.step fine taken) fresh fine ran
  -- The first two were excluded.
  rcases accounted with dispatched | covered | alive
  · exact absurd (undispatched.symm.trans dispatched) (by decide)
  · exact absurd (uncovered.symm.trans covered) (by decide)
  · -- A recoverable row is recorded anew by the next delivery.
    have recoverable := alive.keeps
    rw [ended] at recoverable
    obtain ⟨pending, new⟩ := Option.isSome_iff_exists.mp (recordDelivery_isSome.mpr recoverable)
    refine ⟨{ final with row := (recordDelivery final.row).1, phase := .recorded pending }, pending,
      ?_, rfl⟩
    have split : recordDelivery final.row = ((recordDelivery final.row).1, some pending) := by
      rw [← new]
    simp only [run, DeliveryState.step, ended, Option.bind_some, DeliveryState.advance]
    rw [split]
    rfl

/-- A delivery that was turned away at capacity and whose retries are exhausted, with a crash before
the row is committed again. -/
def turnedAway : List DeliveryEvent :=
  [.deliver, .advance, .advance, .advance, .retry 6, .advance, .advance, .deliver, .advance, .crash]

/-- The theorem at such a delivery. -/
theorem redelivery_processed_exhausted :
    ∃ final next pending,
      run (DeliveryState.step true) (.initial (some .diskFull) false) turnedAway = some final ∧
      final.row = some ⟨some .capacityRetryExhausted, none⟩ ∧
      run (DeliveryState.step true) final [.deliver, .advance] = some next ∧
      next.phase = .recorded pending := by
  have ends : run (DeliveryState.step true) (.initial (some .diskFull) false) turnedAway =
      some ⟨some ⟨some .capacityRetryExhausted, none⟩, [], some .diskFull, false, .done .cutOff,
        false, false⟩ := by
    decide
  obtain ⟨next, pending, again, recorded⟩ :=
    redelivery_processed (by decide) ends rfl rfl rfl
  exact ⟨_, next, pending, ends, rfl, again, recorded⟩

/-- An attempt that crashes after its first commit, and one whose scan the broker refuses, leave a
delivery without a dispatched scan whose redelivery is answered as a duplicate. -/
theorem redelivery_lost :
    (∃ next, run (DeliveryState.step true) (.initial none false)
        [.deliver, .advance, .crash, .deliver, .advance] = some next ∧
      next.phase = .done .duplicate ∧ next.dispatched = false ∧ next.covered = false) ∧
    ∃ next, run (DeliveryState.step true) (.initial none false)
        [.deliver, .advance, .advance, .advance, .dispatch (.refused true), .advance,
          .deliver, .advance] = some next ∧
      next.phase = .done .duplicate ∧ next.dispatched = false ∧ next.covered = false :=
  ⟨⟨_, rfl, rfl, rfl, rfl⟩, ⟨_, rfl, rfl, rfl, rfl⟩⟩

end Trusca
