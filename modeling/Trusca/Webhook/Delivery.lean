import Trusca.Store.Run

/-! One webhook delivery: the row that claims its id, the scan it starts, and the outcome stamped on the
row, over the attempts of the Git host and the runs of the capacity retry. -/

namespace Trusca

open Store

/-- The capacity guard that turns a scan away. -/
inductive CapacityBlock where
  | teamAtCapacity
  | diskFull
  deriving Repr, DecidableEq

/-- How a delivery has ended. -/
inductive DeliveryOutcome where
  | enqueued
  | ignored
  | skippedActiveScan
  | skippedCapacity (block : CapacityBlock)
  | capacityRetryExhausted
  deriving Repr, DecidableEq

/-- The outcomes that a redelivery may supersede: no scan was started, and the reason is transient. -/
def DeliveryOutcome.supersedable : DeliveryOutcome → Bool
  | .skippedCapacity _ => true
  | .capacityRetryExhausted => true
  | _ => false

abbrev DeliveryScanId := Nat

/-- The row of the delivery; without an outcome until one is stamped on it. -/
structure DeliveryRow where
  outcome : Option DeliveryOutcome
  enqueuedScanId : Option DeliveryScanId
  deriving Repr, DecidableEq

/-- The status of a scan that was made for the delivery. -/
inductive DeliveryScanStatus where
  | queued
  | failed
  /-- It has left the queue: its worker has finished it, or it was cleared away. -/
  | ended
  deriving Repr, DecidableEq

/-- What the broker makes of a scan. -/
inductive DispatchResult where
  | accepted
  /-- The task is sent, and storing its id fails. -/
  | unrecorded
  /-- The broker refuses, and the scan is marked as failed or, when that fails too, left queued. -/
  | refused (marked : Bool)
  deriving Repr, DecidableEq

/-- Whose attempt is under way. -/
inductive DeliveryOrigin where
  | gitHost
  | capacityRetry
  deriving Repr, DecidableEq

/-- What the Git host is answered, or what the retry task returns. -/
inductive DeliveryAnswer where
  | duplicate
  | outcome (outcome : DeliveryOutcome)
  | targetMissing
  | alreadyResolved
  | stillBlocked
  /-- An exception or a crash. -/
  | cutOff
  deriving Repr, DecidableEq

/-- How far the attempt under way has come. The row that its transaction has written and not committed
goes with it. -/
inductive DeliveryPhase where
  | done (answer : DeliveryAnswer)
  | received
  | recorded (pending : Option DeliveryRow)
  | retrying (attempt : Nat)
  | enqueueing (origin : DeliveryOrigin) (pending : Option DeliveryRow)
  | dispatching (origin : DeliveryOrigin) (scan : DeliveryScanId)
  | stamping (origin : DeliveryOrigin) (pending : Option DeliveryRow) (outcome : DeliveryOutcome)
      (scan : Option DeliveryScanId)
  deriving Repr, DecidableEq

/-- What happens to the delivery or around it. -/
inductive DeliveryEvent where
  /-- The Git host sends the delivery. -/
  | deliver
  /-- The retry task runs, for the given time after the first. -/
  | retry (attempt : Nat)
  | advance
  | dispatch (result : DispatchResult)
  /-- The outcome cannot be stored. -/
  | stampFails
  | crash
  /-- The capacity of the team or of the disk changes. -/
  | capacity (block : Option CapacityBlock)
  /-- Another scan of the ref becomes active, or is over. -/
  | otherScan (active : Bool)
  /-- A scan of the delivery leaves the queue. -/
  | scanEnds (scan : DeliveryScanId)
  deriving Repr, DecidableEq

/-- The stored rows, what the guards find, and what has come of the delivery. -/
structure DeliveryState where
  row : Option DeliveryRow
  scans : List DeliveryScanStatus
  block : Option CapacityBlock
  otherActive : Bool
  phase : DeliveryPhase
  /-- Whether a scan of the delivery has been handed to the broker. -/
  dispatched : Bool
  /-- Whether an attempt has found another scan of the ref active. -/
  covered : Bool
  deriving Repr, DecidableEq

/-- How many times the retry task tries again. -/
def maxRetryAttempts : Nat := 6

/-- Insert the row of the delivery, or supersede one that may be superseded. The second part is absent
for a duplicate, and else the row that is not committed yet. -/
def recordDelivery (row : Option DeliveryRow) : Option DeliveryRow × Option (Option DeliveryRow) :=
  match row with
  | none => (some ⟨none, none⟩, some none)
  | some existing =>
      if existing.outcome.any DeliveryOutcome.supersedable then
        -- Flushed and not committed: the caller carries on in the same transaction.
        (some existing, some (some { existing with outcome := none }))
      else (some existing, none)

/-- Stamp the outcome on a row. -/
def DeliveryRow.finish (row : DeliveryRow) (outcome : DeliveryOutcome) (scan : Option DeliveryScanId) :
    DeliveryRow where
  outcome := some outcome
  enqueuedScanId := scan.or row.enqueuedScanId

namespace DeliveryState

/-- Whether a scan of the ref is active. -/
def refActive (state : DeliveryState) : Bool :=
  state.otherActive || state.scans.contains .queued

/-- The next step of the attempt under way, for a delivery whose event is or is not scanned. -/
def advance (scannable : Bool) (state : DeliveryState) : Option DeliveryState :=
  match state.phase with
  | .done _ => none
  | .received =>
      match recordDelivery state.row with
      | (row, none) => some { state with row, phase := .done .duplicate }
      | (row, some pending) => some { state with row, phase := .recorded pending }
  | .recorded pending =>
      if !scannable then some { state with phase := .stamping .gitHost pending .ignored none }
      else
        match state.block with
        | some block =>
            some { state with phase := .stamping .gitHost pending (.skippedCapacity block) none }
        | none => some { state with phase := .enqueueing .gitHost pending }
  | .retrying attempt =>
      match state.row with
      | none => some { state with phase := .done .targetMissing }
      | some row =>
          if row.outcome.any DeliveryOutcome.supersedable then
            match state.block with
            | none => some { state with phase := .enqueueing .capacityRetry none }
            | some _ =>
                if maxRetryAttempts ≤ attempt then
                  some { state with
                    phase := .stamping .capacityRetry none .capacityRetryExhausted none }
                else some { state with phase := .done .stillBlocked }
          else some { state with phase := .done .alreadyResolved }
  | .enqueueing origin pending =>
      if state.refActive then
        -- The active-scan index refuses the row, and the rollback drops what was not committed.
        some { state with
          phase := .stamping origin none .skippedActiveScan none
          covered := state.covered || state.otherActive }
      else
        some { state with
          row := pending.or state.row
          scans := state.scans ++ [.queued]
          phase := .dispatching origin state.scans.length }
  | .dispatching _ _ => none
  | .stamping _ pending outcome scan =>
      some { state with
        row := (pending.or state.row).map fun row => row.finish outcome scan
        phase := .done (.outcome outcome) }

/-- The broker is asked to take the scan. -/
def dispatch (state : DeliveryState) (result : DispatchResult) : Option DeliveryState :=
  match state.phase with
  | .dispatching origin scan =>
      let stamping := DeliveryPhase.stamping origin none .enqueued (some scan)
      match result with
      | .accepted => some { state with phase := stamping, dispatched := true }
      | .unrecorded =>
          some { state with
            scans := state.scans.set scan .failed, phase := stamping, dispatched := true }
      -- The scan's id is returned all the same.
      | .refused true => some { state with scans := state.scans.set scan .failed, phase := stamping }
      | .refused false => some { state with phase := stamping }
  | _ => none

/-- The next state of the delivery. -/
def step (scannable : Bool) (state : DeliveryState) : DeliveryEvent → Option DeliveryState
  | .deliver =>
      match state.phase with
      | .done _ => some { state with phase := .received }
      | _ => none
  | .retry attempt =>
      match state.phase with
      | .done _ => some { state with phase := .retrying attempt }
      | _ => none
  | .advance => state.advance scannable
  | .dispatch result => state.dispatch result
  | .stampFails =>
      match state.phase with
      -- The label is best effort for the Git host; in the task the exception goes on.
      | .stamping .gitHost _ outcome _ => some { state with phase := .done (.outcome outcome) }
      | .stamping .capacityRetry _ _ _ => some { state with phase := .done .cutOff }
      | _ => none
  | .crash =>
      match state.phase with
      | .done _ => none
      | _ => some { state with phase := .done .cutOff }
  | .capacity block => some { state with block }
  | .otherScan active => some { state with otherActive := active }
  | .scanEnds scan => some { state with scans := state.scans.set scan .ended }

/-- The delivery has not been seen yet. -/
def initial (block : Option CapacityBlock) (otherActive : Bool) : DeliveryState where
  -- Before the first delivery: no row, no scan, and the request is over.
  row := none
  scans := []
  block := block
  otherActive := otherActive
  phase := .done .cutOff
  dispatched := false
  covered := false

end DeliveryState

namespace DeliveryPhase

/-- Whether the attempt has left the stored row without an outcome, or a scan without a task. -/
def claims : DeliveryPhase → Bool
  | .recorded pending => pending.isNone
  | .enqueueing .gitHost pending => pending.isNone
  | .dispatching _ _ => true
  -- An attempt that superseded the row has committed nothing before its outcome.
  | .stamping .gitHost pending outcome scan =>
      pending.isNone && scan.isNone && outcome != .skippedActiveScan
  | _ => false

end DeliveryPhase

/-- Whether an event neither cuts off an attempt that has claimed the delivery nor refuses its scan. -/
def DeliveryEvent.harmless (phase : DeliveryPhase) : DeliveryEvent → Bool
  | .crash => !phase.claims
  | .stampFails => !phase.claims
  | .dispatch (.refused _) => false
  | _ => true

end Trusca
