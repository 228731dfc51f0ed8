import Trusca.Authz.Access
import Trusca.Store.Row
import Trusca.Store.Session

/-! The scan row and its five writers: trigger, worker start, worker end, reaper, and cancel. -/

namespace Trusca

/-- The status of a scan. -/
inductive ScanStatus where
  | queued
  | running
  | succeeded
  | failed
  | cancelled
  deriving Repr, DecidableEq

/-- The three pipelines a scan can run through. -/
inductive ScanKind where
  | source
  | container
  | sbom
  deriving Repr, DecidableEq

namespace ScanStatus

/-- The statuses in which a scan has ended. -/
def terminal : ScanStatus → Bool
  | .succeeded | .failed | .cancelled => true
  | .queued | .running => false

/-- The statuses a failure may be recorded over. -/
def failable : ScanStatus → Bool
  | .queued | .running => true
  | _ => false

end ScanStatus

/-- One row of the scans table, less the columns none of the writers decides on. -/
structure Scan where
  kind : ScanKind
  status : ScanStatus
  celeryTaskId : Option String
  progressPercent : Int
  currentStep : Option String
  startedAt : Option Time
  completedAt : Option Time
  errorMessage : Option String
  createdAt : Time
  updatedAt : Time
  deriving Repr, DecidableEq

namespace Scan

/-- The UPDATE of a flush: only the columns assigned another value than the loaded one. -/
def flush (loaded assigned current : Scan) : Scan where
  -- Column by column, as the session tracks what it has assigned.
  kind := Store.flushColumn loaded.kind assigned.kind current.kind
  status := Store.flushColumn loaded.status assigned.status current.status
  celeryTaskId := Store.flushColumn loaded.celeryTaskId assigned.celeryTaskId current.celeryTaskId
  progressPercent :=
    Store.flushColumn loaded.progressPercent assigned.progressPercent current.progressPercent
  currentStep := Store.flushColumn loaded.currentStep assigned.currentStep current.currentStep
  startedAt := Store.flushColumn loaded.startedAt assigned.startedAt current.startedAt
  completedAt := Store.flushColumn loaded.completedAt assigned.completedAt current.completedAt
  errorMessage := Store.flushColumn loaded.errorMessage assigned.errorMessage current.errorMessage
  createdAt := Store.flushColumn loaded.createdAt assigned.createdAt current.createdAt
  updatedAt := Store.flushColumn loaded.updatedAt assigned.updatedAt current.updatedAt

/-- The row a trigger inserts. -/
def queued (kind : ScanKind) (now : Time) : Scan where
  kind := kind
  -- Nothing has run yet, so every time but the creation is empty.
  status := .queued
  celeryTaskId := none
  progressPercent := 0
  currentStep := none
  startedAt := none
  completedAt := none
  errorMessage := none
  createdAt := now
  updatedAt := now

/-- What the worker assigns when it starts a scan. -/
def markRunning (now : Time) (scan : Scan) : Scan :=
  { scan with
    status := .running, startedAt := some now, errorMessage := none
    currentStep := some "bootstrap", progressPercent := 0 }

/-- What the conditional UPDATE of a failure sets. -/
def markFailed (message : String) (now : Time) (scan : Scan) : Scan :=
  { scan with status := .failed, errorMessage := some message, completedAt := some now }

/-- What the conditional UPDATE of a success sets. -/
def claimSuccess (now : Time) (scan : Scan) : Scan :=
  { scan with
    status := .succeeded, progressPercent := 100, currentStep := some "finalize"
    completedAt := some now }

/-- What a cancel assigns to the row it has locked. -/
def cancel (reason : String) (now : Time) (scan : Scan) : Scan :=
  { scan with
    status := .cancelled, completedAt := some now, errorMessage := some reason, updatedAt := now }

end Scan

/-- A request that triggers a scan, or the platform triggering one by itself. -/
structure TriggerCall where
  kind : ScanKind
  now : Time
  /-- The task id the broker hands out when the enqueue succeeds. -/
  taskId : String
  /-- Whether this is the platform's own trigger, whose handler also covers the write-back. -/
  system : Bool
  deriving Repr, DecidableEq

/-- The text an enqueue failure leaves on the row. -/
def TriggerCall.enqueueFailed (call : TriggerCall) (message : String) : String :=
  (if call.system then "system_enqueue_failed: " else "enqueue_failed: ") ++ message

/-- One delivery of a scan task to a worker. -/
structure WorkerCall where
  kind : ScanKind
  /-- Why the worker refuses the scan before it starts it: the project is gone, or the image
  reference is missing or not allowed. -/
  refusal : Option String
  startedAt : Time
  endedAt : Time
  deriving Repr, DecidableEq

/-- Which scans a worker of each kind starts. -/
def restartable : ScanKind → ScanStatus → Bool
  | .source, status => status == .queued || status == .running
  | .container, status => status == .queued || status == .running
  -- The SBOM ingest only refuses a scan that already succeeded.
  | .sbom, status => status != .succeeded

/-- One pass of the stale-scan reaper over one row. -/
inductive ReaperCall where
  | running (cutoff now : Time)
  | queued (known : Option (List String)) (cutoff now : Time)
  deriving Repr, DecidableEq

namespace ReaperCall

/-- Whether the pass selects the row. -/
def selects : ReaperCall → Scan → Bool
  | .running cutoff _, scan =>
      scan.status == .running &&
        max (scan.startedAt.getD scan.createdAt) scan.updatedAt < cutoff
  -- An unreadable broker inventory reaps nothing.
  | .queued none _ _, _ => false
  | .queued (some known) cutoff _, scan =>
      scan.status == .queued && scan.createdAt < cutoff &&
        match scan.celeryTaskId with
        -- A row without a task id is only lost when the broker holds nothing at all.
        | some task => if task = "" then known.isEmpty else !known.contains task
        | none => known.isEmpty

/-- The time the pass stamps. -/
def now : ReaperCall → Time
  | .running _ now => now
  | .queued _ _ now => now

/-- The message the pass leaves on the row. -/
def message : ReaperCall → String
  -- The texts that the row keeps, one for each way a scan is lost.
  | .running .. =>
      "the worker running this scan stopped without reporting a result (killed, crashed, or " ++
        "restarted); no result was recorded, so the scan is marked failed and can be retried"
  | .queued .. =>
      "this scan was queued but the broker no longer holds a message for it (the queue was " ++
        "restarted or the message was lost), so no worker will ever pick it up; it is marked " ++
        "failed and can be retried"

end ReaperCall

/-- A request to cancel a scan. -/
structure CancelCall where
  actor : CurrentUser
  directory : Directory
  /-- The admin route has no team gate of its own. -/
  admin : Bool
  /-- The team that owns the scan's project, when the project still exists. -/
  team : Option GroupId
  reason : String
  now : Time

/-- Whether the actor may cancel the scan. -/
def CancelCall.permitted (call : CancelCall) : Bool :=
  call.admin ||
    match call.team with
    -- Without a project there is no team to belong to.
    | none => superAdminReaches call.directory call.actor none
    | some team => canAccessGroup call.directory call.actor team

/-- How far a writer has come. -/
inductive ScanPhase where
  | trigger (call : TriggerCall)
  | triggerInserted (call : TriggerCall)
  | triggerCommitted (call : TriggerCall)
  | triggerLoaded (call : TriggerCall) (loaded : Scan)
  | triggerStamped (call : TriggerCall)
  | triggerStored (call : TriggerCall)
  | triggerFailed
  | worker (call : WorkerCall)
  | workerLoaded (call : WorkerCall) (loaded : Scan)
  | workerMarked (call : WorkerCall)
  | pipeline (call : WorkerCall)
  | claimed (call : WorkerCall)
  /-- A failure about to be recorded; `guarded` while the pipeline's handler still covers it. -/
  | failing (guarded : Bool) (message : String) (now : Time)
  | failSent (guarded : Bool) (now : Time)
  | reaper (call : ReaperCall)
  | cancel (call : CancelCall)
  | cancelLocked (call : CancelCall) (loaded : Scan)
  | cancelSent
  | done

/-- A writer takes its next step, meets an exception its code handles, or dies. -/
inductive ScanEvent where
  | advance
  | fail (message : String)
  | abort
  deriving Repr, DecidableEq

namespace ScanPhase

variable {τ : Type*} [DecidableEq τ]

/-- An UPDATE by primary key and the phase it leads to; a vanished row is an error. -/
def update (tx : τ) (row : Store.Row τ Scan) (edit : Scan → Scan) (next : ScanPhase) :
    Option (Store.Row τ Scan × ScanPhase) :=
  (row.change tx (fun _ => true) fun current => some (edit current)).map fun sent =>
    if sent.2 then (sent.1, next) else (sent.1.rollback tx, .done)

/-- The next statement of a writer; absent while the statement waits for a lock. -/
def advance (tx : τ) (row : Store.Row τ Scan) :
    ScanPhase → Option (Store.Row τ Scan × ScanPhase)
  | .trigger call =>
      (row.insert tx (.queued call.kind call.now)).map fun inserted =>
        (inserted, .triggerInserted call)
  -- The row is committed before the enqueue, so that the worker can find it.
  | .triggerInserted call => some (row.commit tx, .triggerCommitted call)
  | .triggerCommitted call =>
      match row.view tx with
      | none => some (row.rollback tx, .done)
      | some loaded => some (row, .triggerLoaded call loaded)
  -- The enqueue returned: the task id is written back.
  | .triggerLoaded call loaded =>
      update tx row (loaded.flush { loaded with celeryTaskId := some call.taskId })
        (.triggerStamped call)
  | .triggerStamped call => some (row.commit tx, .triggerStored call)
  | .triggerStored _ => some (row, .done)
  | .triggerFailed => some (row.commit tx, .done)
  -- A duplicate delivery of a task stops at the status it reads.
  | .worker call =>
      match row.view tx with
      | none => some (row, .done)
      | some loaded =>
          if restartable call.kind loaded.status then some (row, .workerLoaded call loaded)
          else some (row, .done)
  | .workerLoaded call loaded =>
      match call.refusal with
      | some message => some (row, .failing true message call.startedAt)
      -- The start assigns to the loaded row, without comparing it with the stored one.
      | none => update tx row (loaded.flush (loaded.markRunning call.startedAt)) (.workerMarked call)
  | .workerMarked call => some (row.commit tx, .pipeline call)
  -- The success is claimed by an UPDATE of the running row; a lost claim writes nothing.
  | .pipeline call =>
      (row.change tx (fun scan => scan.status == .running) fun scan =>
        some (scan.claimSuccess call.endedAt)).map fun sent =>
          if sent.2 then (sent.1, .claimed call) else (sent.1.rollback tx, .done)
  | .claimed _ => some (row.commit tx, .done)
  -- A failure is recorded by an UPDATE of a row that has not ended.
  | .failing guarded message now =>
      (row.change tx (fun scan => scan.status.failable) fun scan =>
        some (scan.markFailed message now)).map fun sent => (sent.1, .failSent guarded now)
  | .failSent _ _ => some (row.commit tx, .done)
  -- The reaper selects from what it reads and fails the row in a statement of its own.
  | .reaper call =>
      match row.view tx with
      | none => some (row, .done)
      | some scan =>
          if call.selects scan then some (row, .failing false call.message call.now)
          else some (row, .done)
  -- SELECT ... FOR UPDATE, then the checks on the locked row.
  | .cancel call =>
      match row.view tx with
      | none => some (row.rollback tx, .done)
      | some loaded => (row.lock tx).map fun locked => (locked, .cancelLocked call loaded)
  | .cancelLocked call loaded =>
      if call.permitted && !loaded.status.terminal then
        update tx row (loaded.flush (loaded.cancel call.reason call.now)) .cancelSent
      else some (row.rollback tx, .done)
  | .cancelSent => some (row.commit tx, .done)
  | .done => none

/-- What a writer does about an exception. -/
def fail (tx : τ) (row : Store.Row τ Scan) (message : String) :
    ScanPhase → Option (Store.Row τ Scan × ScanPhase)
  -- The enqueue raised: the loaded row is flipped to failed.
  | .triggerLoaded call loaded =>
      update tx row (loaded.flush
        { loaded with status := .failed, errorMessage := some (call.enqueueFailed message) })
        .triggerFailed
  -- The platform's own trigger handles a failed refresh in the same way. The refresh has expired
  -- the loaded values, so every assigned column is written.
  | .triggerStored call =>
      if call.system then
        update tx row (fun current =>
          { current with status := .failed, errorMessage := some (call.enqueueFailed message) })
          .triggerFailed
      else some (row, .done)
  -- A worker records any exception of its pipeline as a failure, in a fresh session.
  | .worker call => some (row.rollback tx, .failing false message call.endedAt)
  | .workerLoaded call _ => some (row.rollback tx, .failing false message call.endedAt)
  | .workerMarked call => some (row.rollback tx, .failing false message call.endedAt)
  | .pipeline call => some (row.rollback tx, .failing false message call.endedAt)
  | .claimed call => some (row.rollback tx, .failing false message call.endedAt)
  | .failing true _ now => some (row.rollback tx, .failing false message now)
  | .failSent true now => some (row.rollback tx, .failing false message now)
  | .done => none
  | _ => some (row.rollback tx, .done)

/-- One event of one writer. -/
def act (tx : τ) : ScanEvent → Store.Row τ Scan → ScanPhase →
    Option (Store.Row τ Scan × ScanPhase)
  | .advance, row, phase => advance tx row phase
  | .fail message, row, phase => fail tx row message phase
  | .abort, _, .done => none
  | .abort, row, _ => some (row.rollback tx, .done)

/-- A writer that has not started. -/
def initial : ScanPhase → Bool
  | .trigger _ | .worker _ | .reaper _ | .cancel _ => true
  | _ => false

end ScanPhase

/-- One scan row and every writer on it. -/
abbrev ScanSystem (τ : Type*) := Store.Sessions (Store.Row τ Scan) τ ScanPhase

/-- The next state of the row and its writers. -/
def scanStep {τ : Type*} [DecidableEq τ] (system : ScanSystem τ) (event : τ × ScanEvent) :
    Option (ScanSystem τ) :=
  Store.Sessions.step ScanPhase.act system event

end Trusca
