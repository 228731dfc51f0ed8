import Trusca.Data.Json
import Trusca.Data.Text
import Trusca.Scan.Resolution
import Trusca.Store.Rows

/-! Scan retention: the two retirement rules of a finalised scan, and the two sweeps that delete. -/

namespace Trusca

/-- A normalised branch or tag, never blank. -/
structure ScanRef where
  text : String
  nonempty : text ≠ ""
  deriving DecidableEq

/-- What retention reads of a scan. -/
structure RetainedScan where
  projectId : ProjectId
  /-- Absent for an ad-hoc scan. -/
  ref : Option ScanRef
  kind : ScanKind
  status : ScanStatus
  /-- The `release` entry of the metadata, when there is one. -/
  release : Option Json
  supersededAt : Option Time
  supersededByScanId : Option ScanId
  createdAt : Time
  deriving DecidableEq

namespace RetainedScan

/-- Whether the scan is mid-flight. -/
def active (scan : RetainedScan) : Bool := scan.status == .queued || scan.status == .running

/-- The database's test for a scan without a release label; it trims blanks only. -/
def releaseAbsent (scan : RetainedScan) : Bool :=
  match scan.release with
  | some (.str label) => btrim label == ""
  | _ => true

/-- The service's test for a release label. -/
def hasReleaseLabel (scan : RetainedScan) : Bool :=
  match scan.release with
  | some (.str label) => strip label != ""
  | _ => false

/-- A succeeded scan that nothing has superseded. -/
def live (scan : RetainedScan) : Bool :=
  scan.status == .succeeded && scan.supersededAt.isNone

/-- The row a trigger inserts. -/
def queued (scan : RetainedScan) : RetainedScan :=
  { scan with status := .queued, supersededAt := none, supersededByScanId := none }

/-- The scan as the winner leaves it. -/
def supersede (winner : ScanId) (now : Time) (scan : RetainedScan) : RetainedScan :=
  { scan with supersededAt := some now, supersededByScanId := some winner }

/-- The scans that a finalised scan of the branch retires. -/
def retiredByRef (project : ProjectId) (ref : ScanRef) (scan : RetainedScan) : Bool :=
  scan.projectId == project && scan.ref == some ref && scan.status == .succeeded &&
    scan.supersededAt.isNone && scan.releaseAbsent

/-- The label a finalised scan claims, without white space around it. -/
def claimedLabel (scan : RetainedScan) : Option String :=
  match scan.release with
  | some (.str label) => if strip label == "" then none else some (strip label)
  | _ => none

/-- The scans that a finalised scan with the label retires, on whatever branch they are. -/
def retiredByLabel (project : ProjectId) (label : String) (scan : RetainedScan) : Bool :=
  scan.projectId == project && scan.status == .succeeded && scan.supersededAt.isNone &&
    match scan.release with
    | some (.str found) => btrim found == label
    | _ => false

/-- The superseded scans whose grace period is over. -/
def graceOver (cutoff : Time) (scan : RetainedScan) : Bool :=
  (scan.supersededAt.any fun superseded => superseded < cutoff) && scan.releaseAbsent

/-- The scans that the retirement rules do not manage. -/
def agedCandidate (scan : RetainedScan) : Bool :=
  !scan.active && scan.supersededAt.isNone && scan.releaseAbsent &&
    (scan.status != .succeeded || scan.ref.isNone)

/-- The condition that the deletion of an aged scan repeats, the latest pointer apart. -/
def agedDeletable (project : ProjectId) (cutoff : Time) (scan : RetainedScan) : Bool :=
  scan.projectId == project && scan.createdAt < cutoff && scan.supersededAt.isNone &&
    scan.releaseAbsent && !scan.active

end RetainedScan

/-- The limits of one run of the task. -/
structure RetentionPolicy where
  supersededGrace : Time
  keepLast : Nat
  maxAge : Time
  deriving Repr, DecidableEq

/-- The scans, and the scan each project was last asked for. -/
structure RetentionStore (τ : Type*) where
  scans : Store.Rows ScanId τ RetainedScan
  latestScanId : ProjectId → Option ScanId

/-- How far a finalisation, a run of the task, or another writer of a scan has come. -/
inductive RetentionPhase where
  | finalise (id : ScanId) (now : Time)
  /-- The scan is claimed; the row is what the session has refreshed. -/
  | claimed (id : ScanId) (now : Time) (row : RetainedScan)
  | refRead (id : ScanId) (now : Time) (row : RetainedScan) (ids : List ScanId)
  | refDone (id : ScanId) (now : Time) (row : RetainedScan)
  | labelRead (id : ScanId) (now : Time) (row : RetainedScan) (ids : List ScanId)
  | retired (id : ScanId) (row : RetainedScan)
  | sweep (policy : RetentionPolicy) (now : Time)
  | supersededRead (policy : RetentionPolicy) (now : Time) (ids : List ScanId)
  | aged (policy : RetentionPolicy) (now : Time)
  | agedProjects (policy : RetentionPolicy) (now : Time) (projects : List ProjectId)
  | agedRead (policy : RetentionPolicy) (now : Time) (project : ProjectId) (stale : List ScanId)
      (projects : List ProjectId)
  | trigger (id : ScanId) (scan : RetainedScan)
  | start (id : ScanId)
  /-- The worker has read the scan and goes on to flush what it assigned. -/
  | starting (id : ScanId) (loaded : ScanStatus)
  | finish (id : ScanId) (outcome : ScanStatus)
  | delete (id : ScanId) (force admin : Bool)
  | deleting (id : ScanId)
  | done

/-- A session takes its next step, or is cut off. -/
inductive RetentionEvent where
  | advance
  | abort
  deriving Repr, DecidableEq

namespace RetentionStore

variable {τ : Type*} [DecidableEq τ]

/-- Commit, and clear the latest pointers to the scans that are gone. -/
def commit (store : RetentionStore τ) (tx : τ) : RetentionStore τ :=
  let scans := store.scans.commit tx
  { scans := scans
    latestScanId := fun project =>
      (store.latestScanId project).filter fun id => (scans.committed id).isSome }

/-- Whether a project has a scan in flight on the branch, the given scan apart. -/
def activeElsewhere (store : RetentionStore τ) (id : ScanId) (scan : RetainedScan) : Bool :=
  store.scans.keys.any fun other =>
    other != id && (store.scans.committed other).any fun found =>
      found.projectId == scan.projectId && found.ref == scan.ref && found.active

/-- The statement, with the rows it would write set and committed. -/
def execute (store : RetentionStore τ) (tx : τ) (ids : List ScanId)
    (accepts : RetainedScan → Bool) (edit : RetainedScan → Option RetainedScan) :
    Option (RetentionStore τ) :=
  (store.scans.changeAll tx accepts edit ids).map fun scans =>
    commit { store with scans := scans } tx

/-- Insert a scan and point its project at it. -/
def trigger (store : RetentionStore τ) (tx : τ) (id : ScanId) (scan : RetainedScan) :
    Option (RetentionStore τ) :=
  -- The unique index refuses a second scan in flight on the branch.
  if store.activeElsewhere id scan.queued then some store
  else
    (store.scans.insert tx id scan.queued).map fun scans =>
      let store := commit { store with scans := scans } tx
      { store with latestScanId := Function.update store.latestScanId scan.projectId (some id) }

/-- Flush the status a worker assigned to the scan it has read. -/
def markRunning (store : RetentionStore τ) (tx : τ) (id : ScanId) (loaded : ScanStatus) :
    Option (RetentionStore τ) :=
  let flush (scan : RetainedScan) : RetainedScan :=
    { scan with status := Store.flushColumn loaded .running scan.status }
  match store.scans.committed id with
  -- The flush fails when the scan is gone, and when the unique index refuses it.
  | none => some store
  | some scan =>
      if (flush scan).active && store.activeElsewhere id scan then some store
      else store.execute tx [id] (fun _ => true) fun found => some (flush found)

end RetentionStore

namespace RetentionPhase

variable {τ : Type*} [DecidableEq τ]

/-- The scans of the list that are older than the cutoff, past the newest ones that are kept. -/
def staleIds (scans : Store.Rows ScanId τ RetainedScan) (tx : τ) (policy : RetentionPolicy)
    (now : Time) (project : ProjectId) : List ScanId :=
  let rows := (scans.select tx fun scan => scan.projectId == project && scan.agedCandidate).map
    fun id => (id, ((scans.view tx id).map RetainedScan.createdAt).getD 0)
  -- The newest first; scans of one time by their ids.
  let newest := rows.mergeSort fun first second =>
    decide (second.2 < first.2 ∨ second.2 = first.2 ∧ second.1 ≤ first.1)
  ((newest.drop policy.keepLast).filter fun row => row.2 < now - policy.maxAge).map Prod.fst

/-- The projects with a scan that the retirement rules do not manage. -/
def agedProjectIds (scans : Store.Rows ScanId τ RetainedScan) (tx : τ) : List ProjectId :=
  ((scans.select tx RetainedScan.agedCandidate).filterMap fun id =>
    (scans.view tx id).map RetainedScan.projectId).dedup

/-- The next statement of a session; absent while the statement waits for a lock. -/
def advance (tx : τ) (store : RetentionStore τ) :
    RetentionPhase → Option (RetentionStore τ × RetentionPhase)
  -- A conditional UPDATE: a scan that is no longer running is left alone.
  | .finalise id now =>
      (store.scans.change tx id (fun scan => scan.status == .running)
        fun scan => some { scan with status := .succeeded }).map fun (scans, matched) =>
          match matched, scans.view tx id with
          | true, some row => ({ store with scans := scans }, .claimed id now row)
          | _, _ => ({ store with scans := scans.rollback tx }, .done)
  | .claimed id now row =>
      match row.ref with
      | none => some (store, .refDone id now row)
      | some ref =>
          let ids := store.scans.select tx (RetainedScan.retiredByRef row.projectId ref)
          some (store, .refRead id now row (ids.filter fun other => other != id))
  | .refRead id now row ids =>
      match row.ref with
      | none => none
      | some ref =>
          (store.scans.changeAll tx (RetainedScan.retiredByRef row.projectId ref)
            (fun scan => some (scan.supersede id now)) ids).map fun scans =>
              ({ store with scans := scans }, .refDone id now row)
  | .refDone id now row =>
      match row.claimedLabel with
      | none => some (store, .retired id row)
      | some label =>
          let ids := store.scans.select tx (RetainedScan.retiredByLabel row.projectId label)
          some (store, .labelRead id now row (ids.filter fun other => other != id))
  | .labelRead id now row ids =>
      match row.claimedLabel with
      | none => none
      | some label =>
          (store.scans.changeAll tx (RetainedScan.retiredByLabel row.projectId label)
            (fun scan => some (scan.supersede id now)) ids).map fun scans =>
              ({ store with scans := scans }, .retired id row)
  | .retired _ _ => some (store.commit tx, .done)
  -- The first sweep collects its scans, and deletes them in a later statement.
  | .sweep policy now =>
      let ids := store.scans.select tx (RetainedScan.graceOver (now - policy.supersededGrace))
      if ids.isEmpty then some (store, .aged policy now)
      else some (store, .supersededRead policy now ids)
  | .supersededRead policy now ids =>
      (store.execute tx ids (fun _ => true) fun _ => none).map fun store =>
        (store, .aged policy now)
  | .aged policy now => some (store, .agedProjects policy now (agedProjectIds store.scans tx))
  | .agedProjects _ _ [] => some (store, .done)
  | .agedProjects policy now (project :: rest) =>
      let stale := staleIds store.scans tx policy now project
      if stale.isEmpty then some (store, .agedProjects policy now rest)
      else some (store, .agedRead policy now project stale rest)
  | .agedRead policy now project stale rest =>
      -- The latest scan of the project is read in the statement itself.
      let ids := stale.filter fun id => store.latestScanId project != some id
      (store.execute tx ids (RetainedScan.agedDeletable project (now - policy.maxAge))
        fun _ => none).map fun store => (store, .agedProjects policy now rest)
  | .trigger id scan => (store.trigger tx id scan).map fun store => (store, .done)
  | .start id =>
      match store.scans.view tx id with
      | none => some (store, .done)
      | some scan =>
          if restartable scan.kind scan.status then some (store, .starting id scan.status)
          else some (store, .done)
  | .starting id loaded => (store.markRunning tx id loaded).map fun store => (store, .done)
  -- A failure and a cancellation are recorded over a scan in flight only.
  | .finish id outcome =>
      (store.execute tx [id]
        (fun found => found.active && outcome.terminal && outcome != .succeeded)
        fun found => some { found with status := outcome }).map fun store => (store, .done)
  -- A label makes a scan immutable unless an administrator forces the deletion.
  | .delete id force admin =>
      match store.scans.view tx id with
      | none => some (store, .done)
      | some scan =>
          if !scan.active && (!scan.hasReleaseLabel || (force && admin)) then
            some (store, .deleting id)
          else some (store, .done)
  | .deleting id =>
      (store.execute tx [id] (fun _ => true) fun _ => none).map fun store => (store, .done)
  | .done => none

/-- One event of one session. -/
def act (tx : τ) : RetentionEvent → RetentionStore τ → RetentionPhase →
    Option (RetentionStore τ × RetentionPhase)
  | .advance, store, phase => advance tx store phase
  | .abort, _, .done => none
  | .abort, store, _ => some ({ store with scans := store.scans.rollback tx }, .done)

end RetentionPhase

/-- The scans and every session on them. -/
abbrev RetentionSystem (τ : Type*) := Store.Sessions (RetentionStore τ) τ RetentionPhase

/-- The next state of the scans and the sessions. -/
def retentionStep {τ : Type*} [DecidableEq τ] (system : RetentionSystem τ)
    (event : τ × RetentionEvent) : Option (RetentionSystem τ) :=
  Store.Sessions.step RetentionPhase.act system event

end Trusca
