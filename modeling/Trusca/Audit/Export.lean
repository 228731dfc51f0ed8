import Trusca.Store.Session
import Mathlib.Data.List.Sort
import Mathlib.Data.Prod.Lex

/-! The export of the audit trail: a batch of rows that no open transaction can still write behind, its
delivery, and a position that moves only from where the batch was read. -/

namespace Trusca

open Store

/-- The settings of the export; times and the lag are in the units of the database clock. -/
structure AuditExportSettings where
  lag : Nat
  batchSize : Nat
  lag_pos : 1 ≤ lag
  batchSize_pos : 1 ≤ batchSize

/-- A row of the trail, with the start of the transaction that wrote it. -/
structure AuditRow (ι δ : Type*) where
  createdAt : Nat
  id : ι
  content : δ
  deriving Repr, DecidableEq

/-- The stored position: the pair of the last row that was handed over, if any was. -/
abbrev ExportPosition (ι : Type*) := Option (Nat × ι)

/-- A transaction that is open on the database. -/
structure OpenTransaction where
  pid : Nat
  start : Nat
  /-- Whether its start is hidden from the role of the export. -/
  hidden : Bool
  deriving Repr, DecidableEq

/-- What the database says is open, read just before a batch. -/
structure OpenTransactions where
  readAt : Nat
  starts : List (Nat × Nat)
  hidden : List Nat
  deriving Repr, DecidableEq

/-- The start of the oldest open transaction that can be seen. -/
def OpenTransactions.oldest (openTx : OpenTransactions) : Option Nat :=
  (openTx.starts.map Prod.snd).min?

/-- The rows of one batch, and the position they were read after. -/
structure Batch (ι δ : Type*) where
  rows : List (AuditRow ι δ)
  after : ExportPosition ι
  deriving Repr, DecidableEq

namespace AuditRow

variable {ι δ : Type*}

/-- The pair that the export orders by. -/
def key (row : AuditRow ι δ) : Nat ×ₗ ι := toLex (row.createdAt, row.id)

end AuditRow

/-- The pair of the last row. -/
def Batch.last {ι δ : Type*} (batch : Batch ι δ) : ExportPosition ι :=
  batch.rows.getLast?.map fun row => (row.createdAt, row.id)

/-- The database, and what the collector has accepted. -/
structure AuditTrail (τ ι δ : Type*) where
  now : Nat
  transactions : List OpenTransaction
  /-- The rows of the open transactions, each with the transaction it belongs to. -/
  uncommitted : List (Nat × AuditRow ι δ)
  rows : List (AuditRow ι δ)
  position : ExportPosition ι
  /-- The run that holds the lock of the destination. -/
  lock : Option τ
  delivered : List (List (AuditRow ι δ))
  deriving Repr, DecidableEq

namespace AuditTrail

variable {τ ι δ : Type*}

/-- A trail to which nothing has been written and of which nothing has been exported. -/
def empty (now : Nat) : AuditTrail τ ι δ :=
  { now := now, transactions := [], uncommitted := [], rows := [], position := none, lock := none,
    delivered := [] }

/-- Open a transaction; its rows are stamped with this moment. -/
def beginTransaction (trail : AuditTrail τ ι δ) (pid : Nat) (hidden : Bool) :
    Option (AuditTrail τ ι δ) :=
  if pid ∈ trail.transactions.map OpenTransaction.pid then none
  else some { trail with
    transactions := trail.transactions ++ [{ pid := pid, start := trail.now, hidden := hidden }] }

/-- Write a row in an open transaction. The id is a primary key. -/
def write [DecidableEq ι] (trail : AuditTrail τ ι δ) (pid : Nat) (id : ι) (content : δ) :
    Option (AuditTrail τ ι δ) :=
  if id ∈ (trail.rows ++ trail.uncommitted.map Prod.snd).map AuditRow.id then none
  else (trail.transactions.find? fun session => session.pid == pid).map fun session =>
    { trail with uncommitted :=
        trail.uncommitted ++ [(pid, { createdAt := session.start, id := id, content := content })] }

/-- End a transaction, with its rows or without them. -/
def endTransaction (trail : AuditTrail τ ι δ) (pid : Nat) (committed : Bool) : AuditTrail τ ι δ :=
  { trail with
    transactions := trail.transactions.filter fun session => session.pid != pid
    -- The transaction's rows leave the uncommitted ones either way, and are appended on a commit.
    uncommitted := trail.uncommitted.filter fun written => written.1 != pid
    rows := if committed then
        trail.rows ++ (trail.uncommitted.filter fun written => written.1 == pid).map Prod.snd
      else trail.rows }

/-- The transactions that are open, after the clock was read. -/
def readOpenTransactions (trail : AuditTrail τ ι δ) (readAt : Nat) : OpenTransactions where
  readAt := readAt
  starts := (trail.transactions.filter fun session => !session.hidden).map
    fun session => (session.pid, session.start)
  hidden := (trail.transactions.filter OpenTransaction.hidden).map OpenTransaction.pid

/-- Give the lock back, if it is still held. -/
def release [DecidableEq τ] (trail : AuditTrail τ ι δ) (tx : τ) : AuditTrail τ ι δ :=
  if trail.lock = some tx then { trail with lock := none } else trail

/-- Move the position, if it is still where the batch was read from. -/
def advanceCursor [DecidableEq ι] (trail : AuditTrail τ ι δ) (batch : Batch ι δ) :
    AuditTrail τ ι δ × Bool :=
  if trail.position = batch.after then ({ trail with position := batch.last }, true)
  else (trail, false)

end AuditTrail

/-- Strictly after the pair of the position, or everything for a fresh one. -/
def afterCursor {ι δ : Type*} [LinearOrder ι] (cursor : ExportPosition ι) (row : AuditRow ι δ) :
    Bool :=
  -- No cursor yet: everything is after it.
  match cursor with
  | none => true
  | some (lastCreatedAt, lastId) =>
      -- Later, or in the same instant with a greater id.
      decide (lastCreatedAt < row.createdAt) ||
        decide (row.createdAt = lastCreatedAt) && decide (lastId < row.id)

/-- Whether a row is old enough, and older than every open transaction. -/
def AuditExportSettings.admits {ι δ : Type*} (settings : AuditExportSettings)
    (openTx : OpenTransactions) (row : AuditRow ι δ) : Bool :=
  decide (row.createdAt + settings.lag ≤ openTx.readAt) &&
    -- Strictly before: a row of that instant may belong to the open transaction itself.
    openTx.oldest.all fun oldest => decide (row.createdAt < oldest)

/-- The first rows after the cursor that no open transaction can still write behind. -/
def collectBatch {τ ι δ : Type*} [LinearOrder ι] (settings : AuditExportSettings)
    (trail : AuditTrail τ ι δ) (cursor : ExportPosition ι) (openTx : OpenTransactions) :
    Batch ι δ where
  -- Nothing is read while a transaction is open whose start cannot be seen.
  rows := if openTx.hidden = [] then
      ((trail.rows.filter fun row => afterCursor cursor row && settings.admits openTx row).insertionSort
        fun first second => first.key ≤ second.key).take settings.batchSize
    else []
  after := cursor

/-- How far a run of the export has come. -/
inductive ExportPhase (ι δ : Type*) where
  | idle
  | locked
  | ready (cursor : ExportPosition ι)
  /-- The clock is read. -/
  | clocked (cursor : ExportPosition ι) (readAt : Nat)
  /-- The open transactions are read. -/
  | observed (cursor : ExportPosition ι) (openTx : OpenTransactions)
  | collected (batch : Batch ι δ)
  /-- The collector has accepted the batch. -/
  | delivered (batch : Batch ι δ)
  | moved
  deriving Repr, DecidableEq

/-- What happens on the database, or to a run. -/
inductive ExportEvent (ι δ : Type*) where
  | wait (elapsed : Nat)
  | beginTransaction (pid : Nat) (hidden : Bool)
  | write (pid : Nat) (id : ι) (content : δ)
  | endTransaction (pid : Nat) (committed : Bool)
  | advance
  /-- The collector cannot be reached, or refuses the batch. -/
  | refuse
  /-- The collector takes the batch, but its answer is lost or comes too late. -/
  | loseAnswer
  /-- The time of the run is spent. -/
  | stop
  | crash
  /-- The connection that holds the lock breaks, and the run goes on. -/
  | disconnect
  deriving Repr, DecidableEq

/-- Whether an event cuts no run off between a delivery and the move of the position, by a crash or by
an answer that is lost, and takes no run's lock. -/
def ExportEvent.uninterrupted {ι δ : Type*} : ExportEvent ι δ → ExportPhase ι δ → Bool
  | .crash, .delivered _ => false
  | .loseAnswer, _ => false
  | .disconnect, _ => false
  | _, _ => true

namespace ExportPhase

variable {τ ι δ : Type*} [DecidableEq τ] [LinearOrder ι]

/-- The next step of a run. -/
def advance (settings : AuditExportSettings) (tx : τ) (trail : AuditTrail τ ι δ) :
    ExportPhase ι δ → AuditTrail τ ι δ × ExportPhase ι δ
  | .idle =>
      match trail.lock with
      | none => ({ trail with lock := some tx }, .locked)
      -- Another run works the destination.
      | some _ => (trail, .idle)
  | .locked => (trail, .ready trail.position)
  | .ready cursor => (trail, .clocked cursor trail.now)
  | .clocked cursor readAt => (trail, .observed cursor (trail.readOpenTransactions readAt))
  | .observed cursor openTx => (trail, .collected (collectBatch settings trail cursor openTx))
  | .collected batch =>
      if batch.rows.isEmpty then (trail.release tx, .idle)
      else ({ trail with delivered := trail.delivered ++ [batch.rows] }, .delivered batch)
  | .delivered batch =>
      let (trail, accepted) := trail.advanceCursor batch
      -- A run whose position was moved underneath stops there.
      if accepted then (trail, .moved) else (trail.release tx, .idle)
  -- The cursor is loaded anew.
  | .moved => (trail, .ready trail.position)

/-- One event of the database or of one run. -/
def act (settings : AuditExportSettings) (tx : τ) : ExportEvent ι δ → AuditTrail τ ι δ →
    ExportPhase ι δ → Option (AuditTrail τ ι δ × ExportPhase ι δ)
  | .wait elapsed, trail, phase => some ({ trail with now := trail.now + elapsed }, phase)
  | .beginTransaction pid hidden, trail, phase =>
      (trail.beginTransaction pid hidden).map fun trail => (trail, phase)
  | .write pid id content, trail, phase =>
      (trail.write pid id content).map fun trail => (trail, phase)
  | .endTransaction pid committed, trail, phase => some (trail.endTransaction pid committed, phase)
  | .advance, trail, phase => some (phase.advance settings tx trail)
  | .refuse, trail, .collected batch =>
      if batch.rows.isEmpty then none else some (trail.release tx, .idle)
  -- The run fails as after a refusal, and the position stays where it is.
  | .loseAnswer, trail, .collected batch =>
      if batch.rows.isEmpty then none
      else some (({ trail with delivered := trail.delivered ++ [batch.rows] }).release tx, .idle)
  | .stop, trail, .moved => some (trail.release tx, .idle)
  | .refuse, _, _ => none
  | .loseAnswer, _, _ => none
  | .stop, _, _ => none
  | .crash, _, .idle => none
  | .crash, trail, _ => some (trail.release tx, .idle)
  | .disconnect, _, .idle => none
  | .disconnect, trail, phase => some (trail.release tx, phase)

end ExportPhase

/-- The database and every run of the export. -/
abbrev ExportSystem (τ ι δ : Type*) := Sessions (AuditTrail τ ι δ) τ (ExportPhase ι δ)

namespace ExportSystem

variable {τ ι δ : Type*}

/-- Before the first run, at some moment of the database clock. -/
def initial (now : Nat) : ExportSystem τ ι δ where
  store := .empty now
  phase := fun _ => .idle

end ExportSystem

/-- The next state of the database and the runs. -/
def exportStep {τ ι δ : Type*} [DecidableEq τ] [LinearOrder ι] (settings : AuditExportSettings)
    (system : ExportSystem τ ι δ) (event : τ × ExportEvent ι δ) : Option (ExportSystem τ ι δ) :=
  Sessions.step (ExportPhase.act settings) system event

end Trusca
