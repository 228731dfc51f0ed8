import Trusca.Audit.Export
import Trusca.Store.Page
import Mathlib.Order.WithBot

/-! The export of the audit trail skips no committed row, never moves its position back, and delivers
no row twice unless a run ends between a delivery and the move of the position. -/

namespace Trusca

open Store

variable {τ ι δ : Type*} [LinearOrder ι]

/-- A position as a bound on the pairs of rows; a fresh one is below all of them. -/
def ExportPosition.key (position : ExportPosition ι) : WithBot (Nat ×ₗ ι) :=
  match position with
  | none => ⊥
  | some pair => ((toLex pair : Nat ×ₗ ι) : WithBot (Nat ×ₗ ι))

/-- A row is after a position exactly when its pair is. -/
theorem afterCursor_iff {position : ExportPosition ι} {row : AuditRow ι δ} :
    afterCursor position row = true ↔ position.key < (row.key : WithBot (Nat ×ₗ ι)) := by
  rcases position with _ | ⟨createdAt, id⟩
  · simp [afterCursor, ExportPosition.key]
  · simp [afterCursor, ExportPosition.key, AuditRow.key, Prod.Lex.toLex_lt_toLex,
      @eq_comm _ createdAt row.createdAt]

/-- A row is not after the cursor when its key is at most the position's. -/
theorem afterCursor_eq_false {position : ExportPosition ι} {row : AuditRow ι δ} :
    afterCursor position row = false ↔ (row.key : WithBot (Nat ×ₗ ι)) ≤ position.key := by
  rw [← Bool.not_eq_true, afterCursor_iff, not_lt]

omit [LinearOrder ι] in
/-- A batch ends at its last row. -/
theorem Batch.key_last {batch : Batch ι δ} {row : AuditRow ι δ}
    (ends : batch.rows.getLast? = some row) :
    batch.last.key = (row.key : WithBot (Nat ×ₗ ι)) := by
  simp [Batch.last, ends, ExportPosition.key, AuditRow.key]

omit [LinearOrder ι] in
/-- The last pair of a batch belongs to its last row. -/
theorem Batch.last_eq_some {batch : Batch ι δ} {pair : Nat × ι} :
    batch.last = some pair ↔
      ∃ row, batch.rows.getLast? = some row ∧ (row.createdAt, row.id) = pair := by
  simp [Batch.last]

section Database

variable {trail next : AuditTrail τ ι δ} {position : ExportPosition ι} {batch : Batch ι δ}

/-- No row can appear at a position any more: it is older than the clock and than every open
transaction. -/
def Settled (trail : AuditTrail τ ι δ) (position : ExportPosition ι) : Prop :=
  ∀ pair ∈ position, pair.1 < trail.now ∧ ∀ session ∈ trail.transactions, pair.1 < session.start

/-- What holds of the database whatever the runs do. -/
structure TrailSound (trail : AuditTrail τ ι δ) : Prop where
  started : ∀ session ∈ trail.transactions, session.start ≤ trail.now
  stamped : ∀ written ∈ trail.uncommitted,
    ∃ session ∈ trail.transactions, session.pid = written.1 ∧ written.2.createdAt = session.start
  distinct : ((trail.rows ++ trail.uncommitted.map Prod.snd).map AuditRow.id).Nodup
  settled : Settled trail trail.position
  exported : ∀ row ∈ trail.rows, afterCursor trail.position row = false →
    row ∈ trail.delivered.flatten

/-- A batch has every row between the position it was read after and its last row, and no row can
appear there any more. -/
structure Gathers (trail : AuditTrail τ ι δ) (batch : Batch ι δ) : Prop where
  settled : Settled trail batch.last
  complete : ∀ row ∈ trail.rows, afterCursor batch.after row = true →
    afterCursor batch.last row = false → row ∈ batch.rows
  committed : batch.rows ⊆ trail.rows
  once : batch.rows.Nodup
  beyond : ∀ row ∈ batch.rows, afterCursor batch.after row = true
  within : ∀ row ∈ batch.rows, afterCursor batch.last row = false

/-- What any event may do to the database. -/
structure Grows (trail next : AuditTrail τ ι δ) : Prop where
  now : trail.now ≤ next.now
  opened : ∀ session ∈ next.transactions, session ∈ trail.transactions ∨ trail.now ≤ session.start
  kept : trail.rows ⊆ next.rows
  added : ∀ row ∈ next.rows, row ∈ trail.rows ∨
    ∃ session ∈ trail.transactions, row.createdAt = session.start
  delivered : trail.delivered.flatten ⊆ next.delivered.flatten

omit [LinearOrder ι] in
/-- A settled position stays so as the trail grows. -/
theorem Settled.kept (settled : Settled trail position) (grows : Grows trail next) :
    Settled next position := by
  intro pair here
  obtain ⟨past, before⟩ := settled pair here
  refine ⟨past.trans_le grows.now, ?_⟩
  intro session member
  rcases grows.opened session member with old | fresh
  · exact before session old
  · exact past.trans_le fresh

/-- A row of an open transaction is after a settled position. -/
theorem Settled.after (settled : Settled trail position) {session : OpenTransaction}
    (member : session ∈ trail.transactions) {row : AuditRow ι δ}
    (stamp : row.createdAt = session.start) : afterCursor position row = true := by
  rcases position with _ | pair
  · rfl
  · have before := (settled pair rfl).2 session member
    simp [afterCursor, stamp, before]

/-- A gathered batch stays so as the trail grows. -/
theorem Gathers.kept (reads : Gathers trail batch) (grows : Grows trail next) : Gathers next batch where
  settled := reads.settled.kept grows
  complete := by
    intro row member beyond within
    rcases grows.added row member with old | ⟨session, there, stamp⟩
    · exact reads.complete row old beyond within
    · -- A row that was committed since then is behind the batch.
      have later := reads.settled.after there stamp
      exact absurd (later.symm.trans within) (by decide)
  committed := fun _ here => grows.kept (reads.committed here)
  once := reads.once
  beyond := reads.beyond
  within := reads.within

omit [LinearOrder ι] in
/-- A trail that stays as it is grows. -/
theorem Grows.refl (trail : AuditTrail τ ι δ) : Grows trail trail where
  now := le_rfl
  opened := fun _ here => .inl here
  kept := List.Subset.refl _
  added := fun _ here => .inl here
  delivered := List.Subset.refl _

/-- A row that stands where another one does is that row. -/
theorem TrailSound.eq_of_key (sound : TrailSound trail) {first second : AuditRow ι δ}
    (one : first ∈ trail.rows) (two : second ∈ trail.rows) (same : first.key = second.key) :
    first = second := by
  have distinct := sound.distinct
  rw [List.map_append, List.nodup_append] at distinct
  refine List.inj_on_of_nodup_map distinct.1 one two ?_
  exact congrArg (fun pair : Nat ×ₗ ι => (ofLex pair).2) same

/-- No row stands twice in a sound trail. -/
theorem TrailSound.rows_nodup (sound : TrailSound trail) : trail.rows.Nodup := by
  have distinct := sound.distinct
  rw [List.map_append, List.nodup_append] at distinct
  exact distinct.1.of_map

omit [LinearOrder ι] in
/-- The beginning of a transaction is no matter of the export. -/
theorem beginTransaction_export {pid : Nat} {hidden : Bool}
    (begun : trail.beginTransaction pid hidden = some next) :
    next.position = trail.position ∧ next.lock = trail.lock ∧ next.delivered = trail.delivered := by
  unfold AuditTrail.beginTransaction at begun
  split at begun
  · cases begun
  · cases begun
    exact ⟨rfl, rfl, rfl⟩

/-- Nor is a row that is not committed. -/
theorem write_export {pid : Nat} {id : ι} {content : δ}
    (wrote : trail.write pid id content = some next) :
    next.position = trail.position ∧ next.lock = trail.lock ∧ next.delivered = trail.delivered := by
  unfold AuditTrail.write at wrote
  split at wrote
  · cases wrote
  · obtain ⟨_, _, rfl⟩ := Option.map_eq_some_iff.mp wrote
    exact ⟨rfl, rfl, rfl⟩

/-- Time passes. -/
theorem TrailSound.wait (sound : TrailSound trail) (elapsed : Nat) :
    TrailSound { trail with now := trail.now + elapsed } ∧
      Grows trail { trail with now := trail.now + elapsed } := by
  have grows : Grows trail { trail with now := trail.now + elapsed } :=
    { Grows.refl trail with now := Nat.le_add_right _ _ }
  refine ⟨{ sound with started := ?_, settled := sound.settled.kept grows }, grows⟩
  exact fun session member => (sound.started session member).trans grows.now

/-- A transaction begins. -/
theorem TrailSound.beginTransaction (sound : TrailSound trail) {pid : Nat} {hidden : Bool}
    (begun : trail.beginTransaction pid hidden = some next) :
    TrailSound next ∧ Grows trail next := by
  unfold AuditTrail.beginTransaction at begun
  -- A session or a connection that is already there refuses the begin, and nothing happens.
  split at begun
  · cases begun
  · cases begun
    set next : AuditTrail τ ι δ := { trail with
      transactions := trail.transactions ++ [{ pid := pid, start := trail.now, hidden := hidden }] }
    -- The only new transaction starts now.
    have opened : ∀ session ∈ next.transactions,
        session ∈ trail.transactions ∨ session.start = trail.now := by
      intro session member
      rcases List.mem_append.mp member with old | fresh
      · exact .inl old
      · rw [List.mem_singleton.mp fresh]
        exact .inr rfl
    have grows : Grows trail next := { Grows.refl trail with
      opened := fun session member => (opened session member).imp_right Eq.ge }
    -- The rows are those of before, so only `started` and `stamped` read the new list.
    refine ⟨{ sound with
      started := ?_, stamped := ?_, settled := sound.settled.kept grows }, grows⟩
    · intro session member
      rcases opened session member with old | fresh
      · exact sound.started session old
      · exact fresh.le
    · intro written member
      obtain ⟨session, there, stamp⟩ := sound.stamped written member
      exact ⟨session, List.mem_append_left _ there, stamp⟩

/-- A transaction writes a row. -/
theorem TrailSound.write (sound : TrailSound trail) {pid : Nat} {id : ι} {content : δ}
    (wrote : trail.write pid id content = some next) : TrailSound next ∧ Grows trail next := by
  unfold AuditTrail.write at wrote
  split at wrote
  · cases wrote
  · rename_i fresh
    obtain ⟨session, found, rfl⟩ := Option.map_eq_some_iff.mp wrote
    have grows : Grows trail { trail with uncommitted := trail.uncommitted ++
        [(pid, { createdAt := session.start, id := id, content := content })] } :=
      { Grows.refl trail with }
    refine ⟨{ sound with stamped := ?_, distinct := ?_ }, grows⟩
    · intro written member
      rcases List.mem_append.mp member with old | new
      · exact sound.stamped written old
      · rw [List.mem_singleton.mp new]
        have named : session.pid = pid := by simpa using List.find?_some found
        exact ⟨session, List.mem_of_find?_eq_some found, named, rfl⟩
    · -- The id of the new row is none of those that are in use.
      simp only [List.map_append, List.map_cons, List.map_nil, ← List.append_assoc] at fresh ⊢
      refine List.nodup_append.mpr ⟨?_, List.nodup_singleton _, ?_⟩
      · simpa only [List.map_append] using sound.distinct
      · intro used here other there same
        rw [List.mem_singleton.mp there] at same
        exact fresh (same ▸ here)

/-- A transaction ends. -/
theorem TrailSound.endTransaction (sound : TrailSound trail) (pid : Nat) (committed : Bool) :
    TrailSound (trail.endTransaction pid committed) ∧
      Grows trail (trail.endTransaction pid committed) := by
  -- Whatever is committed now belongs to a transaction that was open.
  have appears : ∀ row ∈ (trail.endTransaction pid committed).rows, row ∈ trail.rows ∨
      ∃ session ∈ trail.transactions, row.createdAt = session.start := by
    intro row member
    cases committed with
    | false => exact .inl member
    | true =>
      rcases List.mem_append.mp member with old | new
      · exact .inl old
      · obtain ⟨written, there, rfl⟩ := List.mem_map.mp new
        obtain ⟨session, here, _, stamp⟩ := sound.stamped written (List.mem_filter.mp there).1
        exact .inr ⟨session, here, stamp⟩
  have grows : Grows trail (trail.endTransaction pid committed) := { Grows.refl trail with
    opened := fun session member => .inl (List.mem_filter.mp member).1
    kept := by
      cases committed with
      | false => exact List.Subset.refl _
      | true => exact List.subset_append_left _ _
    added := appears }
  refine ⟨{
    started := fun session member => sound.started session (List.mem_filter.mp member).1
    stamped := ?_
    distinct := ?_
    settled := sound.settled.kept grows
    exported := ?_ }, grows⟩
  · intro written member
    obtain ⟨old, other⟩ := List.mem_filter.mp member
    obtain ⟨session, here, named, stamp⟩ := sound.stamped written old
    exact ⟨session, List.mem_filter.mpr ⟨here, by rwa [named]⟩, named, stamp⟩
  · -- The rows of the transaction move from one side to the other, or go away.
    have parts := List.filter_append_perm (fun written => written.1 == pid) trail.uncommitted
    have whole : (trail.rows ++ ((trail.uncommitted.filter fun written => written.1 == pid).map
        Prod.snd ++ (trail.uncommitted.filter fun written => written.1 != pid).map Prod.snd)).Perm
        (trail.rows ++ trail.uncommitted.map Prod.snd) := by
      rw [← List.map_append]
      exact (parts.map Prod.snd).append_left _
    have distinct := (whole.map AuditRow.id).nodup_iff.mpr sound.distinct
    cases committed with
    | false =>
      refine distinct.sublist (List.Sublist.map _ (List.Sublist.append_left ?_ _))
      exact List.sublist_append_right _ _
    | true =>
      rw [← List.append_assoc] at distinct
      exact distinct
  · intro row member early
    rcases appears row member with old | ⟨session, there, stamp⟩
    · exact sound.exported row old early
    · have later := sound.settled.after there stamp
      exact absurd (later.symm.trans early) (by decide)

/-- The lock changes hands. -/
theorem TrailSound.relock (sound : TrailSound trail) (lock : Option τ) :
    TrailSound { trail with lock := lock } ∧ Grows trail { trail with lock := lock } :=
  ⟨{ sound with }, { Grows.refl trail with }⟩

/-- The collector accepts a batch. -/
theorem TrailSound.deliver (sound : TrailSound trail) (rows : List (AuditRow ι δ)) :
    TrailSound { trail with delivered := trail.delivered ++ [rows] } ∧
      Grows trail { trail with delivered := trail.delivered ++ [rows] } := by
  have kept : trail.delivered.flatten ⊆ (trail.delivered ++ [rows]).flatten := by
    rw [List.flatten_append]
    exact List.subset_append_left _ _
  refine ⟨{ sound with exported := ?_ }, { Grows.refl trail with delivered := kept }⟩
  exact fun row member early => kept (sound.exported row member early)

/-- The position moves past a batch that was delivered. -/
theorem TrailSound.move (sound : TrailSound trail) (reads : Gathers trail batch)
    (delivered : batch.rows ⊆ trail.delivered.flatten) (here : trail.position = batch.after) :
    TrailSound { trail with position := batch.last } ∧
      Grows trail { trail with position := batch.last } := by
  refine ⟨{ sound with settled := reads.settled, exported := ?_ }, { Grows.refl trail with }⟩
  intro row member early
  cases ahead : afterCursor batch.after row with
  | true => exact delivered (reads.complete row member ahead early)
  | false => exact sound.exported row member (here ▸ ahead)

/-- A batch ends behind the position it was read after. -/
theorem Gathers.forward (reads : Gathers trail batch) (some_row : batch.rows ≠ []) :
    batch.after.key ≤ batch.last.key := by
  obtain ⟨row, member⟩ := List.exists_mem_of_ne_nil _ some_row
  have low := afterCursor_iff.mp (reads.beyond row member)
  exact low.le.trans (afterCursor_eq_false.mp (reads.within row member))

end Database

section Batches

variable {trail : AuditTrail τ ι δ} {settings : AuditExportSettings}

/-- Which transactions a read of the open ones has not missed. -/
def Observed (trail : AuditTrail τ ι δ) (openTx : OpenTransactions) : Prop :=
  openTx.readAt ≤ trail.now ∧ (openTx.hidden = [] → ∀ session ∈ trail.transactions,
    session.start ∈ openTx.starts.map Prod.snd ∨ openTx.readAt ≤ session.start)

omit [LinearOrder ι] in
/-- What has been observed stays so as the trail grows. -/
theorem Observed.kept {next : AuditTrail τ ι δ} {openTx : OpenTransactions}
    (observed : Observed trail openTx) (grows : Grows trail next) : Observed next openTx := by
  refine ⟨observed.1.trans grows.now, ?_⟩
  intro all_seen session member
  rcases grows.opened session member with old | fresh
  · exact observed.2 all_seen session old
  · exact .inr (observed.1.trans fresh)

omit [LinearOrder ι] in
/-- Where none is hidden, the read has every open transaction. -/
theorem observed_readOpenTransactions {readAt : Nat} (read : readAt ≤ trail.now) :
    Observed trail (trail.readOpenTransactions readAt) := by
  refine ⟨read, ?_⟩
  intro all_seen session member
  left
  simp only [AuditTrail.readOpenTransactions, List.map_eq_nil_iff, List.filter_eq_nil_iff,
    Bool.not_eq_true] at all_seen
  simp only [AuditTrail.readOpenTransactions, List.map_map, List.mem_map, List.mem_filter]
  exact ⟨session, ⟨member, by simp [all_seen session member]⟩, rfl⟩

omit [LinearOrder ι] in
/-- A row that is admitted is older than the read of the clock and than every transaction seen. -/
theorem admits_iff {openTx : OpenTransactions} {row : AuditRow ι δ} :
    settings.admits openTx row = true ↔ row.createdAt + settings.lag ≤ openTx.readAt ∧
      ∀ start ∈ openTx.starts.map Prod.snd, row.createdAt < start := by
  simp only [AuditExportSettings.admits, OpenTransactions.oldest, Bool.and_eq_true,
    decide_eq_true_eq]
  refine and_congr_right fun _ => ?_
  -- Below the oldest open start means below all of them.
  cases least : (openTx.starts.map Prod.snd).min? with
  | none =>
    rw [List.min?_eq_none_iff.mp least]
    simp
  | some oldest =>
    obtain ⟨member, bound⟩ := List.min?_eq_some_iff.mp least
    simp only [Option.all_some, decide_eq_true_eq]
    exact ⟨fun old start here => old.trans_le (bound start here), fun all => all oldest member⟩

/-- The rows of a batch are the first of those that may be read. -/
theorem isPage_collectBatch (settings : AuditExportSettings) (trail : AuditTrail τ ι δ)
    (cursor : ExportPosition ι) {openTx : OpenTransactions} (all_seen : openTx.hidden = []) :
    IsPage AuditRow.key
      (trail.rows.filter fun row => afterCursor cursor row && settings.admits openTx row)
      settings.batchSize (collectBatch settings trail cursor openTx).rows := by
  refine ⟨_, List.perm_insertionSort _ _, List.pairwise_insertionSort _ _, ?_⟩
  simp only [collectBatch, if_pos all_seen]

/-- While a transaction is hidden, a batch has no rows. -/
theorem collectBatch_hidden {cursor : ExportPosition ι} {openTx : OpenTransactions}
    (hidden : openTx.hidden ≠ []) : (collectBatch settings trail cursor openTx).rows = [] := by
  simp only [collectBatch, if_neg hidden]

/-- A batch without rows ends nowhere. -/
theorem reads_of_rows_nil {batch : Batch ι δ} (no_rows : batch.rows = []) : Gathers trail batch := by
  have ends : batch.last = none := by simp [Batch.last, no_rows]
  refine { settled := ?_, complete := ?_, committed := ?_, once := ?_, beyond := ?_, within := ?_ }
  · simp [Settled, ends]
  · intro row _ _ within
    rw [ends] at within
    cases within
  all_goals simp [no_rows]

/-- What the read of a batch finds is complete up to its last row. -/
theorem reads_collectBatch {cursor : ExportPosition ι} {openTx : OpenTransactions}
    (sound : TrailSound trail) (observed : Observed trail openTx) :
    Gathers trail (collectBatch settings trail cursor openTx) := by
  by_cases all_seen : openTx.hidden = []
  · have page := isPage_collectBatch settings trail cursor all_seen
    generalize collected : collectBatch settings trail cursor openTx = batch at page ⊢
    have after : batch.after = cursor := by rw [← collected]; rfl
    -- A batch is a page of what lies after the cursor and is admitted.
    have found : ∀ row ∈ batch.rows, row ∈ trail.rows ∧ afterCursor cursor row = true ∧
        settings.admits openTx row = true := by
      intro row member
      simpa only [List.mem_filter, Bool.and_eq_true] using page.subset member
    refine {
      settled := ?_
      complete := ?_
      committed := fun row member => (found row member).1
      once := page.nodup (sound.rows_nodup.filter _)
      beyond := fun row member => after ▸ (found row member).2.1
      within := ?_ }
    · -- What a transaction can still write lies behind the last row of the batch.
      intro pair ends
      obtain ⟨row, last, rfl⟩ := Batch.last_eq_some.mp ends
      obtain ⟨_, _, admitted⟩ := found row (List.mem_of_getLast? last)
      obtain ⟨old, before⟩ := admits_iff.mp admitted
      have lag := settings.lag_pos
      have now := observed.1
      refine ⟨by simp only; omega, ?_⟩
      intro session member
      -- A transaction seen was admitted against, one that came later starts after the reading.
      rcases observed.2 all_seen session member with seen | late
      · exact before _ seen
      · simp only
        omega
    · -- A row left out within the batch would have been listed, as the page is in order.
      intro row member beyond within
      by_contra left_out
      cases ends : batch.rows.getLast? with
      | none => simp [Batch.last, ends, afterCursor] at within
      | some last =>
        have shown := List.mem_of_getLast? ends
        rw [afterCursor_eq_false, Batch.key_last ends, WithBot.coe_le_coe] at within
        -- What is not behind the last row may be read as well as the last row may.
        have older : row.createdAt ≤ last.createdAt := by
          rcases Prod.Lex.toLex_le_toLex.mp within with less | same
          · exact less.le
          · exact same.1.le
        obtain ⟨old, before⟩ := admits_iff.mp (found last shown).2.2
        have admitted : settings.admits openTx row = true :=
          admits_iff.mpr ⟨by omega, fun start here => older.trans_lt (before start here)⟩
        have listed : row ∈ trail.rows.filter
            fun row => afterCursor cursor row && settings.admits openTx row := by
          rw [List.mem_filter, Bool.and_eq_true]
          exact ⟨member, after ▸ beyond, admitted⟩
        have same := within.antisymm (page.key_le shown listed left_out)
        exact left_out (sound.eq_of_key member (found last shown).1 same ▸ shown)
    · -- No row of the batch lies behind its last one.
      intro row member
      cases ends : batch.rows.getLast? with
      | none =>
        rw [List.getLast?_eq_none_iff] at ends
        simp [ends] at member
      | some last =>
        rw [afterCursor_eq_false, Batch.key_last ends, WithBot.coe_le_coe]
        exact page.key_le_last ends member
  · -- With a transaction hidden from the role nothing is collected.
    exact reads_of_rows_nil (collectBatch_hidden all_seen)

end Batches

section Runs

/-- What an event can do to the database and to the run that it happens to. -/
inductive Happens [DecidableEq τ] (settings : AuditExportSettings) (tx : τ) (trail : AuditTrail τ ι δ) :
    ExportEvent ι δ → ExportPhase ι δ → AuditTrail τ ι δ → ExportPhase ι δ → Prop
  | waited {phase} (elapsed : Nat) :
      Happens settings tx trail (.wait elapsed) phase { trail with now := trail.now + elapsed } phase
  | begun {phase next pid hidden} (begun : trail.beginTransaction pid hidden = some next) :
      Happens settings tx trail (.beginTransaction pid hidden) phase next phase
  | wrote {phase next pid id content} (wrote : trail.write pid id content = some next) :
      Happens settings tx trail (.write pid id content) phase next phase
  | ended {phase} (pid : Nat) (committed : Bool) :
      Happens settings tx trail (.endTransaction pid committed) phase
        (trail.endTransaction pid committed) phase
  | busy : Happens settings tx trail .advance .idle trail .idle
  | took (free : trail.lock = none) :
      Happens settings tx trail .advance .idle { trail with lock := some tx } .locked
  | loaded {phase} (loads : phase = .locked ∨ phase = .moved) :
      Happens settings tx trail .advance phase trail (.ready trail.position)
  | clocked (cursor : ExportPosition ι) :
      Happens settings tx trail .advance (.ready cursor) trail (.clocked cursor trail.now)
  | observed (cursor : ExportPosition ι) (readAt : Nat) :
      Happens settings tx trail .advance (.clocked cursor readAt) trail
        (.observed cursor (trail.readOpenTransactions readAt))
  | collected (cursor : ExportPosition ι) (openTx : OpenTransactions) :
      Happens settings tx trail .advance (.observed cursor openTx) trail
        (.collected (collectBatch settings trail cursor openTx))
  | delivered {batch} (some_row : batch.rows ≠ []) :
      Happens settings tx trail .advance (.collected batch)
        { trail with delivered := trail.delivered ++ [batch.rows] } (.delivered batch)
  | moved {batch} (here : trail.position = batch.after) :
      Happens settings tx trail .advance (.delivered batch)
        { trail with position := batch.last } .moved
  | left {event phase} (running : phase ≠ .idle)
      (finished : ∀ batch, phase = .delivered batch →
        event = .crash ∨ trail.position ≠ batch.after) :
      Happens settings tx trail event phase (trail.release tx) .idle
  | unanswered {batch} (some_row : batch.rows ≠ []) :
      Happens settings tx trail .loseAnswer (.collected batch)
        (({ trail with delivered := trail.delivered ++ [batch.rows] }).release tx) .idle
  | lost {phase} (running : phase ≠ .idle) :
      Happens settings tx trail .disconnect phase (trail.release tx) phase

variable [DecidableEq τ] {trail next : AuditTrail τ ι δ} {settings : AuditExportSettings}
  {phase after : ExportPhase ι δ} {event : ExportEvent ι δ} {tx : τ}

omit [LinearOrder ι] in
/-- Giving the lock back changes nothing but the lock. -/
theorem release_eq (trail : AuditTrail τ ι δ) (tx : τ) :
    ∃ lock, trail.release tx = { trail with lock := lock } ∧ lock ≠ some tx ∧
      (lock = none ∨ lock = trail.lock ∧ trail.lock ≠ some tx) := by
  unfold AuditTrail.release
  split
  · exact ⟨none, rfl, by simp, .inl rfl⟩
  · rename_i other
    exact ⟨trail.lock, rfl, other, .inr ⟨rfl, other⟩⟩

/-- Every event is one of these. -/
theorem happens_of_act
    (taken : ExportPhase.act settings tx event trail phase = some (next, after)) :
    Happens settings tx trail event phase next after := by
  -- One case an event; under `advance` one case a phase, as the source goes through them.
  cases event with
  | wait elapsed =>
    cases taken
    exact .waited elapsed
  | beginTransaction pid hidden =>
    obtain ⟨_, begun, same⟩ := Option.map_eq_some_iff.mp taken
    cases same
    exact .begun begun
  | write pid id content =>
    obtain ⟨_, wrote, same⟩ := Option.map_eq_some_iff.mp taken
    cases same
    exact .wrote wrote
  | endTransaction pid committed =>
    cases taken
    exact .ended pid committed
  | advance =>
    have advanced : phase.advance settings tx trail = (next, after) := Option.some.inj taken
    cases phase with
    -- The advisory lock is taken, or another run holds it and this one leaves.
    | idle =>
      cases held : trail.lock with
      | none =>
        simp only [ExportPhase.advance, held] at advanced
        cases advanced
        exact .took held
      | some other =>
        simp only [ExportPhase.advance, held] at advanced
        cases advanced
        exact .busy
    | locked =>
      cases advanced
      exact .loaded (.inl rfl)
    | ready cursor =>
      cases advanced
      exact .clocked cursor
    | clocked cursor readAt =>
      cases advanced
      exact .observed cursor readAt
    | observed cursor openTx =>
      cases advanced
      exact .collected cursor openTx
    -- An empty batch ends the run; any other is posted.
    | collected batch =>
      simp only [ExportPhase.advance, List.isEmpty_iff] at advanced
      split at advanced
      · cases advanced
        exact .left nofun nofun
      · cases advanced
        exact .delivered ‹_›
    -- The cursor moves if it is still the one the run has read, else the run gives up.
    | delivered batch =>
      simp only [ExportPhase.advance, AuditTrail.advanceCursor] at advanced
      split at advanced
      · cases advanced
        exact .moved ‹_›
      · cases advanced
        refine .left nofun fun other same => .inr ?_
        cases same
        assumption
    | moved =>
      cases advanced
      exact .loaded (.inr rfl)
  -- Only a posted batch can be refused, or lose its answer.
  | refuse =>
    cases phase with
    | collected batch =>
      simp only [ExportPhase.act] at taken
      split at taken
      · cases taken
      · cases taken
        exact .left nofun nofun
    | _ => cases taken
  | loseAnswer =>
    cases phase with
    | collected batch =>
      simp only [ExportPhase.act, List.isEmpty_iff] at taken
      split at taken
      · cases taken
      · cases taken
        exact .unanswered ‹_›
    | _ => cases taken
  | stop =>
    cases phase with
    | moved =>
      cases taken
      exact .left nofun nofun
    | _ => cases taken
  -- A crash of an idle worker is no event.
  | crash =>
    cases phase with
    | idle => cases taken
    | _ =>
      cases taken
      exact .left nofun fun _ _ => .inl rfl
  | disconnect =>
    cases phase with
    | idle => cases taken
    | _ =>
      cases taken
      exact .lost nofun

/-- What a run may rely on between its own steps. -/
def ExportPhase.Relies (trail : AuditTrail τ ι δ) : ExportPhase ι δ → Prop
  | .clocked _ readAt => readAt ≤ trail.now
  | .observed _ openTx => Observed trail openTx
  | .collected batch => Gathers trail batch
  | .delivered batch =>
      Gathers trail batch ∧ batch.rows ⊆ trail.delivered.flatten ∧ batch.rows ≠ []
  | _ => True

omit [DecidableEq τ] in
/-- What a tick relies on stays as the trail grows. -/
theorem ExportPhase.Relies.kept (relies : phase.Relies trail) (grows : Grows trail next) :
    phase.Relies next := by
  -- By the phase: the trail only grows, so what was read is still read.
  cases phase with
  | clocked cursor readAt => exact Nat.le_trans relies grows.now
  | observed cursor openTx => exact Observed.kept relies grows
  | collected batch => exact Gathers.kept relies grows
  | delivered batch =>
    obtain ⟨reads, sent, some_row⟩ := relies
    exact ⟨reads.kept grows, fun row here => grows.delivered (sent here), some_row⟩
  | _ => trivial

/-- Every event leaves the database sound, and the position where it was or further on. -/
theorem Happens.sound (happens : Happens settings tx trail event phase next after)
    (sound : TrailSound trail) (relies : phase.Relies trail) :
    (TrailSound next ∧ Grows trail next) ∧ after.Relies next ∧
      trail.position.key ≤ next.position.key := by
  cases happens with
  -- Time and the application's own transactions: the trail grows, and what was read stays read.
  | waited elapsed =>
    have stepped := sound.wait elapsed
    exact ⟨stepped, relies.kept stepped.2, le_rfl⟩
  | begun begun =>
    have stepped := sound.beginTransaction begun
    exact ⟨stepped, relies.kept stepped.2, (beginTransaction_export begun).1 ▸ le_rfl⟩
  | wrote wrote =>
    have stepped := sound.write wrote
    exact ⟨stepped, relies.kept stepped.2, (write_export wrote).1 ▸ le_rfl⟩
  | ended pid committed =>
    have stepped := sound.endTransaction pid committed
    exact ⟨stepped, relies.kept stepped.2, le_rfl⟩
  -- The run takes the lock, loads its cursor, reads the clock and the open transactions.
  | busy => exact ⟨⟨sound, .refl _⟩, trivial, le_rfl⟩
  | took free => exact ⟨sound.relock _, trivial, le_rfl⟩
  | loaded loads => exact ⟨⟨sound, .refl _⟩, trivial, le_rfl⟩
  | clocked cursor => exact ⟨⟨sound, .refl _⟩, Nat.le_refl _, le_rfl⟩
  | observed cursor readAt =>
    exact ⟨⟨sound, .refl _⟩, observed_readOpenTransactions relies, le_rfl⟩
  | collected cursor openTx =>
    exact ⟨⟨sound, .refl _⟩, reads_collectBatch sound relies, le_rfl⟩
  -- The collector has the rows, and the run knows it.
  | delivered some_row =>
    rename_i batch
    have stepped := sound.deliver batch.rows
    have sent : batch.rows ⊆ (trail.delivered ++ [batch.rows]).flatten := by
      simp
    exact ⟨stepped, ⟨Gathers.kept relies stepped.2, sent, some_row⟩, le_rfl⟩
  -- The position moves forward over what was sent.
  | moved here =>
    obtain ⟨reads, sent, some_row⟩ := relies
    exact ⟨sound.move reads sent here, trivial, here ▸ reads.forward some_row⟩
  | left running finished =>
    obtain ⟨lock, same, _⟩ := release_eq trail tx
    rw [same]
    exact ⟨sound.relock lock, trivial, le_rfl⟩
  | unanswered some_row =>
    rename_i batch
    -- The rows count as delivered although the run does not know it.
    obtain ⟨sent, grown⟩ := sound.deliver batch.rows
    obtain ⟨lock, same, _⟩ :=
      release_eq ({ trail with delivered := trail.delivered ++ [batch.rows] } : AuditTrail τ ι δ) tx
    rw [same]
    have relocked := sent.relock lock
    exact ⟨⟨relocked.1, { grown with }⟩, trivial, le_rfl⟩
  | lost running =>
    obtain ⟨lock, same, _⟩ := release_eq trail tx
    rw [same]
    have stepped := sound.relock lock
    exact ⟨stepped, relies.kept stepped.2, le_rfl⟩

/-- Nothing has been delivered twice, and without a run nothing is ahead of the position. -/
structure ExportedOnce (trail : AuditTrail τ ι δ) : Prop where
  once : trail.delivered.flatten.Nodup
  committed : trail.delivered.flatten ⊆ trail.rows
  free : trail.lock = none → ∀ row ∈ trail.delivered.flatten, afterCursor trail.position row = false

/-- The position that a run works from. -/
def ExportPhase.cursor : ExportPhase ι δ → Option (ExportPosition ι)
  | .ready cursor => some cursor
  | .clocked cursor _ => some cursor
  | .observed cursor _ => some cursor
  | .collected batch => some batch.after
  | .delivered batch => some batch.after
  | _ => none

/-- Up to where a run has handed over rows, given the stored position. -/
def ExportPhase.reached (position : ExportPosition ι) : ExportPhase ι δ → ExportPosition ι
  | .delivered batch => batch.last
  | _ => position

/-- A run that has not ended holds the lock, and nobody else moves the position. -/
structure ExportPhase.Owns (tx : τ) (trail : AuditTrail τ ι δ) (phase : ExportPhase ι δ) : Prop where
  lock : phase ≠ .idle → trail.lock = some tx
  cursor : ∀ cursor ∈ phase.cursor, cursor = trail.position
  reached : trail.lock = some tx →
    ∀ row ∈ trail.delivered.flatten, afterCursor (phase.reached trail.position) row = false

omit [DecidableEq τ] in
/-- What the export has done stays what it is while only the database moves. -/
theorem ExportedOnce.kept (once : ExportedOnce trail) (rows : trail.rows ⊆ next.rows)
    (same : next.position = trail.position ∧ next.lock = trail.lock ∧
      next.delivered = trail.delivered) : ExportedOnce next := by
  obtain ⟨position, lock, delivered⟩ := same
  refine ⟨?_, ?_, ?_⟩
  · -- Delivered rows, position and lock are those of before; only rows were added.
    rw [delivered]
    exact once.once
  · rw [delivered]
    exact fun row here => rows (once.committed here)
  · rw [position, lock, delivered]
    exact once.free

omit [DecidableEq τ] in
/-- A tick that owns the lock owns it while position, lock and deliveries stay. -/
theorem ExportPhase.Owns.kept (owns : phase.Owns tx trail)
    (same : next.position = trail.position ∧ next.lock = trail.lock ∧
      next.delivered = trail.delivered) : phase.Owns tx next := by
  obtain ⟨position, lock, delivered⟩ := same
  refine ⟨?_, ?_, ?_⟩
  · -- The lock, the cursor and the batch all lie in the three fields that are the same.
    rw [lock]
    exact owns.lock
  · rw [position]
    exact owns.cursor
  · rw [position, lock, delivered]
    exact owns.reached

omit [DecidableEq τ] in
/-- A run without the lock is at rest. -/
theorem ExportPhase.Owns.of_ne (owns : phase.Owns tx trail) (other : trail.lock ≠ some tx)
    (still : next.lock ≠ some tx) : phase.Owns tx next := by
  have rests : phase = .idle := by
    by_contra running
    exact other (owns.lock running)
  subst rests
  exact ⟨fun running => absurd rfl running, nofun, fun held => absurd held still⟩

/-- An event that interrupts no run delivers nothing twice. -/
theorem Happens.once (happens : Happens settings tx trail event phase next after)
    (sound : TrailSound trail) (relies : phase.Relies trail) (once : ExportedOnce trail)
    (owns : phase.Owns tx trail) (fine : event.uninterrupted phase = true) :
    ExportedOnce next ∧ after.Owns tx next := by
  -- No step takes a delivered row back.
  have rows := (happens.sound sound relies).1.2.kept
  cases happens with
  | waited elapsed => exact ⟨once.kept rows ⟨rfl, rfl, rfl⟩, owns.kept ⟨rfl, rfl, rfl⟩⟩
  | begun begun =>
    have same := beginTransaction_export begun
    exact ⟨once.kept rows same, owns.kept same⟩
  | wrote wrote =>
    have same := write_export wrote
    exact ⟨once.kept rows same, owns.kept same⟩
  | ended pid committed => exact ⟨once.kept rows ⟨rfl, rfl, rfl⟩, owns.kept ⟨rfl, rfl, rfl⟩⟩
  | busy => exact ⟨once, owns⟩
  -- A free lock means that nothing behind the position was sent.
  | took free =>
    refine ⟨⟨once.once, once.committed, nofun⟩, ⟨fun _ => rfl, nofun, fun _ => once.free free⟩⟩
  -- The cursor that is loaded is the position.
  | loaded loads =>
    have running : phase ≠ .idle := by
      rcases loads with rfl | rfl <;> exact nofun
    refine ⟨once, ⟨fun _ => owns.lock running, ?_, fun held row here => ?_⟩⟩
    · rintro cursor ⟨⟩
      rfl
    · have reached := owns.reached held row here
      rcases loads with rfl | rfl <;> exact reached
  | clocked cursor => exact ⟨once, ⟨fun _ => owns.lock nofun, owns.cursor, owns.reached⟩⟩
  | observed cursor readAt => exact ⟨once, ⟨fun _ => owns.lock nofun, owns.cursor, owns.reached⟩⟩
  | collected cursor openTx =>
    exact ⟨once, ⟨fun _ => owns.lock nofun, owns.cursor, owns.reached⟩⟩
  -- The batch goes out, under the lock and from the position.
  | delivered some_row =>
    rename_i batch
    have reads : Gathers trail batch := relies
    have held : trail.lock = some tx := owns.lock nofun
    have here : batch.after = trail.position := owns.cursor _ rfl
    have earlier : ∀ row ∈ trail.delivered.flatten, afterCursor batch.after row = false :=
      here ▸ owns.reached held
    refine ⟨⟨?_, ?_, fun free => ?_⟩, ⟨fun _ => held, owns.cursor, fun _ row member => ?_⟩⟩
    · -- What was delivered before is not after the position, and the batch is.
      rw [List.flatten_append, List.nodup_append]
      refine ⟨once.once, by simpa using reads.once, ?_⟩
      rintro row old _ new rfl
      have ahead := reads.beyond row (by simpa using new)
      exact absurd (ahead.symm.trans (earlier row old)) (by decide)
    · -- What is delivered is in the trail.
      intro row member
      rw [List.flatten_append, List.mem_append] at member
      rcases member with old | new
      · exact once.committed old
      · exact reads.committed (by simpa using new)
    · exact absurd (held.symm.trans free) nofun
    · -- And it is not after what the run has reached.
      rw [List.flatten_append, List.mem_append] at member
      rcases member with old | new
      · rw [ExportPhase.reached, afterCursor_eq_false]
        exact (afterCursor_eq_false.mp (earlier row old)).trans (reads.forward some_row)
      · exact reads.within row (by simpa using new)
  | moved here =>
    have held : trail.lock = some tx := owns.lock nofun
    refine ⟨⟨once.once, once.committed, fun free => ?_⟩, ⟨fun _ => held, nofun, owns.reached⟩⟩
    exact absurd (held.symm.trans free) nofun
  | left running finished =>
    have held := owns.lock running
    -- A run that has delivered is where it read from, so only a crash ends it there.
    have reached : phase.reached trail.position = trail.position := by
      cases phase with
      | delivered batch =>
        rcases finished batch rfl with rfl | moved
        · cases fine
        · exact absurd (owns.cursor _ rfl).symm moved
      | _ => rfl
    have all_reached := owns.reached held
    rw [reached] at all_reached
    simp only [AuditTrail.release, if_pos held]
    exact ⟨⟨once.once, once.committed, fun _ => all_reached⟩,
      ⟨fun running => absurd rfl running, nofun, nofun⟩⟩
  -- A lost answer and a lost connection are the two steps that the condition excludes.
  | unanswered some_row => cases fine
  | lost running => cases fine

/-- An event that happens to one run leaves the others what they own. -/
theorem Happens.others {other : τ} {progress : ExportPhase ι δ}
    (happens : Happens settings tx trail event phase next after) (owns : phase.Owns tx trail)
    (apart : other ≠ tx) (theirs : progress.Owns other trail) : progress.Owns other next := by
  -- Who holds the lock moves alone.
  have alone (held : trail.lock = some tx) (still : next.lock = some tx ∨ next.lock = none) :
      progress.Owns other next := by
    refine theirs.of_ne ?_ ?_
    · rw [held]
      exact fun same => apart (Option.some.inj same).symm
    · rcases still with still | still <;> rw [still]
      · exact fun same => apart (Option.some.inj same).symm
      · exact nofun
  -- The lock that a run gives back is its own.
  have released (running : phase ≠ .idle) : (trail.release tx).lock = none := by
    simp [AuditTrail.release, owns.lock running]
  cases happens with
  | waited elapsed => exact theirs.kept ⟨rfl, rfl, rfl⟩
  | begun begun => exact theirs.kept (beginTransaction_export begun)
  | wrote wrote => exact theirs.kept (write_export wrote)
  | ended pid committed => exact theirs.kept ⟨rfl, rfl, rfl⟩
  -- The lock was free, so the other run did not hold it.
  | took free =>
    refine theirs.of_ne (by simp [free]) ?_
    exact fun same => apart (Option.some.inj same).symm
  | delivered some_row => exact alone (owns.lock nofun) (.inl (owns.lock nofun))
  | moved here => exact alone (owns.lock nofun) (.inl (owns.lock nofun))
  | left running finished => exact alone (owns.lock running) (.inr (released running))
  | unanswered some_row =>
    have held : trail.lock = some tx := owns.lock nofun
    exact alone held (.inr (by simp [AuditTrail.release, held]))
  | lost running => exact alone (owns.lock running) (.inr (released running))
  | _ => exact theirs

end Runs

section System

variable [DecidableEq τ] {settings : AuditExportSettings} {system next : ExportSystem τ ι δ}
  {event : τ × ExportEvent ι δ}

/-- The database is sound, and every run may rely on what it has read. -/
abbrev ExportSound (system : ExportSystem τ ι δ) : Prop :=
  Sessions.Annotated TrailSound (fun _ trail phase => phase.Relies trail) system

/-- Nothing is delivered twice, and the run that works the destination works it alone. -/
abbrev ExportAlone (system : ExportSystem τ ι δ) : Prop :=
  Sessions.Annotated ExportedOnce (fun tx trail phase => phase.Owns tx trail) system

omit [DecidableEq τ] in
/-- The initial system is sound. -/
theorem exportSound_initial (now : Nat) : ExportSound (.initial now : ExportSystem τ ι δ) := by
  refine ⟨⟨nofun, nofun, .nil, nofun, nofun⟩, fun _ => trivial⟩

omit [DecidableEq τ] in
/-- In the initial system no two ticks hold the lock. -/
theorem exportAlone_initial (now : Nat) : ExportAlone (.initial now : ExportSystem τ ι δ) := by
  refine ⟨⟨.nil, List.Subset.refl _, fun _ => nofun⟩, fun _ => ⟨?_, nofun, nofun⟩⟩
  exact fun running => absurd rfl running

/-- A step keeps the system sound and moves the position only forward. -/
theorem ExportSound.step (sound : ExportSound system)
    (taken : exportStep settings system event = some next) :
    ExportSound next ∧ system.store.position.key ≤ next.store.position.key := by
  obtain ⟨tx, event⟩ := event
  refine ⟨?_, ?_⟩
  · -- What the step did, for its own phase and for the others' phases.
    refine Sessions.Annotated.step sound taken (fun store phase acted => ?_)
      fun store phase other progress acted _ theirs => ?_
    · have stepped := (happens_of_act acted).sound sound.shared (sound.own tx)
      exact ⟨stepped.1.1, stepped.2.1⟩
    · exact theirs.kept ((happens_of_act acted).sound sound.shared (sound.own tx)).1.2
  · -- And the cursor only goes forward.
    obtain ⟨store, phase, acted, rfl⟩ := Sessions.step_eq_some.mp taken
    exact ((happens_of_act acted).sound sound.shared (sound.own tx)).2.2

/-- A step that interrupts no run delivers nothing twice. -/
theorem ExportAlone.step (alone : ExportAlone system) (sound : ExportSound system)
    (fine : Sessions.Allows (fun _ event phase => event.uninterrupted phase = true) system event)
    (taken : exportStep settings system event = some next) : ExportAlone next := by
  obtain ⟨tx, event⟩ := event
  refine Sessions.Annotated.step alone taken (fun store phase acted => ?_)
    fun store phase other progress acted apart theirs => ?_
  · exact (happens_of_act acted).once sound.shared (sound.own tx) alone.shared (alone.own tx) fine
  · exact (happens_of_act acted).others (alone.own tx) apart theirs

/-- A run keeps the system sound and moves the position only forward. -/
theorem ExportSound.run {events : List (τ × ExportEvent ι δ)} {final : ExportSystem τ ι δ}
    (sound : ExportSound system) (ran : Store.run (exportStep settings) system events = some final) :
    ExportSound final ∧ system.store.position.key ≤ final.store.position.key := by
  refine ⟨run_invariant (fun _ _ _ holds _ taken => (holds.step taken).1)
    sound (Guarded.trivially _ _) ran, ?_⟩
  exact run_relation ExportSound
    (fun first second => first.store.position.key ≤ second.store.position.key)
    (fun _ => le_rfl) le_trans (fun _ _ _ holds _ taken => holds.step taken)
    sound (Guarded.trivially _ _) ran

/-- However transactions, runs, failures and crashes interleave, every committed row up to the
position has been delivered and the position never moves back; and unless a run is cut off between a
delivery and the move of the position, does not learn that its batch was taken, or loses its lock, no
row is delivered twice. -/
theorem audit_export_complete (now : Nat) (events : List (τ × ExportEvent ι δ))
    (final : ExportSystem τ ι δ)
    (ran : Store.run (exportStep settings) (.initial now) events = some final) :
    (∀ row ∈ final.store.rows, afterCursor final.store.position row = false →
      row ∈ final.store.delivered.flatten) ∧
    (∀ earlier later middle, events = earlier ++ later →
      Store.run (exportStep settings) (.initial now) earlier = some middle →
      middle.store.position.key ≤ final.store.position.key) ∧
    (Guarded (exportStep settings)
        (Sessions.Allows fun _ event phase => event.uninterrupted phase = true)
        (.initial now) events →
      (final.store.delivered.flatten.map AuditRow.id).Nodup) := by
  refine ⟨?_, ?_, ?_⟩
  · exact ((exportSound_initial now).run ran).1.shared.exported
  · intro earlier later middle split before
    rw [split, run_append, before] at ran
    exact ((exportSound_initial now).run before).1.run ran |>.2
  · intro fine
    have kept : ∀ (system : ExportSystem τ ι δ) event next,
        ExportSound system ∧ ExportAlone system →
        Sessions.Allows (fun _ event phase => event.uninterrupted phase = true) system event →
        exportStep settings system event = some next → ExportSound next ∧ ExportAlone next :=
      fun _ _ _ holds fine taken => ⟨(holds.1.step taken).1, holds.2.step holds.1 fine taken⟩
    obtain ⟨sound, alone⟩ :=
      run_invariant kept ⟨exportSound_initial now, exportAlone_initial now⟩ fine ran
    -- The delivered rows are distinct rows of the trail, where an id belongs to one row.
    have distinct := sound.shared.distinct
    rw [List.map_append, List.nodup_append] at distinct
    refine alone.shared.once.map_on ?_
    intro first one second two same
    exact List.inj_on_of_nodup_map distinct.1 (alone.shared.committed one)
      (alone.shared.committed two) same

end System

/-- Two rows of one instant that are exported in two batches, beside a transaction that is hidden for a
while, with a delivery that fails and a run that crashes while it reads. -/
def tiedRows : List (Bool × ExportEvent Nat Unit) :=
  [(true, .beginTransaction 1 false), (true, .beginTransaction 2 true), (true, .write 1 8 ()),
    (true, .write 1 3 ()), (true, .endTransaction 1 true), (true, .wait 1),
    -- While a transaction is hidden, the batch is empty.
    (true, .advance), (true, .advance), (true, .advance), (true, .advance), (true, .advance),
    (true, .advance), (true, .endTransaction 2 false),
    (false, .advance), (false, .advance), (false, .advance), (false, .crash),
    (true, .advance), (true, .advance), (true, .advance), (true, .advance), (true, .advance),
    (true, .refuse),
    (false, .advance), (true, .advance), (false, .advance), (false, .advance), (false, .advance),
    (false, .advance), (false, .advance), (false, .advance),
    (false, .advance), (false, .advance), (false, .advance), (false, .advance), (false, .advance),
    (false, .advance), (false, .stop)]

/-- Two runs that export one row, the first of which does not learn that the collector has taken it. -/
def answerLost : List (Bool × ExportEvent Nat Unit) :=
  [(true, .beginTransaction 1 false), (true, .write 1 8 ()), (true, .endTransaction 1 true),
    (true, .wait 1), (true, .advance), (true, .advance), (true, .advance), (true, .advance),
    (true, .advance), (true, .loseAnswer),
    (false, .advance), (false, .advance), (false, .advance), (false, .advance), (false, .advance),
    (false, .advance), (false, .advance)]

/-- A row whose delivery the run does not learn of is delivered again, without a crash. -/
theorem audit_export_repeated :
    ¬∀ (events : List (Bool × ExportEvent Nat Unit)) (final : ExportSystem Bool Nat Unit),
      Store.run (exportStep ⟨1, 1, le_rfl, le_rfl⟩) (.initial 0) events = some final →
      (∀ event ∈ events, event.2 ≠ .crash ∧ event.2 ≠ .disconnect) →
      (final.store.delivered.flatten.map AuditRow.id).Nodup := by
  intro once
  -- One row, delivered twice, and the cursor moved once.
  have ends : (Store.run (exportStep ⟨1, 1, le_rfl, le_rfl⟩) (.initial 0) answerLost).map (·.store) =
      some ⟨1, [], [], [⟨0, 8, ()⟩], some (0, 8), some false, [[⟨0, 8, ()⟩], [⟨0, 8, ()⟩]]⟩ := by
    decide +kernel
  obtain ⟨final, ran, stored⟩ := Option.map_eq_some_iff.mp ends
  have distinct := once answerLost final ran (by decide)
  rw [stored] at distinct
  -- So the two batches are not distinct.
  revert distinct
  decide

/-- The theorem at a run that exports two rows of one instant, each once. -/
theorem audit_export_complete_tied :
    ∃ final, Store.run (exportStep ⟨1, 1, le_rfl, le_rfl⟩) (.initial 0) tiedRows = some final ∧
      final.store.position = some (0, 8) ∧ final.store.delivered.length = 2 ∧
      (∀ row ∈ final.store.rows, row ∈ final.store.delivered.flatten) ∧
      (final.store.delivered.flatten.map AuditRow.id).Nodup := by
  -- Two rows of one moment, delivered in the order of their ids.
  have ends : (Store.run (exportStep ⟨1, 1, le_rfl, le_rfl⟩) (.initial 0) tiedRows).map (·.store) =
      some ⟨1, [], [], [⟨0, 8, ()⟩, ⟨0, 3, ()⟩], some (0, 8), none, [[⟨0, 3, ()⟩], [⟨0, 8, ()⟩]]⟩ := by
    decide +kernel
  obtain ⟨final, ran, stored⟩ := Option.map_eq_some_iff.mp ends
  obtain ⟨exported, _, once⟩ := audit_export_complete 0 tiedRows final ran
  refine ⟨final, ran, by rw [stored], by rw [stored]; rfl, ?_, once (by decide +kernel)⟩
  -- Each of them is in the trail the first law speaks of.
  intro row member
  refine exported row member ?_
  revert row
  rw [stored]
  decide

end Trusca
