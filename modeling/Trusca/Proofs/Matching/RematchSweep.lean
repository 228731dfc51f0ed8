import Trusca.Matching.Rematch
import Trusca.Store.Page

/-! What the sweep sends out, and how scans without a bill of materials keep others from being sent. -/

namespace Trusca

open Store

variable {db : RematchDb} {settings : RematchSettings} {tick : SweepTick}

section Batch

/-- Whether the tarball of a scan can be looked at, and shows a bill of materials. -/
def RematchDb.carriesSbom (db : RematchDb) (scan : RematchScan) : Bool :=
  match db.hasSbom scan with
  | .ok carries => carries
  | .error _ => false

/-- Whether the tarball of a scan can be looked at. -/
def RematchDb.opens (db : RematchDb) (scan : RematchScan) : Bool := (db.hasSbom scan).isOk

/-- The scans that are due and have something to be matched again. -/
def RematchDb.eligibleDue (db : RematchDb) (settings : RematchSettings) (now : Time) : List RematchScan :=
  (db.scans.filter (RematchScan.isDue (sweepCutoff settings now))).filter db.carriesSbom

/-- A call sends out the least recently matched of the scans that can be matched again, as many as a batch
holds; scans of one time may be taken in any order. -/
def RematchDb.SweepsExactly (db : RematchDb) (settings : RematchSettings) (tick : SweepTick) : Prop :=
  IsPage RematchScan.sweepKey (db.eligibleDue settings tick.now) settings.batchSize
    (enqueueDueRematches db settings tick).1

/-- The broker takes what the batch holds, no tarball that breaks off stands before it, and the batch holds
nothing that cannot be matched again or leaves nothing behind that can. -/
def RematchDb.BatchSuffices (db : RematchDb) (settings : RematchSettings) (tick : SweepTick) : Prop :=
  let batch := (db.dueScans settings tick).take settings.batchSize
  (∀ scan ∈ batch, db.carriesSbom scan = true →
      tick.accepts scan.id = true ∧ scan ∈ batch.takeWhile db.opens) ∧
    ((∀ scan ∈ batch, db.carriesSbom scan = true) ∨
      ∀ scan ∈ (db.dueScans settings tick).drop settings.batchSize, db.carriesSbom scan = false)

/-- The order of the query is total. -/
instance (tieBreak : ScanId → Nat) : Std.Total fun first second : RematchScan =>
    first.sweepKey < second.sweepKey ∨
      first.sweepKey = second.sweepKey ∧ tieBreak first.id ≤ tieBreak second.id where
  total first second := by
    rcases lt_trichotomy first.sweepKey second.sweepKey with less | same | more
    · exact .inl (.inl less)
    · exact (le_total (tieBreak first.id) (tieBreak second.id)).imp
        (fun before => .inr ⟨same, before⟩) (fun after => .inr ⟨same.symm, after⟩)
    · exact .inr (.inl more)

/-- The order of the query is transitive. -/
instance (tieBreak : ScanId → Nat) : IsTrans RematchScan fun first second =>
    first.sweepKey < second.sweepKey ∨
      first.sweepKey = second.sweepKey ∧ tieBreak first.id ≤ tieBreak second.id where
  trans first second third := by
    rintro (less | ⟨same, before⟩) (later | ⟨alike, after⟩)
    · exact .inl (less.trans later)
    · exact .inl (alike ▸ less)
    · exact .inl (same ▸ later)
    · exact .inr ⟨same.trans alike, before.trans after⟩

/-- The query returns the due scans, by the time of their last match. -/
theorem dueScans_ordered (db : RematchDb) (settings : RematchSettings) (tick : SweepTick) :
    (db.dueScans settings tick).Perm (db.scans.filter (RematchScan.isDue (sweepCutoff settings tick.now))) ∧
      (db.dueScans settings tick).Pairwise fun first second => first.sweepKey ≤ second.sweepKey := by
  refine ⟨List.perm_insertionSort _ _, ?_⟩
  -- Sorted by the key and, where keys tie, by the tie-break; the key alone is in order.
  have sorted := List.pairwise_insertionSort (fun first second : RematchScan =>
    first.sweepKey < second.sweepKey ∨
      first.sweepKey = second.sweepKey ∧ tick.tieBreak first.id ≤ tick.tieBreak second.id)
    (db.scans.filter (RematchScan.isDue (sweepCutoff settings tick.now)))
  refine sorted.imp ?_
  rintro first second (less | ⟨same, -⟩)
  · exact less.le
  · exact same.le

/-- Of the scans before the first tarball that breaks off, those with a bill of materials are sent out. -/
theorem sendOut_sent (db : RematchDb) (tick : SweepTick) (batch : List RematchScan) :
    (db.sendOut tick batch).1 =
      (batch.takeWhile db.opens).filter fun scan => db.carriesSbom scan && tick.accepts scan.id := by
  induction batch with
  | nil => rfl
  | cons scan rest ih =>
    -- A tarball that cannot be looked into ends the sweep here.
    cases looked : db.hasSbom scan with
    | error error =>
      have closed : db.opens scan = false := by rw [RematchDb.opens, looked]; rfl
      simp [RematchDb.sendOut, looked, closed]
    | ok carries =>
      have opens : db.opens scan = true := by rw [RematchDb.opens, looked]; rfl
      have same : db.carriesSbom scan = carries := by rw [RematchDb.carriesSbom, looked]
      -- One without an SBOM is passed over, one with it goes to the broker.
      cases carries with
      | false => simp [RematchDb.sendOut, looked, opens, same, ih]
      | true =>
        cases taken : tick.accepts scan.id <;> simp [RematchDb.sendOut, looked, opens, same, taken, ih]

/-- The due scans are distinct. -/
theorem dueScans_nodup (db : RematchDb) (settings : RematchSettings) (tick : SweepTick) :
    (db.dueScans settings tick).Nodup := by
  rw [(dueScans_ordered db settings tick).1.nodup_iff]
  exact db.scansOnce.of_map.filter _

/-- Among distinct items, those in front that pass a test are those that pass it and stand in front. -/
theorem filter_takeWhile {α : Type} [DecidableEq α] {items : List α} (distinct : items.Nodup)
    (front keeps : α → Bool) :
    (items.takeWhile front).filter keeps =
      items.filter fun item => keeps item && decide (item ∈ items.takeWhile front) := by
  have parts := List.takeWhile_append_dropWhile (p := front) (l := items)
  -- What is dropped is not among what is taken, since no item is there twice.
  have apart : ∀ item ∈ items.dropWhile front, item ∉ items.takeWhile front := by
    rw [← parts, List.nodup_append] at distinct
    exact fun item behind ahead => distinct.2.2 item ahead item behind rfl
  conv_rhs => rw [← parts, List.filter_append]
  rw [parts]
  -- So the front is the only part the filter finds.
  have behind : (items.dropWhile front).filter
      (fun item => keeps item && decide (item ∈ items.takeWhile front)) = [] := by
    rw [List.filter_eq_nil_iff]
    intro item member
    simp [apart item member]
  rw [behind, List.append_nil]
  exact List.filter_congr fun item member => by simp [member]

/-- In every run, a call of the sweep sends out what it should exactly when its batch suffices. -/
theorem sweep_exact (start : RematchDb) (events : List RematchEvent) (settings : RematchSettings)
    (tick : SweepTick) :
    (start.runEvents events).SweepsExactly settings tick ↔
      (start.runEvents events).BatchSuffices settings tick := by
  generalize start.runEvents events = db
  obtain ⟨perm, ordered⟩ := dueScans_ordered db settings tick
  have distinct := (dueScans_nodup db settings tick).sublist (List.take_sublist settings.batchSize _)
  unfold RematchDb.SweepsExactly RematchDb.BatchSuffices RematchDb.eligibleDue enqueueDueRematches
  rw [sendOut_sent, filter_takeWhile distinct]
  -- A task is taken when the sweep comes to the scan and the broker accepts it.
  simp only [Bool.and_assoc]
  rw [isPage_filter RematchScan.sweepKey perm ordered db.carriesSbom fun scan => tick.accepts scan.id &&
    decide (scan ∈ ((db.dueScans settings tick).take settings.batchSize).takeWhile db.opens)]
  simp only [Bool.and_eq_true, decide_eq_true_eq]

/-- A scan that was never preserved, and one that was matched before and has a bill of materials. -/
def starvedDb : RematchDb where
  scans := [⟨1, 1, .succeeded, none, none⟩, ⟨2, 1, .succeeded, none, some 0⟩]
  catalog _ := none
  findings _ := []
  components _ _ := none
  projectNames _ := none
  tarballs _ scan := if scan = 2 then .members [⟨sbomMemberName, true, 100⟩] else .absent
  scansOnce := by decide

/-- The scan without a tarball fills the batch, and the other one is never sent out. -/
theorem sweep_starved :
    (enqueueDueRematches starvedDb ⟨6, 1, 30⟩ ⟨100000, id, fun _ => true⟩).1 = [] ∧
      starvedDb.eligibleDue ⟨6, 1, 30⟩ 100000 = [⟨2, 1, .succeeded, none, some 0⟩] ∧
      ¬ starvedDb.SweepsExactly ⟨6, 1, 30⟩ ⟨100000, id, fun _ => true⟩ := by
  -- The batch holds the one scan that cannot be matched, and the other is due.
  have sent : (enqueueDueRematches starvedDb ⟨6, 1, 30⟩ ⟨100000, id, fun _ => true⟩).1 = [] := by
    decide +kernel
  have due : starvedDb.eligibleDue ⟨6, 1, 30⟩ 100000 = [⟨2, 1, .succeeded, none, some 0⟩] := by
    decide +kernel
  refine ⟨sent, due, ?_⟩
  -- Sending exactly the due ones would have to send it.
  rintro ⟨sorted, perm, -, same⟩
  rw [due, List.perm_singleton] at perm
  rw [sent, perm] at same
  cases same

end Batch

section Starvation

/-- A scan that stays at the front of every batch: due for good, and with nothing to be matched again. -/
def RematchDb.isStuck (db : RematchDb) (scan : RematchScan) : Bool :=
  scan.status == .succeeded && scan.supersededAt.isNone && scan.lastRematchedAt.isNone && !db.carriesSbom scan

/-- Only what has a bill of materials can be extracted. -/
theorem hasSbom_of_extract {tarball : PreservedTarball} {size : Nat}
    (extracted : extractPreservedSbom tarball = .ok size) : preservedTarballHasSbom tarball = .ok true := by
  -- Only a tarball that was read through has given a size.
  cases tarball with
  | absent => cases extracted
  | unreadable => cases extracted
  | broken error => cases extracted
  | members all =>
    simp only [extractPreservedSbom] at extracted
    cases found : getMember sbomMemberName all with
    | none =>
      rw [found] at extracted
      cases extracted
    | some member =>
      -- The member is there and regular, which is what the predicate asks.
      rw [found] at extracted
      dsimp only at extracted
      split_ifs at extracted with irregular
      · simpa [preservedTarballHasSbom, found] using irregular

/-- What a worker does: nothing, or a match of a scan that has a bill of materials. -/
theorem rematchScanFindings_cases (db : RematchDb) (scanId : ScanId) (run : RematchRun) :
    (∃ reason, rematchScanFindings db scanId run = (db, .skipped reason)) ∨
      ∃ scan ∈ db.scans, scan.id = scanId ∧ db.carriesSbom scan = true ∧
        ∃ report, run.trivy = .ok report ∧ rematchScanFindings db scanId run =
          ((completeRematch db scan report run).1, .completed (completeRematch db scan report run).2) := by
  unfold rematchScanFindings
  -- The guards in their order: the scan, the lock, the tarball, the matcher and what it reports.
  cases found : db.scans.find? fun scan => scan.id == scanId && scan.status == .succeeded with
  | none => exact .inl ⟨_, rfl⟩
  | some scan =>
    have here := List.mem_of_find?_eq_some found
    have named := List.find?_some found
    simp only [Bool.and_eq_true, beq_iff_eq] at named
    dsimp only
    split_ifs with locked
    · exact .inl ⟨_, rfl⟩
    · cases extracted : extractPreservedSbom (db.tarballs scan.projectId scan.id) with
      | error reason => exact .inl ⟨_, rfl⟩
      | ok size =>
        cases matched : run.trivy with
        | error reason => exact .inl ⟨_, rfl⟩
        | ok report =>
          dsimp only
          split_ifs with refused
          · exact .inl ⟨_, rfl⟩
          · -- Behind the guards the tarball has the SBOM that was extracted from it.
            have able : db.carriesSbom scan = true := by
              rw [RematchDb.carriesSbom, RematchDb.hasSbom, hasSbom_of_extract extracted]
            exact .inr ⟨scan, here, named.1, able, report, rfl, rfl⟩

/-- How many scans stay at the front of every batch. -/
def RematchDb.stuckCount (db : RematchDb) : Nat := db.scans.countP db.isStuck

/-- A match of a scan that is not stuck leaves the stuck ones as they are. -/
theorem stuckCount_completeRematch {scan : RematchScan} (here : scan ∈ db.scans)
    (able : db.carriesSbom scan = true)
    (report : TrivyReport) (run : RematchRun) :
    db.stuckCount ≤ (completeRematch db scan report run).1.stuckCount := by
  have rows : (completeRematch db scan report run).1.scans = db.scans.map fun row =>
      if row.id = scan.id then { row with lastRematchedAt := some run.now } else row := rfl
  have disk : (completeRematch db scan report run).1.carriesSbom = db.carriesSbom := rfl
  unfold RematchDb.stuckCount
  rw [rows, List.countP_map]
  refine List.countP_mono_left fun row listed stuck => ?_
  -- The row of the scan itself is not stuck, and the other rows are not touched.
  have other : row.id ≠ scan.id := by
    intro same
    have equal := List.inj_on_of_nodup_map db.scansOnce listed here same
    rw [equal, RematchDb.isStuck, able] at stuck
    simp at stuck
  simpa only [Function.comp_apply, if_neg other, RematchDb.isStuck, disk] using stuck

/-- No event frees a stuck scan. -/
theorem stuckCount_runEvents (start : RematchDb) (events : List RematchEvent) :
    start.stuckCount ≤ (start.runEvents events).stuckCount := by
  induction events generalizing start with
  | nil => exact le_rfl
  | cons event rest ih =>
    refine le_trans ?_ (ih (start.serve event))
    -- Only a rematch makes a scan stuck, and it never frees one.
    cases event with
    | tick tick => exact le_rfl
    | matched scan report => exact le_rfl
    | rematch scanId run =>
      obtain ⟨reason, skipped⟩ | ⟨scan, here, -, able, report, -, completed⟩ :=
        rematchScanFindings_cases start scanId run
      · simp [RematchDb.serve, skipped]
      · simpa only [RematchDb.serve, completed] using stuckCount_completeRematch here able report run

/-- Once there is a batch of stuck scans, no scan that was matched before is ever sent out again. -/
theorem sweep_starves {start : RematchDb} (full : settings.batchSize ≤ start.stuckCount)
    (events : List RematchEvent) (tick : SweepTick) :
    ∀ scan ∈ (enqueueDueRematches (start.runEvents events) settings tick).1, scan.lastRematchedAt = none := by
  have still := full.trans (stuckCount_runEvents start events)
  generalize start.runEvents events = db at still
  intro scan sent
  obtain ⟨perm, ordered⟩ := dueScans_ordered db settings tick
  rw [enqueueDueRematches, sendOut_sent] at sent
  have first := (List.takeWhile_sublist _).subset (List.mem_filter.mp sent).1
  let front : RematchScan := ⟨0, 0, .succeeded, none, none⟩
  -- Stuck scans are due, and nothing comes before them.
  have enough : settings.batchSize ≤
      (db.dueScans settings tick).countP fun found => decide (found.sweepKey ≤ front.sweepKey) := by
    rw [perm.countP_eq, List.countP_filter]
    refine still.trans (List.countP_mono_left fun row _ stuck => ?_)
    simp only [RematchDb.isStuck, Bool.and_eq_true, beq_iff_eq, Option.isNone_iff_eq_none] at stuck
    obtain ⟨⟨⟨succeeded, live⟩, never⟩, -⟩ := stuck
    simp [RematchScan.isDue, RematchScan.sweepKey, succeeded, live, never]
  have ahead : scan.sweepKey ≤ front.sweepKey := key_le_of_page ordered first enough
  cases last : scan.lastRematchedAt with
  | none => rfl
  | some moment => simp [RematchScan.sweepKey, last, front] at ahead

end Starvation

end Trusca
