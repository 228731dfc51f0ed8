import Mathlib.Data.List.Find
import Trusca.Proofs.Matching.Refresh

/-! A pass of the reconciler: which findings a scan has afterwards, what survives of those it had,
and that the same report changes nothing a second time. -/

namespace Trusca

/-- The pairs a report names. -/
def reportKeys (calls : List ReconcilerCall) : List FindingKey :=
  calls.filterMap fun
    | .apply _ entry => some entry.key
    | .withholdDeletions _ => none

/-- Whether part of the report could not be read. -/
def withholds (calls : List ReconcilerCall) : Bool :=
  calls.any fun
    | .apply _ _ => false
    | .withholdDeletions _ => true

/-- The first entry of a report for a pair: the one that counts. -/
def firstEntry : List ReconcilerCall → FindingKey → Option (Moment × ReportEntry)
  | [], _ => none
  | .apply moment entry :: rest, key =>
      if entry.key = key then some (moment, entry) else firstEntry rest key
  | .withholdDeletions _ :: rest, key => firstEntry rest key

/-- Two passes over the same report: the same entry counts for every pair, and both could read all
of it or neither could. The clock and the ids may differ. -/
structure SameReport (calls again : List ReconcilerCall) : Prop where
  entries : ∀ key, (firstEntry calls key).map Prod.snd = (firstEntry again key).map Prod.snd
  withheld : withholds calls = withholds again

/-- The entry that counts for a pair is about the pair. -/
theorem firstEntry_key {calls : List ReconcilerCall} {key : FindingKey} {moment : Moment}
    {entry : ReportEntry} (found : firstEntry calls key = some (moment, entry)) :
    entry.key = key := by
  induction calls with
  | nil => cases found
  | cons call rest ih =>
    -- The first entry of the key is this call's, or a later one's.
    cases call with
    | withholdDeletions reason => exact ih found
    | apply time other =>
      rw [firstEntry] at found
      split at found
      · rename_i same
        cases found
        exact same
      · exact ih found

/-- A pair has an entry that counts exactly when the report names it. -/
theorem firstEntry_isSome_iff (calls : List ReconcilerCall) (key : FindingKey) :
    (firstEntry calls key).isSome ↔ key ∈ reportKeys calls := by
  induction calls with
  | nil => simp [firstEntry, reportKeys]
  | cons call rest ih =>
    -- A call that withholds reports nothing; an entry reports its own key.
    cases call with
    | withholdDeletions reason => simpa [firstEntry, reportKeys] using ih
    | apply time entry =>
      by_cases same : entry.key = key
      · simp [firstEntry, reportKeys, same]
      · have other : ¬key = entry.key := fun equal => same equal.symm
        simpa [firstEntry, reportKeys, same, other] using ih

namespace FindingReconciler

/-- The row the reconciler holds for a pair, old or new. -/
def row? (reconciler : FindingReconciler) (key : FindingKey) : Option ReportedFinding :=
  (reconciler.existing.find? (reconciler.scan, key)).or
    (reconciler.created.find? fun row => row.key = key)

/-- What holds of a reconciler between its construction and its end. -/
structure Sound (db : MatchingDb) (reconciler : FindingReconciler) : Prop where
  /-- The rows it loaded are those of its scan. -/
  loaded : ∀ key, (reconciler.existing.find? (reconciler.scan, key)).isSome =
    (db.finding? reconciler.scan key).isSome
  ownRows : ∀ row ∈ reconciler.existing.rows, row.scanId = reconciler.scan
  createdOwn : ∀ row ∈ reconciler.created, row.scanId = reconciler.scan
  /-- A pair gets one new row, and only when the scan had none. -/
  createdOnce : (reconciler.created.map ReportedFinding.key).Nodup
  createdSeen : ∀ row ∈ reconciler.created, row.key ∈ reconciler.seen
  createdFresh : ∀ row ∈ reconciler.created,
    reconciler.existing.find? (reconciler.scan, row.key) = none

/-- What a refresh makes of an old row, as the reconciliation of one key sees it. -/
def updateRow (carry : CarryForward) (arrival : Moment × ReportEntry) (row : ReportedFinding) :
    ReportedFinding :=
  (row.refresh carry arrival.1.now arrival.2).1

/-- The new row of an entry, as the reconciliation of one key sees it. -/
def createRow (carry : CarryForward) (scan : ScanId) (arrival : Moment × ReportEntry) :
    ReportedFinding :=
  newFinding carry scan arrival.1 arrival.2

/-- A reconciler just constructed holds the scan's own findings. -/
theorem start_find? (db : MatchingDb) (scan : ScanId) (prior : PriorState)
    (carryAssignment : Bool) (key : FindingKey) :
    (start db scan prior carryAssignment).existing.find? (scan, key) = db.finding? scan key := by
  unfold start MatchingDb.finding?
  dsimp only
  rw [Store.Table.find?_filter]
  cases found : db.findings.find? (scan, key) with
  | none => rfl
  | some row =>
    -- The key holds the scan, so the query keeps the row.
    have own : row.scanId = scan := congrArg Prod.fst (Store.Table.key_of_find? found)
    simp [own]

/-- A reconciler just constructed is sound. -/
theorem start_sound (db : MatchingDb) (scan : ScanId) (prior : PriorState)
    (carryAssignment : Bool) : Sound db (start db scan prior carryAssignment) where
  loaded := fun key => congrArg Option.isSome (start_find? db scan prior carryAssignment key)
  ownRows := by
    intro row member
    show row.scanId = scan
    simpa using (List.mem_filter.mp member).2
  createdOwn := by simp [start]
  createdOnce := by simp [start]
  createdSeen := by simp [start]
  createdFresh := by simp [start]

/-- The new pair has no row among the created ones. -/
theorem Sound.created_absent {db : MatchingDb} {reconciler : FindingReconciler}
    (sound : Sound db reconciler) {key : FindingKey} (unseen : key ∉ reconciler.seen) :
    (reconciler.created.find? fun row => row.key = key) = none := by
  rw [List.find?_eq_none]
  intro row member same
  have named : row.key = key := by simpa using same
  exact unseen (named ▸ sound.createdSeen row member)

/-- A refreshed row keeps its place in the table. -/
theorem refresh_scanKey (carry : CarryForward) (now : Time) {entry : ReportEntry}
    {row : ReportedFinding} (named : entry.key = row.key) :
    (row.refresh carry now entry).1.scanKey = row.scanKey :=
  (ReportedFinding.refresh_survives named now).scanKey

section Step

variable {db : MatchingDb} {reconciler : FindingReconciler} {moment : Moment} {entry : ReportEntry}

/-- An entry whose pair was applied before does nothing. -/
theorem apply_of_seen (seen : entry.key ∈ reconciler.seen) :
    reconciler.apply moment entry = reconciler := by
  unfold apply
  exact if_pos seen

/-- An entry for a pair the scan has refreshes its row. -/
theorem apply_of_old (unseen : entry.key ∉ reconciler.seen) {row : ReportedFinding}
    (found : reconciler.existing.find? (reconciler.scan, entry.key) = some row) :
    reconciler.apply moment entry =
      { reconciler with
        seen := reconciler.seen ++ [entry.key]
        existing := reconciler.existing.put (row.refresh reconciler.carry moment.now entry).1
        updated :=
          if (row.refresh reconciler.carry moment.now entry).2 then reconciler.updated + 1
          else reconciler.updated
        carriedStatus :=
          if row.status = .new ∧
              (row.refresh reconciler.carry moment.now entry).1.status ≠ .new then
            reconciler.carriedStatus ++
              [((row.refresh reconciler.carry moment.now entry).1, .new)]
          else reconciler.carriedStatus } := by
  unfold apply
  rw [if_neg unseen]
  simp only [found]

/-- An entry for a pair the scan lacks creates its row. -/
theorem apply_of_new (unseen : entry.key ∉ reconciler.seen)
    (missing : reconciler.existing.find? (reconciler.scan, entry.key) = none) :
    reconciler.apply moment entry =
      { reconciler with
        seen := reconciler.seen ++ [entry.key]
        created := reconciler.created ++
          [newFinding reconciler.carry reconciler.scan moment entry] } := by
  unfold apply
  rw [if_neg unseen]
  simp only [missing]

/-- What one entry leaves alone. -/
theorem apply_frame (reconciler : FindingReconciler) (moment : Moment) (entry : ReportEntry) :
    (reconciler.apply moment entry).scan = reconciler.scan ∧
      (reconciler.apply moment entry).carry = reconciler.carry ∧
      (reconciler.apply moment entry).withheldReasons = reconciler.withheldReasons := by
  by_cases seen : entry.key ∈ reconciler.seen
  · rw [apply_of_seen seen]
    exact ⟨rfl, rfl, rfl⟩
  · cases found : reconciler.existing.find? (reconciler.scan, entry.key) with
    | none => rw [apply_of_new seen found]; exact ⟨rfl, rfl, rfl⟩
    | some row => rw [apply_of_old seen found]; exact ⟨rfl, rfl, rfl⟩

/-- One entry marks its pair and no other. -/
theorem mem_seen_apply (key : FindingKey) :
    key ∈ (reconciler.apply moment entry).seen ↔ key ∈ reconciler.seen ∨ key = entry.key := by
  -- The key has been seen: nothing happens.
  by_cases seen : entry.key ∈ reconciler.seen
  · rw [apply_of_seen seen]
    constructor
    · exact Or.inl
    · rintro (before | rfl)
      · exact before
      · exact seen
  · -- It has not: the key is added, whether the row is new or old.
    cases found : reconciler.existing.find? (reconciler.scan, entry.key) with
    | none => rw [apply_of_new seen found]; simp
    | some row => rw [apply_of_old seen found]; simp

/-- One entry reconciles its own pair, the first time it comes up. -/
theorem row?_apply (sound : Sound db reconciler) (key : FindingKey) :
    (reconciler.apply moment entry).row? key =
      if key = entry.key ∧ key ∉ reconciler.seen then
        Store.reconciled (updateRow reconciler.carry) (createRow reconciler.carry reconciler.scan)
          true (some (moment, entry)) (reconciler.row? key)
      else reconciler.row? key := by
  by_cases seen : entry.key ∈ reconciler.seen
  · rw [apply_of_seen seen, if_neg]
    rintro ⟨rfl, unseen⟩
    exact unseen seen
  · cases found : reconciler.existing.find? (reconciler.scan, entry.key) with
    | none =>
      rw [apply_of_new seen found]
      have named : (newFinding reconciler.carry reconciler.scan moment entry).key = entry.key :=
        congrArg Prod.snd (newFinding_scanKey reconciler.carry reconciler.scan moment entry)
      by_cases mine : key = entry.key
      · -- The new row is found last, and neither table had one before it.
        subst mine
        rw [if_pos ⟨rfl, seen⟩]
        unfold row?
        dsimp only
        rw [List.find?_append, sound.created_absent seen, found]
        simp [named, Store.reconciled, createRow]
      · have other : ¬entry.key = key := fun equal => mine equal.symm
        rw [if_neg fun both => mine both.1]
        unfold row?
        dsimp only
        rw [List.find?_append]
        simp [named, other]
    | some row =>
      have stored := Store.Table.key_of_find? found
      have pair : entry.key = row.key := (congrArg Prod.snd stored).symm
      -- The refreshed row has the old row's key, so it takes its place in the table.
      have place := refresh_scanKey reconciler.carry moment.now pair
      by_cases mine : key = entry.key
      · subst mine
        rw [if_pos ⟨rfl, seen⟩, apply_of_old seen found]
        unfold row?
        dsimp only
        rw [Store.Table.find?_put, place, stored, if_pos rfl, found]
        rfl
      · rw [if_neg fun both => mine both.1, apply_of_old seen found]
        unfold row?
        dsimp only
        have elsewhere : ¬(reconciler.scan, key) = row.scanKey := by
          rw [stored]
          exact fun equal => mine (congrArg Prod.snd equal)
        rw [Store.Table.find?_put, place, if_neg elsewhere]

/-- One entry keeps the reconciler sound. -/
theorem apply_sound (sound : Sound db reconciler) :
    Sound db (reconciler.apply moment entry) := by
  by_cases seen : entry.key ∈ reconciler.seen
  · rw [apply_of_seen seen]
    exact sound
  · -- The pair is new to the scan, or has a row already.
    cases found : reconciler.existing.find? (reconciler.scan, entry.key) with
    | none =>
      rw [apply_of_new seen found]
      have place := newFinding_scanKey reconciler.carry reconciler.scan moment entry
      have named : (newFinding reconciler.carry reconciler.scan moment entry).key = entry.key :=
        congrArg Prod.snd place
      refine
        { loaded := sound.loaded
          ownRows := sound.ownRows
          createdOwn := ?_
          createdOnce := ?_
          createdSeen := ?_
          createdFresh := ?_ }
      · -- The new row is one of this scan.
        intro row member
        rcases List.mem_append.mp member with before | last
        · exact sound.createdOwn row before
        · rw [List.mem_singleton.mp last]
          exact congrArg Prod.fst place
      · -- The pair was not seen, so no earlier new row is about it.
        rw [List.map_append, List.nodup_append]
        refine ⟨sound.createdOnce, by simp, ?_⟩
        intro first before second last same
        obtain ⟨row, member, rfl⟩ := List.mem_map.mp before
        have own : second = entry.key := by simpa [named] using last
        exact seen (own ▸ same ▸ sound.createdSeen row member)
      · -- What is created has been seen.
        intro row member
        rcases List.mem_append.mp member with before | last
        · exact List.mem_append_left _ (sound.createdSeen row before)
        · rw [List.mem_singleton.mp last, named]
          simp
      · -- Nothing created was stored before.
        intro row member
        rcases List.mem_append.mp member with before | last
        · exact sound.createdFresh row before
        · rw [List.mem_singleton.mp last, named]
          exact found
    | some row =>
      rw [apply_of_old seen found]
      have stored := Store.Table.key_of_find? found
      have pair : entry.key = row.key := (congrArg Prod.snd stored).symm
      have place := refresh_scanKey reconciler.carry moment.now pair
      -- A refresh neither adds nor removes a key.
      have same_keys : ∀ key,
          ((reconciler.existing.put (row.refresh reconciler.carry moment.now entry).1).find?
            (reconciler.scan, key)).isSome =
          (reconciler.existing.find? (reconciler.scan, key)).isSome := by
        intro key
        rw [Store.Table.find?_put]
        split <;> simp
      refine
        { loaded := fun key => (same_keys key).trans (sound.loaded key)
          ownRows := ?_
          createdOwn := sound.createdOwn
          createdOnce := sound.createdOnce
          createdSeen := fun row member => List.mem_append_left _ (sound.createdSeen row member)
          createdFresh := ?_ }
      · -- A refreshed row keeps its key, and so its scan.
        intro other member
        obtain ⟨old, before, replaced⟩ := List.mem_map.mp member
        split at replaced
        · subst replaced
          exact (congrArg Prod.fst place).trans (congrArg Prod.fst stored)
        · subst replaced
          exact sound.ownRows old before
      · intro other member
        have absent := same_keys other.key
        rw [sound.createdFresh other member] at absent
        exact Option.not_isSome_iff_eq_none.mp (by rw [absent]; decide)

end Step

section Run

variable {db : MatchingDb}

/-- The scan and the carried maps are fixed at the construction. -/
theorem run_frame (calls : List ReconcilerCall) (reconciler : FindingReconciler) :
    (calls.foldl serve reconciler).scan = reconciler.scan ∧
      (calls.foldl serve reconciler).carry = reconciler.carry := by
  induction calls generalizing reconciler with
  | nil => exact ⟨rfl, rfl⟩
  | cons call rest ih =>
    rw [List.foldl_cons, (ih _).1, (ih _).2]
    -- No call touches the scan or the carried rows.
    cases call with
    | apply moment entry =>
      exact ⟨(apply_frame reconciler moment entry).1, (apply_frame reconciler moment entry).2.1⟩
    | withholdDeletions reason => exact ⟨rfl, rfl⟩

/-- Recording a reason disturbs nothing else. -/
theorem withholdDeletions_sound {reconciler : FindingReconciler} (sound : Sound db reconciler)
    (reason : String) : Sound db (reconciler.withholdDeletions reason) :=
  ⟨sound.loaded, sound.ownRows, sound.createdOwn, sound.createdOnce, sound.createdSeen,
    sound.createdFresh⟩

/-- Every pass keeps the reconciler sound. -/
theorem run_sound (calls : List ReconcilerCall) {reconciler : FindingReconciler}
    (sound : Sound db reconciler) : Sound db (calls.foldl serve reconciler) := by
  induction calls generalizing reconciler with
  | nil => exact sound
  | cons call rest ih =>
    cases call with
    | apply moment entry => exact ih (apply_sound sound)
    | withholdDeletions reason => exact ih (withholdDeletions_sound sound reason)

/-- The pairs seen by the end are those the report names. -/
theorem mem_seen_run (calls : List ReconcilerCall) (reconciler : FindingReconciler)
    (key : FindingKey) :
    key ∈ (calls.foldl serve reconciler).seen ↔
      key ∈ reconciler.seen ∨ (firstEntry calls key).isSome := by
  induction calls generalizing reconciler with
  | nil => simp [firstEntry]
  | cons call rest ih =>
    rw [List.foldl_cons, ih]
    -- Only an entry adds to the seen keys, and it adds its own.
    cases call with
    | withholdDeletions reason => rfl
    | apply moment entry =>
      show key ∈ (reconciler.apply moment entry).seen ∨ _ ↔ _
      rw [mem_seen_apply, firstEntry]
      by_cases mine : entry.key = key
      · simp [mine]
      · have other : ¬key = entry.key := fun equal => mine equal.symm
        simp [mine, other]

/-- Deletion is withheld when some call says so. -/
theorem withheldReasons_run (calls : List ReconcilerCall) (reconciler : FindingReconciler) :
    (calls.foldl serve reconciler).withheldReasons.isEmpty =
      (reconciler.withheldReasons.isEmpty && !withholds calls) := by
  induction calls generalizing reconciler with
  | nil => simp [withholds]
  | cons call rest ih =>
    rw [List.foldl_cons, ih]
    -- Only a withholding adds a reason.
    cases call with
    | withholdDeletions reason => simp [serve, withholdDeletions, withholds]
    | apply moment entry =>
      have kept := (apply_frame reconciler moment entry).2.2
      simp [serve, kept, withholds]

/-- By the end every pair is reconciled with the first entry for it, before any deletion. -/
theorem row?_run (calls : List ReconcilerCall) {reconciler : FindingReconciler}
    (sound : Sound db reconciler) (key : FindingKey) :
    (calls.foldl serve reconciler).row? key =
      if key ∈ reconciler.seen then reconciler.row? key
      else
        Store.reconciled (updateRow reconciler.carry) (createRow reconciler.carry reconciler.scan)
          true (firstEntry calls key) (reconciler.row? key) := by
  -- Induction on the calls left: a pair already seen is settled, any other still waits for its entry.
  induction calls generalizing reconciler with
  | nil =>
    show reconciler.row? key = _
    cases reconciler.row? key <;> simp [firstEntry, Store.reconciled]
  | cons call rest ih =>
    rw [List.foldl_cons]
    cases call with
    | withholdDeletions reason =>
      -- A recorded reason matters to `finish` only.
      exact ih (withholdDeletions_sound sound reason)
    | apply moment entry =>
      have frame := apply_frame reconciler moment entry
      show (rest.foldl serve (reconciler.apply moment entry)).row? key = _
      rw [ih (apply_sound sound), row?_apply sound, frame.1, frame.2.1, firstEntry]
      by_cases mine : key = entry.key
      · -- After its first entry the pair is seen, and the rest of the report passes it by.
        subst mine
        have marked : entry.key ∈ (reconciler.apply moment entry).seen :=
          (mem_seen_apply entry.key).mpr (Or.inr rfl)
        rw [if_pos marked, if_pos rfl]
        by_cases seen : entry.key ∈ reconciler.seen
        · rw [if_neg fun both => both.2 seen, if_pos seen]
        · rw [if_pos ⟨rfl, seen⟩, if_neg seen]
      · -- An entry for another pair leaves the row and the first entry of this one.
        have other : ¬entry.key = key := fun equal => mine equal.symm
        rw [if_neg fun both : key = entry.key ∧ _ => mine both.1, if_neg other]
        by_cases seen : key ∈ reconciler.seen
        · rw [if_pos seen, if_pos ((mem_seen_apply key).mpr (Or.inl seen))]
        · have unmarked : key ∉ (reconciler.apply moment entry).seen := by
            rw [mem_seen_apply]
            exact fun either => either.elim seen mine
          rw [if_neg seen, if_neg unmarked]

end Run

section Finish

variable {db : MatchingDb} {reconciler : FindingReconciler}

/-- A row of the scan is removed exactly when the report, read in full, does not mention it. -/
theorem removed_any_iff {row : ReportedFinding}
    (held : reconciler.existing.find? row.scanKey = some row) :
    (reconciler.removed.any fun gone => gone.scanKey = row.scanKey) = true ↔
      reconciler.withheldReasons.isEmpty = true ∧ row.key ∉ reconciler.seen := by
  unfold removed
  -- With a reason to withhold nothing is removed at all.
  cases reconciler.withheldReasons.isEmpty with
  | false => simp
  | true =>
    rw [if_pos rfl]
    simp only [stale, List.any_eq_true, List.mem_filter, decide_eq_true_eq, true_and]
    -- Otherwise every row that was not seen is.
    constructor
    · rintro ⟨gone, ⟨member, unseen⟩, same⟩
      have pair : gone.key = row.key := congrArg Prod.snd same
      rw [← pair]
      simpa using unseen
    · intro unseen
      exact ⟨row, ⟨Store.Table.mem_of_find? held, by simpa using unseen⟩, rfl⟩

/-- A removed row is one of the scan's. -/
theorem removed_own (sound : Sound db reconciler) {gone : ReportedFinding}
    (member : gone ∈ reconciler.removed) : gone.scanId = reconciler.scan := by
  unfold removed at member
  split at member
  · exact sound.ownRows gone (List.mem_of_mem_filter member)
  · cases member

/-- No row of another scan is removed. -/
theorem removed_any_elsewhere (sound : Sound db reconciler) {row : ReportedFinding}
    (other : row.scanId ≠ reconciler.scan) :
    (reconciler.removed.any fun gone => gone.scanKey = row.scanKey) = false := by
  rw [List.any_eq_false]
  intro gone member same
  have place : gone.scanKey = row.scanKey := by simpa using same
  have scan_same : gone.scanId = row.scanId := congrArg Prod.fst place
  exact other (scan_same.symm.trans (removed_own sound member))

/-- The rows that stay: those of the other scans, and those of the scan that were not removed. -/
def keptRows (reconciler : FindingReconciler) (db : MatchingDb) :
    Store.Table ReportedFinding.scanKey :=
  (db.findings.overlay reconciler.existing).filter fun row =>
    !reconciler.removed.any fun gone => gone.scanKey = row.scanKey

/-- Nothing of another scan is loaded. -/
theorem Sound.existing_elsewhere (sound : Sound db reconciler) {scan : ScanId}
    (other : scan ≠ reconciler.scan) (key : FindingKey) :
    reconciler.existing.find? (scan, key) = none := by
  cases found : reconciler.existing.find? (scan, key) with
  | none => rfl
  | some row =>
    have own := sound.ownRows row (Store.Table.mem_of_find? found)
    have named : row.scanId = scan := congrArg Prod.fst (Store.Table.key_of_find? found)
    exact absurd (named.symm.trans own) other

/-- The other scans keep all their rows. -/
theorem find?_keptRows_elsewhere (sound : Sound db reconciler) {scan : ScanId}
    (other : scan ≠ reconciler.scan) (key : FindingKey) :
    (reconciler.keptRows db).find? (scan, key) = db.finding? scan key := by
  unfold keptRows MatchingDb.finding?
  rw [Store.Table.find?_filter, Store.Table.find?_overlay, sound.existing_elsewhere other]
  -- A row of another scan is neither existing here nor removed.
  cases found : db.findings.find? (scan, key) with
  | none => rfl
  | some row =>
    have named : row.scanId = scan := congrArg Prod.fst (Store.Table.key_of_find? found)
    have foreign : row.scanId ≠ reconciler.scan := by
      rw [named]
      exact other
    simp [removed_any_elsewhere sound foreign]

/-- The scan keeps the rows the report names, and all of them when deletion is withheld. -/
theorem find?_keptRows (sound : Sound db reconciler) (key : FindingKey) :
    (reconciler.keptRows db).find? (reconciler.scan, key) =
      if reconciler.withheldReasons.isEmpty = true ∧ key ∉ reconciler.seen then none
      else reconciler.existing.find? (reconciler.scan, key) := by
  have loaded := sound.loaded key
  -- The rows loaded are those of the scan, present or not.
  unfold MatchingDb.finding? at loaded
  unfold keptRows
  rw [Store.Table.find?_filter, Store.Table.find?_overlay]
  cases held : reconciler.existing.find? (reconciler.scan, key) with
  | none =>
    rw [held] at loaded
    have missing : db.findings.find? (reconciler.scan, key) = none :=
      Option.not_isSome_iff_eq_none.mp (by rw [← loaded]; decide)
    simp [missing]
  | some row =>
    rw [held] at loaded
    -- The database still has the row as it was loaded, so the overlay puts the newer one in.
    obtain ⟨before, found⟩ := Option.isSome_iff_exists.mp loaded.symm
    have place := Store.Table.key_of_find? held
    have stored : reconciler.existing.find? row.scanKey = some row := by rw [place]; exact held
    -- The row goes if it was not seen in a complete pass.
    have gone := removed_any_iff stored
    have pair : row.key = key := congrArg Prod.snd place
    rw [pair] at gone
    rw [found, Option.map_some, Option.getD_some, Option.filter_some]
    by_cases removed_row : reconciler.withheldReasons.isEmpty = true ∧ key ∉ reconciler.seen
    · rw [if_pos removed_row, gone.mpr removed_row]
      rfl
    · have stays := Bool.eq_false_iff.mpr fun any => removed_row (gone.mp any)
      rw [if_neg removed_row, stays]
      rfl

/-- The new rows of a pair, looked up with the scan. -/
theorem Sound.find?_created (sound : Sound db reconciler) (scan : ScanId) (key : FindingKey) :
    (reconciler.created.find? fun row => row.scanKey = (scan, key)) =
      if scan = reconciler.scan then reconciler.created.find? fun row => row.key = key
      else none := by
  -- The created rows are all of this scan.
  by_cases own : scan = reconciler.scan
  · rw [if_pos own]
    refine List.find?_congr fun row member => ?_
    have place := sound.createdOwn row member
    simp [ReportedFinding.scanKey, place, own]
  · rw [if_neg own, List.find?_eq_none]
    intro row member same
    have place := sound.createdOwn row member
    have named : row.scanId = scan := by
      have both : row.scanKey = (scan, key) := by simpa using same
      exact congrArg Prod.fst both
    exact own (named.symm.trans place)

/-- The unique key never refuses a new row, and every pair has the row the pass made of it. -/
theorem finish_of_sound (sound : Sound db reconciler) :
    ∃ outcome, reconciler.finish db = some outcome ∧
      outcome.db.findings.rows = (reconciler.keptRows db).rows ++ reconciler.created ∧
      outcome.db.scanProject = db.scanProject ∧
      (∀ key, outcome.db.finding? reconciler.scan key =
        if reconciler.withheldReasons.isEmpty = true ∧ key ∉ reconciler.seen then none
        else reconciler.row? key) ∧
      ∀ scan, scan ≠ reconciler.scan → ∀ key,
        outcome.db.finding? scan key = db.finding? scan key := by
  -- New rows share the scan, so distinct pairs are distinct keys.
  have distinct : (reconciler.created.map ReportedFinding.scanKey).Nodup := by
    have pairs : (reconciler.created.map ReportedFinding.scanKey).map Prod.snd =
        reconciler.created.map ReportedFinding.key := by
      rw [List.map_map]
      rfl
    refine List.Nodup.of_map Prod.snd ?_
    rw [pairs]
    exact sound.createdOnce
  have fresh : ∀ row ∈ reconciler.created,
      (reconciler.keptRows db).find? row.scanKey = none := by
    intro row member
    have place : row.scanKey = (reconciler.scan, row.key) := by
      unfold ReportedFinding.scanKey
      rw [sound.createdOwn row member]
    rw [place, find?_keptRows sound, sound.createdFresh row member]
    exact ite_self none
  obtain ⟨findings, added, found⟩ :=
    Store.Table.insertAll_of_fresh distinct (reconciler.keptRows db) fresh
  refine ⟨_, by unfold finish; exact congrArg (Option.map _) added,
    Store.Table.insertAll_rows added, rfl, ?_, ?_⟩
  · intro key
    show findings.find? _ = _
    rw [found, sound.find?_created, if_pos rfl, find?_keptRows sound]
    by_cases gone : reconciler.withheldReasons.isEmpty = true ∧ key ∉ reconciler.seen
    · rw [if_pos gone, if_pos gone, sound.created_absent gone.2]
      rfl
    · rw [if_neg gone, if_neg gone]
      unfold row?
      -- A pair has an old row or a new one, never both.
      cases new : reconciler.created.find? (fun row => decide (row.key = key)) with
      | none => simp
      | some row =>
        have named : row.key = key := by simpa using List.find?_some new
        have absent := sound.createdFresh row (List.mem_of_find?_eq_some new)
        rw [named] at absent
        simp [absent]
  · intro scan other key
    show findings.find? _ = _
    rw [found, sound.find?_created, if_neg other, Option.none_or,
      find?_keptRows_elsewhere sound other]

/-- A row of another scan has no newer one. -/
theorem Sound.newer_elsewhere (sound : Sound db reconciler) {row : ReportedFinding}
    (other : row.scanId ≠ reconciler.scan) :
    (reconciler.existing.find? row.scanKey).getD row = row := by
  have missing : reconciler.existing.find? row.scanKey = none :=
    sound.existing_elsewhere other row.key
  rw [missing]
  rfl

/-- The newer row of a row is one of the same scan. -/
theorem newer_scanId (reconciler : FindingReconciler) (row : ReportedFinding) :
    ((reconciler.existing.find? row.scanKey).getD row).scanId = row.scanId := by
  cases held : reconciler.existing.find? row.scanKey with
  | none => rfl
  | some newer => exact congrArg Prod.fst (Store.Table.key_of_find? held)

/-- A pass leaves the rows of the other scans as they were, in their order. -/
theorem filter_keptRows (sound : Sound db reconciler) (keep : ReportedFinding → Bool)
    (elsewhere : ∀ row, keep row = true → row.scanId ≠ reconciler.scan) :
    ((reconciler.keptRows db).rows ++ reconciler.created).filter keep =
      db.findings.rows.filter keep := by
  -- The new rows all belong to the scan.
  have none_new : reconciler.created.filter keep = [] := by
    rw [List.filter_eq_nil_iff]
    intro row member kept
    exact elsewhere row kept (sound.createdOwn row member)
  rw [List.filter_append, none_new, List.append_nil]
  unfold keptRows Store.Table.filter Store.Table.overlay
  dsimp only
  rw [List.filter_filter, List.filter_map]
  have same_rows : db.findings.rows.filter ((fun row =>
      keep row && !reconciler.removed.any fun gone => gone.scanKey = row.scanKey) ∘
        fun old => (reconciler.existing.find? old.scanKey).getD old) =
      db.findings.rows.filter keep := by
    refine List.filter_congr fun row _ => ?_
    simp only [Function.comp_apply]
    by_cases own : row.scanId = reconciler.scan
    · -- A row of the scan passes the test neither before nor after it is replaced.
      have dropped : ∀ other : ReportedFinding, other.scanId = reconciler.scan →
          keep other = false := by
        intro other place
        exact Bool.eq_false_iff.mpr fun kept => elsewhere other kept place
      rw [dropped row own, dropped _ ((newer_scanId reconciler row).trans own)]
      rfl
    · rw [sound.newer_elsewhere own, removed_any_elsewhere sound own]
      simp
  rw [same_rows]
  refine (List.map_congr_left fun row member => ?_).trans (List.map_id _)
  exact sound.newer_elsewhere (elsewhere row (List.mem_filter.mp member).2)

end Finish

section Again

/-- Every entry that counts finds its row just as it asks for it. -/
def Settled (reconciler : FindingReconciler) (calls : List ReconcilerCall) : Prop :=
  ∀ key moment entry, firstEntry calls key = some (moment, entry) → key ∉ reconciler.seen →
    ∃ row, reconciler.existing.find? (reconciler.scan, key) = some row ∧
      row.settled reconciler.carry entry = row

/-- Nothing has been written so far. -/
structure Untouched (before after : FindingReconciler) : Prop where
  scan : after.scan = before.scan
  existing : after.existing = before.existing
  created : after.created = before.created
  updated : after.updated = before.updated
  carriedStatus : after.carriedStatus = before.carriedStatus

/-- One entry that finds its row settled only marks its pair. -/
theorem apply_untouched {reconciler : FindingReconciler} {moment : Moment} {entry : ReportEntry}
    (settled : entry.key ∉ reconciler.seen →
      ∃ row, reconciler.existing.find? (reconciler.scan, entry.key) = some row ∧
        row.settled reconciler.carry entry = row) :
    Untouched reconciler (reconciler.apply moment entry) := by
  by_cases seen : entry.key ∈ reconciler.seen
  · rw [apply_of_seen seen]
    exact ⟨rfl, rfl, rfl, rfl, rfl⟩
  · obtain ⟨row, found, same⟩ := settled seen
    have place := Store.Table.key_of_find? found
    have unchanged := ReportedFinding.refresh_of_settled same moment.now
    rw [apply_of_old seen found, unchanged]
    refine ⟨rfl, ?_, rfl, rfl, ?_⟩
    · exact Store.Table.put_eq_self (by rw [place]; exact found)
    · -- A row at `new` that is settled has no verdict to take.
      exact if_neg fun both => both.2 both.1

/-- What is settled for the whole report is settled for its rest, after the first call. -/
theorem Settled.tail {reconciler : FindingReconciler} {call : ReconcilerCall}
    {rest : List ReconcilerCall} (settled : Settled reconciler (call :: rest)) :
    Untouched reconciler (reconciler.serve call) ∧ Settled (reconciler.serve call) rest := by
  cases call with
  | withholdDeletions reason => exact ⟨⟨rfl, rfl, rfl, rfl, rfl⟩, settled⟩
  | apply moment entry =>
    have untouched : Untouched reconciler (reconciler.apply moment entry) :=
      apply_untouched (settled entry.key moment entry (by simp [firstEntry]))
    refine ⟨untouched, ?_⟩
    unfold serve
    intro key time other found unseen
    rw [mem_seen_apply, not_or] at unseen
    -- The pair is not the one just marked, so its entry counts in the whole report too.
    have different : ¬entry.key = key := fun equal => unseen.2 equal.symm
    obtain ⟨row, held, same⟩ :=
      settled key time other (by rw [firstEntry, if_neg different]; exact found) unseen.1
    refine ⟨row, ?_, ?_⟩
    · rw [untouched.existing, untouched.scan]
      exact held
    · rw [(apply_frame reconciler moment entry).2.1]
      exact same

/-- A pass over a report that is settled writes nothing. -/
theorem run_untouched (calls : List ReconcilerCall) {reconciler : FindingReconciler}
    (settled : Settled reconciler calls) :
    Untouched reconciler (calls.foldl serve reconciler) := by
  induction calls generalizing reconciler with
  | nil => exact ⟨rfl, rfl, rfl, rfl, rfl⟩
  -- Each call is settled already, so it leaves the reconciler as it is.
  | cons call rest ih =>
    obtain ⟨first, remaining⟩ := settled.tail
    have later := ih remaining
    exact ⟨later.scan.trans first.scan, later.existing.trans first.existing,
      later.created.trans first.created, later.updated.trans first.updated,
      later.carriedStatus.trans first.carriedStatus⟩

/-- A pass that wrote nothing and removes nothing leaves the database as it is. -/
theorem finish_untouched {db : MatchingDb} {scan : ScanId} {prior : PriorState}
    {carryAssignment : Bool} {reconciler : FindingReconciler}
    (untouched : Untouched (start db scan prior carryAssignment) reconciler)
    (nothing : reconciler.removed = []) :
    ∃ second, reconciler.finish db = some second ∧ second.created = [] ∧ second.updated = 0 ∧
      second.deleted = 0 ∧ second.db = db := by
  have created : reconciler.created = [] := untouched.created
  have carried : reconciler.carriedStatus = [] := untouched.carriedStatus
  -- The rows held are the very rows of the database.
  have current : db.findings.overlay reconciler.existing = db.findings := by
    refine Store.Table.overlay_eq_self fun row member other held => ?_
    rw [untouched.existing] at held
    unfold start at held
    rw [Store.Table.find?_filter, Store.Table.find?_of_mem member, Option.filter_some] at held
    split at held
    · cases held
      rfl
    · cases held
  -- Nothing is removed, and nothing newer is laid over.
  have kept : reconciler.keptRows db = db.findings := by
    unfold keptRows
    rw [current, nothing]
    exact Store.Table.filter_eq_self fun row _ => rfl
  -- So there is nothing to audit and nothing to insert.
  have audit : reconciler.auditRows db = [] := by
    unfold auditRows
    rw [nothing, carried, created]
    rfl
  have approvals : db.approvals.filter (fun approval =>
      !reconciler.removed.any fun gone => gone.id = approval.findingId) = db.approvals := by
    rw [nothing]
    exact List.filter_eq_self.mpr fun approval _ => rfl
  have inserted : (reconciler.keptRows db).insertAll reconciler.created = some db.findings := by
    rw [kept, created]
    rfl
  refine ⟨_, by unfold finish; exact congrArg (Option.map _) inserted, created, ?_, ?_, ?_⟩
  · exact untouched.updated
  · rw [nothing]
    rfl
  · rw [audit, approvals, List.append_nil]

end Again

end FindingReconciler

/-- What a pass inherits depends on the other scans only. -/
theorem resolveMaps_eq {before after : MatchingDb} {scan : ScanId}
    (projects : after.scanProject = before.scanProject)
    (others : ∀ keep : ReportedFinding → Bool,
      (∀ row, keep row = true → row.scanId ≠ scan) →
        after.findings.rows.filter keep = before.findings.rows.filter keep)
    (prior : PriorState) (carryAssignment : Bool) :
    resolveMaps after scan prior carryAssignment = resolveMaps before scan prior carryAssignment := by
  -- The three queries all leave out the scan's own rows.
  have rows : ∀ project, after.inheritedRows project scan = before.inheritedRows project scan := by
    intro project
    unfold MatchingDb.inheritedRows MatchingDb.projectOf
    rw [projects]
    refine others _ fun row kept => ?_
    simp only [Bool.and_eq_true, bne_iff_ne] at kept
    exact kept.2
  have project : after.projectOf scan = before.projectOf scan := by
    unfold MatchingDb.projectOf
    rw [projects]
  unfold resolveMaps inheritedFrom buildInheritedFirstDetected buildInheritedTriage
    buildInheritedAssignment
  simp only [rows, project]

section Pass

variable (db : MatchingDb) (scan : ScanId) (prior : PriorState) (carryAssignment : Bool)
  (calls : List ReconcilerCall)

/-- A pass makes of every pair of its scan what the first entry for it says, and nothing of
any other scan. -/
theorem reconcileFindings_spec :
    ∃ outcome, reconcileFindings db scan prior carryAssignment calls = some outcome ∧
      (∀ key, outcome.db.finding? scan key =
        Store.reconciled
          (FindingReconciler.updateRow (resolveMaps db scan prior carryAssignment))
          (FindingReconciler.createRow (resolveMaps db scan prior carryAssignment) scan)
          (withholds calls) (firstEntry calls key) (db.finding? scan key)) ∧
      (∀ other, other ≠ scan → ∀ key, outcome.db.finding? other key = db.finding? other key) ∧
      resolveMaps outcome.db scan prior carryAssignment =
        resolveMaps db scan prior carryAssignment := by
  -- The invariant holds from the construction to the end of the report, so `finish` succeeds.
  have started := FindingReconciler.start_sound db scan prior carryAssignment
  have sound := FindingReconciler.run_sound calls started
  have frame := FindingReconciler.run_frame calls
    (FindingReconciler.start db scan prior carryAssignment)
  have place : (calls.foldl FindingReconciler.serve
      (FindingReconciler.start db scan prior carryAssignment)).scan = scan := frame.1
  obtain ⟨outcome, finished, rows, projects, own, others⟩ :=
    FindingReconciler.finish_of_sound sound
  rw [place] at own others
  refine ⟨outcome, finished, ?_, others, ?_⟩
  · intro key
    have loaded : (FindingReconciler.start db scan prior carryAssignment).row? key =
        db.finding? scan key := by
      have held := FindingReconciler.start_find? db scan prior carryAssignment key
      exact (congrArg (Option.or · none) held).trans (Option.or_none)
    have unseen : key ∉ (FindingReconciler.start db scan prior carryAssignment).seen := by
      simp [FindingReconciler.start]
    have reached : (calls.foldl FindingReconciler.serve
        (FindingReconciler.start db scan prior carryAssignment)).row? key =
        Store.reconciled
          (FindingReconciler.updateRow (resolveMaps db scan prior carryAssignment))
          (FindingReconciler.createRow (resolveMaps db scan prior carryAssignment) scan)
          true (firstEntry calls key) (db.finding? scan key) := by
      rw [FindingReconciler.row?_run calls started, if_neg unseen, loaded]
      rfl
    have named := FindingReconciler.mem_seen_run calls
      (FindingReconciler.start db scan prior carryAssignment) key
    have withheld := FindingReconciler.withheldReasons_run calls
      (FindingReconciler.start db scan prior carryAssignment)
    simp only [FindingReconciler.start, List.isEmpty_nil, Bool.true_and,
      List.not_mem_nil, false_or] at named withheld
    rw [own, reached]
    simp only [FindingReconciler.start, named, withheld]
    -- Only the fate of a pair the report does not name depends on the deletion.
    cases firstEntry calls key with
    | some arrival => cases db.finding? scan key <;> simp [Store.reconciled]
    | none =>
      cases db.finding? scan key <;> cases withholds calls <;> simp [Store.reconciled]
  · refine resolveMaps_eq projects (fun keep elsewhere => ?_) prior carryAssignment
    rw [rows]
    exact FindingReconciler.filter_keptRows sound keep (by rw [place]; exact elsewhere)

/-- The row an entry leaves is the one the same entry asks for in a later pass. -/
theorem settled_of_reconciled {carry : CarryForward} {keep : Bool}
    {entry : ReportEntry} {first : Moment × ReportEntry} (content : first.2 = entry)
    (before : Option ReportedFinding) :
    ∃ row, Store.reconciled (FindingReconciler.updateRow carry)
        (FindingReconciler.createRow carry scan) keep (some first) before = some row ∧
      row.settled carry entry = row := by
  refine Store.reconciled_settled (FindingReconciler.updateRow carry)
    (FindingReconciler.createRow carry scan) keep (fun arrival entry => arrival.2 = entry)
    (fun entry row => row.settled carry entry = row) ?_ ?_ content before
  · rintro arrival entry row rfl
    exact ReportedFinding.settled_refresh carry arrival.1.now arrival.2 row
  · rintro arrival entry rfl
    exact settled_newFinding carry scan arrival.1 arrival.2

/-- The same report a second time creates, updates and deletes nothing. -/
theorem reconcileFindings_again {outcome : ReconcileOutcome} {again : List ReconcilerCall}
    (report : SameReport calls again)
    (reached : ∀ key, outcome.db.finding? scan key =
      Store.reconciled
        (FindingReconciler.updateRow (resolveMaps db scan prior carryAssignment))
        (FindingReconciler.createRow (resolveMaps db scan prior carryAssignment) scan)
        (withholds calls) (firstEntry calls key) (db.finding? scan key))
    (inherited : resolveMaps outcome.db scan prior carryAssignment =
      resolveMaps db scan prior carryAssignment) :
    ∃ second, reconcileFindings outcome.db scan prior carryAssignment again = some second ∧
      second.created = [] ∧ second.updated = 0 ∧ second.deleted = 0 ∧ second.db = outcome.db := by
  have loaded := FindingReconciler.start_find? outcome.db scan prior carryAssignment
  have settled : FindingReconciler.Settled
      (FindingReconciler.start outcome.db scan prior carryAssignment) again := by
    intro key moment entry found _
    -- The entry that counts now is the one that counted in the first pass.
    have counted := report.entries key
    rw [found, Option.map_some] at counted
    obtain ⟨first, before, content⟩ := Option.map_eq_some_iff.mp counted
    obtain ⟨row, made, same⟩ := settled_of_reconciled scan content (db.finding? scan key)
    refine ⟨row, ?_, ?_⟩
    · refine (loaded key).trans ?_
      rw [reached, before]
      exact made
    · show row.settled (resolveMaps outcome.db scan prior carryAssignment) entry = row
      rw [inherited]
      exact same
  have untouched := FindingReconciler.run_untouched again settled
  refine FindingReconciler.finish_untouched untouched ?_
  -- Without a withheld deletion the first pass left only pairs the report names.
  unfold FindingReconciler.removed
  split
  · rename_i complete
    rw [FindingReconciler.withheldReasons_run] at complete
    have read : withholds calls = false := by
      rw [report.withheld]
      simpa [FindingReconciler.start] using complete
    rw [FindingReconciler.stale, List.filter_eq_nil_iff]
    intro row member
    rw [untouched.existing] at member
    have place : row.scanKey = (scan, row.key) := by
      have own := (FindingReconciler.start_sound outcome.db scan prior carryAssignment).ownRows row
        member
      unfold ReportedFinding.scanKey
      rw [own]
      rfl
    have held := congrArg Option.isSome (Store.Table.find?_of_mem member)
    rw [place, loaded, reached, read, Store.isSome_reconciled, Bool.false_and, Bool.or_false]
      at held
    have named : (firstEntry again row.key).isSome := by
      have counted := congrArg Option.isSome (report.entries row.key)
      rw [Option.isSome_map, Option.isSome_map] at counted
      rw [← counted]
      exact held
    have seen := (FindingReconciler.mem_seen_run again
      (FindingReconciler.start outcome.db scan prior carryAssignment) row.key).mpr (Or.inr named)
    simpa using seen
  · rfl

/-- Every pass succeeds. Afterwards the scan has one finding for each pair of the report, and
also the pairs it had when deletion is withheld; the other scans are as they were. A finding that
stays keeps its id, assignment and reachability; it keeps its verdict unless nobody has ruled on
it and the project has a verdict for its pair, and its first detection is the earlier of its own
and the project's. The same report a second time creates, updates and deletes nothing. -/
theorem findings_reconciled :
    ∃ outcome, reconcileFindings db scan prior carryAssignment calls = some outcome ∧
      (outcome.db.findings.rows.map ReportedFinding.scanKey).Nodup ∧
      (∀ key, (outcome.db.finding? scan key).isSome ↔
        key ∈ reportKeys calls ∨ (withholds calls = true ∧ (db.finding? scan key).isSome)) ∧
      (∀ other, other ≠ scan → ∀ key, outcome.db.finding? other key = db.finding? other key) ∧
      (∀ key row kept, db.finding? scan key = some row → outcome.db.finding? scan key = some kept →
        (key ∈ reportKeys calls → row.Survives (resolveMaps db scan prior carryAssignment) kept) ∧
        (key ∉ reportKeys calls → kept = row)) ∧
      ∀ again, SameReport calls again →
        ∃ second, reconcileFindings outcome.db scan prior carryAssignment again = some second ∧
          second.created = [] ∧ second.updated = 0 ∧ second.deleted = 0 ∧
          second.db = outcome.db := by
  obtain ⟨outcome, finished, reached, others, inherited⟩ :=
    reconcileFindings_spec db scan prior carryAssignment calls
  refine ⟨outcome, finished, outcome.db.findings.unique, ?_, others, ?_, ?_⟩
  · -- Which pairs are there afterwards.
    intro key
    rw [reached, Store.isSome_reconciled, Bool.or_eq_true, Bool.and_eq_true,
      firstEntry_isSome_iff]
  · -- What a row that stays looks like: refreshed if it was named, otherwise as it was.
    intro key row kept before after
    rw [reached, before] at after
    have pair : row.key = key := congrArg Prod.snd (Store.Table.key_of_find? before)
    constructor
    · intro named
      obtain ⟨arrival, counted⟩ :=
        Option.isSome_iff_exists.mp ((firstEntry_isSome_iff calls key).mpr named)
      rw [counted] at after
      cases after
      exact ReportedFinding.refresh_survives ((firstEntry_key counted).trans pair.symm)
        arrival.1.now
    · intro unnamed
      have missing : firstEntry calls key = none := by
        rw [← Option.not_isSome_iff_eq_none, firstEntry_isSome_iff]
        exact unnamed
      rw [missing] at after
      -- The row is still there, so the deletion was withheld and nothing wrote to it.
      cases withheld : withholds calls with
      | false =>
        rw [withheld] at after
        cases after
      | true =>
        rw [withheld] at after
        cases after
        rfl
  · -- A second pass over the same report finds nothing to do.
    intro again report
    exact reconcileFindings_again db scan prior carryAssignment calls report reached inherited

end Pass

/-- A finding as a scan inserts it. -/
def insertedFinding (id : FindingId) (scan : ScanId) (detected : Time) : ReportedFinding where
  id := id
  scanId := scan
  componentVersionId := 5
  vulnerabilityId := 6
  status := .new
  analysisState := none
  analysisJustification := none
  analysisSource := none
  vexOrigin := none
  analystUserId := none
  analyzedAt := none
  updatedAt := detected
  analysisResponse := .null
  fixedVersion := none
  firstDetectedAt := some detected
  assignment := ⟨none, none, none, none⟩
  reachability := ⟨none, none, none⟩
  createdAt := detected

/-- The same finding after somebody has ruled on it. -/
def ruledFinding : ReportedFinding :=
  { insertedFinding 10 1 100 with
    status := .notAffected
    analysisState := some "not_affected"
    analysisJustification := some "vulnerable code not present"
    analystUserId := some 7
    analyzedAt := some 150 }

/-- A project with two scans of the same pair: somebody has ruled on the first scan's finding, and
the second scan's finding still stands at `new`. -/
def rescannedDb : MatchingDb where
  scanProject := fun scan => if scan = 1 ∨ scan = 2 then some (3, 4) else none
  findings :=
    { rows := [ruledFinding, insertedFinding 11 2 200]
      unique := by decide }
  approvals := []
  audit := []

/-- The report of the second scan names the pair again. -/
def rescanCalls : List ReconcilerCall :=
  [.apply ⟨300, 12, 300⟩ ⟨(5, 6), .null, none⟩]

/-- Rows with the same verdict agree on its status and its justification. -/
theorem columns_of_triageStateOf {first second : ReportedFinding}
    (same : triageStateOf first = triageStateOf second) (ruled : second.status ≠ .new) :
    first.status = second.status ∧
      first.analysisJustification = second.analysisJustification := by
  unfold triageStateOf at same
  rw [dif_neg ruled] at same
  split at same
  · cases same
  · simp only [Option.some.injEq, TriageState.mk.injEq] at same
    exact ⟨same.1, same.2.2.1⟩

/-- A finding that stays may change its status, its justification and its first detection. -/
theorem findings_reconciled_carries :
    ∃ outcome row kept, reconcileFindings rescannedDb 2 .none true rescanCalls = some outcome ∧
      rescannedDb.finding? 2 (5, 6) = some row ∧ outcome.db.finding? 2 (5, 6) = some kept ∧
      (row.status = .new ∧ kept.status = .notAffected) ∧
      (row.analysisJustification = none ∧
        kept.analysisJustification = some "vulnerable code not present") ∧
      (row.firstDetectedAt = some 200 ∧ kept.firstDetectedAt = some 100) := by
  obtain ⟨outcome, finished, reached, -, -⟩ :=
    reconcileFindings_spec rescannedDb 2 .none true rescanCalls
  -- The other scan of the project has a verdict for the pair, and saw it earlier.
  have ruling : (resolveMaps rescannedDb 2 .none true).triage (5, 6) =
      triageStateOf ruledFinding := by
    have decided : (rescannedDb.inheritedRows 3 2).filter (·.status != .new) = [ruledFinding] := by
      decide
    show buildInheritedTriage rescannedDb 3 2 (5, 6) = _
    unfold buildInheritedTriage
    dsimp only
    rw [decided, List.mergeSort_singleton]
    rfl
  have earlier : (resolveMaps rescannedDb 2 .none true).firstDetected (5, 6) = some 100 := by
    decide
  obtain ⟨verdict, stated⟩ : ∃ verdict, triageStateOf ruledFinding = some verdict := ⟨_, rfl⟩
  -- The refresh of the stored row takes the verdict with its columns.
  have survives : (insertedFinding 11 2 200).Survives (resolveMaps rescannedDb 2 .none true)
      ((insertedFinding 11 2 200).refresh (resolveMaps rescannedDb 2 .none true) 300
        ⟨(5, 6), .null, none⟩).1 :=
    ReportedFinding.refresh_survives rfl 300
  have taken := survives.takesVerdict rfl verdict (ruling.trans stated)
  have columns := columns_of_triageStateOf (taken.trans stated.symm) (by decide)
  refine ⟨outcome, insertedFinding 11 2 200, _, finished, rfl, reached (5, 6), ⟨rfl, columns.1⟩,
    ⟨rfl, columns.2⟩, rfl, ?_⟩
  -- And the earlier of the two times.
  refine survives.firstDetectedAt.trans ?_
  show some ((insertedFinding 11 2 200).earliest
    ((resolveMaps rescannedDb 2 .none true).firstDetected (5, 6))) = some 100
  rw [earlier]
  rfl

/-- The pass over the project with two scans, and the same report at a later time. -/
theorem findings_reconciled_twice :
    ∃ outcome second, reconcileFindings rescannedDb 2 .none true rescanCalls = some outcome ∧
      reconcileFindings outcome.db 2 .none true [.apply ⟨400, 13, 400⟩ ⟨(5, 6), .null, none⟩] =
        some second ∧
      second.created = [] ∧ second.updated = 0 ∧ second.deleted = 0 := by
  -- The second pass over the same entries, in the state the first has left.
  obtain ⟨outcome, finished, -, -, -, -, again⟩ :=
    findings_reconciled rescannedDb 2 .none true rescanCalls
  obtain ⟨second, repeated, created, updated, deleted, -⟩ :=
    again [.apply ⟨400, 13, 400⟩ ⟨(5, 6), .null, none⟩]
      { entries := by
          intro key
          by_cases mine : (5, 6) = key
          · simp [rescanCalls, firstEntry, mine]
          · simp [rescanCalls, firstEntry, mine]
        withheld := rfl }
  exact ⟨outcome, second, finished, repeated, created, updated, deleted⟩

end Trusca
