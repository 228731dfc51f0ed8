import Mathlib.Data.List.Dedup
import Trusca.Store.RowLaws

/-! A table of rows under READ COMMITTED: statements over one row or many, and what they leave of
the rows and of the other transactions. -/

namespace Store

/-- A table of rows. Only the listed keys have a row that anybody has written. -/
structure Rows (κ τ α : Type*) where
  keys : List κ
  nodup : keys.Nodup
  row : κ → Row τ α
  blank : ∀ key, key ∉ keys → row key = .free none

namespace Rows

variable {κ τ α : Type*} [DecidableEq κ] [DecidableEq τ]

/-- A table with the given committed rows and no lock. -/
def stored (entries : List (κ × α)) : Rows κ τ α where
  -- Of two entries with one key the first is stored.
  keys := (entries.map Prod.fst).dedup
  nodup := List.nodup_dedup _
  row := fun key => .free (entries.lookup key)
  blank := by
    intro key missing
    rw [List.lookup_eq_none_iff.mpr]
    intro entry member
    rw [bne_iff_ne]
    intro same
    exact missing (List.mem_dedup.mpr (List.mem_map.mpr ⟨entry, member, same.symm⟩))

/-- The committed version of a row. -/
def committed (rows : Rows κ τ α) (key : κ) : Option α := (rows.row key).committed

/-- The committed rows. -/
def entries (rows : Rows κ τ α) : List (κ × α) :=
  rows.keys.filterMap fun key => (rows.committed key).map (key, ·)

/-- What a plain SELECT of the transaction sees of a row. -/
def view (rows : Rows κ τ α) (tx : τ) (key : κ) : Option α := (rows.row key).view tx

/-- The keys of the rows that a plain SELECT of the transaction finds. -/
def select (rows : Rows κ τ α) (tx : τ) (wanted : α → Bool) : List κ :=
  rows.keys.filter fun key => (rows.view tx key).any wanted

/-- The rows that a plain SELECT of the transaction finds, with the versions it sees. -/
def fetch (rows : Rows κ τ α) (tx : τ) (wanted : α → Bool) : List (κ × α) :=
  rows.keys.filterMap fun key => ((rows.view tx key).filter wanted).map (key, ·)

/-- Replace one row. -/
def set (rows : Rows κ τ α) (key : κ) (row : Row τ α) : Rows κ τ α where
  -- A new key goes to the end of the listing.
  keys := if key ∈ rows.keys then rows.keys else rows.keys ++ [key]
  nodup := by
    split
    · exact rows.nodup
    · rename_i fresh
      rw [← List.concat_eq_append]
      exact rows.nodup.concat fresh
  row := Function.update rows.row key row
  blank := by
    -- A key that is still missing is not the one that was set.
    intro other missing
    have different : other ≠ key := by
      intro same
      subst same
      split at missing
      · rename_i member
        exact missing member
      · simp at missing
    rw [Function.update_of_ne different]
    refine rows.blank other fun member => missing ?_
    split
    · exact member
    · exact List.mem_append_left _ member

/-- SELECT ... FOR UPDATE of one row. -/
def lock (rows : Rows κ τ α) (tx : τ) (key : κ) : Option (Rows κ τ α) :=
  ((rows.row key).lock tx).map fun row => rows.set key row

/-- UPDATE or DELETE of one row, under a condition. -/
def change (rows : Rows κ τ α) (tx : τ) (key : κ) (accepts : α → Bool) (edit : α → Option α) :
    Option (Rows κ τ α × Bool) :=
  ((rows.row key).change tx accepts edit).map fun (row, matched) => (rows.set key row, matched)

/-- UPDATE or DELETE of rows found before: each waits for its own row, and touches it only when its
newest version still meets the condition. -/
def changeAll (rows : Rows κ τ α) (tx : τ) (accepts : α → Bool) (edit : α → Option α) :
    List κ → Option (Rows κ τ α)
  | [] => some rows
  | key :: rest =>
      (rows.change tx key accepts edit).bind fun after => changeAll after.1 tx accepts edit rest

/-- INSERT under a key that was never used. -/
def insert (rows : Rows κ τ α) (tx : τ) (key : κ) (version : α) : Option (Rows κ τ α) :=
  if key ∈ rows.keys then none
  else ((rows.row key).insert tx version).map fun row => rows.set key row

/-- Whether a unique index already has the value of a row under another key. -/
def clashes (rows : Rows κ τ α) (tx : τ) (key : κ) (same : α → Bool) : Bool :=
  rows.keys.any fun other => other != key && (rows.view tx other).any same

/-- Whether it depends on a transaction that has not ended what a unique index has of the value of a
row. -/
def contested (rows : Rows κ τ α) (tx : τ) (key : κ) (same : α → Bool) : Bool :=
  rows.keys.any fun other => other != key && (rows.row other).lockedByOther tx &&
    ((rows.committed other).any same || (rows.row other).held.any fun lock => lock.2.any same)

/-- COMMIT publishes every version of the transaction. -/
def commit (rows : Rows κ τ α) (tx : τ) : Rows κ τ α where
  keys := rows.keys
  nodup := rows.nodup
  -- Row by row, and no key appears or goes.
  row := fun key => (rows.row key).commit tx
  blank := by
    intro key missing
    rw [rows.blank key missing]
    rfl

/-- ROLLBACK drops every version of the transaction. -/
def rollback (rows : Rows κ τ α) (tx : τ) : Rows κ τ α where
  keys := rows.keys
  nodup := rows.nodup
  -- As for a commit: the listing stays, with what its keys hold.
  row := fun key => (rows.row key).rollback tx
  blank := by
    intro key missing
    rw [rows.blank key missing]
    rfl

/-- The transaction holds a row with the given uncommitted version. -/
def HeldBy (rows : Rows κ τ α) (tx : τ) (key : κ) (version : Option α) : Prop :=
  (rows.row key).HeldBy tx version

/-- Whether the transaction holds a row. -/
def ownedBy (rows : Rows κ τ α) (tx : τ) (key : κ) : Bool :=
  (rows.row key).held.any fun lock => lock.1 == tx

/-- What a transaction may rely on about every row while others act. -/
def Undisturbed (tx : τ) (rows next : Rows κ τ α) : Prop :=
  ∀ key, Row.Undisturbed tx (rows.row key) (next.row key)

section Laws

variable {rows next : Rows κ τ α} {tx : τ} {key : κ}

omit [DecidableEq τ] in
/-- Setting a row sets that row alone. -/
@[simp] theorem set_row (rows : Rows κ τ α) (key : κ) (row : Row τ α) (other : κ) :
    (rows.set key row).row other = if other = key then row else rows.row other := by
  unfold set
  by_cases same : other = key
  · subst same
    simp
  · simp [same]

omit [DecidableEq κ] in
/-- A commit commits each row. -/
@[simp] theorem commit_row (rows : Rows κ τ α) (tx : τ) (key : κ) :
    (rows.commit tx).row key = (rows.row key).commit tx := rfl

omit [DecidableEq κ] in
/-- A rollback rolls back each row. -/
@[simp] theorem rollback_row (rows : Rows κ τ α) (tx : τ) (key : κ) :
    (rows.rollback tx).row key = (rows.row key).rollback tx := rfl

omit [DecidableEq κ] in
/-- A row somebody sees has a listed key. -/
theorem mem_keys_of_view {version : α} (seen : rows.view tx key = some version) :
    key ∈ rows.keys := by
  by_contra missing
  unfold view at seen
  rw [rows.blank key missing] at seen
  cases seen

omit [DecidableEq κ] in
/-- A SELECT finds exactly the rows whose visible version is wanted. -/
theorem mem_select {wanted : α → Bool} :
    key ∈ rows.select tx wanted ↔ ∃ version, rows.view tx key = some version ∧
      wanted version = true := by
  unfold select
  rw [List.mem_filter, Option.any_eq_true]
  -- A row that is seen is listed under its key.
  constructor
  · intro found
    exact found.2
  · intro found
    obtain ⟨version, seen, passes⟩ := found
    exact ⟨mem_keys_of_view seen, version, seen, passes⟩

omit [DecidableEq κ] in
/-- A SELECT reads exactly the visible versions that are wanted. -/
theorem mem_fetch {wanted : α → Bool} {version : α} :
    (key, version) ∈ rows.fetch tx wanted ↔ rows.view tx key = some version ∧
      wanted version = true := by
  simp only [fetch, List.mem_filterMap, Option.map_eq_some_iff, Option.filter_eq_some_iff,
    Prod.mk.injEq]
  constructor
  · rintro ⟨_, _, found, seen, rfl, rfl⟩
    exact seen
  · intro seen
    exact ⟨key, mem_keys_of_view seen.1, version, seen, rfl, rfl⟩

omit [DecidableEq κ] in
/-- A SELECT reads every row once. -/
theorem fetch_nodup (rows : Rows κ τ α) (tx : τ) (wanted : α → Bool) :
    ((rows.fetch tx wanted).map Prod.fst).Nodup := by
  -- The rows fetched are the keys selected, each with its version.
  have keys : (rows.fetch tx wanted).map Prod.fst = rows.select tx wanted := by
    unfold fetch select
    rw [List.map_filterMap, ← List.filterMap_eq_filter]
    refine List.filterMap_congr fun key _ => ?_
    cases seen : rows.view tx key with
    | none => simp [Option.guard, seen]
    | some version => simp [Option.filter, Option.guard, seen, apply_ite]
  rw [keys]
  exact rows.nodup.filter _

omit [DecidableEq κ] in
/-- A transaction owns a row when it holds some version of it. -/
theorem ownedBy_iff : rows.ownedBy tx key = true ↔ ∃ version, rows.HeldBy tx key version := by
  unfold ownedBy HeldBy Row.HeldBy
  rw [Option.any_eq_true]
  -- `ownedBy` computes what `HeldBy` says.
  constructor
  · intro owned
    obtain ⟨⟨owner, version⟩, held, same⟩ := owned
    rw [beq_iff_eq] at same
    subst same
    exact ⟨version, held⟩
  · intro held
    obtain ⟨version, held⟩ := held
    exact ⟨(tx, version), held, by simp⟩

omit [DecidableEq τ] in
/-- The committed rows of a table are the ones it was given. -/
theorem mem_of_stored {entries : List (κ × α)} {version : α}
    (found : (stored entries : Rows κ τ α).committed key = some version) :
    (key, version) ∈ entries := by
  obtain ⟨before, after, rfl, _⟩ := List.lookup_eq_some_iff.mp found
  exact List.mem_append_right before List.mem_cons_self

omit [DecidableEq κ] [DecidableEq τ] in
/-- A row with a committed version has a listed key. -/
theorem mem_keys_of_committed {version : α} (stored : rows.committed key = some version) :
    key ∈ rows.keys := by
  by_contra missing
  have blank := congrArg Row.committed (rows.blank key missing)
  cases stored.symm.trans blank

omit [DecidableEq κ] [DecidableEq τ] in
/-- The entries are the committed rows under their keys. -/
@[simp] theorem mem_entries {version : α} :
    (key, version) ∈ rows.entries ↔ rows.committed key = some version := by
  simp only [entries, List.mem_filterMap, Option.map_eq_some_iff, Prod.mk.injEq]
  constructor
  · rintro ⟨_, _, _, stored, rfl, rfl⟩
    exact stored
  · intro stored
    exact ⟨key, mem_keys_of_committed stored, version, stored, rfl, rfl⟩

omit [DecidableEq κ] [DecidableEq τ] in
/-- An unchanged table disturbs nobody. -/
theorem Undisturbed.refl (tx : τ) (rows : Rows κ τ α) : Undisturbed tx rows rows :=
  fun key => .refl tx (rows.row key)

omit [DecidableEq κ] [DecidableEq τ] in
/-- Two changes that do not disturb a transaction do not disturb it together. -/
theorem Undisturbed.trans {last : Rows κ τ α} (first : Undisturbed tx rows next)
    (second : Undisturbed tx next last) : Undisturbed tx rows last :=
  fun key => (first key).trans (second key)

omit [DecidableEq τ] in
/-- Replacing one row disturbs nobody whom the new row does not disturb. -/
theorem Undisturbed.of_set {row : Row τ α} (steady : Row.Undisturbed tx (rows.row key) row) :
    Undisturbed tx rows (rows.set key row) := by
  intro other
  rw [set_row]
  split
  · rename_i same
    subst same
    exact steady
  · exact .refl tx _

omit [DecidableEq κ] in
/-- A commit disturbs no other transaction. -/
theorem commit_undisturbed {other : τ} (different : other ≠ tx) :
    Undisturbed other rows (rows.commit tx) :=
  fun _ => Row.commit_undisturbed different

omit [DecidableEq κ] in
/-- A commit publishes what the transaction holds. -/
theorem commit_committed_of_heldBy {version : Option α} (held : rows.HeldBy tx key version) :
    (rows.commit tx).committed key = version := by
  unfold committed
  rw [commit_row, Row.HeldBy.commit_eq held]
  rfl

omit [DecidableEq κ] in
/-- A commit leaves what the transaction does not hold. -/
theorem commit_committed_of_unheld (unheld : ∀ version, ¬rows.HeldBy tx key version) :
    (rows.commit tx).committed key = rows.committed key := by
  unfold committed
  rw [commit_row, Row.commit_of_unheld unheld]

omit [DecidableEq κ] in
/-- A rollback disturbs no other transaction. -/
theorem rollback_undisturbed {other : τ} (different : other ≠ tx) :
    Undisturbed other rows (rows.rollback tx) :=
  fun _ => Row.rollback_undisturbed different

omit [DecidableEq κ] in
/-- A rollback publishes nothing. -/
@[simp] theorem rollback_committed : (rows.rollback tx).committed = rows.committed := by
  funext key
  exact Row.rollback_committed

omit [DecidableEq τ] in
/-- A row replaced keeps every listed key listed. -/
theorem mem_set_keys (row : Row τ α) {other : κ} (listed : other ∈ rows.keys) :
    other ∈ (rows.set key row).keys := by
  unfold set
  dsimp only
  split
  · exact listed
  · exact List.mem_append_left _ listed

/-- A locking read locks its own row and leaves the other rows alone. -/
theorem lock_cases (locked : rows.lock tx key = some next) :
    ∃ row, (rows.row key).lock tx = some row ∧ next = rows.set key row := by
  simp only [lock, Option.map_eq_some_iff] at locked
  obtain ⟨row, taken, same⟩ := locked
  exact ⟨row, taken, same.symm⟩

/-- A locking read publishes nothing. -/
theorem lock_committed (locked : rows.lock tx key = some next) (other : κ) :
    next.committed other = rows.committed other := by
  obtain ⟨row, taken, rfl⟩ := lock_cases locked
  unfold committed
  rw [set_row]
  split
  · rename_i same
    rw [same, Row.lock_committed taken]
  · rfl

/-- A locking read disturbs no other transaction. -/
theorem lock_undisturbed {other : τ} (locked : rows.lock tx key = some next)
    (different : other ≠ tx) : Undisturbed other rows next := by
  obtain ⟨row, taken, rfl⟩ := lock_cases locked
  exact .of_set (Row.lock_undisturbed different taken)

/-- What a transaction holds after a locking read it held before, or it has just read it. -/
theorem lock_heldBy {other : κ} {version : Option α} (locked : rows.lock tx key = some next)
    (held : next.HeldBy tx other version) :
    rows.HeldBy tx other version ∨ other = key ∧ version = rows.view tx key := by
  obtain ⟨row, taken, rfl⟩ := lock_cases locked
  unfold HeldBy at held
  rw [set_row] at held
  -- The locked row is held by whoever asked, or was held before.
  split at held
  · rename_i same
    subst same
    rcases Row.lock_cases taken with ⟨_, rfl⟩ | ⟨found, seen, _, _, mine⟩
    · exact .inl held
    · exact .inr ⟨rfl, (held.unique mine).2.trans seen.symm⟩
  · exact .inl held

/-- A statement over one row leaves the other rows alone. -/
theorem change_cases {accepts : α → Bool} {edit : α → Option α} {matched : Bool}
    (changed : rows.change tx key accepts edit = some (next, matched)) :
    ∃ row, (rows.row key).change tx accepts edit = some (row, matched) ∧
      next = rows.set key row := by
  simp only [change, Option.map_eq_some_iff, Prod.exists, Prod.mk.injEq] at changed
  obtain ⟨row, _, taken, same, rfl⟩ := changed
  exact ⟨row, taken, same.symm⟩

/-- A statement over one row is the row's own statement there. -/
theorem change_here {accepts : α → Bool} {edit : α → Option α} {matched : Bool}
    (changed : rows.change tx key accepts edit = some (next, matched)) :
    (rows.row key).change tx accepts edit = some (next.row key, matched) := by
  obtain ⟨row, taken, rfl⟩ := change_cases changed
  rw [set_row, if_pos rfl]
  exact taken

/-- A statement over one row leaves every other row as it is. -/
theorem change_elsewhere {accepts : α → Bool} {edit : α → Option α} {matched : Bool} {other : κ}
    (changed : rows.change tx key accepts edit = some (next, matched)) (different : other ≠ key) :
    next.row other = rows.row other := by
  obtain ⟨row, taken, rfl⟩ := change_cases changed
  rw [set_row, if_neg different]

/-- What a transaction holds after a statement over one row it held before, or the statement has just
written it. -/
theorem change_heldBy {accepts : α → Bool} {edit : α → Option α} {matched : Bool} {other : κ}
    {version : Option α} (changed : rows.change tx key accepts edit = some (next, matched))
    (held : next.HeldBy tx other version) : rows.HeldBy tx other version ∨ other = key ∧
      ∃ found, rows.view tx key = some found ∧ accepts found = true ∧ version = edit found := by
  -- The key changed: untouched as it did not match, or rewritten by this transaction.
  by_cases same : other = key
  · subst same
    rcases Row.change_cases (change_here changed) with ⟨_, alike, _⟩ |
      ⟨found, _, seen, accepted, _, _, mine⟩
    · unfold HeldBy at held
      rw [alike] at held
      exact .inl held
    · exact .inr ⟨rfl, found, seen, accepted, (held.unique mine).2⟩
  · unfold HeldBy at held
    rw [change_elsewhere changed same] at held
    exact .inl held

/-- A statement that has matched a row holds what it has made of it. -/
theorem change_matched {accepts : α → Bool} {edit : α → Option α}
    (changed : rows.change tx key accepts edit = some (next, true)) :
    ∃ found, rows.view tx key = some found ∧ accepts found = true ∧
      next.HeldBy tx key (edit found) := by
  rcases Row.change_cases (change_here changed) with ⟨missed, _⟩ |
    ⟨found, _, seen, accepted, _, _, mine⟩
  · cases missed
  · exact ⟨found, seen, accepted, mine⟩

/-- A statement over one row leaves what the transaction holds elsewhere. -/
theorem change_keeps {accepts : α → Bool} {edit : α → Option α} {matched : Bool} {other : κ}
    {version : Option α} (changed : rows.change tx key accepts edit = some (next, matched))
    (different : other ≠ key) (held : rows.HeldBy tx other version) :
    next.HeldBy tx other version := by
  unfold HeldBy
  rw [change_elsewhere changed different]
  exact held

/-- A statement over one row publishes nothing. -/
theorem change_committed {accepts : α → Bool} {edit : α → Option α} {matched : Bool}
    (changed : rows.change tx key accepts edit = some (next, matched)) (other : κ) :
    next.committed other = rows.committed other := by
  unfold committed
  by_cases same : other = key
  · subst same
    exact Row.change_committed (change_here changed)
  · rw [change_elsewhere changed same]

/-- A statement over one row disturbs no other transaction. -/
theorem change_undisturbed {accepts : α → Bool} {edit : α → Option α} {matched : Bool} {other : τ}
    (changed : rows.change tx key accepts edit = some (next, matched)) (different : other ≠ tx) :
    Undisturbed other rows next := by
  obtain ⟨row, taken, rfl⟩ := change_cases changed
  exact .of_set (Row.change_undisturbed different taken)

/-- What a statement over many rows does to one of them: it takes the row and edits the version it
sees, or leaves it alone. -/
def Visited (tx : τ) (accepts : α → Bool) (edit : α → Option α) (ids : List κ) (key : κ)
    (row after : Row τ α) : Prop :=
  (after = row ∧ (key ∈ ids → ∀ version, row.view tx = some version → accepts version = false)) ∨
    key ∈ ids ∧ ∃ version, row.view tx = some version ∧ accepts version = true ∧
      row.lockedByOther tx = false ∧ after.committed = row.committed ∧
      after.HeldBy tx (edit version)

/-- A statement over many rows visits each of them once: what it writes it does not take again. -/
theorem changeAll_visits {accepts : α → Bool} {edit : α → Option α} {ids : List κ}
    (settles : ∀ version edited, accepts version = true → edit version = some edited →
      accepts edited = false)
    (changed : rows.changeAll tx accepts edit ids = some next) (key : κ) :
    Visited tx accepts edit ids key (rows.row key) (next.row key) := by
  -- By induction on the keys still to visit, from whatever the rows are by then.
  induction ids generalizing rows with
  | nil =>
    cases changed
    exact .inl ⟨rfl, by simp⟩
  | cons first rest ih =>
    simp only [changeAll, Option.bind_eq_some_iff, Prod.exists] at changed
    obtain ⟨middle, matched, now, later⟩ := changed
    obtain ⟨row, taken, rfl⟩ := change_cases now
    have rest_visits := ih later
    rw [set_row] at rest_visits
    by_cases same : key = first
    · subst same
      rw [if_pos rfl] at rest_visits
      rcases Row.change_cases taken with ⟨_, rfl, refused⟩ |
        ⟨version, _, seen, accepted, alone, published, mine⟩
      · -- The first visit matches nothing, so only a later one can.
        rcases rest_visits with ⟨unchanged, _⟩ | ⟨_, version, seen, accepted, _⟩
        · exact .inl ⟨unchanged, fun _ => refused⟩
        · cases (refused version seen).symm.trans accepted
      · refine .inr ⟨List.mem_cons_self, version, seen, accepted, alone, ?_⟩
        rcases rest_visits with ⟨unchanged, _⟩ | ⟨_, again, found, twice, _⟩
        · rw [unchanged]
          exact ⟨published, mine⟩
        · -- A second visit would see the version that the first one wrote.
          rw [mine.view_eq] at found
          cases (settles version again accepted found).symm.trans twice
    · rw [if_neg same] at rest_visits
      rcases rest_visits with ⟨unchanged, refused⟩ | ⟨later_member, version, found⟩
      · refine .inl ⟨unchanged, fun member => refused ?_⟩
        exact (List.mem_cons.mp member).resolve_left same
      · exact .inr ⟨List.mem_cons_of_mem _ later_member, version, found⟩

omit [DecidableEq κ] in
/-- A visit disturbs no other transaction. -/
theorem Visited.undisturbed {other : τ} {accepts : α → Bool} {edit : α → Option α} {ids : List κ}
    {row after : Row τ α} (different : other ≠ tx)
    (visited : Visited tx accepts edit ids key row after) : Row.Undisturbed other row after := by
  rcases visited with ⟨rfl, _⟩ | ⟨_, version, _, _, alone, _, held⟩
  · exact .refl other _
  · exact .of_taken different (Row.lockedByOther_eq_false.mp alone) held

omit [DecidableEq κ] in
/-- A visit keeps the lock of its own transaction. -/
theorem Visited.keeps_lock {accepts : α → Bool} {edit : α → Option α} {ids : List κ}
    {row after : Row τ α} (visited : Visited tx accepts edit ids key row after)
    {version : Option α} (held : row.HeldBy tx version) : ∃ version, after.HeldBy tx version := by
  rcases visited with ⟨rfl, _⟩ | ⟨_, found, _, _, _, _, mine⟩
  · exact ⟨version, held⟩
  · exact ⟨_, mine⟩

omit [DecidableEq κ] in
/-- A visit publishes nothing. -/
theorem Visited.committed {accepts : α → Bool} {edit : α → Option α} {ids : List κ}
    {row after : Row τ α} (visited : Visited tx accepts edit ids key row after) :
    after.committed = row.committed := by
  rcases visited with ⟨rfl, _⟩ | ⟨_, version, _, _, _, same, _⟩
  · rfl
  · exact same

/-- A statement over many rows keeps every listed key listed. -/
theorem mem_changeAll_keys {accepts : α → Bool} {edit : α → Option α} {ids : List κ} {other : κ}
    (changed : rows.changeAll tx accepts edit ids = some next) (listed : other ∈ rows.keys) :
    other ∈ next.keys := by
  -- Over the ids; a change never takes a key off the list.
  induction ids generalizing rows with
  | nil =>
    cases changed
    exact listed
  | cons first rest ih =>
    simp only [changeAll, Option.bind_eq_some_iff, Prod.exists] at changed
    obtain ⟨middle, matched, now, later⟩ := changed
    obtain ⟨row, _, rfl⟩ := change_cases now
    exact ih later (mem_set_keys row listed)

/-- A statement over one row visits it, whatever it writes there. -/
theorem changeAll_singleton_visits {accepts : α → Bool} {edit : α → Option α} {first : κ}
    (changed : rows.changeAll tx accepts edit [first] = some next) (key : κ) :
    Visited tx accepts edit [first] key (rows.row key) (next.row key) := by
  simp only [changeAll, Option.bind_eq_some_iff, Prod.exists, Option.some.injEq] at changed
  obtain ⟨middle, matched, now, rfl⟩ := changed
  obtain ⟨row, taken, rfl⟩ := change_cases now
  rw [set_row]
  -- The one id: not matched and left, or matched and rewritten.
  by_cases same : key = first
  · subst same
    rw [if_pos rfl]
    rcases Row.change_cases taken with ⟨_, rfl, refused⟩ | ⟨version, _, found⟩
    · exact .inl ⟨rfl, fun _ => refused⟩
    · exact .inr ⟨List.mem_cons_self, version, found⟩
  · rw [if_neg same]
    exact .inl ⟨rfl, fun member => absurd (List.mem_singleton.mp member) same⟩

omit [DecidableEq κ] in
/-- A transaction that held nothing publishes what its one statement wrote, and nothing else. -/
theorem Visited.commit_committed {accepts : α → Bool} {edit : α → Option α} {ids : List κ}
    {row after : Row τ α} (unheld : ∀ version, ¬row.HeldBy tx version)
    (visited : Visited tx accepts edit ids key row after) :
    (after.commit tx).committed = row.committed ∨
      key ∈ ids ∧ ∃ version, row.committed = some version ∧ accepts version = true ∧
        (after.commit tx).committed = edit version := by
  rcases visited with ⟨rfl, _⟩ | ⟨member, version, seen, accepted, _, _, mine⟩
  · rw [Row.commit_of_unheld unheld]
    exact .inl rfl
  · -- Without a lock of its own, the statement saw the committed version.
    rw [Row.view_eq_committed unheld] at seen
    rw [mine.commit_eq]
    exact .inr ⟨member, version, seen, accepted, rfl⟩

omit [DecidableEq τ] in
/-- An insertion takes a key that was never used. -/
theorem insert_cases {version : α} (inserted : rows.insert tx key version = some next) :
    key ∉ rows.keys ∧ ∃ row, (rows.row key).insert tx version = some row ∧
      next = rows.set key row := by
  unfold insert at inserted
  split at inserted
  · cases inserted
  · rename_i fresh
    simp only [Option.map_eq_some_iff] at inserted
    obtain ⟨row, taken, same⟩ := inserted
    exact ⟨fresh, row, taken, same.symm⟩

omit [DecidableEq τ] in
/-- An insertion publishes nothing. -/
theorem insert_committed {version : α} (inserted : rows.insert tx key version = some next)
    (other : κ) : next.committed other = rows.committed other := by
  obtain ⟨_, row, taken, rfl⟩ := insert_cases inserted
  obtain ⟨missing, _, after, _⟩ := Row.insert_cases taken
  unfold committed
  rw [set_row]
  -- An insert is not committed yet, so its key still shows nothing.
  split
  · rename_i same
    rw [same, after, missing]
  · rfl

omit [DecidableEq τ] in
/-- An insertion disturbs no other transaction. -/
theorem insert_undisturbed {version : α} {other : τ}
    (inserted : rows.insert tx key version = some next) (different : other ≠ tx) :
    Undisturbed other rows next := by
  obtain ⟨_, row, taken, rfl⟩ := insert_cases inserted
  exact .of_set (Row.insert_undisturbed different taken)

omit [DecidableEq τ] in
/-- A transaction that held nothing holds the row it has inserted, and no other one. -/
theorem insert_heldBy {version : α} {found : Option α} {other : κ}
    (free : ∀ key version, ¬rows.HeldBy tx key version)
    (inserted : rows.insert tx key version = some next) (held : next.HeldBy tx other found) :
    other = key ∧ found = some version ∧ rows.committed key = none := by
  obtain ⟨_, row, taken, rfl⟩ := insert_cases inserted
  obtain ⟨missing, _, _, mine⟩ := Row.insert_cases taken
  unfold HeldBy at held
  rw [set_row] at held
  -- Nothing was held before, so what is held is the new row.
  split at held
  · rename_i same
    exact ⟨same, (held.unique mine).2, missing⟩
  · exact absurd held (free other found)

end Laws

end Rows

end Store
