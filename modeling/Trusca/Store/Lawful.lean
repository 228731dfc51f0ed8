import Trusca.Store.Rows
import Trusca.Store.Session

/-! Tables whose uncommitted versions all follow a law about the committed ones, so that every commit
does. -/

namespace Store

namespace Row

variable {τ α : Type*} {law : Option α → Option α → Prop} {row next : Row τ α} {tx : τ}

/-- Every uncommitted version is one that the law allows after the committed one. -/
def Lawful (law : Option α → Option α → Prop) (row : Row τ α) : Prop :=
  ∀ tx version, row.HeldBy tx version → law row.committed version

/-- A row nobody has locked is lawful. -/
theorem Lawful.of_unlocked (unlocked : row.held = none) : row.Lawful law :=
  fun _ version held => absurd held (not_heldBy_of_unlocked unlocked version)

variable [DecidableEq τ]

/-- A locking read repeats the version it has found. -/
theorem Lawful.lock (refl : ∀ version, law version version) (lawful : row.Lawful law)
    (locked : row.lock tx = some next) : next.Lawful law := by
  rcases lock_cases locked with ⟨_, rfl⟩ | ⟨version, seen, free, same, mine⟩
  · exact lawful
  · intro owner found held
    obtain ⟨_, rfl⟩ := held.unique mine
    rw [same]
    -- The version is the transaction's own, or the committed one.
    rcases heldBy_or_unheld row tx with ⟨before, ours⟩ | unheld
    · rw [← seen, ours.view_eq]
      exact lawful tx before ours
    · rw [← seen, view_eq_committed unheld]
      exact refl _

/-- A statement is lawful when what it makes of the version it finds is. -/
theorem Lawful.change {accepts : α → Bool} {edit : α → Option α} {matched : Bool}
    (lawful : row.Lawful law) (changed : row.change tx accepts edit = some (next, matched))
    (allowed : ∀ version, row.view tx = some version → accepts version = true →
      law row.committed (edit version)) : next.Lawful law := by
  rcases change_cases changed with ⟨_, rfl, _⟩ | ⟨version, _, seen, accepted, _, same, mine⟩
  · exact lawful
  · intro owner found held
    obtain ⟨_, rfl⟩ := held.unique mine
    rw [same]
    exact allowed version seen accepted

omit [DecidableEq τ] in
/-- An insertion is lawful when the new row is. -/
theorem Lawful.insert {version : α} (inserted : row.insert tx version = some next)
    (allowed : law none (some version)) : next.Lawful law := by
  obtain ⟨_, _, missing, mine⟩ := insert_cases inserted
  intro owner found held
  obtain ⟨_, rfl⟩ := held.unique mine
  rw [missing]
  exact allowed

omit [DecidableEq τ] in
/-- What the end of a transaction leaves of the other versions is lawful. -/
theorem Lawful.released (lawful : row.Lawful law)
    (released : Releases tx row next) : next.Lawful law := by
  rcases released with ⟨_, _, _, rfl⟩ | ⟨_, rfl⟩
  · exact .of_unlocked rfl
  · exact lawful

/-- A commit publishes what the law allows. -/
theorem Lawful.commit_committed (refl : ∀ version, law version version)
    (lawful : row.Lawful law) : law row.committed (row.commit tx).committed := by
  rcases heldBy_or_unheld row tx with ⟨version, held⟩ | unheld
  · rw [held.commit_eq]
    exact lawful tx version held
  · rw [commit_of_unheld unheld]
    exact refl _

end Row

namespace Rows

variable {κ τ α : Type*} [DecidableEq κ] [DecidableEq τ] {law : κ → Option α → Option α → Prop}
  {rows next : Rows κ τ α} {tx : τ} {key : κ}

/-- Every uncommitted version of every row is one that the law allows after the committed one. -/
def Lawful (law : κ → Option α → Option α → Prop) (rows : Rows κ τ α) : Prop :=
  ∀ key, (rows.row key).Lawful (law key)

/-- The committed rows have changed as the law allows. -/
def Evolves (law : κ → Option α → Option α → Prop) (rows next : Rows κ τ α) : Prop :=
  ∀ key, law key (rows.committed key) (next.committed key)

omit [DecidableEq τ] in
/-- A table stays lawful when the row that is replaced does. -/
theorem Lawful.set {row : Row τ α} (lawful : rows.Lawful law) (here : row.Lawful (law key)) :
    (rows.set key row).Lawful law := by
  intro other
  rw [set_row]
  split
  · rename_i same
    rw [same]
    exact here
  · exact lawful other

/-- A locking read of a lawful table. -/
theorem Lawful.lock (refl : ∀ key version, law key version version) (lawful : rows.Lawful law)
    (locked : rows.lock tx key = some next) : next.Lawful law := by
  obtain ⟨row, taken, rfl⟩ := lock_cases locked
  exact lawful.set ((lawful key).lock (refl key) taken)

/-- A statement over one row of a lawful table. -/
theorem Lawful.change {accepts : α → Bool} {edit : α → Option α} {matched : Bool}
    (lawful : rows.Lawful law) (changed : rows.change tx key accepts edit = some (next, matched))
    (allowed : ∀ version, rows.view tx key = some version → accepts version = true →
      law key (rows.committed key) (edit version)) : next.Lawful law := by
  obtain ⟨row, taken, rfl⟩ := change_cases changed
  exact lawful.set ((lawful key).change taken allowed)

omit [DecidableEq τ] in
/-- An insertion into a lawful table. -/
theorem Lawful.insert {version : α} (lawful : rows.Lawful law)
    (inserted : rows.insert tx key version = some next) (allowed : law key none (some version)) :
    next.Lawful law := by
  obtain ⟨_, row, taken, rfl⟩ := insert_cases inserted
  exact lawful.set (.insert taken allowed)

omit [DecidableEq κ] in
/-- A commit on a lawful table. -/
theorem Lawful.commit (lawful : rows.Lawful law) (tx : τ) : (rows.commit tx).Lawful law :=
  fun key => (lawful key).released Row.commit_releases

omit [DecidableEq κ] in
/-- A rollback on a lawful table. -/
theorem Lawful.rollback (lawful : rows.Lawful law) (tx : τ) : (rows.rollback tx).Lawful law :=
  fun key => (lawful key).released Row.rollback_releases

omit [DecidableEq κ] in
/-- A commit changes the committed rows as the law allows. -/
theorem Lawful.evolves (refl : ∀ key version, law key version version) (lawful : rows.Lawful law)
    (tx : τ) : rows.Evolves law (rows.commit tx) :=
  fun key => (lawful key).commit_committed (refl key)

/-- The key is in use: if its row is gone, it is gone for good. -/
def InUse (rows : Rows κ τ α) (key : κ) : Prop :=
  key ∈ rows.keys ∧ (rows.committed key = none → rows.row key = .free none)

omit [DecidableEq κ] [DecidableEq τ] in
/-- The key of a committed row is in use. -/
theorem InUse.of_committed {version : α} (stored : rows.committed key = some version) :
    rows.InUse key :=
  ⟨mem_keys_of_committed stored, fun gone => nomatch stored.symm.trans gone⟩

/-- What becomes of the keys in use: they stay so, and what is gone is not put back. -/
def KeepsUse (rows next : Rows κ τ α) : Prop :=
  ∀ key, rows.InUse key →
    next.InUse key ∧ (rows.committed key = none → next.committed key = none)

omit [DecidableEq τ] in
/-- Replacing a row by what is made of it, if nothing is made of a row that is gone. -/
theorem KeepsUse.of_set {row : Row τ α} (same : row.committed = (rows.row key).committed)
    (gone : rows.row key = .free none → row = .free none) : rows.KeepsUse (rows.set key row) := by
  intro other ⟨listed, vanished⟩
  -- Every key has the committed version it had.
  have alike : (rows.set key row).committed other = rows.committed other := by
    unfold committed
    rw [set_row]
    split
    · rename_i here
      rw [here, same]
    · rfl
  refine ⟨⟨mem_set_keys row listed, fun missing => ?_⟩, fun missing => alike.trans missing⟩
  -- A key that had vanished before has vanished still.
  have before := vanished (alike.symm.trans missing)
  rw [set_row]
  -- For the key that was set this is what `gone` says.
  split
  · rename_i here
    exact gone (here ▸ before)
  · exact before

/-- A statement leaves a row that is gone as it is. -/
theorem KeepsUse.of_change {accepts : α → Bool} {edit : α → Option α} {matched : Bool}
    (changed : rows.change tx key accepts edit = some (next, matched)) : rows.KeepsUse next := by
  obtain ⟨row, taken, rfl⟩ := change_cases changed
  refine .of_set (Row.change_committed taken) fun gone => ?_
  rw [gone] at taken
  exact (Prod.mk.inj (Option.some.inj taken)).1.symm

/-- A locking read leaves a row that is gone as it is. -/
theorem KeepsUse.of_lock (locked : rows.lock tx key = some next) : rows.KeepsUse next := by
  obtain ⟨row, taken, rfl⟩ := lock_cases locked
  refine .of_set (Row.lock_committed taken) fun gone => ?_
  rw [gone] at taken
  exact (Option.some.inj taken).symm

omit [DecidableEq τ] in
/-- An insertion takes no key in use. -/
theorem KeepsUse.of_insert {version : α} (inserted : rows.insert tx key version = some next) :
    rows.KeepsUse next := by
  intro other ⟨listed, vanished⟩
  obtain ⟨fresh, row, taken, rfl⟩ := insert_cases inserted
  -- Only the inserted key's row changes, and that key was not in use.
  have elsewhere : (rows.set key row).row other = rows.row other := by
    rw [set_row, if_neg]
    rintro rfl
    exact fresh listed
  refine ⟨⟨mem_set_keys row listed, fun missing => ?_⟩, fun missing => ?_⟩
  · rw [elsewhere]
    exact vanished (by unfold committed at missing ⊢; rwa [elsewhere] at missing)
  · unfold committed at missing ⊢
    rw [elsewhere, missing]

omit [DecidableEq κ] [DecidableEq τ] in
/-- The end of a transaction leaves rows that are gone, and the rows it deletes are gone. -/
theorem KeepsUse.of_release (keys : next.keys = rows.keys)
    (released : ∀ key, Row.Releases tx (rows.row key) (next.row key)) : rows.KeepsUse next := by
  intro key ⟨listed, vanished⟩
  -- A row is released by the one that held it, or stays as it is.
  rcases released key with ⟨version, shown, mine, freed⟩ | ⟨_, same⟩
  · refine ⟨⟨keys ▸ listed, fun missing => ?_⟩, fun missing => ?_⟩
    · unfold committed at missing
      rw [freed] at missing ⊢
      rw [Row.free_committed] at missing
      rw [missing]
    · -- Nobody holds a row that is gone.
      have free := vanished missing
      unfold Row.HeldBy at mine
      rw [free] at mine
      cases mine
  · refine ⟨⟨keys ▸ listed, fun missing => ?_⟩, fun missing => ?_⟩
    · rw [same]
      exact vanished (by unfold committed at missing ⊢; rwa [same] at missing)
    · unfold committed at missing ⊢
      rw [same, missing]

omit [DecidableEq κ] in
/-- Committing keeps the keys in use. -/
theorem KeepsUse.of_commit : rows.KeepsUse (rows.commit tx) :=
  .of_release rfl fun _ => Row.commit_releases

omit [DecidableEq κ] in
/-- Rolling back keeps the keys in use. -/
theorem KeepsUse.of_rollback : rows.KeepsUse (rows.rollback tx) :=
  .of_release rfl fun _ => Row.rollback_releases

omit [DecidableEq κ] [DecidableEq τ] in
/-- Doing nothing keeps the keys in use. -/
theorem KeepsUse.refl (rows : Rows κ τ α) : rows.KeepsUse rows := fun _ used => ⟨used, id⟩

/-- A statement of a transaction on a lawful table: it leaves a lawful table and the locks of the
others, and publishes only what the law allows. -/
structure Advances (law : κ → Option α → Option α → Prop) (tx : τ) (rows next : Rows κ τ α) :
    Prop where
  lawful : next.Lawful law
  evolves : rows.Evolves law next
  others : ∀ other, other ≠ tx → Undisturbed other rows next
  use : rows.KeepsUse next

section Statements

variable (refl : ∀ key version, law key version version) (lawful : rows.Lawful law)

include refl lawful

omit [DecidableEq κ] [DecidableEq τ] in
/-- Doing nothing advances. -/
theorem Advances.idle : rows.Advances law tx rows :=
  ⟨lawful, fun key => refl key _, fun other _ => .refl other rows, .refl rows⟩

/-- Locking a row advances. -/
theorem Advances.of_lock (locked : rows.lock tx key = some next) : rows.Advances law tx next where
  lawful := lawful.lock refl locked
  evolves := fun other => by
    rw [lock_committed locked]
    exact refl other _
  others := fun _ different => lock_undisturbed locked different
  use := .of_lock locked

/-- Changing a row advances when the law allows the change. -/
theorem Advances.of_change {accepts : α → Bool} {edit : α → Option α} {matched : Bool}
    (changed : rows.change tx key accepts edit = some (next, matched))
    (allowed : ∀ version, rows.view tx key = some version → accepts version = true →
      law key (rows.committed key) (edit version)) : rows.Advances law tx next where
  -- Nothing but the edited row moves, and its edit is what `allowed` speaks of.
  lawful := lawful.change changed allowed
  evolves := fun other => by
    rw [change_committed changed]
    exact refl other _
  others := fun _ different => change_undisturbed changed different
  use := .of_change changed

omit [DecidableEq τ] in
/-- Inserting a row advances when the law allows the row. -/
theorem Advances.of_insert {version : α} (inserted : rows.insert tx key version = some next)
    (allowed : law key none (some version)) : rows.Advances law tx next where
  lawful := lawful.insert inserted allowed
  evolves := fun other => by
    rw [insert_committed inserted]
    exact refl other _
  others := fun _ different => insert_undisturbed inserted different
  use := .of_insert inserted

omit [DecidableEq κ] in
/-- Committing advances. -/
theorem Advances.of_commit : rows.Advances law tx (rows.commit tx) where
  lawful := lawful.commit tx
  evolves := lawful.evolves refl tx
  others := fun _ different => commit_undisturbed different
  use := .of_commit

omit [DecidableEq κ] in
/-- Rolling back advances. -/
theorem Advances.of_rollback : rows.Advances law tx (rows.rollback tx) where
  lawful := lawful.rollback tx
  evolves := fun key => by
    rw [rollback_committed]
    exact refl key _
  others := fun _ different => rollback_undisturbed different
  use := .of_rollback

end Statements

end Rows

namespace Sessions

variable {κ τ α π ε : Type*} [DecidableEq τ]
  {law : κ → Option α → Option α → Prop} {own : τ → Rows κ τ α → π → Prop}
  {act : τ → ε → Rows κ τ α → π → Option (Rows κ τ α × π)}
  {ok : Rows κ τ α → ε → π → Prop} {world next : Sessions (Rows κ τ α) τ π} {event : τ × ε}

/-- The obligations of a family of sessions on one table: every allowed statement advances by the
law, and what a session relies on survives what the law lets the others do. -/
structure Abides (law : κ → Option α → Option α → Prop)
    (act : τ → ε → Rows κ τ α → π → Option (Rows κ τ α × π))
    (own : τ → Rows κ τ α → π → Prop) (ok : Rows κ τ α → ε → π → Prop) : Prop where
  acts : ∀ tx event rows phase next after, rows.Lawful law → own tx rows phase →
    ok rows event phase → act tx event rows phase = some (next, after) →
    rows.Advances law tx next ∧ own tx next after
  kept : ∀ tx rows next phase, own tx rows phase → Rows.Undisturbed tx rows next →
    rows.Evolves law next → own tx next phase

/-- Each allowed step keeps the table lawful and changes its committed rows by the law. -/
theorem Abides.step (abides : Abides law act own ok)
    (sound : Annotated (Rows.Lawful law) own world) (met : Allows ok world event)
    (taken : Sessions.step act world event = some next) :
    Annotated (Rows.Lawful law) own next ∧ world.store.Evolves law next.store := by
  obtain ⟨tx, event⟩ := event
  have acting := fun store phase acted =>
    abides.acts tx event _ _ store phase sound.shared (sound.own tx) met acted
  constructor
  · refine Annotated.step sound taken (fun store phase acted => ?_) ?_
    · exact ⟨(acting store phase acted).1.lawful, (acting store phase acted).2⟩
    · -- The others find their locks in place and the committed rows lawfully changed.
      intro store phase other progress acted different relies
      have advances := (acting store phase acted).1
      exact abides.kept other _ _ _ relies (advances.others other different) advances.evolves
  · obtain ⟨store, phase, acted, rfl⟩ := step_eq_some.mp taken
    exact (acting store phase acted).1.evolves

end Sessions

end Store
