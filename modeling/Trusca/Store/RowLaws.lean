import Trusca.Store.Row

/-! What each statement can do to a row, and when a committed version is permanent. -/

namespace Store.Row

variable {τ α : Type*} {row next : Row τ α} {tx : τ}

/-- The transaction holds the row with the given uncommitted version. -/
def HeldBy (row : Row τ α) (tx : τ) (version : Option α) : Prop := row.held = some (tx, version)

/-- The committed version of a free row is its version. -/
@[simp] theorem free_committed (version : Option α) :
    (free version : Row τ α).committed = version := rfl

/-- Nobody holds a free row. -/
@[simp] theorem free_held (version : Option α) : (free version : Row τ α).held = none := rfl

/-- A held row has one holder and one uncommitted version. -/
theorem HeldBy.unique {first second : τ} {before after : Option α}
    (held : row.HeldBy first before) (again : row.HeldBy second after) :
    first = second ∧ before = after := by
  -- Both facts read the same field, so they name the same pair.
  have same : (first, before) = (second, after) := Option.some.inj (held.symm.trans again)
  exact Prod.mk.inj same

/-- Nobody holds an unlocked row. -/
theorem not_heldBy_of_unlocked (unlocked : row.held = none) (version : Option α) :
    ¬row.HeldBy tx version := by
  intro held
  rw [HeldBy, unlocked] at held
  cases held

/-- A transaction holds the row with some version, or with none at all. -/
theorem heldBy_or_unheld (row : Row τ α) (tx : τ) :
    (∃ version, row.HeldBy tx version) ∨ ∀ version, ¬row.HeldBy tx version := by
  by_cases mine : ∃ version, row.HeldBy tx version
  · exact .inl mine
  · exact .inr fun version held => mine ⟨version, held⟩

/-- The holder of a row is not a transaction that holds nothing. -/
theorem owner_ne {owner : τ} {version : Option α} (unheld : ∀ version, ¬row.HeldBy tx version)
    (held : row.held = some (owner, version)) : owner ≠ tx := by
  intro same
  subst same
  exact unheld version held

variable {κ : Type*} {key : Option α → κ} {final : α → Prop}

/-- Every uncommitted version of a row repeats the key of the committed one once that one is
final. -/
def Settled (key : Option α → κ) (final : α → Prop) (row : Row τ α) : Prop :=
  ∀ tx version, row.HeldBy tx version →
    key version = key row.committed ∨ ∀ current, row.committed = some current → ¬final current

/-- A row nobody has locked is settled. -/
theorem Settled.of_unheld (unlocked : row.held = none) : Settled key final row := by
  intro tx version held
  -- There is no uncommitted version to compare with the committed one.
  exact absurd held (not_heldBy_of_unlocked unlocked version)

/-- What a transaction may rely on while others act: its lock and version stay, and so does the
committed version while it holds the row. -/
structure Undisturbed (tx : τ) (row next : Row τ α) : Prop where
  heldBy : ∀ version, next.HeldBy tx version ↔ row.HeldBy tx version
  committed : ∀ version, row.HeldBy tx version → next.committed = row.committed

/-- An unchanged row disturbs nobody. -/
theorem Undisturbed.refl (tx : τ) (row : Row τ α) : Undisturbed tx row row :=
  ⟨fun _ => Iff.rfl, fun _ _ => rfl⟩

/-- Two changes that do not disturb a transaction do not disturb it together. -/
theorem Undisturbed.trans {last : Row τ α} (first : Undisturbed tx row next)
    (second : Undisturbed tx next last) : Undisturbed tx row last := by
  refine ⟨fun version => (second.heldBy version).trans (first.heldBy version), ?_⟩
  intro version held
  -- The lock survives the first change, so the second one may rely on it too.
  exact (second.committed version ((first.heldBy version).mpr held)).trans
    (first.committed version held)

/-- A transaction that holds nothing gets no lock from what others do. -/
theorem Undisturbed.unheld (kept : Undisturbed tx row next)
    (free : ∀ version, ¬row.HeldBy tx version) (version : Option α) : ¬next.HeldBy tx version := by
  intro held
  exact free version ((kept.heldBy version).mp held)

/-- Taking a row that nobody else holds disturbs nobody else. -/
theorem Undisturbed.of_taken {other : τ} {version : Option α} (different : other ≠ tx)
    (alone : ∀ owner found, row.HeldBy owner found → owner = tx) (taken : next.HeldBy tx version) :
    Undisturbed other row next := by
  -- The other transaction holds the row neither before nor after, so nothing of its is touched.
  refine ⟨fun found => ⟨fun owned => ?_, fun owned => ?_⟩, fun found owned => ?_⟩
  · exact absurd (owned.unique taken).1 different
  · exact absurd (alone other found owned) different
  · exact absurd (alone other found owned) different

variable [DecidableEq τ]

/-- A row not locked by another transaction is free or held by this one. -/
theorem lockedByOther_eq_false :
    row.lockedByOther tx = false ↔ ∀ owner version, row.HeldBy owner version → owner = tx := by
  unfold lockedByOther HeldBy
  cases row.held with
  | none => simp
  | some pair =>
    obtain ⟨owner, version⟩ := pair
    simp

/-- A reader that does not hold the row sees the committed version. -/
theorem view_eq_committed (unheld : ∀ version, ¬row.HeldBy tx version) :
    row.view tx = row.committed := by
  unfold view
  cases held : row.held with
  -- An unlocked row shows its committed version to everybody.
  | none => rfl
  | some pair =>
    -- A row locked by somebody else does so as well.
    obtain ⟨owner, version⟩ := pair
    simp [owner_ne unheld held]

/-- The holder sees its own version. -/
theorem HeldBy.view_eq {version : Option α} (held : row.HeldBy tx version) :
    row.view tx = version := by
  unfold HeldBy at held
  simp [view, held]

/-- A locking read finds no row and changes nothing, or locks the version it sees. -/
theorem lock_cases (locked : row.lock tx = some next) :
    (row.view tx = none ∧ next = row) ∨
      ∃ version, row.view tx = some version ∧ row.lockedByOther tx = false ∧
        next.committed = row.committed ∧ next.HeldBy tx (some version) := by
  unfold lock at locked
  cases seen : row.view tx with
  | none =>
    -- A missing row cannot be locked, and the statement returns nothing.
    simp only [seen, Option.some.injEq] at locked
    exact .inl ⟨rfl, locked.symm⟩
  | some version =>
    simp only [seen] at locked
    split at locked
    · -- The statement still waits, so it has not returned.
      cases locked
    · rename_i unblocked
      simp only [Option.some.injEq] at locked
      subst locked
      exact .inr ⟨version, rfl, by simpa using unblocked, rfl, rfl⟩

/-- A writing statement matches nothing and changes nothing, or takes the row and edits the
version it sees. -/
theorem change_cases {accepts : α → Bool} {edit : α → Option α} {matched : Bool}
    (changed : row.change tx accepts edit = some (next, matched)) :
    (matched = false ∧ next = row ∧ ∀ version, row.view tx = some version → accepts version = false) ∨
      ∃ version, matched = true ∧ row.view tx = some version ∧ accepts version = true ∧
        row.lockedByOther tx = false ∧ next.committed = row.committed ∧
        next.HeldBy tx (edit version) := by
  unfold change at changed
  cases seen : row.view tx with
  | none =>
    -- A missing row meets no condition.
    simp only [seen, Option.some.injEq, Prod.mk.injEq] at changed
    exact .inl ⟨changed.2.symm, changed.1.symm, by simp⟩
  | some version =>
    simp only [seen] at changed
    split at changed
    · rename_i accepted
      split at changed
      · -- Another transaction holds the row, so the statement still waits.
        cases changed
      · rename_i unblocked
        simp only [Option.some.injEq, Prod.mk.injEq] at changed
        obtain ⟨rfl, rfl⟩ := changed
        exact .inr ⟨version, rfl, rfl, accepted, by simpa using unblocked, rfl, rfl⟩
    · -- The condition fails on the version seen, and no lock is taken.
      rename_i refused
      simp only [Option.some.injEq, Prod.mk.injEq] at changed
      refine .inl ⟨changed.2.symm, changed.1.symm, ?_⟩
      intro other same
      cases same
      simpa using refused

/-- The holder's UPDATE applies to its own version. -/
theorem HeldBy.change {version : α} {edit : α → Option α} {matched : Bool}
    (held : row.HeldBy tx (some version))
    (changed : row.change tx (fun _ => true) edit = some (next, matched)) :
    next.HeldBy tx (edit version) := by
  rcases change_cases changed with ⟨_, _, refused⟩ | ⟨found, _, seen, _, _, _, mine⟩
  · -- The statement has no condition, so it cannot have missed the row.
    cases refused version held.view_eq
  · rw [held.view_eq] at seen
    cases seen
    exact mine

/-- A statement that commits nothing keeps the committed version. -/
theorem change_committed {accepts : α → Bool} {edit : α → Option α} {matched : Bool}
    (changed : row.change tx accepts edit = some (next, matched)) :
    next.committed = row.committed := by
  rcases change_cases changed with ⟨_, rfl, _⟩ | ⟨_, _, _, _, _, same, _⟩
  · rfl
  · exact same

/-- A locking read keeps the committed version. -/
theorem lock_committed (locked : row.lock tx = some next) : next.committed = row.committed := by
  rcases lock_cases locked with ⟨_, rfl⟩ | ⟨_, _, _, same, _⟩
  · rfl
  · exact same

/-- A locking read of a row the transaction did not hold locks the committed version. -/
theorem lock_unheld {version : α} (unheld : ∀ version, ¬row.HeldBy tx version)
    (seen : row.view tx = some version) (locked : row.lock tx = some next) :
    next.HeldBy tx (some version) ∧ next.committed = some version := by
  rcases lock_cases locked with ⟨missing, _⟩ | ⟨current, found, _, same, held⟩
  · cases missing.symm.trans seen
  · -- Without a lock of its own, the transaction read the committed version.
    cases found.symm.trans seen
    rw [view_eq_committed unheld] at found
    exact ⟨held, same.trans found⟩

/-- A commit by the holder publishes its version. -/
theorem HeldBy.commit_eq {version : Option α} (held : row.HeldBy tx version) :
    row.commit tx = free version := by
  unfold HeldBy at held
  simp [commit, held, free]

/-- A transaction that holds nothing commits nothing. -/
theorem commit_of_unheld (unheld : ∀ version, ¬row.HeldBy tx version) : row.commit tx = row := by
  unfold commit
  cases held : row.held with
  | none => rfl
  | some pair =>
    obtain ⟨owner, version⟩ := pair
    simp [owner_ne unheld held]

/-- A transaction that holds nothing rolls nothing back. -/
theorem rollback_of_unheld (unheld : ∀ version, ¬row.HeldBy tx version) :
    row.rollback tx = row := by
  unfold rollback
  cases held : row.held with
  | none => rfl
  | some pair =>
    obtain ⟨owner, version⟩ := pair
    simp [owner_ne unheld held]

/-- The transaction ends: the row is free if it held it, and as it was otherwise. -/
def Releases (tx : τ) (row next : Row τ α) : Prop :=
  (∃ version shown, row.HeldBy tx version ∧ next = free shown) ∨
    (∀ version, ¬row.HeldBy tx version) ∧ next = row

omit [DecidableEq τ] in
/-- A transaction that ended holds nothing. -/
theorem Releases.unheld (released : Releases tx row next) (version : Option α) :
    ¬next.HeldBy tx version := by
  rcases released with ⟨_, shown, _, rfl⟩ | ⟨unheld, rfl⟩
  · exact not_heldBy_of_unlocked rfl version
  · exact unheld version

omit [DecidableEq τ] in
/-- The end of a transaction leaves the locks of the others in place. -/
theorem Releases.heldBy_other {other : τ} (released : Releases tx row next)
    (different : other ≠ tx) {version : Option α} :
    next.HeldBy other version ↔ row.HeldBy other version := by
  rcases released with ⟨mine, shown, held, rfl⟩ | ⟨_, rfl⟩
  · -- The row had one holder, which was not the other transaction.
    constructor
    · intro owned
      exact absurd owned (not_heldBy_of_unlocked rfl version)
    · intro owned
      exact absurd (owned.unique held).1 different
  · exact Iff.rfl

/-- A commit ends the transaction. -/
theorem commit_releases : Releases tx row (row.commit tx) := by
  rcases heldBy_or_unheld row tx with ⟨version, held⟩ | unheld
  · exact .inl ⟨version, version, held, held.commit_eq⟩
  · exact .inr ⟨unheld, commit_of_unheld unheld⟩

/-- A rollback ends the transaction. -/
theorem rollback_releases : Releases tx row (row.rollback tx) := by
  rcases heldBy_or_unheld row tx with ⟨version, held⟩ | unheld
  · refine .inl ⟨version, row.committed, held, ?_⟩
    unfold HeldBy at held
    simp [rollback, held, free]
  · exact .inr ⟨unheld, rollback_of_unheld unheld⟩

/-- A rollback publishes nothing. -/
@[simp] theorem rollback_committed : (row.rollback tx).committed = row.committed := by
  unfold rollback
  cases row.held with
  | none => rfl
  | some pair =>
    dsimp only
    split <;> rfl

/-- After a rollback the transaction holds nothing. -/
theorem rollback_unheld (version : Option α) : ¬(row.rollback tx).HeldBy tx version :=
  rollback_releases.unheld version

/-- After a commit the transaction holds nothing. -/
theorem commit_unheld (version : Option α) : ¬(row.commit tx).HeldBy tx version :=
  commit_releases.unheld version

/-- A locking read disturbs no other transaction. -/
theorem lock_undisturbed {other : τ} (different : other ≠ tx) (locked : row.lock tx = some next) :
    Undisturbed other row next := by
  rcases lock_cases locked with ⟨_, rfl⟩ | ⟨version, _, alone, _, held⟩
  · exact .refl other _
  · exact .of_taken different (lockedByOther_eq_false.mp alone) held

/-- A writing statement disturbs no other transaction. -/
theorem change_undisturbed {other : τ} {accepts : α → Bool} {edit : α → Option α} {matched : Bool}
    (different : other ≠ tx) (changed : row.change tx accepts edit = some (next, matched)) :
    Undisturbed other row next := by
  rcases change_cases changed with ⟨_, rfl, _⟩ | ⟨version, _, _, _, alone, _, held⟩
  · exact .refl other _
  · exact .of_taken different (lockedByOther_eq_false.mp alone) held

/-- A commit disturbs no other transaction. -/
theorem commit_undisturbed {other : τ} (different : other ≠ tx) :
    Undisturbed other row (row.commit tx) := by
  refine ⟨fun version => commit_releases.heldBy_other different, fun version held => ?_⟩
  -- While the other transaction holds the row, this one has nothing to publish.
  rw [commit_of_unheld fun mine found => different (held.unique found).1]

/-- A rollback disturbs no other transaction. -/
theorem rollback_undisturbed {other : τ} (different : other ≠ tx) :
    Undisturbed other row (row.rollback tx) :=
  ⟨fun _ => rollback_releases.heldBy_other different, fun _ _ => rollback_committed⟩

omit [DecidableEq τ] in
/-- An insertion starts from a missing row that nobody holds. -/
theorem insert_cases {version : α} (inserted : row.insert tx version = some next) :
    row.committed = none ∧ row.held = none ∧ next.committed = none ∧
      next.HeldBy tx (some version) := by
  unfold insert at inserted
  split at inserted
  · rename_i missing unlocked
    cases inserted
    exact ⟨missing, unlocked, missing, rfl⟩
  · cases inserted

omit [DecidableEq τ] in
/-- An insertion disturbs no other transaction. -/
theorem insert_undisturbed {other : τ} {version : α} (different : other ≠ tx)
    (inserted : row.insert tx version = some next) : Undisturbed other row next := by
  obtain ⟨_, unlocked, _, held⟩ := insert_cases inserted
  refine .of_taken different (fun owner found owned => ?_) held
  exact absurd owned (not_heldBy_of_unlocked unlocked found)

/-- A locking read keeps a row settled. -/
theorem Settled.lock (settled : Settled key final row) (locked : row.lock tx = some next) :
    Settled key final next := by
  rcases lock_cases locked with ⟨_, rfl⟩ | ⟨version, seen, _, same, held⟩
  · exact settled
  · intro owner found owned
    obtain ⟨rfl, rfl⟩ := owned.unique held
    rw [same]
    -- A first lock takes the committed version; a repeated one keeps the version already held.
    rcases heldBy_or_unheld row owner with ⟨before, mine⟩ | unheld
    · rw [mine.view_eq] at seen
      subst seen
      exact settled owner _ mine
    · rw [view_eq_committed unheld] at seen
      exact .inl (congrArg key seen.symm)

/-- A writing statement keeps a row settled when it keeps the key or finds no final version. -/
theorem Settled.change {accepts : α → Bool} {edit : α → Option α} {matched : Bool}
    (settled : Settled key final row) (changed : row.change tx accepts edit = some (next, matched))
    (harmless : ∀ version, row.view tx = some version → accepts version = true →
      key (edit version) = key row.committed ∨
        ∀ current, row.committed = some current → ¬final current) : Settled key final next := by
  rcases change_cases changed with ⟨_, rfl, _⟩ | ⟨version, _, seen, accepted, _, same, held⟩
  · exact settled
  · intro owner found owned
    -- The only uncommitted version is the one the statement just wrote.
    obtain ⟨_, rfl⟩ := owned.unique held
    rw [same]
    exact harmless version seen accepted

omit [DecidableEq τ] in
/-- An insertion keeps a row settled. -/
theorem Settled.insert {version : α} (inserted : row.insert tx version = some next) :
    Settled key final next := by
  obtain ⟨_, _, missing, _⟩ := insert_cases inserted
  intro owner found owned
  -- Nothing is committed yet, so nothing committed is final.
  refine .inr fun current published => ?_
  rw [missing] at published
  cases published

/-- A commit keeps a row settled. -/
theorem Settled.commit (settled : Settled key final row) : Settled key final (row.commit tx) := by
  rcases heldBy_or_unheld row tx with ⟨version, mine⟩ | unheld
  · rw [mine.commit_eq]
    exact .of_unheld rfl
  · rw [commit_of_unheld unheld]
    exact settled

/-- A rollback keeps a row settled. -/
theorem Settled.rollback (settled : Settled key final row) :
    Settled key final (row.rollback tx) := by
  intro owner version owned
  by_cases same : owner = tx
  · subst same
    exact absurd owned (rollback_unheld version)
  · -- A lock of another transaction was there before the rollback, over the same committed row.
    rw [rollback_committed]
    exact settled owner version ((rollback_releases.heldBy_other same).mp owned)

/-- Nobody's commit changes the key of a final committed version of a settled row. -/
theorem Settled.commit_committed (settled : Settled key final row) {current : α}
    (published : row.committed = some current) (last : final current) :
    key (row.commit tx).committed = key row.committed := by
  rcases heldBy_or_unheld row tx with ⟨version, mine⟩ | unheld
  · rw [mine.commit_eq, free_committed]
    -- The published version repeats the key, unless the committed one was not final after all.
    rcases settled tx version mine with same | unfinished
    · exact same
    · exact absurd last (unfinished current published)
  · rw [commit_of_unheld unheld]

/-- A step of one transaction that disturbs no other one, keeps the row settled, and keeps the key
of a final committed version. -/
structure Harmless (key : Option α → κ) (final : α → Prop) (tx : τ) (row next : Row τ α) :
    Prop where
  undisturbed : ∀ other, other ≠ tx → Undisturbed other row next
  settled : Settled key final row → Settled key final next
  kept : Settled key final row → ∀ current, row.committed = some current → final current →
    key next.committed = key row.committed

omit [DecidableEq τ] in
/-- A step that leaves the row alone is harmless. -/
theorem Harmless.refl : Harmless key final tx row row :=
  ⟨fun other _ => .refl other row, fun settled => settled, fun _ _ _ _ => rfl⟩

/-- A locking read is harmless. -/
theorem Harmless.of_lock (locked : row.lock tx = some next) : Harmless key final tx row next :=
  ⟨fun _ different => lock_undisturbed different locked,
    fun settled => settled.lock locked, fun _ _ _ _ => congrArg key (lock_committed locked)⟩

/-- A writing statement is harmless when it keeps the key or finds no final version. -/
theorem Harmless.of_change {accepts : α → Bool} {edit : α → Option α} {matched : Bool}
    (changed : row.change tx accepts edit = some (next, matched))
    (allowed : ∀ version, row.view tx = some version → accepts version = true →
      key (edit version) = key row.committed ∨
        ∀ current, row.committed = some current → ¬final current) :
    Harmless key final tx row next :=
  ⟨fun _ different => change_undisturbed different changed,
    fun settled => settled.change changed allowed,
    fun _ _ _ _ => congrArg key (change_committed changed)⟩

omit [DecidableEq τ] in
/-- An insertion is harmless. -/
theorem Harmless.of_insert {version : α} (inserted : row.insert tx version = some next) :
    Harmless key final tx row next := by
  refine ⟨fun other different => insert_undisturbed different inserted,
    fun _ => .insert inserted, fun _ _ _ _ => congrArg key ?_⟩
  obtain ⟨before, _, after, _⟩ := insert_cases inserted
  exact after.trans before.symm

/-- A commit is harmless on a settled row. -/
theorem Harmless.of_commit : Harmless key final tx row (row.commit tx) :=
  ⟨fun _ different => commit_undisturbed different, Settled.commit,
    fun settled _ published last => settled.commit_committed published last⟩

/-- A rollback is harmless. -/
theorem Harmless.of_rollback : Harmless key final tx row (row.rollback tx) :=
  ⟨fun _ different => rollback_undisturbed different, Settled.rollback,
    fun _ _ _ _ => congrArg key rollback_committed⟩

/-- A commit harmlessly leaves its transaction with nothing held. -/
theorem commit_ends : Harmless key final tx row (row.commit tx) ∧
    ∀ version, ¬(row.commit tx).HeldBy tx version :=
  ⟨.of_commit, commit_unheld⟩

/-- A rollback harmlessly leaves its transaction with nothing held. -/
theorem rollback_ends : Harmless key final tx row (row.rollback tx) ∧
    ∀ version, ¬(row.rollback tx).HeldBy tx version :=
  ⟨.of_rollback, rollback_unheld⟩

end Store.Row
