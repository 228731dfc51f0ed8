import Mathlib.Algebra.Order.Ring.Nat
import Mathlib.Data.Fintype.Basic
import Trusca.Secrets.KeyRotation

/-! A count without stale rows means that no ciphertext is left on an older key, unless a row that a
count has passed is taken away; and rewriting keeps every plaintext. -/

namespace Trusca

open Store

variable {ι τ : Type*} [LinearOrder ι] {fernet : Fernet} {keys : EncryptionKeys}

/-- What is encrypted now is on the newest key. -/
theorem isOnCurrentKey_encryptSecret (purpose : Option String) (random : Nat) (plaintext : String) :
    isOnCurrentKey fernet keys purpose (encryptSecret fernet keys purpose random plaintext) =
      true := by
  simp [isOnCurrentKey, encryptSecret, fernet.decrypt_encrypt]

/-- What is encrypted now decrypts to the same secret. -/
theorem decryptSecret_encryptSecret (purpose : Option String) (random : Nat) (plaintext : String) :
    decryptSecret fernet keys purpose (encryptSecret fernet keys purpose random plaintext) =
      some plaintext := by
  unfold decryptSecret encryptSecret
  rw [if_neg (fernet.encrypt_ne_empty _ _ _)]
  simp [EncryptionKeys.configured, fernet.decrypt_encrypt]

/-- Every stored ciphertext of a column is on the newest key. -/
def AllCurrent (fernet : Fernet) (keys : EncryptionKeys) (column : EncryptedColumn)
    (rows : Rows ι τ String) : Prop :=
  ∀ id value, rows.committed id = some value →
    isOnCurrentKey fernet keys column.purpose value = true

/-- Whatever is stored was there before, or is on the newest key. -/
def Renews (fernet : Fernet) (keys : EncryptionKeys) (column : EncryptedColumn)
    (rows next : Rows ι τ String) : Prop :=
  ∀ id value, next.committed id = some value →
    isOnCurrentKey fernet keys column.purpose value = true ∨ rows.committed id = some value

/-- Whatever is about to be stored is a ciphertext on the newest key. -/
def HoldsCurrent (fernet : Fernet) (keys : EncryptionKeys) (secrets : Secrets ι τ) : Prop :=
  ∀ column tx id version, (secrets column).HeldBy tx id version →
    ∃ value, version = some value ∧ isOnCurrentKey fernet keys column.purpose value = true

/-- The pages read of a column have all its stale rows so far: the others stand behind them. -/
def Paging (fernet : Fernet) (keys : EncryptionKeys) (column : EncryptedColumn)
    (rows : Rows ι τ String) (read : List (ι × String)) : Prop :=
  ∀ id value, rows.committed id = some value →
    isOnCurrentKey fernet keys column.purpose value = false →
    (id, value) ∈ read ∨ read.length ≤ rows.ahead id

/-- A report without stale rows is right about the columns it is finished with. -/
def Reported (fernet : Fernet) (keys : EncryptionKeys) (secrets : Secrets ι τ)
    (columns : List EncryptedColumn) (report : RotationReport) : Prop :=
  ∃ finished, encryptedColumns = finished ++ columns ∧ (report.staleTotal = 0 →
    ∀ column ∈ finished, AllCurrent fernet keys column (secrets column))

/-- What a command holds of a column is a ciphertext of the secret that it has read there. -/
def Rewrites (fernet : Fernet) (keys : EncryptionKeys) (tx : τ) (column : EncryptedColumn)
    (secrets : Secrets ι τ) (read : List (ι × String)) : Prop :=
  ∀ other id version, (secrets other).HeldBy tx id version → other = column ∧
    ∃ old new plaintext, (id, old) ∈ read ∧ (secrets other).committed id = some old ∧
      version = some new ∧ decryptSecret fernet keys column.purpose old = some plaintext ∧
      decryptSecret fernet keys column.purpose new = some plaintext

namespace RotationPhase

/-- The report of a count whose last read is complete. -/
def counted : RotationPhase ι → Option RotationReport
  | .reading .countStale [] _ report => some report
  | .done .countStale report => some report
  | _ => none

/-- What a command may rely on between its own steps. -/
def Relies (fernet : Fernet) (keys : EncryptionKeys) (tx : τ) (secrets : Secrets ι τ) :
    RotationPhase ι → Prop
  | .start _ => ∀ column id version, ¬(secrets column).HeldBy tx id version
  | .reading call columns read report =>
      (∀ column id version, ¬(secrets column).HeldBy tx id version) ∧ (call = .countStale →
        Reported fernet keys secrets columns report ∧
        ∀ column rest, columns = column :: rest →
          Paging fernet keys column (secrets column) read)
  | .rewriting column _ read rest _ _ =>
      rest ⊆ read ∧ Rewrites fernet keys tx column secrets read
  | .done call report => call = .countStale → Reported fernet keys secrets [] report
  | .failed => True

end RotationPhase

section Effects

variable {secrets next : Secrets ι τ} {rows later : Rows ι τ String} {column : EncryptedColumn}
  {tx : τ}

omit [LinearOrder ι] in
/-- A column that is all on the newest key stays so. -/
theorem AllCurrent.kept (current : AllCurrent fernet keys column rows)
    (renews : Renews fernet keys column rows later) : AllCurrent fernet keys column later := by
  intro id value stored
  rcases renews id value stored with fresh | before
  · exact fresh
  · exact current id value before

omit [LinearOrder ι] in
/-- A report stays right while every column only renews its secrets. -/
theorem Reported.kept {columns : List EncryptedColumn} {report : RotationReport}
    (reported : Reported fernet keys secrets columns report)
    (renews : ∀ column, Renews fernet keys column (secrets column) (next column)) :
    Reported fernet keys next columns report := by
  obtain ⟨finished, split, current⟩ := reported
  exact ⟨finished, split, fun none_stale column member =>
    (current none_stale column member).kept (renews column)⟩

/-- Stale rows behind the pages stay behind them. -/
theorem Paging.kept {read : List (ι × String)} (paging : Paging fernet keys column rows read)
    (renews : Renews fernet keys column rows later)
    (behind : ∀ id, read.length ≤ rows.ahead id → read.length ≤ later.ahead id) :
    Paging fernet keys column later read := by
  intro id value stored stale
  rcases renews id value stored with fresh | before
  · exact absurd (fresh.symm.trans stale) (by decide)
  · exact (paging id value before stale).imp_right (behind id)

omit [LinearOrder ι] in
/-- What a command holds of a column stays a ciphertext while others leave its rows alone. -/
theorem Rewrites.kept {read : List (ι × String)}
    (rewrites : Rewrites fernet keys tx column secrets read)
    (steady : ∀ column, Rows.Undisturbed tx (secrets column) (next column)) :
    Rewrites fernet keys tx column next read := by
  intro other id version held
  have mine := ((steady other id).heldBy version).mp held
  obtain ⟨here, old, new, plaintext, member, stored, same, opened, also⟩ :=
    rewrites other id version mine
  exact ⟨here, old, new, plaintext, member,
    ((steady other id).committed version mine).trans stored, same, opened, also⟩

/-- What a command relies on survives what the others do, as long as the rows behind its pages stay
behind them. -/
theorem RotationPhase.Relies.kept {phase : RotationPhase ι}
    (relies : phase.Relies fernet keys tx secrets)
    (steady : ∀ column, Rows.Undisturbed tx (secrets column) (next column))
    (renews : ∀ column, Renews fernet keys column (secrets column) (next column))
    (behind : ∀ column columns read report,
      phase = .reading .countStale (column :: columns) read report →
      ∀ id, read.length ≤ (secrets column).ahead id → read.length ≤ (next column).ahead id) :
    phase.Relies fernet keys tx next := by
  -- By phase: what a transaction holds stays, and what it counted is kept by `renews`.
  cases phase with
  | start call => exact fun column id => (steady column id).unheld (relies column id)
  | reading call columns read report =>
    refine ⟨fun column id => (steady column id).unheld (relies.1 column id), fun counting => ?_⟩
    subst counting
    obtain ⟨reported, paging⟩ := relies.2 rfl
    refine ⟨reported.kept renews, fun column rest same => ?_⟩
    exact (paging column rest same).kept (renews column) (behind column rest read report (same ▸ rfl))
  | rewriting column columns read rest progress report =>
    exact ⟨relies.1, relies.2.kept steady⟩
  | done call report => exact fun counting => (relies counting).kept renews
  | failed => trivial

/-- A step of a command: it holds and stores only ciphertext on the newest key, takes no row away, and
keeps the locks of the others. -/
structure RotationAdvances (fernet : Fernet) (keys : EncryptionKeys) (tx : τ)
    (secrets next : Secrets ι τ) (after : RotationPhase ι) : Prop where
  holds : HoldsCurrent fernet keys next
  steady : ∀ other, other ≠ tx → ∀ column, Rows.Undisturbed other (secrets column) (next column)
  renews : ∀ column, Renews fernet keys column (secrets column) (next column)
  present : ∀ column id, ((secrets column).committed id).isSome → ((next column).committed id).isSome
  relies : after.Relies fernet keys tx next

/-- A step that only reads. -/
theorem RotationAdvances.idle {after : RotationPhase ι} (holds : HoldsCurrent fernet keys secrets)
    (relies : after.Relies fernet keys tx secrets) :
    RotationAdvances fernet keys tx secrets secrets after :=
  ⟨holds, fun other _ _ => .refl other _, fun _ _ _ => .inr, fun _ _ => id, relies⟩

variable [DecidableEq τ]

omit [LinearOrder ι] in
/-- The end of a transaction leaves what the others hold. -/
theorem HoldsCurrent.released (holds : HoldsCurrent fernet keys secrets)
    (released : ∀ column id, Row.Releases tx ((secrets column).row id) ((next column).row id)) :
    HoldsCurrent fernet keys next := by
  intro column owner id version held
  by_cases same : owner = tx
  · subst same
    exact absurd held ((released column id).unheld version)
  · exact holds column owner id version (((released column id).heldBy_other same).mp held)

omit [LinearOrder ι] in
/-- What a commit stores is what was stored before, or what the transaction holds. -/
theorem secrets_commit_cases (secrets : Secrets ι τ) (tx : τ) (column : EncryptedColumn) (id : ι) :
    (secrets.commit tx column).committed id = (secrets column).committed id ∨
      ∃ version, (secrets column).HeldBy tx id version ∧
        (secrets.commit tx column).committed id = version := by
  rcases Row.heldBy_or_unheld ((secrets column).row id) tx with ⟨version, held⟩ | unheld
  · exact .inr ⟨version, held, Rows.commit_committed_of_heldBy held⟩
  · exact .inl (Rows.commit_committed_of_unheld unheld)

/-- A commit of ciphertext on the newest key. -/
theorem RotationAdvances.of_commit {after : RotationPhase ι}
    (holds : HoldsCurrent fernet keys secrets)
    (relies : after.Relies fernet keys tx (secrets.commit tx)) :
    RotationAdvances fernet keys tx secrets (secrets.commit tx) after where
  holds := holds.released fun _ _ => Row.commit_releases
  steady := fun _ different _ => Rows.commit_undisturbed different
  renews := by
    -- A committed value is what this transaction held, and that is on the current key, or an old value.
    intro column id value stored
    rcases secrets_commit_cases secrets tx column id with same | ⟨version, held, published⟩
    · exact .inr (same.symm.trans stored)
    · obtain ⟨found, rfl, current⟩ := holds column tx id version held
      cases Option.some.inj (published.symm.trans stored)
      exact .inl current
  -- A row that was there is there afterwards, since a held version has a value.
  present := by
    intro column id there
    rcases secrets_commit_cases secrets tx column id with same | ⟨version, held, published⟩
    · rw [same]
      exact there
    · obtain ⟨found, rfl, -⟩ := holds column tx id version held
      rw [published]
      rfl
  relies := relies

/-- A command that is cut off. -/
theorem RotationAdvances.of_rollback (holds : HoldsCurrent fernet keys secrets) :
    RotationAdvances fernet keys tx secrets (secrets.rollback tx) .failed where
  -- A rollback puts no value in place, so every committed secret is what it was.
  holds := holds.released fun _ _ => Row.rollback_releases
  steady := fun _ different _ => Rows.rollback_undisturbed different
  renews := fun column id value stored =>
    .inr ((congrFun Rows.rollback_committed id).symm.trans stored)
  present := fun column id there => by
    rw [show (secrets.rollback tx column).committed id = (secrets column).committed id from
      congrFun Rows.rollback_committed id]
    exact there
  relies := trivial

/-- Going over a row leaves the column alone, or rewrites a row on an older key that is still what was
read. -/
theorem rewrite_cases {random : Nat} {row : ι × String} {progress report : ColumnProgress}
    (rewritten : RotationPhase.rewrite fernet keys tx random rows column row progress =
      some (later, report)) :
    later = rows ∨ ∃ plaintext matched,
      isOnCurrentKey fernet keys column.purpose row.2 = false ∧
      decryptSecret fernet keys column.purpose row.2 = some plaintext ∧
      rows.change tx row.1 (fun value => value == row.2) (fun _ =>
        some (encryptSecret fernet keys column.purpose random plaintext)) =
        some (later, matched) := by
  -- Already on the current key, not readable, or rewritten in place.
  unfold RotationPhase.rewrite at rewritten
  split at rewritten
  · cases rewritten
    exact .inl rfl
  · rename_i stale
    dsimp only at rewritten
    split at rewritten
    · cases rewritten
      exact .inl rfl
    · rename_i plaintext opened
      simp only [Option.map_eq_some_iff, Prod.exists, Prod.mk.injEq] at rewritten
      obtain ⟨written, matched, changed, rfl, -⟩ := rewritten
      exact .inr ⟨plaintext, matched, by simpa using stale, opened, changed⟩

/-- A row is rewritten only where it is still what was read, into the same secret. -/
theorem Rewrites.change {read : List (ι × String)} {row : ι × String} {plaintext : String}
    {random : Nat} {matched : Bool} (rewrites : Rewrites fernet keys tx column secrets read)
    (holds : HoldsCurrent fernet keys secrets) (member : row ∈ read)
    (stale : isOnCurrentKey fernet keys column.purpose row.2 = false)
    (opened : decryptSecret fernet keys column.purpose row.2 = some plaintext)
    (changed : (secrets column).change tx row.1 (fun value => value == row.2) (fun _ =>
      some (encryptSecret fernet keys column.purpose random plaintext)) = some (later, matched)) :
    Rewrites fernet keys tx column (Function.update secrets column later) read := by
  intro other id version held
  by_cases here : other = column
  · subst here
    rw [Function.update_self] at held ⊢
    rw [Rows.change_committed changed]
    refine ⟨rfl, ?_⟩
    rcases Rows.change_heldBy changed held with before | ⟨rfl, found, seen, same, rfl⟩
    · exact (rewrites other id version before).2
    · -- A version of its own would be on the newest key, so the row is one it does not hold yet.
      have found_same : found = row.2 := by simpa using same
      subst found_same
      have stored : (secrets other).committed row.1 = some row.2 := by
        rcases Row.heldBy_or_unheld ((secrets other).row row.1) tx with ⟨own, mine⟩ | unheld
        · obtain ⟨value, rfl, current⟩ := holds other tx row.1 own mine
          cases Option.some.inj (mine.view_eq.symm.trans seen)
          exact absurd (current.symm.trans stale) (by decide)
        · exact (Row.view_eq_committed unheld).symm.trans seen
      exact ⟨row.2, _, plaintext, member, stored, rfl, opened, decryptSecret_encryptSecret _ _ _⟩
  · rw [Function.update_of_ne here] at held ⊢
    exact rewrites other id version held

/-- A row is rewritten, or left alone. -/
theorem RotationAdvances.of_rewrite {columns : List EncryptedColumn} {read rest : List (ι × String)}
    {row : ι × String} {random : Nat} {progress done : ColumnProgress} {report : RotationReport}
    (holds : HoldsCurrent fernet keys secrets)
    (relies : (RotationPhase.rewriting column columns read (row :: rest) progress report).Relies
      fernet keys tx secrets)
    (rewritten : RotationPhase.rewrite fernet keys tx random (secrets column) column row progress =
      some (later, done)) :
    RotationAdvances fernet keys tx secrets (Function.update secrets column later)
      (.rewriting column columns read rest done report) := by
  obtain ⟨among, rewrites⟩ := relies
  obtain ⟨member, rest_among⟩ := List.cons_subset.mp among
  -- The row was skipped, or it was stale, readable, and is written under the current key.
  rcases rewrite_cases rewritten with rfl | ⟨plaintext, matched, stale, opened, changed⟩
  · rw [Function.update_eq_self]
    exact .idle holds ⟨rest_among, rewrites⟩
  · -- Nothing is committed by the rewrite itself.
    have same : ∀ other id, (Function.update secrets column later other).committed id =
        (secrets other).committed id := by
      intro other id
      by_cases here : other = column
      · subst here
        rw [Function.update_self, Rows.change_committed changed]
      · rw [Function.update_of_ne here]
    -- Nor is another transaction's row touched.
    have steady : ∀ acting, acting ≠ tx → ∀ other,
        Rows.Undisturbed acting (secrets other) (Function.update secrets column later other) := by
      intro acting different other
      by_cases here : other = column
      · subst here
        rw [Function.update_self]
        exact Rows.change_undisturbed changed different
      · rw [Function.update_of_ne here]
        exact .refl acting _
    refine ⟨?_, steady, fun other id value stored => .inr ((same other id).symm.trans stored),
      fun other id there => by rwa [same], rest_among, ?_⟩
    · -- What is held now was held before, or it is the value just encrypted.
      intro other acting id version held
      by_cases mine : acting = tx
      · subst mine
        by_cases here : other = column
        · subst here
          rw [Function.update_self] at held
          rcases Rows.change_heldBy changed held with before | ⟨_, _, _, _, rfl⟩
          · exact holds other acting id version before
          · exact ⟨_, rfl, isOnCurrentKey_encryptSecret _ _ _⟩
        · rw [Function.update_of_ne here] at held
          exact holds other acting id version held
      · exact holds other acting id version (((steady acting mine other id).heldBy version).mp held)
    · -- And the column's rest is still as the counts say.
      exact rewrites.change holds member stale opened changed

/-- The next page has the stale rows that stand on it. -/
theorem Paging.page {read : List (ι × String)} (paging : Paging fernet keys column rows read)
    (free : ∀ id version, ¬rows.HeldBy tx id version) (limit : Nat) :
    Paging fernet keys column rows (read ++ rows.page tx read.length limit) := by
  intro id value stored stale
  rcases paging id value stored stale with found | behind
  · exact .inl (List.mem_append_left _ found)
  · rcases Rows.page_covers free stored read.length limit with passed | here | later
    · omega
    · exact .inl (List.mem_append_right _ here)
    · exact .inr (by rwa [List.length_append])

/-- After an empty page, a count without stale rows is right about the column. -/
theorem Paging.finished {read : List (ι × String)} (paging : Paging fernet keys column rows read)
    (free : ∀ id version, ¬rows.HeldBy tx id version)
    (empty : rows.page tx read.length rotationBatch = [])
    (none_stale : (countColumn fernet keys column read).stale = 0) :
    AllCurrent fernet keys column rows := by
  -- A row on an older key would be a page ahead, or read and then counted.
  intro id value stored
  by_contra stale
  have older : isOnCurrentKey fernet keys column.purpose value = false := by simpa using stale
  rcases paging id value stored older with found | behind
  · have nobody := List.filter_eq_nil_iff.mp (List.eq_nil_of_length_eq_zero none_stale) _ found
    simp [older] at nobody
  · -- It lies behind the last page read, and that page was empty.
    have passed := Rows.ahead_lt_of_page_nil free stored (by decide) empty
    omega

omit [LinearOrder ι] [DecidableEq τ] in
/-- One more column is finished. -/
theorem Reported.column_done {columns : List EncryptedColumn} {report : RotationReport}
    {progress : ColumnProgress} (reported : Reported fernet keys secrets (column :: columns) report)
    (right : progress.stale = 0 → AllCurrent fernet keys column (secrets column)) :
    Reported fernet keys secrets columns (report ++ [progress]) := by
  obtain ⟨finished, split, current⟩ := reported
  refine ⟨finished ++ [column], by simp [split], fun none_stale other member => ?_⟩
  -- The total is a sum, so it is zero only when this column's part is.
  have both : report.staleTotal = 0 ∧ progress.stale = 0 := by
    simpa [RotationReport.staleTotal] using none_stale
  rcases List.mem_append.mp member with before | new
  · exact current both.1 other before
  · cases List.mem_singleton.mp new
    exact right both.2

/-- Every step of a command. -/
theorem RotationAdvances.of_advance {random : Nat} {phase after : RotationPhase ι}
    (holds : HoldsCurrent fernet keys secrets) (relies : phase.Relies fernet keys tx secrets)
    (taken : phase.advance fernet keys tx random secrets = some (next, after)) :
    RotationAdvances fernet keys tx secrets next after := by
  -- One case a phase: a call starts, reads a page, rewrites it, and commits.
  cases phase with
  | start call =>
    cases taken
    refine .idle holds ⟨relies, fun _ => ⟨⟨[], rfl, nofun⟩, fun column rest _ => ?_⟩⟩
    exact fun _ _ _ _ => .inr (Nat.zero_le _)
  | reading call columns read report =>
    obtain ⟨free, counting⟩ := relies
    cases columns with
    | nil =>
      cases taken
      exact .idle holds fun counts => (counting counts).1
    | cons column columns =>
      simp only [RotationPhase.advance] at taken
      split at taken
      · -- The page is empty, so the column is done and the count goes to its report.
        rename_i empty
        have empty : (secrets column).page tx read.length rotationBatch = [] := by simpa using empty
        cases call with
        | countStale =>
          cases taken
          obtain ⟨reported, paging⟩ := counting rfl
          refine .idle holds ⟨free, fun _ => ⟨reported.column_done fun none_stale => ?_, ?_⟩⟩
          · exact (paging column columns rfl).finished (free column) empty none_stale
          · exact fun other rest _ _ _ _ _ => .inr (Nat.zero_le _)
        -- A rotation goes on to rewrite what it has read.
        | reencrypt =>
          cases taken
          refine .idle holds ⟨List.Subset.refl read, fun other id version held => ?_⟩
          exact absurd held (free other id version)
      · -- A page of rows: the count covers them, and the next page starts behind.
        cases taken
        refine .idle holds ⟨free, fun counts => ⟨(counting counts).1, fun other rest same => ?_⟩⟩
        obtain ⟨rfl, rfl⟩ := List.cons.inj same
        exact ((counting counts).2 _ _ rfl).page (free _) rotationBatch
  | rewriting column columns read rest progress report =>
    cases rest with
    | nil =>
      cases taken
      refine .of_commit holds ⟨fun column id version => Row.commit_unheld version, nofun⟩
    | cons row rest =>
      simp only [RotationPhase.advance, Option.map_eq_some_iff, Prod.exists, Prod.mk.injEq] at taken
      obtain ⟨later, done, rewritten, rfl, rfl⟩ := taken
      exact .of_rewrite holds relies rewritten
  | done call report => cases taken
  | failed => cases taken

omit [DecidableEq τ] in
/-- A write of the application stores a ciphertext on the newest key, or takes a row away. -/
theorem publish_renews {id : ι} {secret : Option (String × Nat)}
    (published : rows.publish id (secret.map fun written =>
      encryptSecret fernet keys column.purpose written.2 written.1) = some later) :
    Renews fernet keys column rows later := by
  intro other value stored
  rw [Rows.publish_committed published] at stored
  split at stored
  · obtain ⟨written, -, rfl⟩ := Option.map_eq_some_iff.mp stored
    exact .inl (isOnCurrentKey_encryptSecret _ _ _)
  · exact .inr stored

omit [DecidableEq τ] in
/-- A write of the application disturbs nobody: it waits for those who hold the row. -/
theorem publish_undisturbed {id : ι} {written : Option String} (acting : τ)
    (published : rows.publish id written = some later) : Rows.Undisturbed acting rows later := by
  obtain ⟨unlocked, rfl⟩ := Rows.publish_cases published
  refine .of_set ⟨fun version => ?_, fun version held => ?_⟩
  · exact iff_of_false (Row.not_heldBy_of_unlocked rfl version)
      (Row.not_heldBy_of_unlocked unlocked version)
  · exact absurd held (Row.not_heldBy_of_unlocked unlocked version)

end Effects

/-- Whether the event is a write of the application. -/
def RotationEvent.isWrite : RotationEvent ι → Bool
  | .write _ _ _ => true
  | _ => false

/-- The side condition of a step: a row that is taken away stands behind what the counts have read of
its column. -/
def PassedKept (system : RotationSystem ι τ) : τ × RotationEvent ι → Prop
  | (_, .write column id none) => ∀ tx columns read report,
      system.phase tx = .reading .countStale (column :: columns) read report →
      ((system.store column).committed id).isSome → read.length ≤ (system.store column).ahead id
  | _ => True

/-- What a step of a command makes of the stored ciphertext: a value is replaced only if the command has
read it, and by a ciphertext of the same secret. -/
def Preserves (fernet : Fernet) (keys : EncryptionKeys) (phase : RotationPhase ι)
    (secrets next : Secrets ι τ) : Prop :=
  ∀ column id, (next column).committed id = (secrets column).committed id ∨
    ∃ columns read rest progress report old new plaintext,
      phase = .rewriting column columns read rest progress report ∧ (id, old) ∈ read ∧
      (secrets column).committed id = some old ∧ (next column).committed id = some new ∧
      decryptSecret fernet keys column.purpose old = some plaintext ∧
      decryptSecret fernet keys column.purpose new = some plaintext

/-- Nobody holds a row, and no command has begun. -/
structure RotationSystem.Fresh (system : RotationSystem ι τ) : Prop where
  unlocked : ∀ column id, ((system.store column).row id).held = none
  phases : ∀ tx, ∃ call, system.phase tx = .start call

/-- Every command may rely on what it knows, and holds ciphertext on the newest key only. -/
abbrev RotationSystem.Stands (fernet : Fernet) (keys : EncryptionKeys)
    (system : RotationSystem ι τ) : Prop :=
  system.Annotated (HoldsCurrent fernet keys) fun tx secrets phase =>
    phase.Relies fernet keys tx secrets

section Runs

variable [DecidableEq τ] {system next start last : RotationSystem ι τ} {tx : τ}

omit [DecidableEq τ] in
/-- A fresh system stands. -/
theorem RotationSystem.Fresh.stands (fresh : start.Fresh) : start.Stands fernet keys := by
  constructor
  · intro column tx id version held
    exact absurd held (Row.not_heldBy_of_unlocked (fresh.unlocked column id) version)
  · intro tx
    obtain ⟨call, begun⟩ := fresh.phases tx
    rw [begun]
    exact fun column id => Row.not_heldBy_of_unlocked (fresh.unlocked column id)

/-- A step of a command. -/
theorem RotationSystem.Stands.advances {event : RotationEvent ι} {store : Secrets ι τ}
    {phase : RotationPhase ι} (stands : system.Stands fernet keys) (own : event.isWrite = false)
    (acted : RotationPhase.act fernet keys tx event system.store (system.phase tx) =
      some (store, phase)) : RotationAdvances fernet keys tx system.store store phase := by
  cases event with
  | advance random => exact .of_advance stands.shared (stands.own tx) acted
  | abort =>
    cases here : system.phase tx <;> rw [here] at acted <;> cases acted <;>
      exact .of_rollback stands.shared
  | write column id secret => cases own

omit [DecidableEq τ] in
/-- What a write of the application leaves of what a command relies on. -/
theorem RotationSystem.Stands.write {column : EncryptedColumn} {id : ι}
    {secret : Option (String × Nat)} {rows : Rows ι τ String} (stands : system.Stands fernet keys)
    (met : PassedKept system (tx, .write column id secret))
    (published : (system.store column).publish id (secret.map fun written =>
      encryptSecret fernet keys column.purpose written.2 written.1) = some rows) (acting : τ) :
    (system.phase acting).Relies fernet keys acting (Function.update system.store column rows) := by
  -- The write is another session's, and only this column has changed.
  refine (stands.own acting).kept (fun other => ?_) (fun other => ?_) ?_
  · by_cases here : other = column
    · subst here
      rw [Function.update_self]
      exact publish_undisturbed acting published
    · rw [Function.update_of_ne here]
      exact .refl acting _
  · by_cases here : other = column
    · subst here
      rw [Function.update_self]
      exact publish_renews published
    · rw [Function.update_of_ne here]
      exact fun _ _ => .inr
  · -- The rows behind the offset: none of them may go away, which is what the guard says.
    intro other columns read report reading found behind
    by_cases here : other = column
    · subst here
      rw [Function.update_self]
      cases secret with
      -- A row that is taken away must not stand behind what was read.
      | none =>
        exact Rows.le_ahead_of_publish_none published (met acting columns read report reading) behind
      -- A row that is written is there afterwards as well.
      | some written =>
        refine behind.trans (Rows.ahead_mono (fun present there => ?_) found)
        rw [Rows.publish_committed published]
        split
        · rfl
        · exact there
    · rw [Function.update_of_ne here]
      exact behind

/-- Every step that takes no row from ahead of a count. -/
theorem RotationSystem.Stands.step {event : τ × RotationEvent ι} (stands : system.Stands fernet keys)
    (met : PassedKept system event) (taken : rotationStep fernet keys system event = some next) :
    next.Stands fernet keys := by
  obtain ⟨tx, event⟩ := event
  -- A step of the calls is this session's own; a write can come from anywhere.
  cases own : event.isWrite with
  | false =>
    refine stands.step_at taken (fun store phase acted => ?_) ?_
    · have advances := stands.advances own acted
      exact ⟨advances.holds, advances.relies⟩
    · intro store phase other acted different relies
      have advances := stands.advances own acted
      refine relies.kept (advances.steady other different) advances.renews ?_
      -- Rows only come to be there, so what was behind is still behind.
      intro column columns read report _ id behind
      exact behind.trans (Rows.ahead_mono (advances.present column) id)
  | true =>
    cases event with
    | advance random => cases own
    | abort => cases own
    | write column id secret =>
      -- A write publishes one value and leaves the phases as they are.
      have cases_of : ∀ store phase,
          RotationPhase.act fernet keys tx (.write column id secret) system.store
            (system.phase tx) = some (store, phase) →
          ∃ rows, (system.store column).publish id (secret.map fun written =>
            encryptSecret fernet keys column.purpose written.2 written.1) = some rows ∧
            store = Function.update system.store column rows ∧ phase = system.phase tx := by
        intro store phase acted
        simp only [RotationPhase.act, Option.map_eq_some_iff, Prod.mk.injEq] at acted
        obtain ⟨rows, published, rfl, rfl⟩ := acted
        exact ⟨rows, published, rfl, rfl⟩
      refine stands.step_at taken (fun store phase acted => ?_) ?_
      · obtain ⟨rows, published, rfl, rfl⟩ := cases_of store phase acted
        -- Nobody's held version is touched, since the write was free to publish.
        refine ⟨fun other owner found version held => ?_, stands.write met published tx⟩
        by_cases here : other = column
        · subst here
          rw [Function.update_self] at held
          exact stands.shared other owner found version
            ((publish_undisturbed owner published found).heldBy version |>.mp held)
        · rw [Function.update_of_ne here] at held
          exact stands.shared other owner found version held
      · intro store phase other acted _ _
        obtain ⟨rows, published, rfl, rfl⟩ := cases_of store phase acted
        exact stands.write met published other

/-- A statement of a command keeps every plaintext. -/
theorem Preserves.of_advance {random : Nat} {secrets store : Secrets ι τ}
    {phase after : RotationPhase ι} (relies : phase.Relies fernet keys tx secrets)
    (taken : phase.advance fernet keys tx random secrets = some (store, after)) :
    Preserves fernet keys phase secrets store := by
  intro column id
  cases phase with
  | start call =>
    -- Reading and counting write nothing.
    cases taken
    exact .inl rfl
  | reading call columns read report =>
    cases columns with
    | nil =>
      cases taken
      exact .inl rfl
    -- Neither does opening a page, with rows in it or without.
    | cons first columns =>
      simp only [RotationPhase.advance] at taken
      split at taken
      · cases call <;> cases taken <;> exact .inl rfl
      · cases taken
        exact .inl rfl
  | rewriting current columns read rest progress report =>
    cases rest with
    | nil =>
      cases taken
      rcases secrets_commit_cases secrets tx column id with same | ⟨version, held, published⟩
      · exact .inl same
      · -- What the commit publishes is a ciphertext of the secret that was read.
        obtain ⟨rfl, old, new, plaintext, member, stored, rfl, opened, also⟩ :=
          relies.2 column id version held
        exact .inr ⟨columns, read, [], progress, report, old, new, plaintext, rfl, member, stored,
          published, opened, also⟩
    | cons row rest =>
      simp only [RotationPhase.advance, Option.map_eq_some_iff, Prod.exists, Prod.mk.injEq] at taken
      obtain ⟨later, done, rewritten, rfl, rfl⟩ := taken
      by_cases here : column = current
      · -- Only the column at work changes, and not before its commit.
        subst here
        rw [Function.update_self]
        rcases rewrite_cases rewritten with rfl | ⟨plaintext, matched, -, -, changed⟩
        · exact .inl rfl
        · exact .inl (Rows.change_committed changed id)
      · rw [Function.update_of_ne here]
        exact .inl rfl
  | done call report => cases taken
  | failed => cases taken

/-- A step of a command keeps every plaintext. -/
theorem RotationSystem.Stands.preserves {event : RotationEvent ι} (stands : system.Stands fernet keys)
    (own : event.isWrite = false) (taken : rotationStep fernet keys system (tx, event) = some next) :
    Preserves fernet keys (system.phase tx) system.store next.store := by
  obtain ⟨store, phase, acted, rfl⟩ := Sessions.step_eq_some.mp taken
  -- This rotation's own step; an application's write is excluded by `own`.
  cases event with
  | write column id secret => cases own
  | abort =>
    have same : store = system.store.rollback tx := by
      cases here : system.phase tx <;> rw [here] at acted <;> cases acted <;> rfl
    rw [same]
    exact fun column id => .inl (congrFun Rows.rollback_committed id)
  | advance random => exact .of_advance (stands.own tx) acted

/-- In every run in which no row is taken away from ahead of a count, a count without stale rows means
that every ciphertext is on the newest key once its last read is complete; and a command replaces only
values that it has read, by ciphertext of the same secret. -/
theorem rotation_not_finished_early {events : List (τ × RotationEvent ι)} (fresh : start.Fresh)
    (met : Guarded (rotationStep fernet keys) PassedKept start events)
    (ran : run (rotationStep fernet keys) start events = some last) :
    (∀ tx report, (last.phase tx).counted = some report → report.staleTotal = 0 →
      ∀ column ∈ encryptedColumns, AllCurrent fernet keys column (last.store column)) ∧
    ∀ tx event next, event.isWrite = false →
      rotationStep fernet keys last (tx, event) = some next →
      Preserves fernet keys (last.phase tx) last.store next.store := by
  -- The invariant over the whole run.
  have stands : last.Stands fernet keys :=
    run_invariant (fun _ _ _ holds allowed taken => RotationSystem.Stands.step holds allowed taken)
      fresh.stands met ran
  refine ⟨fun tx report counted none_stale => ?_, fun tx event next own taken =>
    stands.preserves own taken⟩
  -- The report that was counted is one the invariant speaks of.
  have reported : Reported fernet keys last.store [] report := by
    have relies := stands.own tx
    cases here : last.phase tx with
    | reading call columns read so_far =>
      rw [here] at relies counted
      cases call <;> cases columns <;> cases counted
      exact (relies.2 rfl).1
    | done call so_far =>
      rw [here] at relies counted
      cases call <;> cases counted
      exact relies rfl
    | _ => simp [here, RotationPhase.counted] at counted
  -- It covers all the columns, and none of them has a stale row.
  obtain ⟨finished, split, current⟩ := reported
  rw [split, List.append_nil]
  exact current none_stale

/-- A cipher that writes the key in front of the secret. -/
def sampleFernet : Fernet where
  encrypt key _ plaintext := String.ofList (key.toList ++ ':' :: plaintext.toList)
  decrypt key token :=
    if (key.toList ++ [':']).isPrefixOf token.toList then
      some (String.ofList (token.toList.drop (key.toList.length + 1)))
    else none
  subkey purpose key := purpose ++ key
  decrypt_encrypt key _ plaintext := by simp [List.drop_append]
  encrypt_ne_empty key _ plaintext := by
    intro empty
    have chars := congrArg String.toList empty
    simp at chars

def sampleKeys : EncryptionKeys := ⟨"new", ["old"]⟩

def projectCredentials : EncryptedColumn := ⟨"projects", "git_credential_encrypted", "id", none⟩

/-- The credentials of five hundred projects on the newest key, and of one more on the older key. -/
def manyRows : Rows Nat Unit String where
  keys := List.range 501
  nodup := List.nodup_range
  row := fun id => .free
    (if id < 500 then some "new:secret" else if id = 500 then some "old:secret" else none)
  blank := by
    intro id missing
    rw [List.mem_range] at missing
    rw [if_neg (by omega), if_neg (by omega)]

/-- A count of columns that are empty but for one. -/
def counting (rows : Rows Nat Unit String) (phase : RotationPhase Nat) : RotationSystem Nat Unit where
  store := fun column => if column = projectCredentials then rows else .stored []
  phase := fun _ => phase

section Counting

variable {rows : Rows Nat Unit String} {phase after : RotationPhase Nat} {column : EncryptedColumn}
  {columns : List EncryptedColumn} {read : List (Nat × String)} {report : RotationReport}

/-- A statement of the count that reads only. -/
theorem counting_step (taken : phase.advance sampleFernet sampleKeys () 0
      (counting rows phase).store = some ((counting rows phase).store, after)) :
    rotationStep sampleFernet sampleKeys (counting rows phase) ((), .advance 0) =
      some (counting rows after) := by
  refine Sessions.step_eq_some.mpr ⟨_, _, taken, ?_⟩
  unfold counting
  congr 1

/-- A first page that has rows. -/
theorem counting_page (found : (rows.page () 0 rotationBatch).isEmpty = false) :
    rotationStep sampleFernet sampleKeys
      (counting rows (.reading .countStale (projectCredentials :: columns) [] report))
      ((), .advance 0) =
      some (counting rows (.reading .countStale (projectCredentials :: columns)
        (rows.page () 0 rotationBatch) report)) :=
  counting_step (by simp [RotationPhase.advance, counting, found])

/-- A page that has none. -/
theorem counting_done (empty : (rows.page () read.length rotationBatch).isEmpty = true) :
    rotationStep sampleFernet sampleKeys
      (counting rows (.reading .countStale (projectCredentials :: columns) read report))
      ((), .advance 0) =
      some (counting rows (.reading .countStale columns []
        (report ++ [countColumn sampleFernet sampleKeys projectCredentials read]))) :=
  counting_step (by simp [RotationPhase.advance, counting, empty])

/-- A column that is empty. -/
theorem counting_empty (other : column ≠ projectCredentials) :
    rotationStep sampleFernet sampleKeys
      (counting rows (.reading .countStale (column :: columns) [] report)) ((), .advance 0) =
      some (counting rows (.reading .countStale columns []
        (report ++ [countColumn sampleFernet sampleKeys column ([] : List (Nat × String))]))) := by
  refine counting_step ?_
  have empty : ((Rows.stored [] : Rows Nat Unit String).page () 0 rotationBatch) = [] := rfl
  simp [RotationPhase.advance, counting, other, empty]

/-- No stale row is counted where all are on the newest key. -/
theorem countColumn_stale (fresh : ∀ row ∈ read,
      isOnCurrentKey sampleFernet sampleKeys column.purpose row.2 = true) :
    (countColumn sampleFernet sampleKeys column read).stale = 0 := by
  have none_stale : (read.filter fun row =>
      !isOnCurrentKey sampleFernet sampleKeys column.purpose row.2) = [] :=
    List.filter_eq_nil_iff.mpr fun row member => by simp [fresh row member]
  simp [countColumn, none_stale]

end Counting

/-- Whether a phase counts a column and has passed the row with so many ahead of it. -/
def RotationPhase.passed (column : EncryptedColumn) (ahead : Nat) : RotationPhase ι → Bool
  | .reading .countStale (here :: _) read _ => here = column && ahead < read.length
  | _ => false

omit [DecidableEq τ] in
/-- Nothing is taken away among the rows that a count has passed. -/
theorem passedKept_iff {system : RotationSystem ι τ} {tx : τ} {column : EncryptedColumn} {id : ι} :
    PassedKept system (tx, .write column id none) ↔
      ∀ other, ((system.store column).committed id).isSome →
        (system.phase other).passed column ((system.store column).ahead id) = false := by
  -- Only a count of this very column can have passed the row.
  constructor
  · intro kept other stored
    cases here : system.phase other with
    | reading call columns read report =>
      cases call <;> cases columns with
      | nil => rfl
      | cons first rest =>
        first
        | rfl
        | by_cases same : first = column
          · subst same
            simpa [RotationPhase.passed] using kept other rest read report here stored
          · simp [RotationPhase.passed, same]
    | _ => rfl
  · intro none_passed other columns read report here stored
    simpa [here, RotationPhase.passed] using none_passed other stored

instance [Fintype τ] (system : RotationSystem ι τ) (event : τ × RotationEvent ι) :
    Decidable (PassedKept system event) :=
  match event with
  | (_, .write _ _ none) => decidable_of_iff _ passedKept_iff.symm
  | (_, .write _ _ (some _)) => .isTrue trivial
  | (_, .advance _) => .isTrue trivial
  | (_, .abort) => .isTrue trivial

/-- The credentials of three projects, one of them on the older key. -/
def threeRows : Rows Nat Unit String := .stored [(0, "new:a"), (1, "old:b"), (2, "new:c")]

/-- A project on the older key is deleted before its column is read. After the first page it is stored
again, so that a row that was read moves behind the offset, and a later project is stored and deleted. -/
def writesWhileCounting : List (Unit × RotationEvent Nat) :=
  [((), .advance 0), ((), .advance 0), ((), .advance 0), ((), .write projectCredentials 1 none),
   ((), .advance 0), ((), .write projectCredentials 1 (some ("b", 0))),
   ((), .write projectCredentials 5 (some ("d", 0))), ((), .write projectCredentials 5 none)] ++
  List.replicate 6 ((), .advance 0)

/-- A count in the middle of writes finds nothing stale, and nothing is. -/
theorem rotation_not_finished_early_counted :
    ∃ last report, run (rotationStep sampleFernet sampleKeys) (counting threeRows (.start .countStale))
        writesWhileCounting = some last ∧
      (last.phase ()).counted = some report ∧ report.staleTotal = 0 ∧
      report.map ColumnProgress.scanned = [0, 0, 3, 0, 0, 0, 0] ∧
      (last.store projectCredentials).committed 1 = some "new:b" ∧
      ∀ column ∈ encryptedColumns, AllCurrent sampleFernet sampleKeys column (last.store column) := by
  -- Nothing is held at the start, and nothing is read yet.
  have fresh : (counting threeRows (.start .countStale)).Fresh := by
    refine ⟨fun column id => ?_, fun _ => ⟨_, rfl⟩⟩
    unfold counting
    dsimp only
    split <;> rfl
  -- The write behind the offset and the row taken away both keep the guard.
  have met : Guarded (rotationStep sampleFernet sampleKeys) PassedKept
      (counting threeRows (.start .countStale)) writesWhileCounting := by decide +kernel
  -- The run ends with three rows scanned, one of them renewed in between.
  have shown : (run (rotationStep sampleFernet sampleKeys) (counting threeRows (.start .countStale))
      writesWhileCounting).bind (fun last => (last.phase ()).counted.map fun report =>
        (report.staleTotal, report.map ColumnProgress.scanned,
          (last.store projectCredentials).committed 1)) =
      some (0, [0, 0, 3, 0, 0, 0, 0], some "new:b") := by decide +kernel
  obtain ⟨last, ran, found⟩ := Option.bind_eq_some_iff.mp shown
  obtain ⟨report, counted, same⟩ := Option.map_eq_some_iff.mp found
  simp only [Prod.mk.injEq] at same
  obtain ⟨none_stale, scanned, renewed⟩ := same
  exact ⟨last, report, ran, counted, none_stale, scanned, renewed,
    (rotation_not_finished_early fresh met ran).1 () report counted none_stale⟩

/-- The credentials after the first page was read and the first project was deleted. -/
def fewerRows : Rows Nat Unit String := manyRows.set 0 (.free none)

/-- The count reads the first page, the first project is deleted, and the rest is read. -/
def deletedWhileCounting : List (Unit × RotationEvent Nat) :=
  List.replicate 4 ((), RotationEvent.advance 0) ++
    ((), RotationEvent.write projectCredentials 0 none) :: List.replicate 5 ((), RotationEvent.advance 0)

/-- The counting command starts fresh. -/
theorem counting_fresh : (counting manyRows (.start .countStale)).Fresh := by
  refine ⟨fun column id => ?_, fun _ => ⟨_, rfl⟩⟩
  unfold counting
  dsimp only
  split <;> rfl

/-- The first page has the projects whose credentials are on the newest key. -/
theorem first_page_current : ∀ row ∈ manyRows.page () 0 rotationBatch,
    isOnCurrentKey sampleFernet sampleKeys projectCredentials.purpose row.2 = true := by
  -- The first five hundred rows are all on the current key.
  intro row member
  have low : (manyRows.page () 0 rotationBatch).all (fun row => row.1 < 500) = true := by
    decide +kernel
  have below : row.1 < 500 := by simpa using List.all_eq_true.mp low row member
  have listed : (row.1, row.2) ∈ manyRows.listing () :=
    List.mem_of_mem_drop (List.mem_of_mem_take member)
  have seen : (if row.1 < 500 then some "new:secret"
      else if row.1 = 500 then some "old:secret" else none) = some row.2 := Rows.mem_listing.mp listed
  rw [if_pos below] at seen
  rw [← Option.some.inj seen]
  decide +kernel

/-- The write of the application while the count goes on. -/
theorem counting_write (phase : RotationPhase Nat) :
    rotationStep sampleFernet sampleKeys (counting manyRows phase)
      ((), .write projectCredentials 0 none) = some (counting fewerRows phase) := by
  refine Sessions.step_eq_some.mpr ⟨_, phase, rfl, ?_⟩
  unfold counting fewerRows
  -- The write takes the same row away in both, and the other columns hold nothing.
  congr 1
  · funext column
    by_cases here : column = projectCredentials
    · subst here
      simp
    · simp [here]

/-- The row on the older key moves up into the page that was read, and no page has it. -/
theorem rotation_finished_early : (counting manyRows (.start .countStale)).Fresh ∧
    ∃ last report, run (rotationStep sampleFernet sampleKeys)
        (counting manyRows (.start .countStale)) deletedWhileCounting = some last ∧
      (last.phase ()).counted = some report ∧ report.staleTotal = 0 ∧
      ¬AllCurrent sampleFernet sampleKeys projectCredentials (last.store projectCredentials) := by
  -- The first page is full; with the row gone the next one is empty, and the last row is never read.
  have first : (manyRows.page () 0 rotationBatch).isEmpty = false := by decide +kernel
  have second : (fewerRows.page () (manyRows.page () 0 rotationBatch).length rotationBatch).isEmpty =
      true := by decide +kernel
  refine ⟨counting_fresh, ?_⟩
  -- Each step of the run, one after another.
  have begun : rotationStep sampleFernet sampleKeys (counting manyRows (.start .countStale))
      ((), .advance 0) = some (counting manyRows (.reading .countStale encryptedColumns [] [])) :=
    counting_step rfl
  have pages : (countColumn sampleFernet sampleKeys projectCredentials
      (manyRows.page () 0 rotationBatch)).stale = 0 := countColumn_stale first_page_current
  have empties : ∀ column, (countColumn sampleFernet sampleKeys column
      ([] : List (Nat × String))).stale = 0 := fun _ => rfl
  refine ⟨_, _, run_cons.mpr ⟨_, begun, run_cons.mpr ⟨_, counting_empty (by decide), run_cons.mpr
    ⟨_, counting_empty (by decide), run_cons.mpr ⟨_, counting_page first, run_cons.mpr
    ⟨_, counting_write _, run_cons.mpr ⟨_, counting_done second, run_cons.mpr
    ⟨_, counting_empty (by decide), run_cons.mpr ⟨_, counting_empty (by decide), run_cons.mpr
    ⟨_, counting_empty (by decide), run_cons.mpr ⟨_, counting_empty (by decide), rfl⟩⟩⟩⟩⟩⟩⟩⟩⟩⟩,
    rfl, ?_, ?_⟩
  · -- The report counts no stale row.
    simp [RotationReport.staleTotal, pages, empties]
  · -- And the row that slid in front of the offset is stale.
    intro current
    have stale := current 500 "old:secret" rfl
    exact absurd stale (by decide +kernel)

end Runs

end Trusca
