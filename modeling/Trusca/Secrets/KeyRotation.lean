import Mathlib.Algebra.GroupWithZero.Nat
import Mathlib.Logic.Function.Basic
import Mathlib.Order.Defs.LinearOrder
import Trusca.Store.Offset
import Trusca.Store.Session

/-! Moving stored ciphertext onto the newest encryption key: counting what is left on an older key and
rewriting it, one column after another. -/

namespace Trusca

open Store

/-- The cipher: a token opens with the key that has made it. The second argument of the encryption is
the randomness and the clock it draws. -/
structure Fernet where
  encrypt : String → Nat → String → String
  decrypt : String → String → Option String
  /-- The key of a purpose under a master key. -/
  subkey : String → String → String
  decrypt_encrypt : ∀ key random plaintext,
    decrypt key (encrypt key random plaintext) = some plaintext
  encrypt_ne_empty : ∀ key random plaintext, encrypt key random plaintext ≠ ""

/-- The encryption keys of the process. The newest one encrypts, and every one can decrypt. -/
structure EncryptionKeys where
  newest : String
  older : List String
  deriving Repr, DecidableEq

/-- The keys, newest first. -/
def EncryptionKeys.configured (keys : EncryptionKeys) : List String := keys.newest :: keys.older

/-- One column of ciphertext. No purpose stands for the shared key. -/
structure EncryptedColumn where
  table : String
  column : String
  primaryKey : String := "id"
  purpose : Option String := none
  deriving Repr, DecidableEq

/-- Every column holding ciphertext. -/
def encryptedColumns : List EncryptedColumn :=
  -- The columns in the order in which the task goes through them.
  [⟨"github_app_credentials", "private_key_encrypted", "id", none⟩,
    ⟨"github_app_credentials", "webhook_secret_encrypted", "id", none⟩,
    ⟨"projects", "git_credential_encrypted", "id", none⟩,
    ⟨"registry_credentials", "password_encrypted", "id", none⟩,
    ⟨"projects", "webhook_secret_encrypted", "id", none⟩,
    ⟨"users", "mfa_secret_encrypted", "id", some "totp"⟩,
    ⟨"ticket_credentials", "api_token_encrypted", "id", none⟩]

section Crypto

variable (fernet : Fernet) (keys : EncryptionKeys)

/-- The key of a column's purpose under a master key. -/
def purposeKey (purpose : Option String) (key : String) : String :=
  match purpose with
  | none => key
  | some purpose => fernet.subkey purpose key

/-- Encrypt a secret under the newest key. -/
def encryptSecret (purpose : Option String) (random : Nat) (plaintext : String) : String :=
  fernet.encrypt (purposeKey fernet purpose keys.newest) random plaintext

/-- Decrypt a token with the first key that opens it. -/
def decryptSecret (purpose : Option String) (token : String) : Option String :=
  if token = "" then none
  else keys.configured.findSome? fun key => fernet.decrypt (purposeKey fernet purpose key) token

/-- Whether a ciphertext opens with the key that new writes use. -/
def isOnCurrentKey (purpose : Option String) (ciphertext : String) : Bool :=
  (fernet.decrypt (purposeKey fernet purpose keys.newest) ciphertext).isSome

end Crypto

/-- Rows read per statement. -/
def rotationBatch : Nat := 500

/-- What one column looked like after a pass over it. -/
structure ColumnProgress where
  column : EncryptedColumn
  scanned : Nat := 0
  stale : Nat := 0
  rewritten : Nat := 0
  raced : Nat := 0
  unreadable : Nat := 0
  deriving Repr, DecidableEq

abbrev RotationReport := List ColumnProgress

/-- The stale rows of the whole run. -/
def RotationReport.staleTotal (report : RotationReport) : Nat :=
  (report.map ColumnProgress.stale).sum

/-- Count the rows read of one column. -/
def countColumn {ι : Type*} (fernet : Fernet) (keys : EncryptionKeys) (column : EncryptedColumn)
    (rows : List (ι × String)) : ColumnProgress :=
  -- What is not on the current key is stale, and of that some cannot be read.
  let stale := rows.filter fun row => !isOnCurrentKey fernet keys column.purpose row.2
  { column
    scanned := rows.length
    stale := stale.length
    unreadable := stale.countP fun row => (decryptSecret fernet keys column.purpose row.2).isNone }

/-- The two commands. -/
inductive RotationCall where
  | countStale
  | reencrypt
  deriving Repr, DecidableEq

/-- How far a command has come. -/
inductive RotationPhase (ι : Type*) where
  | start (call : RotationCall)
  /-- Pages of the first column are read. -/
  | reading (call : RotationCall) (columns : List EncryptedColumn) (read : List (ι × String))
      (report : RotationReport)
  /-- The rows that were read of a column are gone over. -/
  | rewriting (column : EncryptedColumn) (columns : List EncryptedColumn)
      (read rest : List (ι × String)) (progress : ColumnProgress) (report : RotationReport)
  | done (call : RotationCall) (report : RotationReport)
  | failed
  deriving Repr, DecidableEq

/-- A command takes its next step or is cut off, or the application writes a secret: it sets one, or
takes it away with its row or by a null. -/
inductive RotationEvent (ι : Type*) where
  | advance (random : Nat)
  | abort
  | write (column : EncryptedColumn) (id : ι) (secret : Option (String × Nat))
  deriving Repr, DecidableEq

/-- The stored ciphertext of every column. -/
abbrev Secrets (ι τ : Type*) := EncryptedColumn → Rows ι τ String

namespace Secrets

variable {ι τ : Type*} [LinearOrder ι] [DecidableEq τ]

/-- COMMIT of a transaction over every column. -/
def commit (secrets : Secrets ι τ) (tx : τ) : Secrets ι τ := fun column => (secrets column).commit tx

/-- ROLLBACK of a transaction over every column. -/
def rollback (secrets : Secrets ι τ) (tx : τ) : Secrets ι τ :=
  fun column => (secrets column).rollback tx

end Secrets

namespace RotationPhase

variable {ι τ : Type*} [LinearOrder ι] [DecidableEq τ] (fernet : Fernet) (keys : EncryptionKeys)

/-- Go over one row that was read: rewrite it if it is on an older key and still what was read. -/
def rewrite (tx : τ) (random : Nat) (rows : Rows ι τ String) (column : EncryptedColumn)
    (row : ι × String) (progress : ColumnProgress) : Option (Rows ι τ String × ColumnProgress) :=
  let scanned := { progress with scanned := progress.scanned + 1 }
  -- Already on the current key: seen, and left alone.
  if isOnCurrentKey fernet keys column.purpose row.2 then some (rows, scanned)
  else
    let stale := { scanned with stale := scanned.stale + 1 }
    match decryptSecret fernet keys column.purpose row.2 with
    -- A secret that no key opens is counted and kept.
    | none => some (rows, { stale with unreadable := stale.unreadable + 1 })
    | some plaintext =>
        -- The update asks for the text that was read, so a newer secret is not overwritten.
        (rows.change tx row.1 (fun value => value == row.2) fun _ =>
          some (encryptSecret fernet keys column.purpose random plaintext)).map
          fun (rows, matched) =>
            (rows, if matched then { stale with rewritten := stale.rewritten + 1 }
              else { stale with raced := stale.raced + 1 })

/-- The next statement of a command; absent while it waits for another transaction. -/
def advance (tx : τ) (random : Nat) (secrets : Secrets ι τ) :
    RotationPhase ι → Option (Secrets ι τ × RotationPhase ι)
  | .start call => some (secrets, .reading call encryptedColumns [] [])
  | .reading call [] _ report => some (secrets, .done call report)
  | .reading call (column :: columns) read report =>
      -- Each page is read from a snapshot of its own.
      let batch := (secrets column).page tx read.length rotationBatch
      if batch.isEmpty then
        match call with
        | .countStale => some (secrets, .reading call columns []
            (report ++ [countColumn fernet keys column read]))
        | .reencrypt => some (secrets, .rewriting column columns read read { column } report)
      else some (secrets, .reading call (column :: columns) (read ++ batch) report)
  | .rewriting column columns read (row :: rest) progress report =>
      (rewrite fernet keys tx random (secrets column) column row progress).map
        fun (rows, progress) => (Function.update secrets column rows,
          .rewriting column columns read rest progress report)
  | .rewriting _ columns _ [] progress report =>
      some (secrets.commit tx, .reading .reencrypt columns [] (report ++ [progress]))
  | .done _ _ | .failed => none

/-- One event of one command, or a write of the application. -/
def act (tx : τ) : RotationEvent ι → Secrets ι τ → RotationPhase ι →
    Option (Secrets ι τ × RotationPhase ι)
  | .advance random, secrets, phase => advance fernet keys tx random secrets phase
  | .abort, _, .done _ _ => none
  | .abort, secrets, _ => some (secrets.rollback tx, .failed)
  | .write column id secret, secrets, phase =>
      -- Every application write uses the newest key.
      ((secrets column).publish id (secret.map fun (plaintext, random) =>
        encryptSecret fernet keys column.purpose random plaintext)).map
        fun rows => (Function.update secrets column rows, phase)

end RotationPhase

/-- The stored ciphertext and every command on it. -/
abbrev RotationSystem (ι τ : Type*) := Sessions (Secrets ι τ) τ (RotationPhase ι)

/-- The next state of the stored ciphertext and the commands. -/
def rotationStep {ι τ : Type*} [LinearOrder ι] [DecidableEq τ] (fernet : Fernet)
    (keys : EncryptionKeys) (system : RotationSystem ι τ) (event : τ × RotationEvent ι) :
    Option (RotationSystem ι τ) :=
  Sessions.step (RotationPhase.act fernet keys) system event

end Trusca
