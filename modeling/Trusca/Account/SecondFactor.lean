import Trusca.Authz.Access
import Trusca.Data.Text
import Trusca.Store.Rows
import Trusca.Store.Session

/-! The second factor of one user: enrolling, verifying, reissuing the recovery codes and clearing. -/

namespace Trusca

open Store

section Totp

/-- The digits of a code. -/
def totpDigits : Nat := 6

/-- The seconds of a step. -/
def totpPeriodSeconds : Nat := 30

/-- The steps beside the current one whose codes are accepted. -/
def totpDriftSteps : Nat := 1

/-- The step of a moment, in seconds. -/
def counterFor (moment : Nat) : Nat := moment / totpPeriodSeconds

/-- The step that a code matches, given the code of every step. -/
def totpVerify (codeAt : String → Nat → String) (secret candidate : String) (moment : Nat) :
    Option Nat :=
  if candidate.length ≠ totpDigits || !candidate.toList.all Char.isDigit then none
  else
    let centre := counterFor moment
    (List.range (2 * totpDriftSteps + 1)).findSome? fun offset =>
      -- Steps before the first one are passed over.
      if centre + offset < totpDriftSteps then none
      else
        let counter := centre + offset - totpDriftSteps
        if codeAt secret counter = candidate then some counter else none

end Totp

abbrev CodeId := Nat

/-- The columns of the user that the second factor is about. -/
structure MfaUser where
  mfaEnabled : Bool
  mfaSecret : Option String
  mfaLastCounter : Option Nat
  deriving Repr, DecidableEq

/-- The UPDATE of the user: only the columns assigned another value than the loaded one. -/
def MfaUser.flush (loaded assigned current : MfaUser) : MfaUser where
  mfaEnabled := flushColumn loaded.mfaEnabled assigned.mfaEnabled current.mfaEnabled
  mfaSecret := flushColumn loaded.mfaSecret assigned.mfaSecret current.mfaSecret
  mfaLastCounter :=
    flushColumn loaded.mfaLastCounter assigned.mfaLastCounter current.mfaLastCounter

/-- A recovery code. The text stands for its hash, which only the same text matches. -/
structure RecoveryCode where
  code : String
  usedAt : Option Time
  deriving Repr, DecidableEq

/-- Whether the code has not been spent. -/
def RecoveryCode.unused (code : RecoveryCode) : Bool := code.usedAt.isNone

/-- The upper case of a character, as far as comparisons with ASCII texts can tell: the letters
outside ASCII whose upper case lies in it are listed. -/
def upperChars (character : Char) : List Char :=
  -- The letters whose upper case is ASCII or longer than one letter.
  match character.toNat with
  | 0xDF => ['S', 'S']
  | 0x131 => ['I']
  | 0x17F => ['S']
  | 0xFB00 => ['F', 'F']
  | 0xFB01 => ['F', 'I']
  | 0xFB02 => ['F', 'L']
  | 0xFB03 => ['F', 'F', 'I']
  | 0xFB04 => ['F', 'F', 'L']
  | 0xFB05 | 0xFB06 => ['S', 'T']
  | _ => [character.toUpper]

/-- What is kept of a code that somebody has typed. -/
def normalise (candidate : String) : String :=
  String.ofList ((candidate.toList.filter fun character =>
    !isSpace character && character != '-').flatMap upperChars)

/-- Why a call has no effect. -/
inductive MfaError where
  | notEnrolled
  | alreadyEnabled
  | invalidCode
  | internal
  | aborted
  deriving Repr, DecidableEq

/-- A call about the user's second factor, with the random values it draws and its clock. -/
inductive MfaCall where
  | beginEnrolment (secret : String)
  | completeEnrolment (code : String) (moment : Nat) (codes : List (CodeId × String))
  | verifySecondFactor (code : String) (moment : Nat)
  | regenerateRecoveryCodes (codes : List (CodeId × String))
  | clearForUser
  deriving Repr, DecidableEq

/-- What has happened, in its order. -/
inductive MfaOccurrence (τ : Type*) where
  /-- A code was verified against the secret by a call that completes an enrolment. -/
  | proved (secret : String)
  /-- A call that issues recovery codes has begun. -/
  | began (tx : τ)
  /-- It has published its codes. -/
  | issued (tx : τ) (regeneration : Bool) (codes : List CodeId)
  | acceptedStep (counter : Nat)
  | acceptedCode (id : CodeId)
  | cleared
  deriving Repr, DecidableEq

/-- Why a call goes over the unused codes. -/
inductive CodeSweep where
  | issue (regeneration : Bool) (codes : List (CodeId × String))
  | clear
  deriving Repr, DecidableEq

namespace CodeSweep

variable {τ : Type*}

/-- The codes that the call inserts. -/
def codes : CodeSweep → List (CodeId × String)
  | .issue _ codes => codes
  | .clear => []

/-- What the commit of the call is. -/
def outcome (tx : τ) : CodeSweep → MfaOccurrence τ
  | .issue regeneration codes => .issued tx regeneration (codes.map Prod.fst)
  | .clear => .cleared

end CodeSweep

/-- How far a call has come. -/
inductive MfaPhase (τ : Type*) where
  | start (call : MfaCall)
  /-- The user row is about to be written. -/
  | writing (loaded assigned : MfaUser) (sweep : Option CodeSweep)
  /-- The unused codes are about to be read. -/
  | reading (sweep : CodeSweep)
  | inserting (sweep : CodeSweep) (rest : List (CodeId × String)) (found : List CodeId)
  | deleting (sweep : CodeSweep) (rest : List CodeId)
  | stepping (counter : Nat)
  | matching (typed : String) (now : Time)
  | spending (id : CodeId) (now : Time)
  | flushed (outcome : Option (MfaOccurrence τ))
  | done (answer : Except MfaError Unit)

/-- A call takes its next step, or is cut off. -/
inductive MfaEvent where
  | advance
  | abort
  deriving Repr, DecidableEq

/-- The user, the recovery codes, and what has happened to them. -/
structure MfaStore (τ : Type*) where
  user : Row τ MfaUser
  codes : Rows CodeId τ RecoveryCode
  history : List (MfaOccurrence τ)

namespace MfaStore

variable {τ : Type*} [DecidableEq τ]

/-- COMMIT of a transaction over both tables. -/
def commit (store : MfaStore τ) (tx : τ) (outcome : Option (MfaOccurrence τ)) : MfaStore τ :=
  ⟨store.user.commit tx, store.codes.commit tx, store.history ++ outcome.toList⟩

/-- ROLLBACK of a transaction over both tables. -/
def rollback (store : MfaStore τ) (tx : τ) : MfaStore τ :=
  ⟨store.user.rollback tx, store.codes.rollback tx, store.history⟩

/-- Note that something has happened. -/
def note (store : MfaStore τ) (occurrences : List (MfaOccurrence τ)) : MfaStore τ :=
  { store with history := store.history ++ occurrences }

end MfaStore

namespace MfaPhase

variable {τ : Type*} [DecidableEq τ]

/-- What a call does once it has read the user. -/
def load (codeAt : String → Nat → String) (tx : τ) (store : MfaStore τ) (user : MfaUser) :
    MfaCall → MfaStore τ × MfaPhase τ
  -- Enrolment writes a secret that is not yet in use, and forgets the last counter.
  | .beginEnrolment secret =>
      if user.mfaEnabled then (store, .done (.error .alreadyEnabled))
      else
        (store, .writing user { user with mfaSecret := some secret, mfaLastCounter := none } none)
  | .completeEnrolment code moment codes =>
      if user.mfaEnabled then (store, .done (.error .alreadyEnabled))
      else
        match user.mfaSecret with
        | none => (store, .done (.error .notEnrolled))
        | some secret =>
            -- Only a code of the pending secret switches the second factor on.
            match totpVerify codeAt secret code moment with
            | none => (store, .done (.error .invalidCode))
            | some _ =>
                (store.note [.proved secret, .began tx],
                  .writing user { user with mfaEnabled := true } (some (.issue false codes)))
  -- A code of the authenticator first, then a recovery code.
  | .verifySecondFactor code moment =>
      if !user.mfaEnabled then (store, .done (.error .notEnrolled))
      else
        match user.mfaSecret with
        | none => (store, .done (.error .notEnrolled))
        | some secret =>
            match totpVerify codeAt secret code moment with
            | some counter => (store, .stepping counter)
            | none => (store, .matching (normalise code) moment)
  -- New codes replace the old ones, in the same transaction.
  | .regenerateRecoveryCodes codes =>
      if !user.mfaEnabled then (store, .done (.error .notEnrolled))
      else (store.note [.began tx], .reading (.issue true codes))
  -- An administrator clears all three columns, whatever they hold.
  | .clearForUser => (store, .writing user ⟨false, none, none⟩ (some .clear))

/-- The next statement of a call; absent while it waits for another transaction. -/
def advance (codeAt : String → Nat → String) (tx : τ) (store : MfaStore τ) :
    MfaPhase τ → Option (MfaStore τ × MfaPhase τ)
  | .start call =>
      match store.user.view tx with
      | none => some (store, .done (.error .notEnrolled))
      | some user => some (load codeAt tx store user call)
  | .writing loaded assigned sweep =>
      (store.user.change tx (fun _ => true) fun current => some (loaded.flush assigned current)).map
        fun (user, matched) =>
          if matched then
            ({ store with user }, match sweep with
              | none => .flushed none
              | some sweep => .reading sweep)
          else (store.rollback tx, .done (.error .internal))
  | .reading sweep =>
      some (store, .inserting sweep sweep.codes (store.codes.select tx RecoveryCode.unused))
  | .inserting sweep ((id, code) :: rest) found =>
      (store.codes.insert tx id ⟨code, none⟩).map fun codes =>
        ({ store with codes }, .inserting sweep rest found)
  | .inserting sweep [] found => some (store, .deleting sweep found)
  -- DELETE by primary key: a code that has been spent since is deleted as well, and one that is
  -- gone is passed over with a warning.
  | .deleting sweep (id :: rest) =>
      (store.codes.change tx id (fun _ => true) fun _ => none).map fun (codes, _) =>
        ({ store with codes }, .deleting sweep rest)
  | .deleting sweep [] => some (store, .flushed (some (sweep.outcome tx)))
  -- The condition on the step rides along with the UPDATE.
  | .stepping counter =>
      (store.user.change tx (fun current => current.mfaLastCounter.all (· < counter))
        fun current => some { current with mfaLastCounter := some counter }).map
        fun (user, matched) =>
          if matched then ({ store with user }, .flushed (some (.acceptedStep counter)))
          else (store.rollback tx, .done (.error .invalidCode))
  | .matching typed now =>
      if typed = "" then some (store.rollback tx, .done (.error .invalidCode))
      else
        match (store.codes.fetch tx RecoveryCode.unused).find? fun item => item.2.code == typed with
        | none => some (store.rollback tx, .done (.error .invalidCode))
        | some (id, _) => some (store, .spending id now)
  | .spending id now =>
      (store.codes.change tx id RecoveryCode.unused fun current =>
        some { current with usedAt := some now }).map fun (codes, matched) =>
          if matched then ({ store with codes }, .flushed (some (.acceptedCode id)))
          else (store.rollback tx, .done (.error .invalidCode))
  | .flushed outcome => some (store.commit tx outcome, .done (.ok ()))
  | .done _ => none

/-- One event of one call. -/
def act (codeAt : String → Nat → String) (tx : τ) : MfaEvent → MfaStore τ → MfaPhase τ →
    Option (MfaStore τ × MfaPhase τ)
  | .advance, store, phase => advance codeAt tx store phase
  | .abort, _, .done _ => none
  | .abort, store, _ => some (store.rollback tx, .done (.error .aborted))

end MfaPhase

/-- The user, the recovery codes and every call on them. -/
abbrev MfaSystem (τ : Type*) := Sessions (MfaStore τ) τ (MfaPhase τ)

/-- The next state of the second factor and its calls. -/
def mfaStep {τ : Type*} [DecidableEq τ] (codeAt : String → Nat → String) (system : MfaSystem τ)
    (event : τ × MfaEvent) : Option (MfaSystem τ) :=
  Sessions.step (MfaPhase.act codeAt) system event

end Trusca
