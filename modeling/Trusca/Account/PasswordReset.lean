import Trusca.Authz.Access
import Trusca.Store.Rows
import Trusca.Store.Session
import Mathlib.Data.List.Sort

/-! Password reset by mail: issuing a token to a user, and changing the password with it. -/

namespace Trusca

open Store

abbrev TokenId := Nat

/-- How long a token is accepted, in microseconds. -/
def passwordResetTtl : Time := 60 * 60 * 1000000

/-- The least time between two mails to one address, which is set in seconds. -/
structure PasswordResetSettings where
  cooldownSeconds : Int

/-- The least time between two mails, in microseconds. -/
def PasswordResetSettings.cooldown (settings : PasswordResetSettings) : Time :=
  settings.cooldownSeconds * 1000000

/-- How many live tokens a presented one is compared with. -/
def resetCandidates : Nat := 256

/-- The columns of a user that a reset is about. The password stands for its hash. -/
structure ResetUser where
  email : String
  isActive : Bool
  isServiceAccount : Bool
  hashedPassword : String
  deriving Repr, DecidableEq

/-- Whether a reset can be asked for. -/
def ResetUser.resettable (user : ResetUser) : Bool := user.isActive && !user.isServiceAccount

/-- A token. The text stands for its hash, which only the same text matches. -/
structure PasswordResetToken where
  userId : UserId
  tokenHash : String
  expiresAt : Time
  usedAt : Option Time
  invalidatedAt : Option Time
  createdAt : Time
  deriving Repr, DecidableEq

namespace PasswordResetToken

/-- Neither used nor superseded. -/
def pending (token : PasswordResetToken) : Bool :=
  token.usedAt.isNone && token.invalidatedAt.isNone

/-- Pending, and not expired. -/
def live (now : Time) (token : PasswordResetToken) : Bool :=
  token.pending && decide (now < token.expiresAt)

/-- Issued within the cooldown before a moment, and pending. -/
def recent (settings : PasswordResetSettings) (userId : UserId) (moment : Time)
    (token : PasswordResetToken) : Bool :=
  decide (token.userId = userId) && decide (moment - settings.cooldown ≤ token.createdAt) &&
    token.pending

end PasswordResetToken

/-- Why a call has no effect. -/
inductive ResetError where
  | invalidResetToken
  /-- A query for at most one row has found several. -/
  | multipleResultsFound
  /-- A row is gone that was to be written. -/
  | staleData
  | aborted
  deriving Repr, DecidableEq

/-- What a call has come to. -/
inductive ResetAnswer where
  | unmatched
  | cooldownActive
  | issued (id : TokenId)
  | rotated (id : TokenId)
  deriving Repr, DecidableEq

/-- A token that a request is about to store, and the user it is for. -/
structure ResetIssue where
  userId : UserId
  id : TokenId
  plaintext : String
  /-- When the transaction of the request began. -/
  startedAt : Time
  deriving Repr, DecidableEq

/-- How far a call has come. -/
inductive ResetPhase where
  | request (email : String) (id : TokenId) (plaintext : String)
  | checking (issue : ResetIssue)
  | reading (issue : ResetIssue)
  /-- The live tokens found before are superseded one by one. -/
  | invalidating (issue : ResetIssue) (readAt : Time) (found rest : List TokenId)
  | inserted (issue : ResetIssue) (found : List TokenId)
  | consume (plaintext newPassword : String)
  | matched (id : TokenId) (userId : UserId) (readAt : Time) (newPassword : String)
  | rotating (id : TokenId) (userId : UserId) (readAt : Time) (newPassword : String)
  | marking (id : TokenId) (readAt : Time)
  | marked (id : TokenId)
  | done (answer : Except ResetError ResetAnswer)
  deriving DecidableEq

/-- A call takes its next step or is cut off, or time passes. -/
inductive ResetEvent where
  | advance
  | abort
  | wait (elapsed : Nat)
  deriving Repr, DecidableEq

/-- The users and the tokens, the clock, and the tokens that have changed a password. -/
structure ResetStore (τ : Type*) where
  now : Time
  users : Rows UserId τ ResetUser
  tokens : Rows TokenId τ PasswordResetToken
  changed : List TokenId

namespace ResetStore

variable {τ : Type*} [DecidableEq τ]

/-- COMMIT of a transaction over both tables. -/
def commit (store : ResetStore τ) (tx : τ) : ResetStore τ :=
  { store with users := store.users.commit tx, tokens := store.tokens.commit tx }

/-- ROLLBACK of a transaction over both tables. -/
def rollback (store : ResetStore τ) (tx : τ) : ResetStore τ :=
  { store with users := store.users.rollback tx, tokens := store.tokens.rollback tx }

/-- Whether the user has a token from within the cooldown: absent when the query, which is for one
row, finds several. -/
def hasRecentToken (settings : PasswordResetSettings) (store : ResetStore τ) (tx : τ)
    (userId : UserId) (moment : Time) : Option Bool :=
  -- `scalar_one_or_none`: more than one row raises.
  match store.tokens.select tx (PasswordResetToken.recent settings userId moment) with
  | [] => some false
  | [_] => some true
  | _ => none

/-- The live tokens of all users that a presented one is compared with, newest first. -/
def candidates (store : ResetStore τ) (tx : τ) : List (TokenId × PasswordResetToken) :=
  ((store.tokens.fetch tx (PasswordResetToken.live store.now)).insertionSort
    fun first second => second.2.createdAt ≤ first.2.createdAt).take resetCandidates

end ResetStore

/-- The first candidate that the presented text matches. -/
def matchResetToken (candidates : List (TokenId × PasswordResetToken)) (plaintext : String) :
    Option (TokenId × PasswordResetToken) :=
  candidates.find? fun candidate => candidate.2.tokenHash == plaintext

namespace ResetPhase

variable {τ : Type*} [DecidableEq τ]

/-- The next statement of a call; absent while it waits for a lock. -/
def advance (settings : PasswordResetSettings) (tx : τ) (store : ResetStore τ) :
    ResetPhase → Option (ResetStore τ × ResetPhase)
  | .request email id plaintext =>
      match (store.users.fetch tx fun user => user.email == email).head? with
      | none => some (store, .done (.ok .unmatched))
      | some (userId, user) =>
          if user.resettable then some (store, .checking ⟨userId, id, plaintext, store.now⟩)
          else some (store, .done (.ok .unmatched))
  -- The cutoff is measured from the start of the transaction.
  | .checking issue =>
      match store.hasRecentToken settings tx issue.userId issue.startedAt with
      | none => some (store.rollback tx, .done (.error .multipleResultsFound))
      | some true => some (store, .done (.ok .cooldownActive))
      | some false => some (store, .reading issue)
  | .reading issue =>
      let live := store.tokens.select tx fun token =>
        decide (token.userId = issue.userId) && token.live store.now
      some (store, .invalidating issue store.now live live)
  -- UPDATE by primary key: a token that has been used since is superseded as well.
  | .invalidating issue readAt found (id :: rest) =>
      (store.tokens.change tx id (fun _ => true) fun token =>
        some { token with invalidatedAt := some readAt }).map fun (tokens, here) =>
          if here then ({ store with tokens }, .invalidating issue readAt found rest)
          else (store.rollback tx, .done (.error .staleData))
  | .invalidating issue readAt found [] =>
      (store.tokens.insert tx issue.id
        { userId := issue.userId
          tokenHash := issue.plaintext
          expiresAt := readAt + passwordResetTtl
          usedAt := none
          invalidatedAt := none
          createdAt := issue.startedAt }).map fun tokens =>
            ({ store with tokens }, .inserted issue found)
  | .inserted issue _ => some (store.commit tx, .done (.ok (.issued issue.id)))
  | .consume plaintext newPassword =>
      if plaintext = "" then some (store, .done (.error .invalidResetToken))
      else
        match matchResetToken (store.candidates tx) plaintext with
        | none => some (store, .done (.error .invalidResetToken))
        | some (id, token) => some (store, .matched id token.userId store.now newPassword)
  | .matched id userId readAt newPassword =>
      match store.users.view tx userId with
      | none => some (store, .done (.error .invalidResetToken))
      | some user =>
          if user.resettable then some (store, .rotating id userId readAt newPassword)
          else some (store, .done (.error .invalidResetToken))
  | .rotating id userId readAt newPassword =>
      (store.users.change tx userId (fun _ => true) fun user =>
        some { user with hashedPassword := newPassword }).map fun (users, here) =>
          if here then ({ store with users }, .marking id readAt)
          else (store.rollback tx, .done (.error .staleData))
  -- UPDATE by primary key: a token that has been used since is used again.
  | .marking id readAt =>
      (store.tokens.change tx id (fun _ => true) fun token =>
        some { token with usedAt := some readAt }).map fun (tokens, here) =>
          if here then ({ store with tokens }, .marked id)
          else (store.rollback tx, .done (.error .staleData))
  | .marked id =>
      some ({ store.commit tx with changed := store.changed ++ [id] }, .done (.ok (.rotated id)))
  | .done _ => none

/-- Whether a step comes at a moment at which the calls are in order: no other call has issued a token
to the user meanwhile, the token to be marked is unused, and no live token is left out of the
candidates. -/
def orderly (settings : PasswordResetSettings) (store : ResetStore τ) : ResetEvent → ResetPhase → Bool
  -- No other pending token of the user is newer than this request.
  | .advance, .checking issue =>
      store.tokens.entries.all fun (_, token) =>
        token.userId ≠ issue.userId || !token.pending || decide (token.createdAt ≤ issue.startedAt)
  -- Between the insert and its cleanup no other pending token has come in.
  | .advance, .inserted issue found =>
      store.tokens.entries.all fun (id, token) =>
        token.userId ≠ issue.userId || !token.pending || found.contains id ||
          decide (token.expiresAt ≤ store.now ∧ token.createdAt < issue.startedAt - settings.cooldown)
  -- The token to be marked is still unused.
  | .advance, .marking id _ => (store.tokens.committed id).all fun token => token.usedAt.isNone
  -- The candidates read are all there are.
  | .advance, .consume _ _ =>
      (store.tokens.entries.filter fun (_, token) => token.live store.now).length ≤ resetCandidates
  | _, _ => true

/-- One event of one call. -/
def act (settings : PasswordResetSettings) (tx : τ) : ResetEvent → ResetStore τ → ResetPhase →
    Option (ResetStore τ × ResetPhase)
  -- A step of the call, its failure at any point, or time passing.
  | .advance, store, phase => advance settings tx store phase
  | .abort, _, .done _ => none
  | .abort, store, _ => some (store.rollback tx, .done (.error .aborted))
  | .wait elapsed, store, phase => some ({ store with now := store.now + elapsed }, phase)

end ResetPhase

/-- The tokens and every call on them. -/
abbrev ResetSystem (τ : Type*) := Sessions (ResetStore τ) τ ResetPhase

/-- The next state of the tokens and the calls. -/
def resetStep {τ : Type*} [DecidableEq τ] (settings : PasswordResetSettings) (system : ResetSystem τ)
    (event : τ × ResetEvent) : Option (ResetSystem τ) :=
  Sessions.step (ResetPhase.act settings) system event

end Trusca
