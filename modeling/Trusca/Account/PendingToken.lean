import Trusca.Store.Expiring
import Trusca.Store.Session

/-! The exchange of one pending sign-in token for a session: a counter of its attempts and a claim on
its single use, both kept for as long as the token can live. -/

namespace Trusca

open Store

/-- How many wrong codes one pending token tolerates. -/
def mfaAttemptsPerToken : Nat := 3

/-- How long a pending token lives, in minutes. -/
def mfaPendingExpireMinutes : Nat := 5

/-- How long the keys of a token are kept, in milliseconds. -/
def pendingWindow : Nat := mfaPendingExpireMinutes * 60 * 1000

/-- The moment a token expires that is made at a moment, in milliseconds: whole seconds, as the token
carries it. -/
def pendingExpiry (issuedAt : Nat) : Nat := (issuedAt + pendingWindow) / 1000 * 1000

/-- What the other parts of a request find: the user, the throttle, the code and the session. -/
structure MfaVerifyRequest where
  /-- Whether the user is there and active. -/
  userActive : Bool
  /-- Whether the address is refused at the moment. -/
  throttled : Bool
  codeMatches : Bool
  /-- Whether the password changed while the request was in flight. -/
  staleCredential : Bool
  deriving Repr, DecidableEq

/-- How far a request has come. -/
inductive MfaVerifyPhase where
  | start (request : MfaVerifyRequest)
  | decoded (request : MfaVerifyRequest)
  /-- No attempt is left, and the token is to be finished for good. -/
  | exhausted
  | attempted (request : MfaVerifyRequest)
  | claimed (request : MfaVerifyRequest)
  /-- The code is being checked. -/
  | checking (request : MfaVerifyRequest)
  | wrongCode
  | accepted (request : MfaVerifyRequest)
  | done (session : Bool)
  deriving Repr, DecidableEq

/-- A request takes its next step, or time passes. -/
inductive MfaVerifyEvent where
  | advance
  | wait (elapsed : Nat)
  deriving Repr, DecidableEq

/-- The two keys of the token, and what the requests have come to. -/
structure PendingToken (τ : Type*) where
  now : Nat
  issuedAt : Nat
  attempts : Key Nat
  spent : Key Unit
  /-- The requests that have reached the check of the code, and those that have issued a session. -/
  checked : List τ
  sessions : List τ
  deriving Repr, DecidableEq

namespace PendingToken

variable {τ : Type*}

/-- Count an attempt. The counter keeps the expiry it was created with. -/
def spendAttempt (token : PendingToken τ) : PendingToken τ × Bool :=
  -- INCR starts a fresh key at one, and only the first one sets the expiry.
  let used : Entry Nat :=
    match token.attempts.at? token.now with
    | none => ⟨1, token.now + pendingWindow⟩
    | some entry => ⟨entry.value + 1, entry.expires⟩
  -- The attempt over the limit is counted as well, and refused.
  ({ token with attempts := some used }, used.value ≤ mfaAttemptsPerToken)

/-- Claim the token; false if somebody already has it. -/
def spendOnce (token : PendingToken τ) : PendingToken τ × Bool :=
  match token.spent.at? token.now with
  | none => ({ token with spent := some ⟨(), token.now + pendingWindow⟩ }, true)
  | some _ => (token, false)

/-- Give the claim back. -/
def releaseSpend (token : PendingToken τ) : PendingToken τ := { token with spent := none }

end PendingToken

namespace MfaVerifyPhase

variable {τ : Type*}

/-- The next step of a request. -/
def advance (tx : τ) (token : PendingToken τ) :
    MfaVerifyPhase → Option (PendingToken τ × MfaVerifyPhase)
  | .start request =>
      if token.now < pendingExpiry token.issuedAt && request.userActive then
        some (token, .decoded request)
      else some (token, .done false)
  | .decoded request =>
      let (token, left) := token.spendAttempt
      some (token, if left then .attempted request else .exhausted)
  | .exhausted => some (token.spendOnce.1, .done false)
  | .attempted request =>
      let (token, created) := token.spendOnce
      some (token, if created then .claimed request else .done false)
  | .claimed request =>
      -- A throttled request keeps the claim.
      if request.throttled then some (token, .done false)
      else some ({ token with checked := token.checked ++ [tx] }, .checking request)
  | .checking request =>
      some (token, if request.codeMatches then .accepted request else .wrongCode)
  | .wrongCode => some (token.releaseSpend, .done false)
  | .accepted request =>
      if request.staleCredential then some (token, .done false)
      else some ({ token with sessions := token.sessions ++ [tx] }, .done true)
  | .done _ => none

/-- One event of one request. -/
def act (tx : τ) : MfaVerifyEvent → PendingToken τ → MfaVerifyPhase →
    Option (PendingToken τ × MfaVerifyPhase)
  | .advance, token, phase => advance tx token phase
  | .wait elapsed, token, phase => some ({ token with now := token.now + elapsed }, phase)

end MfaVerifyPhase

/-- The token and every request that presents it. -/
abbrev MfaVerifySystem (τ : Type*) := Sessions (PendingToken τ) τ MfaVerifyPhase

/-- The next state of the token and its requests. -/
def mfaVerifyStep {τ : Type*} [DecidableEq τ] (system : MfaVerifySystem τ)
    (event : τ × MfaVerifyEvent) : Option (MfaVerifySystem τ) :=
  Sessions.step MfaVerifyPhase.act system event

end Trusca
