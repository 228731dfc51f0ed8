import Trusca.Store.Expiring
import Trusca.Store.Session

/-! The throttle on failed sign-ins of one address: a counter of failures, a marker for the window in
which the address is refused, and the round that decides how long the next window is. -/

namespace Trusca

open Store

/-- The settings of the throttle; the lengths of the windows are in seconds. -/
structure ThrottleSettings where
  enabled : Bool
  failures : Nat
  windows : List Nat
  failures_pos : 1 ≤ failures
  windows_ne_nil : windows ≠ []
  windows_pos : ∀ seconds ∈ windows, 1 ≤ seconds

namespace ThrottleSettings

/-- How long a run of failures is remembered, in milliseconds: as long as the longest window. -/
def decay (settings : ThrottleSettings) : Nat := settings.windows.foldr max 0 * 1000

/-- The length of the window of a round, in milliseconds; the last one repeats. -/
def window (settings : ThrottleSettings) (round : Nat) : Nat :=
  settings.windows.getD (min round (settings.windows.length - 1)) 0 * 1000

end ThrottleSettings

/-- What happens at a sign-in. -/
inductive ThrottleOccurrence (τ : Type*) where
  /-- The gate lets a request through. -/
  | admitted (tx : τ)
  /-- The password check of a request starts. -/
  | started (tx : τ)
  /-- The password check of a request has failed. -/
  | failed (tx : τ)
  /-- The failure of a request is counted, by a counter that is created for it or by the one there. -/
  | counted (tx : τ) (first : Bool)
  /-- The failure of a request is reported while the address is refused. -/
  | passedOver (tx : τ)
  /-- A window opens that lasts until a moment. -/
  | opened (last : Nat)
  /-- The failures are forgotten. -/
  | cleared
  deriving Repr, DecidableEq

/-- The three keys of an address, and what has happened and when. -/
structure Throttle (τ : Type*) where
  now : Nat
  counter : Key Nat
  marker : Key Unit
  round : Key Nat
  history : List (Nat × ThrottleOccurrence τ)
  deriving Repr, DecidableEq

namespace Throttle

variable {τ : Type*}

/-- Note what happens now. -/
def note (throttle : Throttle τ) (occurrence : ThrottleOccurrence τ) : Throttle τ :=
  { throttle with history := throttle.history ++ [(throttle.now, occurrence)] }

/-- Whether the gate refuses the address. -/
def refuses (settings : ThrottleSettings) (throttle : Throttle τ) : Bool :=
  settings.enabled && decide (0 < throttle.marker.remaining throttle.now)

/-- The counter with one more failure. Its expiry is set once, when it is created. -/
def increment (settings : ThrottleSettings) (throttle : Throttle τ) : Entry Nat :=
  match throttle.counter.at? throttle.now with
  | none => ⟨1, throttle.now + settings.decay⟩
  | some entry => ⟨entry.value + 1, entry.expires⟩

/-- The script that counts a failure. -/
def countFailure (settings : ThrottleSettings) (tx : τ) (throttle : Throttle τ) : Throttle τ :=
  -- Under a marker nothing is counted, so a window is not prolonged.
  if 0 < throttle.marker.remaining throttle.now then throttle.note (.passedOver tx)
  else
    let failures := throttle.increment settings
    let counted := { throttle with counter := some failures }.note
      (.counted tx (throttle.counter.at? throttle.now).isNone)
    -- Below the limit only the counter grows.
    if failures.value < settings.failures then counted
    else
      -- At the limit the counter goes, a window opens, and the round counts one more.
      let round := (throttle.round.at? throttle.now).elim 0 Entry.value
      let length := settings.window round
      { counted with
        counter := none
        marker := some ⟨(), throttle.now + length⟩
        round := some ⟨round + 1, throttle.now + length + settings.decay⟩ }.note
          (.opened (throttle.now + length))

/-- Report a failed sign-in. -/
def recordFailure (settings : ThrottleSettings) (tx : τ) (throttle : Throttle τ) : Throttle τ :=
  if settings.enabled then throttle.countFailure settings tx else throttle

/-- Forget the failures of the address. -/
def clear (settings : ThrottleSettings) (throttle : Throttle τ) : Throttle τ :=
  if settings.enabled then
    { throttle with counter := none, marker := none, round := none }.note .cleared
  else throttle

/-- The whole seconds in which some milliseconds have passed. -/
def wholeSeconds (milliseconds : Nat) : Nat :=
  if milliseconds = 0 then 0 else max 1 ((milliseconds + 999) / 1000)

/-- The seconds until a sign-in may proceed; zero when it may. -/
def secondsUntilRetry (settings : ThrottleSettings) (throttle : Throttle τ) : Nat :=
  if settings.enabled then wholeSeconds (throttle.marker.remaining throttle.now) else 0

/-- The seconds that the address is refused after a failure is reported. -/
def recordFailureWait (settings : ThrottleSettings) (throttle : Throttle τ) : Nat :=
  -- The same arithmetic without the writes: what the answer tells the caller to wait.
  if settings.enabled then
    let remaining := throttle.marker.remaining throttle.now
    if 0 < remaining then wholeSeconds remaining
    else if (throttle.increment settings).value < settings.failures then 0
    else wholeSeconds (settings.window ((throttle.round.at? throttle.now).elim 0 Entry.value))
  else 0

end Throttle

section Calls

/-- A call of the throttle from one place after the other, or time that passes between them. -/
inductive ThrottleCall where
  | recordFailure
  | clear
  | wait (elapsed : Nat)
  deriving Repr, DecidableEq

namespace Throttle

/-- What a call leaves of the throttle. -/
def call (settings : ThrottleSettings) (throttle : Throttle Unit) : ThrottleCall → Throttle Unit
  | .recordFailure => throttle.recordFailure settings ()
  | .clear => throttle.clear settings
  | .wait elapsed => { throttle with now := throttle.now + elapsed }

/-- An address of which nothing is known. -/
def fresh (now : Nat) : Throttle Unit := ⟨now, none, none, none, []⟩

/-- What calls make of a fresh address. -/
def runCalls (settings : ThrottleSettings) (start : Nat) (calls : List ThrottleCall) : Throttle Unit :=
  calls.foldl (call settings) (fresh start)

end Throttle

end Calls

/-- How a sign-in ends that the gate has let through. -/
inductive LoginOutcome where
  | wrongPassword
  /-- The password is right and a second factor is asked for. -/
  | secondFactor
  /-- The password changed while the request was in flight. -/
  | staleCredential
  | success
  deriving Repr, DecidableEq

/-- How far a sign-in has come. -/
inductive LoginPhase where
  | start (outcome : LoginOutcome)
  | admitted (outcome : LoginOutcome)
  /-- The password is being checked. -/
  | checking (outcome : LoginOutcome)
  | failed
  | succeeded
  | done
  deriving Repr, DecidableEq

/-- A sign-in takes its next step, or time passes. -/
inductive LoginEvent where
  | advance
  | wait (elapsed : Nat)
  deriving Repr, DecidableEq

namespace LoginPhase

variable {τ : Type*}

/-- The next step of a sign-in. -/
def advance (settings : ThrottleSettings) (tx : τ) (throttle : Throttle τ) :
    LoginPhase → Option (Throttle τ × LoginPhase)
  -- The throttle is asked before the password is.
  | .start outcome =>
      if throttle.refuses settings then some (throttle, .done)
      else some (throttle.note (.admitted tx), .admitted outcome)
  | .admitted outcome => some (throttle.note (.started tx), .checking outcome)
  -- Only a wrong password counts: a missing second factor and a stale credential do not.
  | .checking .wrongPassword => some (throttle.note (.failed tx), .failed)
  | .checking .secondFactor => some (throttle, .done)
  | .checking .staleCredential => some (throttle, .done)
  | .checking .success => some (throttle, .succeeded)
  | .failed => some (throttle.recordFailure settings tx, .done)
  -- A success clears the counter and the rounds.
  | .succeeded => some (throttle.clear settings, .done)
  | .done => none

/-- One event of one sign-in. -/
def act (settings : ThrottleSettings) (tx : τ) : LoginEvent → Throttle τ → LoginPhase →
    Option (Throttle τ × LoginPhase)
  | .advance, throttle, phase => advance settings tx throttle phase
  | .wait elapsed, throttle, phase => some ({ throttle with now := throttle.now + elapsed }, phase)

end LoginPhase

/-- The throttle of an address and every sign-in for it. -/
abbrev LoginSystem (τ : Type*) := Sessions (Throttle τ) τ LoginPhase

/-- The next state of the throttle and the sign-ins. -/
def loginStep {τ : Type*} [DecidableEq τ] (settings : ThrottleSettings) (system : LoginSystem τ)
    (event : τ × LoginEvent) : Option (LoginSystem τ) :=
  Sessions.step (LoginPhase.act settings) system event

end Trusca
