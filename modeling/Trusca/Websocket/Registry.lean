import Mathlib.Data.String.Basic
import Mathlib.Logic.Function.Basic
import Trusca.Store.Scored

/-! The registry of open connections: one set for all of them, one for each user, and a key for each
connection that is there as long as it is alive. -/

namespace Trusca

open Store

/-- The keys of the registry. -/
structure WsRegistry (τ : Type) where
  all : Scored τ String
  users : Nat → Scored τ String
  alive : String → Bool

/-- How many connections there may be. -/
structure WsCaps where
  maxPerUser : Int
  maxGlobal : Int
  deriving Repr, DecidableEq

/-- The outcome of a registration. -/
structure RegisterResult where
  accepted : Bool
  evictedConnectionId : Option String
  deriving Repr, DecidableEq

namespace WsRegistry

variable {τ : Type} [LinearOrder τ]

/-- Nothing is registered. -/
def empty : WsRegistry τ := ⟨[], fun _ => [], fun _ => false⟩

/-- Drop the members of a set whose liveness key has expired. -/
def pruneDead (registry : WsRegistry τ) (set : Scored τ String) : Scored τ String :=
  set.keep registry.alive

/-- The registry after the sets that a registration looks at are pruned. -/
def pruned (registry : WsRegistry τ) (user : Nat) : WsRegistry τ :=
  { registry with
    all := registry.pruneDead registry.all
    users := Function.update registry.users user (registry.pruneDead (registry.users user)) }

/-- The registry with a connection that is admitted. -/
def addConnection (registry : WsRegistry τ) (user : Nat) (connection : String) (now : τ) : WsRegistry τ :=
  { all := registry.all.add now connection
    users := Function.update registry.users user ((registry.users user).add now connection)
    alive := Function.update registry.alive connection true }

/-- The registry without a connection that is evicted; its liveness key stays. -/
def evict (registry : WsRegistry τ) (user : Nat) (connection : String) : WsRegistry τ :=
  { registry with
    all := registry.all.remove connection
    users := Function.update registry.users user ((registry.users user).remove connection) }

/-- Admit a connection, and evict the oldest one of the user when there are too many. -/
def registerConnection (caps : WsCaps) (registry : WsRegistry τ) (user : Nat) (connection : String) (now : τ) :
    WsRegistry τ × RegisterResult :=
  let registry := registry.pruned user
  if caps.maxGlobal ≤ registry.all.length then (registry, ⟨false, none⟩)
  else
    let registry := registry.addConnection user connection now
    if caps.maxPerUser < (registry.users user).length then
      match (registry.users user).head? with
      | some (_, candidate) =>
          -- The connection that just registered is never evicted, also when it is the oldest.
          if candidate ≠ connection then (registry.evict user candidate, ⟨true, some candidate⟩)
          else (registry, ⟨true, none⟩)
      | none => (registry, ⟨true, none⟩)
    else (registry, ⟨true, none⟩)

/-- Refresh the liveness key of a connection; the sets are not touched. -/
def touchConnection (registry : WsRegistry τ) (connection : String) : WsRegistry τ :=
  { registry with alive := Function.update registry.alive connection true }

/-- Remove a connection. -/
def unregisterConnection (registry : WsRegistry τ) (user : Nat) (connection : String) : WsRegistry τ :=
  { all := registry.all.remove connection
    users := Function.update registry.users user ((registry.users user).remove connection)
    alive := Function.update registry.alive connection false }

end WsRegistry

/-- A call of the registry, or the expiry of a liveness key. -/
inductive WsEvent (τ : Type) where
  | register (user : Nat) (connection : String) (now : τ)
  | touch (connection : String)
  | unregister (user : Nat) (connection : String)
  | expire (connection : String)
  deriving Repr, DecidableEq

/-- What an event leaves of the registry. -/
def WsRegistry.step {τ : Type} [LinearOrder τ] (caps : WsCaps) (registry : WsRegistry τ) :
    WsEvent τ → Option (WsRegistry τ)
  | .register user connection now => some (registry.registerConnection caps user connection now).1
  | .touch connection => some (registry.touchConnection connection)
  | .unregister user connection => some (registry.unregisterConnection user connection)
  -- Redis drops the key when its time is up, and the two sets know nothing of it.
  | .expire connection => some { registry with alive := Function.update registry.alive connection false }

end Trusca
