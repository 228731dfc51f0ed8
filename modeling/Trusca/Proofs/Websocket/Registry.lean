import Trusca.Store.Run
import Trusca.Websocket.Registry

/-! The caps on open connections hold as long as the clocks of the processes agree on which connection of a
user is the oldest, and no connection comes back that was taken for dead. -/

namespace Trusca

open Store

variable {τ : Type} [LinearOrder τ]

namespace WsRegistry

section Statements

/-- Whatever is in a user's set is among all connections, or dead. -/
def Consistent (registry : WsRegistry τ) : Prop :=
  ∀ user connection, (registry.users user).Has connection →
    registry.all.Has connection ∨ registry.alive connection = false

/-- What the caps promise for a user. -/
structure Capped (caps : WsCaps) (registry : WsRegistry τ) (user : Nat) : Prop where
  user : ((registry.users user).length : Int) ≤ caps.maxPerUser
  all : (registry.all.length : Int) ≤ caps.maxGlobal
  consistent : registry.Consistent

/-- The other connections of a user that are alive. -/
def others (registry : WsRegistry τ) (user : Nat) (connection : String) : Scored τ String :=
  (registry.pruneDead (registry.users user)).remove connection

/-- A registration is in order when all the places are taken by the living, or when no other user has the
connection and the user has fewer others than there may be, or the oldest of them comes before it. A connection is touched as long as it is alive, or among
all connections, or no user has it. -/
def InOrder (caps : WsCaps) (registry : WsRegistry τ) : WsEvent τ → Prop
  | .register user connection now =>
      caps.maxGlobal ≤ (registry.pruneDead registry.all).length ∨
        (∀ other, other ≠ user → ¬ (registry.users other).Has connection) ∧
          ((registry.others user connection).length < caps.maxPerUser ∨
            ∃ oldest rest, registry.others user connection = oldest :: rest ∧
              Scored.before oldest (now, connection))
  | .touch connection => registry.alive connection = true ∨ registry.all.Has connection ∨
      ∀ user, ¬ (registry.users user).Has connection
  | .unregister _ _ | .expire _ => True

/-- What every registry in use keeps: no connection has two users, and the sets are within the caps. -/
structure Kept (caps : WsCaps) (registry : WsRegistry τ) : Prop where
  consistent : registry.Consistent
  single : ∀ first second connection, (registry.users first).Has connection →
    (registry.users second).Has connection → first = second
  users : ∀ user, ((registry.users user).length : Int) ≤ max caps.maxPerUser 0
  all : (registry.all.length : Int) ≤ max caps.maxGlobal 0

end Statements

section Parts

variable {caps : WsCaps} {registry : WsRegistry τ} {user : Nat} {connection : String} {now : τ}

omit [LinearOrder τ] in
/-- The set of a user after the set of one user is written. -/
theorem has_update {set : Scored τ String} {other : Nat} {member : String} :
    (Function.update registry.users user set other).Has member ↔
      (other = user ∧ set.Has member) ∨ (other ≠ user ∧ (registry.users other).Has member) := by
  by_cases same : other = user
  · subst same
    simp
  · simp [same]

omit [LinearOrder τ] in
/-- Writing one user's set within the bound keeps every set within it. -/
theorem length_update_le {set : Scored τ String} {most : Int} (written : (set.length : Int) ≤ most)
    (others : ∀ other, ((registry.users other).length : Int) ≤ most) (other : Nat) :
    ((Function.update registry.users user set other).length : Int) ≤ most := by
  by_cases same : other = user
  · subst same
    rwa [Function.update_self]
  · rw [Function.update_of_ne same]
    exact others other

omit [LinearOrder τ] in
/-- Pruning takes away only what is dead. -/
theorem Kept.pruned (kept : Kept caps registry) (user : Nat) : Kept caps (registry.pruned user) := by
  -- Pruning only takes members away.
  have fewer {other : Nat} {member : String}
      (present : ((registry.pruned user).users other).Has member) : (registry.users other).Has member := by
    obtain ⟨rfl, alive⟩ | ⟨-, there⟩ := has_update.mp present
    · exact (Scored.has_keep.mp alive).1
    · exact there
  refine ⟨?_, ?_, ?_, ?_⟩
  · intro other member present
    -- A member that is gone from the set of all is one that has expired.
    obtain among | dead := kept.consistent other member (fewer present)
    · cases alive : registry.alive member with
      | true => exact .inl (Scored.has_keep.mpr ⟨among, alive⟩)
      | false => exact .inr alive
    · exact .inr dead
  · intro first second member one two
    exact kept.single first second member (fewer one) (fewer two)
  · -- Neither of the two sets grows.
    refine length_update_le (Int.le_trans ?_ (kept.users user)) kept.users
    exact Int.ofNat_le.mpr Scored.length_keep_le
  · exact Int.le_trans (Int.ofNat_le.mpr Scored.length_keep_le) kept.all

/-- A connection that no other user has is admitted without harm to the sets. -/
theorem Kept.addConnection_consistent (kept : Kept caps registry)
    (fresh : ∀ other, other ≠ user → ¬ (registry.users other).Has connection) :
    (registry.addConnection user connection now).Consistent ∧
      ∀ first second member, ((registry.addConnection user connection now).users first).Has member →
        ((registry.addConnection user connection now).users second).Has member → first = second := by
  -- A member is the new connection, or one of before.
  have origin {other : Nat} {member : String}
      (present : ((registry.addConnection user connection now).users other).Has member) :
      (other = user ∧ member = connection) ∨ (member ≠ connection ∧ (registry.users other).Has member) := by
    obtain ⟨rfl, added⟩ | ⟨different, there⟩ := has_update.mp present
    · by_cases same : member = connection
      · exact .inl ⟨rfl, same⟩
      · exact .inr ⟨same, (Scored.has_add.mp added).resolve_left same⟩
    · refine .inr ⟨?_, there⟩
      rintro rfl
      exact fresh other different there
  refine ⟨?_, ?_⟩
  · -- The new connection is in both sets and alive.
    intro other member present
    obtain ⟨-, rfl⟩ | ⟨different, there⟩ := origin present
    · exact .inl (Scored.has_add.mpr (.inl rfl))
    · obtain among | dead := kept.consistent other member there
      · exact .inl (Scored.has_add.mpr (.inr among))
      · refine .inr ?_
        change Function.update registry.alive connection true member = false
        rwa [Function.update_of_ne different]
  · -- It has one user, since no other user had it.
    intro first second member one two
    obtain ⟨rfl, rfl⟩ | ⟨different, there⟩ := origin one
    · obtain ⟨rfl, -⟩ | ⟨different, -⟩ := origin two
      · rfl
      · exact absurd rfl different
    · obtain ⟨-, rfl⟩ | ⟨-, also⟩ := origin two
      · exact absurd rfl different
      · exact kept.single first second member there also

omit [LinearOrder τ] in
/-- A connection of one user alone is evicted without harm to the sets. -/
theorem consistent_evict (consistent : registry.Consistent)
    (single : ∀ first second member, (registry.users first).Has member →
      (registry.users second).Has member → first = second)
    (present : (registry.users user).Has connection) :
    (registry.evict user connection).Consistent ∧
      ∀ first second member, ((registry.evict user connection).users first).Has member →
        ((registry.evict user connection).users second).Has member → first = second := by
  -- Evicting takes one connection away, from its user and from the set of all.
  have origin {other : Nat} {member : String}
      (there : ((registry.evict user connection).users other).Has member) :
      (registry.users other).Has member ∧ member ≠ connection := by
    obtain ⟨rfl, kept⟩ | ⟨different, kept⟩ := has_update.mp there
    · exact Scored.has_remove.mp kept
    · refine ⟨kept, ?_⟩
      rintro rfl
      exact different (single other user member kept present)
  refine ⟨?_, ?_⟩
  · -- The others are where they were.
    intro other member there
    obtain ⟨before, different⟩ := origin there
    obtain among | dead := consistent other member before
    · exact .inl (Scored.has_remove.mpr ⟨among, different⟩)
    · exact .inr dead
  · intro first second member one two
    exact single first second member (origin one).1 (origin two).1

/-- Nobody is evicted by their own registration. -/
theorem evicted_ne (caps : WsCaps) (registry : WsRegistry τ) (user : Nat) (connection : String) (now : τ) :
    (registry.registerConnection caps user connection now).2.evictedConnectionId ≠ some connection := by
  unfold registerConnection
  dsimp only
  -- Too few, no oldest, or an oldest that the code compares with the caller before it goes.
  split_ifs
  · nofun
  · split
    · split_ifs with other
      · exact fun same => other (Option.some.inj same)
      · nofun
    · nofun
  · nofun

/-- The set of a user who registers is the living ones and the new one. -/
theorem admitted_own :
    ((registry.pruned user).addConnection user connection now).users user =
      (registry.pruneDead (registry.users user)).add now connection := by
  simp [addConnection, pruned]

/-- The sets of the others are as they were. -/
theorem admitted_other {other : Nat} (different : other ≠ user) :
    ((registry.pruned user).addConnection user connection now).users other = registry.users other := by
  simp [addConnection, pruned, different]

omit [LinearOrder τ] in
/-- The set of a user after an eviction. -/
theorem evict_own : (registry.evict user connection).users user = (registry.users user).remove connection := by
  simp [evict]

omit [LinearOrder τ] in
/-- Evicting a connection leaves the sets of other users. -/
theorem evict_other {other : Nat} (different : other ≠ user) :
    (registry.evict user connection).users other = registry.users other := by
  simp [evict, different]

/-- Adding a connection where there is room keeps the whole within the cap. -/
theorem admitted_all_le (room : ¬ caps.maxGlobal ≤ ((registry.pruned user).all.length : Int)) :
    (((registry.pruned user).addConnection user connection now).all.length : Int) ≤ caps.maxGlobal := by
  have one : ((registry.pruned user).addConnection user connection now).all.length ≤ (registry.pruned user).all.length + 1 := by
    unfold addConnection
    rw [Scored.length_add]
    exact Nat.succ_le_succ Scored.length_remove_le
  omega

/-- A registration in order keeps the sets within the caps. -/
theorem Kept.register (kept : Kept caps registry) (order : InOrder caps registry (.register user connection now)) :
    Kept caps (registry.registerConnection caps user connection now).1 ∧
      ((registry.registerConnection caps user connection now).2.accepted →
        Capped caps (registry.registerConnection caps user connection now).1 user) := by
  have pruned := kept.pruned user
  unfold registerConnection
  dsimp only
  -- The registry is full: nothing is added.
  by_cases full : caps.maxGlobal ≤ ((registry.pruned user).all.length : Int)
  · rw [if_pos full]
    exact ⟨pruned, nofun⟩
  rw [if_neg full]
  -- No other user has the connection.
  obtain ⟨fresh, room⟩ := order.resolve_left full
  have fresh' : ∀ other, other ≠ user → ¬ ((registry.pruned user).users other).Has connection := by
    intro other different present
    obtain ⟨same, -⟩ | ⟨-, there⟩ := has_update.mp present
    · exact different same
    · exact fresh other different there
  -- With the connection added the sets still agree.
  have harmless := @Kept.addConnection_consistent τ _ caps (registry.pruned user) user connection now pruned fresh'
  obtain ⟨consistent, single⟩ := harmless
  have all := @admitted_all_le τ _ caps registry user connection now full
  have size : (((registry.pruned user).addConnection user connection now).users user).length =
      (registry.others user connection).length + 1 := by
    rw [admitted_own]
    exact Scored.length_add
  by_cases excess : caps.maxPerUser < ((((registry.pruned user).addConnection user connection now).users user).length : Int)
  · rw [if_pos excess]
    -- One too many: the oldest of the others is first, and leaves.
    obtain ⟨oldest, rest, listed, earlier⟩ := room.resolve_left fun few => by omega
    have head : (((registry.pruned user).addConnection user connection now).users user).head? = some oldest := by
      rw [admitted_own]
      exact Scored.head?_add listed earlier
    have different : oldest.2 ≠ connection := by
      have within : (registry.others user connection).Has oldest.2 :=
        ⟨oldest, by rw [listed]; exact List.mem_cons_self, rfl⟩
      exact (Scored.has_remove.mp within).2
    have present : (((registry.pruned user).addConnection user connection now).users user).Has oldest.2 :=
      ⟨oldest, List.mem_of_mem_head? head, rfl⟩
    obtain ⟨consistent', single'⟩ := consistent_evict consistent single present
    rw [head]
    dsimp only
    rw [if_pos different]
    have least : (registry.others user connection).length = rest.length + 1 := by
      rw [listed]
      rfl
    -- Without the oldest the user is within the cap again.
    have most : ((((registry.pruned user).addConnection user connection now).evict user oldest.2).users user).length ≤
        caps.maxPerUser := by
      have left := Scored.length_remove_lt present
      have few : ((registry.others user connection).length : Int) ≤ max caps.maxPerUser 0 :=
        Int.le_trans (Int.ofNat_le.mpr (Nat.le_trans Scored.length_remove_le Scored.length_keep_le))
          (kept.users user)
      rw [evict_own]
      omega
    have all' : ((((registry.pruned user).addConnection user connection now).evict user oldest.2).all.length : Int) ≤
        caps.maxGlobal := Int.le_trans (Int.ofNat_le.mpr Scored.length_remove_le) all
    -- The caps of this user, of the others, and of all together.
    refine ⟨⟨consistent', single', fun other => ?_, Int.le_trans all' (Int.le_max_left ..)⟩,
      fun _ => ⟨most, all', consistent'⟩⟩
    by_cases same : other = user
    · subst same
      exact Int.le_trans most (Int.le_max_left ..)
    · rw [evict_other same, admitted_other same]
      exact kept.users other
  · -- Within the cap nobody has to leave.
    rw [if_neg excess]
    have most : (((registry.pruned user).addConnection user connection now).users user).length ≤ caps.maxPerUser :=
      Int.not_lt.mp excess
    refine ⟨⟨consistent, single, fun other => ?_, Int.le_trans all (Int.le_max_left ..)⟩,
      fun _ => ⟨most, all, consistent⟩⟩
    by_cases same : other = user
    · subst same
      exact Int.le_trans most (Int.le_max_left ..)
    · rw [admitted_other same]
      exact kept.users other

omit [LinearOrder τ] in
/-- A connection that is touched in order does no harm. -/
theorem Kept.touch (kept : Kept caps registry)
    (order : registry.alive connection = true ∨ registry.all.Has connection ∨
      ∀ user, ¬ (registry.users user).Has connection) :
    Kept caps (registry.touchConnection connection) := by
  refine ⟨?_, kept.single, kept.users, kept.all⟩
  intro user member present
  obtain among | dead := kept.consistent user member present
  · exact .inl among
  by_cases same : member = connection
  · -- The order of the events says why the touched connection may live again.
    subst same
    obtain alive | among | nobody := order
    · exact nomatch dead.symm.trans alive
    · exact .inl among
    · exact absurd present (nobody user)
  · exact .inr ((Function.update_of_ne same ..).trans dead)

omit [LinearOrder τ] in
/-- A connection that goes takes its liveness key along. -/
theorem Kept.unregister (kept : Kept caps registry) (user : Nat) (connection : String) :
    Kept caps (registry.unregisterConnection user connection) := by
  -- Unregistering only takes the connection away.
  have fewer {other : Nat} {member : String}
      (present : ((registry.unregisterConnection user connection).users other).Has member) :
      (registry.users other).Has member := by
    obtain ⟨rfl, left⟩ | ⟨-, there⟩ := has_update.mp present
    · exact (Scored.has_remove.mp left).1
    · exact there
  refine ⟨?_, ?_, ?_, ?_⟩
  · intro other member present
    -- The connection itself is no longer alive; the others are as before.
    by_cases same : member = connection
    · subst same
      exact .inr (Function.update_self ..)
    · obtain among | dead := kept.consistent other member (fewer present)
      · exact .inl (Scored.has_remove.mpr ⟨among, same⟩)
      · exact .inr ((Function.update_of_ne same ..).trans dead)
  · intro first second member one two
    exact kept.single first second member (fewer one) (fewer two)
  · -- Neither of the two sets grows.
    exact length_update_le (Int.le_trans (Int.ofNat_le.mpr Scored.length_remove_le) (kept.users user)) kept.users
  · exact Int.le_trans (Int.ofNat_le.mpr Scored.length_remove_le) kept.all

omit [LinearOrder τ] in
/-- A liveness key that expires does no harm. -/
theorem Kept.expire (kept : Kept caps registry) (connection : String) :
    Kept caps { registry with alive := Function.update registry.alive connection false } := by
  refine ⟨?_, kept.single, kept.users, kept.all⟩
  intro user member present
  obtain among | dead := kept.consistent user member present
  · exact .inl among
  -- An expired key is no longer alive, and every other one is as it was.
  by_cases same : member = connection
  · subst same
    exact .inr (Function.update_self ..)
  · exact .inr ((Function.update_of_ne same ..).trans dead)

omit [LinearOrder τ] in
/-- The registry starts within the caps. -/
theorem Kept.empty (caps : WsCaps) : Kept caps (WsRegistry.empty : WsRegistry τ) where
  consistent := by
    rintro user connection ⟨entry, listed, -⟩
    exact nomatch listed
  single := by
    rintro first second connection ⟨entry, listed, -⟩
    exact nomatch listed
  users _ := Int.le_max_right ..
  all := Int.le_max_right ..

/-- An event in order keeps what every registry in use keeps. -/
theorem Kept.step {next : WsRegistry τ} {event : WsEvent τ} (kept : Kept caps registry)
    (order : InOrder caps registry event) (taken : registry.step caps event = some next) : Kept caps next := by
  -- By event; only a registration and a touch need the order.
  cases event with
  | register user connection now =>
    obtain rfl := Option.some.inj taken
    exact (kept.register order).1
  | touch connection =>
    obtain rfl := Option.some.inj taken
    exact kept.touch order
  | unregister user connection =>
    obtain rfl := Option.some.inj taken
    exact kept.unregister user connection
  | expire connection =>
    obtain rfl := Option.some.inj taken
    exact kept.expire connection

end Parts

end WsRegistry

open WsRegistry

/-- In a run whose events are in order, every accepted registration leaves the user within the caps, and never
evicts the connection that registers. -/
theorem registerConnection_capped (caps : WsCaps) (events : List (WsEvent τ)) (registry : WsRegistry τ)
    (user : Nat) (connection : String) (now : τ)
    (ordered : Guarded (WsRegistry.step caps) (InOrder caps) WsRegistry.empty
      (events ++ [WsEvent.register user connection now]))
    (ran : run (WsRegistry.step caps) WsRegistry.empty events = some registry)
    (accepted : (registry.registerConnection caps user connection now).2.accepted = true) :
    Capped caps (registry.registerConnection caps user connection now).1 user ∧
      (registry.registerConnection caps user connection now).2.evictedConnectionId ≠ some connection := by
  obtain ⟨before, order, -⟩ := ordered.append ran
  have kept : Kept caps registry :=
    run_invariant (fun _ _ _ kept order taken => kept.step order taken) (Kept.empty caps) before ran
  exact ⟨(kept.register order).2 accepted, evicted_ne caps registry user connection now⟩

/-- A second connection is admitted within the caps. -/
theorem registerConnection_capped_second :
    let caps : WsCaps := ⟨1, 5⟩
    let registry : WsRegistry Nat := (WsRegistry.empty.registerConnection caps 1 "a" 5).1
    Capped caps (registry.registerConnection caps 1 "b" 7).1 1 ∧
      (registry.registerConnection caps 1 "b" 7).2.evictedConnectionId ≠ some "b" := by
  refine registerConnection_capped ⟨1, 5⟩ [.register 1 "a" 5] _ 1 "b" 7 ⟨.inr ⟨?_, .inl (by decide)⟩, ?_⟩ rfl rfl
  · -- Nobody is registered yet, so no other user has the connection.
    rintro other - ⟨entry, listed, -⟩
    exact nomatch listed
  · rintro next taken
    obtain rfl := Option.some.inj taken
    refine ⟨.inr ⟨?_, .inr ⟨(5, "a"), [], by decide, by decide⟩⟩, fun _ _ => trivial⟩
    rintro other different ⟨entry, listed, same⟩
    have none : (WsRegistry.empty.registerConnection ⟨1, 5⟩ 1 "a" 5).1.users other = [] :=
      @admitted_other Nat _ WsRegistry.empty 1 "a" 5 other different
    rw [none] at listed
    exact nomatch listed

/-- A connection that registers by a clock that is behind is the oldest, and the cap of the user is passed.
A connection whose key expires, that is pruned for another user and then touched, is alive but not among all
connections. -/
theorem registerConnection_capped_fails :
    ¬ (∀ (caps : WsCaps) (events : List (WsEvent Nat)) (registry : WsRegistry Nat) (user : Nat)
      (connection : String) (now : Nat), run (WsRegistry.step caps) WsRegistry.empty events = some registry →
      (registry.registerConnection caps user connection now).2.accepted = true →
      (((registry.registerConnection caps user connection now).1.users user).length : Int) ≤ caps.maxPerUser) ∧
    ¬ (∀ (caps : WsCaps) (events : List (WsEvent Nat)) (registry : WsRegistry Nat) (user : Nat)
      (connection : String) (now : Nat), run (WsRegistry.step caps) WsRegistry.empty events = some registry →
      (registry.registerConnection caps user connection now).2.accepted = true →
      (registry.registerConnection caps user connection now).1.Consistent) := by
  constructor
  · intro always
    -- The clock runs back: the newest score is the lowest, and its own connection goes.
    exact absurd (always ⟨1, 5⟩ [.register 1 "a" 2] _ 1 "b" 1 rfl rfl) (by decide)
  · intro always
    -- The touch comes after the key expired, so a connection in no set lives again.
    obtain among | dead := always ⟨2, 5⟩ [.register 1 "a" 1, .expire "a", .register 2 "b" 2, .touch "a"] _ 2 "c" 3
      rfl rfl 1 "a" (by decide)
    · exact absurd among (by decide)
    · exact absurd dead (by decide)

end Trusca
