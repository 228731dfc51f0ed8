import Trusca.Proofs.Account.CodeHistory
import Trusca.Proofs.Account.Enrolment
import Trusca.Store.Lawful

/-! A second factor is used once: the steps rise, a code is spent once, and the codes that a
regeneration replaces are refused, unless two calls that issue codes overlap. -/

namespace Trusca

open Store MfaHistory MfaOccurrence

variable {τ : Type*} [DecidableEq τ]

/-- A code that can still be spent was so before. -/
def spentLaw (_ : CodeId) (committed version : Option RecoveryCode) : Prop :=
  ∀ code later, committed = some code → version = some later → later.unused = true →
    code.unused = true

/-- A code that stays as it is keeps the law. -/
theorem spentLaw_refl (id : CodeId) (version : Option RecoveryCode) : spentLaw id version version := by
  intro code later stored same unused
  cases stored.symm.trans same
  exact unused

/-- The code can be spent. -/
def LiveIn (codes : Rows CodeId τ RecoveryCode) (id : CodeId) : Prop :=
  ∃ code, codes.committed id = some code ∧ code.unused = true

/-- The code cannot be spent any more. -/
def Finished (codes : Rows CodeId τ RecoveryCode) (id : CodeId) : Prop :=
  codes.InUse id ∧ ¬LiveIn codes id

section Tables

variable {codes next : Rows CodeId τ RecoveryCode} {tx : τ} {id : CodeId}

omit [DecidableEq τ] in
/-- A code that is finished stays so. -/
theorem Finished.kept (finished : Finished codes id) (use : codes.KeepsUse next)
    (evolves : codes.Evolves spentLaw next) : Finished next id := by
  obtain ⟨used, dead⟩ := finished
  obtain ⟨still, gone⟩ := use id used
  refine ⟨still, ?_⟩
  rintro ⟨later, stored, unused⟩
  cases before : codes.committed id with
  | none => exact nomatch stored.symm.trans (gone before)
  | some code => exact dead ⟨code, before, evolves id code later before stored unused⟩

end Tables

namespace MfaStore

/-- What the calls keep up about the store together. -/
structure Sound (store : MfaStore τ) : Prop where
  lawful : store.codes.Lawful spentLaw
  justified : Justified Fine store.history
  counter : ∀ earlier, reached store.history = some earlier → ∃ user counter,
    store.user.committed = some user ∧ user.mfaLastCounter = some counter ∧ earlier ≤ counter
  accepted : ∀ id, .acceptedCode id ∈ store.history → Finished store.codes id
  issued : ∀ tx regeneration ids, .issued tx regeneration ids ∈ store.history →
    ∀ id ∈ ids, store.codes.InUse id
  live : ∀ id, LiveIn store.codes id → ∀ ids, current store.history = some ids → id ∈ ids

/-- What a step may do to what the other calls rely on. -/
structure Moves (tx : τ) (store next : MfaStore τ) : Prop where
  grows : ∃ more, next.history = store.history ++ more ∧
    (∀ other, .began other ∈ more → other = tx) ∧
    ((∀ other regeneration ids, .issued other regeneration ids ∉ more) →
      ∀ id, LiveIn next.codes id → LiveIn store.codes id)
  user : ∀ other, other ≠ tx → Row.Undisturbed other store.user next.user
  codes : ∀ other, other ≠ tx → Rows.Undisturbed other store.codes next.codes

/-- The version of the user that a call holds has the committed counter. -/
def KeepsCounter (tx : τ) (store : MfaStore τ) : Prop :=
  ∀ version, store.user.HeldBy tx version → ∃ user later, store.user.committed = some user ∧
    version = some later ∧ later.mfaLastCounter = user.mfaLastCounter

/-- The call has put in these codes, and has taken care of every other one that can be spent, unless
codes were issued since it began. -/
structure Replaces (tx : τ) (store : MfaStore τ) (ids : List CodeId) (cared : CodeId → Prop) :
    Prop where
  fresh : ∀ id ∈ ids, (∃ version, store.codes.HeldBy tx id version) ∧
    store.codes.committed id = none
  live : ∀ id code, store.codes.HeldBy tx id (some code) → code.unused = true → id ∈ ids
  covers : overtaken tx store.history = false → ∀ id, LiveIn store.codes id → cared id

/-- The call holds no row. -/
structure Idle (tx : τ) (store : MfaStore τ) : Prop where
  user : ∀ version, ¬store.user.HeldBy tx version
  codes : ∀ id version, ¬store.codes.HeldBy tx id version

/-- What a call relies on that goes over the codes. -/
def Begun (tx : τ) (store : MfaStore τ) : CodeSweep → Prop
  | .issue _ _ => .began tx ∈ store.history ∧ KeepsCounter tx store
  | .clear => True

end MfaStore

namespace MfaCall

/-- Whether the call starts an enrolment. -/
def begins : MfaCall → Bool
  | .beginEnrolment _ => true
  | _ => false

end MfaCall

namespace MfaPhase

open MfaStore

/-- What a call may rely on between its own steps. -/
def Expects (tx : τ) (store : MfaStore τ) : MfaPhase τ → Prop
  | .start call => Idle tx store ∧ .began tx ∉ store.history ∧ call.begins = false
  | .writing loaded assigned sweep => Idle tx store ∧ match sweep with
      | none => False
      | some (.issue _ _) => .began tx ∈ store.history ∧
          assigned.mfaLastCounter = loaded.mfaLastCounter
      | some .clear => True
  | .reading sweep => (∀ id version, ¬store.codes.HeldBy tx id version) ∧ Begun tx store sweep
  | .inserting sweep rest found => Begun tx store sweep ∧ ∃ put,
      sweep.codes.map Prod.fst = put ++ rest.map Prod.fst ∧ Replaces tx store put (· ∈ found)
  | .deleting sweep rest => Begun tx store sweep ∧ Replaces tx store (sweep.codes.map Prod.fst)
      fun id => id ∈ rest ∨ store.codes.HeldBy tx id none
  | .stepping _ | .matching _ _ | .spending _ _ => Idle tx store
  | .flushed (some (.issued acting _ ids)) => acting = tx ∧ .began tx ∈ store.history ∧
      KeepsCounter tx store ∧ Replaces tx store ids fun id => store.codes.HeldBy tx id none
  | .flushed (some .cleared) => Replaces tx store [] fun id => store.codes.HeldBy tx id none
  | .flushed (some (.acceptedStep counter)) => (∀ id version, ¬store.codes.HeldBy tx id version) ∧
      ∃ user later, store.user.committed = some user ∧
        user.mfaLastCounter.all (· < counter) = true ∧ store.user.HeldBy tx (some later) ∧
        later.mfaLastCounter = some counter
  | .flushed (some (.acceptedCode id)) => (∀ version, ¬store.user.HeldBy tx version) ∧
      LiveIn store.codes id ∧ (∃ later, store.codes.HeldBy tx id (some later) ∧
        later.unused = false) ∧
      ∀ other code, store.codes.HeldBy tx other (some code) → code.unused = false
  | .flushed (some (.proved _)) | .flushed (some (.began _)) | .flushed none => False
  | .done _ => True

/-- The side condition of a step: a call publishes its codes only if no others were issued since it
began. -/
def unreissued (event : MfaEvent) (store : MfaStore τ) : MfaPhase τ → Bool
  | .flushed (some (.issued tx _ _)) => event == .abort || !overtaken tx store.history
  | _ => true

section Interference

variable {store next : MfaStore τ} {tx other : τ}

omit [DecidableEq τ] in
/-- What a call holds nothing of, it holds nothing of after a step of another one. -/
theorem idle_kept (idle : Idle tx store) (moves : Moves other store next)
    (different : tx ≠ other) : Idle tx next :=
  ⟨(moves.user tx different).unheld idle.user,
    fun id => (moves.codes tx different id).unheld (idle.codes id)⟩

omit [DecidableEq τ] in
/-- What has begun stays so. -/
theorem mem_history_kept {item : MfaOccurrence τ} (member : item ∈ store.history)
    (moves : Moves other store next) : item ∈ next.history := by
  obtain ⟨more, grown, -⟩ := moves.grows
  rw [grown]
  exact List.mem_append_left _ member

omit [DecidableEq τ] in
/-- A counter a call relies on stays kept while another transaction moves. -/
theorem keepsCounter_kept (keeps : KeepsCounter tx store) (moves : Moves other store next)
    (different : tx ≠ other) : KeepsCounter tx next := by
  intro version held
  have steady := moves.user tx different
  have mine := (steady.heldBy version).mp held
  obtain ⟨user, later, stored, same, counter⟩ := keeps version mine
  exact ⟨user, later, (steady.committed version mine).trans stored, same, counter⟩

omit [DecidableEq τ] in
/-- A sweep that has begun stays begun while another transaction moves. -/
theorem begun_kept {sweep : CodeSweep} (begun : Begun tx store sweep)
    (moves : Moves other store next) (different : tx ≠ other) : Begun tx next sweep := by
  cases sweep with
  | issue regeneration codes =>
    exact ⟨mem_history_kept begun.1 moves, keepsCounter_kept begun.2 moves different⟩
  | clear => trivial

/-- A replacement under way stays so while another transaction moves. -/
theorem replaces_kept {ids : List CodeId} {cared care : CodeId → Prop}
    (replaces : Replaces tx store ids cared) (moves : Moves other store next)
    (different : tx ≠ other) (still : ∀ id, cared id → care id) : Replaces tx next ids care := by
  have steady := moves.codes tx different
  -- What another transaction does leaves the rows of this one, and makes no code live that it has not begun.
  constructor
  case fresh =>
    intro id member
    obtain ⟨⟨version, held⟩, missing⟩ := replaces.fresh id member
    exact ⟨⟨version, ((steady id).heldBy version).mpr held⟩,
      ((steady id).committed version held).trans missing⟩
  case live =>
    intro id code held unused
    exact replaces.live id code (((steady id).heldBy _).mp held) unused
  case covers =>
    -- As the call is not overtaken yet, nobody has issued a set since, and nothing came to life.
    intro serial id live
    obtain ⟨more, grown, begins, shrinks⟩ := moves.grows
    rw [grown] at serial
    obtain ⟨before, quiet⟩ := overtaken_append (fun began => different (begins tx began)) serial
    exact still id (replaces.covers before id (shrinks quiet id live))

/-- What a call relies on survives what the others do. -/
theorem Expects.kept {phase : MfaPhase τ} (expects : phase.Expects tx store)
    (moves : Moves other store next) (different : tx ≠ other) : phase.Expects tx next := by
  have held : ∀ {id version}, store.codes.HeldBy tx id version → next.codes.HeldBy tx id version :=
    fun {id version} mine => ((moves.codes tx different id).heldBy version).mpr mine
  have codes_free : (∀ id version, ¬store.codes.HeldBy tx id version) →
      ∀ id version, ¬next.codes.HeldBy tx id version :=
    fun free id => (moves.codes tx different id).unheld (free id)
  -- Each phase relies on rows of its own and on what the history has recorded, and both are left alone.
  cases phase with
  | start call =>
    obtain ⟨idle, unbegun, allowed⟩ := expects
    refine ⟨idle_kept idle moves different, ?_, allowed⟩
    obtain ⟨more, grown, begins, -⟩ := moves.grows
    rw [grown]
    -- Only its own transaction begins a call.
    exact fun member => (List.mem_append.mp member).elim unbegun fun new => different (begins tx new)
  | writing loaded assigned sweep =>
    refine ⟨idle_kept expects.1 moves different, ?_⟩
    cases sweep with
    | none => exact expects.2.elim
    | some sweep =>
      cases sweep with
      | issue regeneration codes => exact ⟨mem_history_kept expects.2.1 moves, expects.2.2⟩
      | clear => trivial
  | reading sweep => exact ⟨codes_free expects.1, begun_kept expects.2 moves different⟩
  | inserting sweep rest found =>
    obtain ⟨begun, put, split, replaces⟩ := expects
    exact ⟨begun_kept begun moves different, put, split,
      replaces_kept replaces moves different fun _ member => member⟩
  | deleting sweep rest =>
    exact ⟨begun_kept expects.1 moves different,
      replaces_kept expects.2 moves different fun _ cared => cared.imp_right held⟩
  | stepping counter => exact idle_kept expects moves different
  | matching typed now => exact idle_kept expects moves different
  | spending id now => exact idle_kept expects moves different
  -- What is flushed has been written to the rows of the call, which keeps them until its commit.
  | flushed outcome =>
    rcases outcome with _ | occurrence
    · exact expects.elim
    · cases occurrence with
      | proved secret => exact expects.elim
      | began acting => exact expects.elim
      | issued acting regeneration ids =>
        obtain ⟨mine, began, keeps, replaces⟩ := expects
        exact ⟨mine, mem_history_kept began moves, keepsCounter_kept keeps moves different,
          replaces_kept replaces moves different fun _ => held⟩
      | acceptedStep counter =>
        obtain ⟨free, user, later, stored, below, mine, same⟩ := expects
        have steady := moves.user tx different
        exact ⟨codes_free free, user, later, (steady.committed _ mine).trans stored, below,
          (steady.heldBy _).mpr mine, same⟩
      | acceptedCode id =>
        obtain ⟨free, ⟨code, stored, unused⟩, ⟨later, mine, spent⟩, others⟩ := expects
        have steady := moves.codes tx different id
        refine ⟨(moves.user tx different).unheld free,
          ⟨code, (steady.committed _ mine).trans stored, unused⟩, ⟨later, held mine, spent⟩, ?_⟩
        intro other code also
        exact others other code (((moves.codes tx different other).heldBy _).mp also)
      | cleared => exact replaces_kept expects moves different fun _ => held
  | done answer => trivial

end Interference

section Acting

variable {store next : MfaStore τ} {tx : τ} {phase after : MfaPhase τ}

omit [DecidableEq τ] in
/-- Being live only reads the committed rows. -/
theorem liveIn_congr {codes later : Rows CodeId τ RecoveryCode}
    (same : ∀ id, later.committed id = codes.committed id) {id : CodeId} :
    LiveIn later id ↔ LiveIn codes id := by
  unfold LiveIn
  rw [same]

/-- A statement publishes nothing. -/
theorem sound_stated {user : Row τ MfaUser} {codes : Rows CodeId τ RecoveryCode}
    (sound : store.Sound) (user_same : user.committed = store.user.committed)
    (advances : store.codes.Advances spentLaw tx codes)
    (codes_same : ∀ id, codes.committed id = store.codes.committed id) :
    Sound { store with user, codes } where
  lawful := advances.lawful
  justified := sound.justified
  counter earlier member := by
    rw [user_same]
    exact sound.counter earlier member
  accepted id member := (sound.accepted id member).kept advances.use advances.evolves
  issued acting regeneration ids member id among :=
    (advances.use id (sound.issued acting regeneration ids member id among)).1
  live id live := sound.live id ((liveIn_congr codes_same).mp live)

omit [DecidableEq τ] in
/-- A move that states the rows it touches is a move, when it leaves the rows of others alone. -/
theorem moves_stated {user : Row τ MfaUser} {codes : Rows CodeId τ RecoveryCode}
    (user_kept : ∀ other, other ≠ tx → Row.Undisturbed other store.user user)
    (codes_kept : ∀ other, other ≠ tx → Rows.Undisturbed other store.codes codes)
    (codes_same : ∀ id, codes.committed id = store.codes.committed id) :
    Moves tx store { store with user, codes } :=
  ⟨⟨[], (List.append_nil _).symm, nofun, fun _ _ => (liveIn_congr codes_same).mp⟩, user_kept,
    codes_kept⟩

/-- A step of a call keeps the store sound and what the others rely on. -/
structure Proceeds (tx : τ) (store next : MfaStore τ) (after : MfaPhase τ) : Prop where
  sound : next.Sound
  moves : Moves tx store next
  expects : after.Expects tx next

/-- A step that only reads. -/
theorem Proceeds.idle (sound : store.Sound) (expects : after.Expects tx store) :
    Proceeds tx store store after where
  sound := sound
  moves := moves_stated (fun other _ => .refl other _) (fun other _ => .refl other _) fun _ => rfl
  expects := expects

/-- A statement on the user. -/
theorem Proceeds.of_user {user : Row τ MfaUser} (sound : store.Sound)
    (same : user.committed = store.user.committed)
    (kept : ∀ other, other ≠ tx → Row.Undisturbed other store.user user)
    (expects : after.Expects tx { store with user }) :
    Proceeds tx store { store with user } after where
  sound := by
    have idle : store.codes.Advances spentLaw tx store.codes := .idle spentLaw_refl sound.lawful
    exact sound_stated sound same idle fun _ => rfl
  moves := moves_stated kept (fun other _ => .refl other _) fun _ => rfl
  expects := expects

/-- A statement on the codes. -/
theorem Proceeds.of_codes {codes : Rows CodeId τ RecoveryCode} (sound : store.Sound)
    (advances : store.codes.Advances spentLaw tx codes)
    (same : ∀ id, codes.committed id = store.codes.committed id)
    (expects : after.Expects tx { store with codes }) :
    Proceeds tx store { store with codes } after where
  sound := sound_stated sound rfl advances same
  moves := moves_stated (fun other _ => .refl other _) advances.others same
  expects := expects

/-- A call that ends without a trace. -/
theorem Proceeds.rolled_back (sound : store.Sound) {answer : Except MfaError Unit} :
    Proceeds tx store (store.rollback tx) (.done answer) where
  sound := sound_stated sound Row.rollback_committed
    (.of_rollback spentLaw_refl sound.lawful) fun _ => congrFun Rows.rollback_committed _
  moves := moves_stated (fun _ different => Row.rollback_undisturbed different)
    (fun _ different => Rows.rollback_undisturbed different)
    fun _ => congrFun Rows.rollback_committed _
  expects := trivial

/-- The beginning of a call is noted, or a code that was proved. -/
theorem sound_note {item : MfaOccurrence τ} (sound : store.Sound)
    (fine : Fine store.history item)
    (kind : (∃ secret, item = .proved secret) ∨ ∃ acting, item = .began acting) :
    (store.note [item]).Sound := by
  -- Neither of the two occurrences touches the counter or the current set.
  have silent : reachedStep (reached store.history) item = reached store.history ∧
      currentStep (current store.history) item = current store.history := by
    rcases kind with ⟨secret, rfl⟩ | ⟨acting, rfl⟩ <;> exact ⟨rfl, rfl⟩
  constructor
  case lawful => exact sound.lawful
  case justified => exact sound.justified.concat fine
  -- The counter and the set of codes are read off the history as before.
  case counter =>
    intro earlier last
    unfold MfaStore.note at last
    rw [reached_concat, silent.1] at last
    exact sound.counter earlier last
  -- What was accepted or issued is in the history that was there already.
  case accepted =>
    intro id member
    refine sound.accepted id ((List.mem_append.mp member).resolve_right fun new => ?_)
    rcases kind with ⟨secret, rfl⟩ | ⟨acting, rfl⟩ <;> cases List.mem_singleton.mp new
  case issued =>
    intro acting regeneration ids member
    refine sound.issued acting regeneration ids
      ((List.mem_append.mp member).resolve_right fun new => ?_)
    rcases kind with ⟨secret, rfl⟩ | ⟨acting, rfl⟩ <;> cases List.mem_singleton.mp new
  -- The current set is unmoved, and so are its codes.
  case live =>
    intro id live ids last
    unfold MfaStore.note at last
    rw [current_concat, silent.2] at last
    exact sound.live id live ids last

omit [DecidableEq τ] in
/-- Noting occurrences is a move, when no other transaction is noted as begun. -/
theorem moves_note {items : List (MfaOccurrence τ)}
    (own : ∀ other, .began other ∈ items → other = tx) : Moves tx store (store.note items) :=
  ⟨⟨items, rfl, own, fun _ _ live => live⟩, fun other _ => .refl other _, fun other _ => .refl other _⟩

/-- What can be spent after a commit could be spent before it, or the call puts it in. -/
theorem liveIn_commit {codes : Rows CodeId τ RecoveryCode} {id : CodeId}
    (live : LiveIn (codes.commit tx) id) :
    (LiveIn codes id ∧ ∀ version, ¬codes.HeldBy tx id version) ∨
      ∃ code, codes.HeldBy tx id (some code) ∧ code.unused = true := by
  obtain ⟨code, stored, unused⟩ := live
  rcases Row.heldBy_or_unheld (codes.row id) tx with ⟨version, held⟩ | unheld
  · rw [Rows.commit_committed_of_heldBy held] at stored
    exact .inr ⟨code, stored ▸ held, unused⟩
  · rw [Rows.commit_committed_of_unheld unheld] at stored
    exact .inl ⟨⟨code, stored, unused⟩, unheld⟩

/-- The keys that a call holds are in use once it has committed. -/
theorem inUse_commit {codes : Rows CodeId τ RecoveryCode} {id : CodeId}
    {version : Option RecoveryCode} (held : codes.HeldBy tx id version) :
    (codes.commit tx).InUse id := by
  -- The held version is the committed one now, and the row is free.
  have freed : (codes.commit tx).row id = .free version := by
    rw [Rows.commit_row]
    exact held.commit_eq
  -- A row that was held is listed, and it is not blank.
  refine ⟨?_, fun missing => ?_⟩
  · by_contra unlisted
    have blank := codes.blank id unlisted
    unfold Rows.HeldBy at held
    rw [blank] at held
    cases held
  · unfold Rows.committed at missing
    rw [freed] at missing ⊢
    exact congrArg Row.free missing

/-- A commit keeps the store sound if what it adds to the history is fine and stands in the tables. -/
theorem sound_commit {item : MfaOccurrence τ} (sound : store.Sound)
    (fine : Fine store.history item)
    (counter : ∀ earlier, reachedStep (reached store.history) item = some earlier → ∃ user counter,
      (store.user.commit tx).committed = some user ∧ user.mfaLastCounter = some counter ∧
        earlier ≤ counter)
    (accepted : ∀ id, item = .acceptedCode id → Finished (store.codes.commit tx) id)
    (issued : ∀ acting regeneration ids, item = .issued acting regeneration ids →
      ∀ id ∈ ids, (store.codes.commit tx).InUse id)
    (live : ∀ id, LiveIn (store.codes.commit tx) id →
      ∀ ids, currentStep (current store.history) item = some ids → id ∈ ids) :
    (store.commit tx (some item)).Sound := by
  have advances : store.codes.Advances spentLaw tx (store.codes.commit tx) :=
    .of_commit spentLaw_refl sound.lawful
  constructor
  -- The first two hold of any commit, and the others are what is asked of the occurrence.
  case lawful => exact advances.lawful
  case justified => exact sound.justified.concat fine
  -- What the occurrence means for the counter, the codes and the current set.
  case counter =>
    intro earlier last
    unfold MfaStore.commit at last
    rw [Option.toList_some, reached_concat] at last
    exact counter earlier last
  -- Accepted before, and kept by the commit, or the occurrence is it.
  case accepted =>
    intro id member
    rcases List.mem_append.mp member with before | new
    · exact (sound.accepted id before).kept advances.use advances.evolves
    · exact accepted id (List.mem_singleton.mp new).symm
  -- The same for what was issued.
  case issued =>
    intro acting regeneration ids member id among
    rcases List.mem_append.mp member with before | new
    · exact (advances.use id (sound.issued acting regeneration ids before id among)).1
    · exact issued acting regeneration ids (List.mem_singleton.mp new).symm id among
  case live =>
    intro id living ids last
    unfold MfaStore.commit at last
    rw [Option.toList_some, current_concat] at last
    exact live id living ids last

/-- A commit is a move, when it makes no code live unless it issues one. -/
theorem moves_commit {item : MfaOccurrence τ} (unbegun : ∀ other, item ≠ .began other)
    (shrinks : (∀ other regeneration ids, item ≠ .issued other regeneration ids) →
      ∀ id, LiveIn (store.codes.commit tx) id → LiveIn store.codes id) :
    Moves tx store (store.commit tx (some item)) where
  grows := by
    refine ⟨[item], rfl, fun other member => ?_, fun quiet => shrinks fun other again ids same => ?_⟩
    · exact absurd (List.mem_singleton.mp member).symm (unbegun other)
    · exact quiet other again ids (same ▸ List.mem_cons_self)
  user := fun _ different => Row.commit_undisturbed different
  codes := fun _ different => Rows.commit_undisturbed different

/-- A commit of a version that has the committed counter. -/
theorem counter_commit (sound : store.Sound) (keeps : KeepsCounter tx store) (earlier : Nat)
    (last : reached store.history = some earlier) : ∃ user counter,
      (store.user.commit tx).committed = some user ∧ user.mfaLastCounter = some counter ∧
        earlier ≤ counter := by
  obtain ⟨user, counter, stored, same, above⟩ := sound.counter earlier last
  rcases Row.heldBy_or_unheld store.user tx with ⟨version, held⟩ | unheld
  · obtain ⟨before, later, also, rfl, alike⟩ := keeps version held
    cases stored.symm.trans also
    exact ⟨later, counter, by rw [held.commit_eq]; rfl, alike.trans same, above⟩
  · exact ⟨user, counter, by rw [Row.commit_of_unheld unheld]; exact stored, same, above⟩

/-- A call publishes the codes it issues, and the others that could be spent are gone. -/
theorem Proceeds.issue {regeneration : Bool} {ids : List CodeId} (sound : store.Sound)
    (expects : (MfaPhase.flushed (some (.issued tx regeneration ids))).Expects tx store)
    (serial : overtaken tx store.history = false) {answer : Except MfaError Unit} :
    Proceeds tx store (store.commit tx (some (.issued tx regeneration ids))) (.done answer) := by
  obtain ⟨-, began, keeps, replaces⟩ := expects
  refine ⟨sound_commit sound ⟨began, serial, ?_⟩ (counter_commit sound keeps) nofun ?_ ?_,
    moves_commit nofun fun quiet => absurd rfl (quiet tx regeneration ids), trivial⟩
  · -- A code that was issued before is in use, and the new ones were not.
    intro other again earlier before id member also
    obtain ⟨⟨version, held⟩, missing⟩ := replaces.fresh id member
    have free := (sound.issued other again earlier before id also).2 missing
    unfold Rows.HeldBy at held
    rw [free] at held
    cases held
  · intro acting again published same id member
    cases same
    obtain ⟨⟨version, held⟩, -⟩ := replaces.fresh id member
    exact inUse_commit held
  · intro id live published last
    cases Option.some.inj last
    rcases liveIn_commit live with ⟨before, unheld⟩ | ⟨code, held, unused⟩
    · exact absurd (replaces.covers serial id before) (unheld none)
    · exact replaces.live id code held unused

/-- A call clears the factor; nothing that it leaves can be spent that could not be before. -/
theorem Proceeds.cleared (sound : store.Sound)
    (expects : (MfaPhase.flushed (some .cleared)).Expects tx store) {answer : Except MfaError Unit} :
    Proceeds tx store (store.commit tx (some .cleared)) (.done answer) := by
  -- After clearing no held code is live, so a live one was live before.
  have shrinks : ∀ id, LiveIn (store.codes.commit tx) id → LiveIn store.codes id := by
    intro id live
    rcases liveIn_commit live with ⟨before, -⟩ | ⟨code, held, unused⟩
    · exact before
    · exact nomatch expects.live id code held unused
  refine ⟨sound_commit sound trivial (fun _ none_left => nomatch none_left) nofun nofun ?_,
    moves_commit nofun fun _ => shrinks, trivial⟩
  exact fun id live => sound.live id (shrinks id live)

/-- A step is accepted that lies above the one reached. -/
theorem Proceeds.acceptedStep {counter : Nat} (sound : store.Sound)
    (expects : (MfaPhase.flushed (some (.acceptedStep counter))).Expects tx store)
    {answer : Except MfaError Unit} :
    Proceeds tx store (store.commit tx (some (.acceptedStep counter))) (.done answer) := by
  obtain ⟨free, user, later, stored, below, held, same⟩ := expects
  have shrinks : ∀ id, LiveIn (store.codes.commit tx) id → LiveIn store.codes id := by
    intro id live
    rcases liveIn_commit live with ⟨before, -⟩ | ⟨code, mine, -⟩
    · exact before
    · exact absurd mine (free id _)
  refine ⟨sound_commit sound ?_ ?_ nofun nofun ?_, moves_commit nofun fun _ => shrinks, trivial⟩
  · -- The step reached lies below the stored one, and that one below the new one.
    intro earlier last
    obtain ⟨current, stored_step, also, named, above⟩ := sound.counter earlier last
    cases stored.symm.trans also
    rw [named] at below
    have less : stored_step < counter := by simpa using below
    omega
  · intro earlier last
    cases Option.some.inj last
    exact ⟨later, counter, by rw [held.commit_eq]; rfl, same, Nat.le_refl _⟩
  · exact fun id live => sound.live id (shrinks id live)

/-- A code is accepted that could be spent, and cannot be spent any more. -/
theorem Proceeds.acceptedCode {id : CodeId} (sound : store.Sound)
    (expects : (MfaPhase.flushed (some (.acceptedCode id))).Expects tx store)
    {answer : Except MfaError Unit} :
    Proceeds tx store (store.commit tx (some (.acceptedCode id))) (.done answer) := by
  obtain ⟨free, live, ⟨later, held, spent⟩, others⟩ := expects
  -- Nothing comes to life by this commit, as the one code that it writes is spent.
  have shrinks : ∀ id, LiveIn (store.codes.commit tx) id → LiveIn store.codes id := by
    intro other live
    rcases liveIn_commit live with ⟨before, -⟩ | ⟨code, mine, unused⟩
    · exact before
    · exact absurd ((others other code mine).symm.trans unused) (by decide)
  refine ⟨sound_commit sound ⟨?_, sound.live id live⟩ ?_ ?_ nofun ?_,
    moves_commit nofun fun _ => shrinks, trivial⟩
  · exact fun before => (sound.accepted id before).2 live
  · exact counter_commit sound fun version mine => absurd mine (free version)
  · -- The spent code is finished: it is in use, and not unused any more.
    intro other same
    cases same
    refine ⟨inUse_commit held, ?_⟩
    rintro ⟨code, stored, unused⟩
    rw [Rows.commit_committed_of_heldBy held] at stored
    cases Option.some.inj stored
    exact absurd (spent.symm.trans unused) (by decide)
  · exact fun other living => sound.live other (shrinks other living)

/-- What a call does once it has read the user. -/
theorem Proceeds.load {codeAt : String → Nat → String} {user : MfaUser} {call : MfaCall}
    (sound : store.Sound) (expects : (MfaPhase.start call).Expects tx store) :
    Proceeds tx store (MfaPhase.load codeAt tx store user call).1
      (MfaPhase.load codeAt tx store user call).2 := by
  obtain ⟨idle, unbegun, allowed⟩ := expects
  -- A call that is refused leaves everything as it is; the others note what they have found.
  cases call with
  | beginEnrolment secret => cases allowed
  | completeEnrolment code moment codes =>
    simp only [MfaPhase.load]
    split
    · exact .idle sound trivial
    · split
      · exact .idle sound trivial
      · rename_i secret stored
        split
        · exact .idle sound trivial
        · -- The secret was proved by the code, and the call begins to replace the recovery codes.
          have proved : (store.note [.proved secret]).Sound :=
            sound_note sound trivial (.inl ⟨secret, rfl⟩)
          have began : ((store.note [.proved secret]).note [.began tx]).Sound := by
            refine sound_note proved ?_ (.inr ⟨tx, rfl⟩)
            change .began tx ∉ store.history ++ [.proved secret]
            simpa using unbegun
          have same : (store.note [.proved secret]).note [.began tx] =
              store.note [.proved secret, .began tx] := by simp [MfaStore.note]
          refine ⟨same ▸ began, moves_note (by simp), ⟨⟨idle.user, idle.codes⟩, ?_, rfl⟩⟩
          exact List.mem_append_right _ (by simp)
  | verifySecondFactor code moment =>
    simp only [MfaPhase.load]
    split
    · exact .idle sound trivial
    · split
      · exact .idle sound trivial
      · split <;> exact .idle sound idle
  | regenerateRecoveryCodes codes =>
    simp only [MfaPhase.load]
    split
    · exact .idle sound trivial
    · -- The regeneration begins, and has not held the factor yet.
      refine ⟨sound_note sound unbegun (.inr ⟨tx, rfl⟩), moves_note (by simp), idle.codes, ?_⟩
      exact ⟨List.mem_append_right _ List.mem_cons_self,
        fun version held => absurd held (idle.user version)⟩
  | clearForUser => exact .idle sound ⟨idle, trivial⟩

/-- The codes that can be spent are read. -/
theorem replaces_read (free : ∀ id version, ¬store.codes.HeldBy tx id version) :
    Replaces tx store [] (· ∈ store.codes.select tx RecoveryCode.unused) where
  fresh := nofun
  live id code held := absurd held (free id _)
  covers _ id live := by
    obtain ⟨code, stored, unused⟩ := live
    refine Rows.mem_select.mpr ⟨code, ?_, unused⟩
    exact (Row.view_eq_committed (free id)).trans stored

/-- One more code is put in. -/
theorem replaces_insert {codes : Rows CodeId τ RecoveryCode} {put found : List CodeId}
    {id : CodeId} {text : String} (replaces : Replaces tx store put (· ∈ found))
    (inserted : store.codes.insert tx id ⟨text, none⟩ = some codes) :
    Replaces tx { store with codes } (put ++ [id]) (· ∈ found) := by
  obtain ⟨fresh, row, taken, rfl⟩ := Rows.insert_cases inserted
  -- The row of the new code was not there before, and is held from now on.
  obtain ⟨missing, -, after, mine⟩ := Row.insert_cases taken
  have same := Rows.insert_committed inserted
  -- No other row is touched.
  have elsewhere : ∀ other, other ≠ id → (store.codes.set id row).row other = store.codes.row other :=
    fun other different => by rw [Rows.set_row, if_neg different]
  have here : (store.codes.set id row).HeldBy tx id (some ⟨text, none⟩) := by
    unfold Rows.HeldBy
    rw [Rows.set_row, if_pos rfl]
    exact mine
  constructor
  case fresh =>
    intro other member
    rcases List.mem_append.mp member with before | new
    · obtain ⟨⟨version, held⟩, gone⟩ := replaces.fresh other before
      refine ⟨?_, (same other).trans gone⟩
      by_cases different : other = id
      · subst different
        exact ⟨_, here⟩
      · exact ⟨version, by unfold Rows.HeldBy; rw [elsewhere other different]; exact held⟩
    · cases List.mem_singleton.mp new
      exact ⟨⟨_, here⟩, (same id).trans missing⟩
  case live =>
    intro other code held unused
    by_cases different : other = id
    · exact List.mem_append_right _ (List.mem_singleton.mpr different)
    · unfold Rows.HeldBy at held
      rw [elsewhere other different] at held
      exact List.mem_append_left _ (replaces.live other code held unused)
  case covers => exact fun serial other live => replaces.covers serial other ((liveIn_congr same).mp live)

/-- One of the codes that were read is deleted. -/
theorem replaces_delete {codes : Rows CodeId τ RecoveryCode} {ids rest : List CodeId} {id : CodeId}
    {matched : Bool}
    (replaces : Replaces tx store ids fun other =>
      other ∈ id :: rest ∨ store.codes.HeldBy tx other none)
    (changed : store.codes.change tx id (fun _ => true) (fun _ => none) = some (codes, matched)) :
    Replaces tx { store with codes } ids fun other =>
      other ∈ rest ∨ codes.HeldBy tx other none := by
  have same := Rows.change_committed changed
  constructor
  case fresh =>
    intro other member
    obtain ⟨⟨version, held⟩, gone⟩ := replaces.fresh other member
    refine ⟨?_, (same other).trans gone⟩
    -- The deleted code itself: refused and left as it was, or held by this transaction now.
    by_cases here : other = id
    · subst here
      rcases Row.change_cases (Rows.change_here changed) with ⟨_, alike, _⟩ | ⟨_, _, _, _, _, _, mine⟩
      · exact ⟨version, by unfold Rows.HeldBy; rw [alike]; exact held⟩
      · exact ⟨_, mine⟩
    · exact ⟨version, Rows.change_keeps changed here held⟩
  -- What is held live was so before: a deletion holds nothing live.
  case live =>
    intro other code held unused
    rcases Rows.change_heldBy changed held with before | ⟨_, _, _, _, gone⟩
    · exact replaces.live other code before unused
    · cases gone
  -- A live code was covered before, as waiting or as held, and is so afterwards.
  case covers =>
    intro serial other live
    have before := (liveIn_congr same).mp live
    rcases replaces.covers serial other before with member | held
    · rcases List.mem_cons.mp member with rfl | later
      · -- The code is there to be deleted, unless it is one of the new ones.
        rcases Row.change_cases (Rows.change_here changed) with ⟨_, alike, refused⟩ |
          ⟨_, _, _, _, _, _, mine⟩
        · obtain ⟨code, stored, unused⟩ := before
          rcases Row.heldBy_or_unheld (store.codes.row other) tx with ⟨version, held⟩ | unheld
          · cases version with
            | none => exact .inr (by unfold Rows.HeldBy; rw [alike]; exact held)
            | some version => exact absurd (refused version held.view_eq) (by decide)
          · exact absurd (refused code ((Row.view_eq_committed unheld).trans stored)) (by decide)
        · exact .inr mine
      · exact .inl later
    · -- A code that was held stays held, whether it is the deleted one or another.
      by_cases here : other = id
      · subst here
        rcases Row.change_cases (Rows.change_here changed) with ⟨_, alike, _⟩ |
          ⟨_, _, seen, _, _, _, _⟩
        · exact .inr (by unfold Rows.HeldBy; rw [alike]; exact held)
        · cases held.view_eq.symm.trans seen
      · exact .inr (Rows.change_keeps changed here held)

/-- What a call that enables the factor makes of the user keeps the counter. -/
theorem keepsCounter_change {loaded assigned : MfaUser} {user : Row τ MfaUser}
    (idle : ∀ version, ¬store.user.HeldBy tx version)
    (same : assigned.mfaLastCounter = loaded.mfaLastCounter)
    (changed : store.user.change tx (fun _ => true)
      (fun current => some (loaded.flush assigned current)) = some (user, true)) :
    KeepsCounter tx { store with user } := by
  intro version held
  rcases Row.change_cases changed with ⟨missed, _⟩ | ⟨current, _, seen, _, _, stays, mine⟩
  · cases missed
  · obtain ⟨_, rfl⟩ := held.unique mine
    rw [Row.view_eq_committed idle] at seen
    refine ⟨current, _, stays.trans seen, rfl, ?_⟩
    simp [MfaUser.flush, flushColumn, same]

/-- Every step of a call that issues no codes past others. -/
theorem act_proceeds {codeAt : String → Nat → String} {event : MfaEvent} (sound : store.Sound)
    (expects : phase.Expects tx store) (met : phase.unreissued event store = true)
    (acted : act codeAt tx event store phase = some (next, after)) :
    Proceeds tx store next after := by
  -- An abort gives everything up; otherwise one case for each step of a call.
  cases event with
  | abort =>
    cases phase <;> simp only [act, Option.some.injEq, Prod.mk.injEq, reduceCtorEq] at acted <;>
      obtain ⟨rfl, rfl⟩ := acted <;> exact .rolled_back sound
  | advance =>
    cases phase with
    | start call =>
      simp only [act, advance] at acted
      split at acted
      · cases acted
        exact .idle sound trivial
      · -- The user is there, and the call goes on with what was read.
        rename_i user seen
        have proceeds : Proceeds tx store (load codeAt tx store user call).1
            (load codeAt tx store user call).2 := .load sound expects
        rw [Option.some.inj acted] at proceeds
        exact proceeds
    | writing loaded assigned sweep =>
      obtain ⟨idle, kind⟩ := expects
      simp only [act, advance, Option.map_eq_some_iff, Prod.exists] at acted
      obtain ⟨user, matched, changed, result⟩ := acted
      -- The row of the user is written when it still is the one that was read.
      split at result
      · rename_i hit
        subst hit
        cases sweep with
        | none => exact kind.elim
        | some sweep =>
          cases result
          refine .of_user sound (Row.change_committed changed)
            (fun _ different => Row.change_undisturbed different changed) ⟨idle.codes, ?_⟩
          cases sweep with
          | issue regeneration codes => exact ⟨kind.1, keepsCounter_change idle.user kind.2 changed⟩
          | clear => trivial
      · cases result
        exact .rolled_back sound
    | reading sweep =>
      cases acted
      -- The codes that stand are read before any is put in.
      exact .idle sound ⟨expects.2, [], rfl, replaces_read expects.1⟩
    | inserting sweep rest found =>
      obtain ⟨begun, put, split, replaces⟩ := expects
      cases rest with
      | nil =>
        cases acted
        rw [List.map_nil, List.append_nil] at split
        -- Every new code is in, and the old ones are left to be deleted.
        refine .idle sound ⟨begun, split ▸ replaces.fresh, split ▸ replaces.live, ?_⟩
        exact fun serial id live => .inl (replaces.covers serial id live)
      | cons first rest =>
        simp only [act, advance, Option.map_eq_some_iff] at acted
        obtain ⟨codes, inserted, result⟩ := acted
        cases result
        -- One more new code is put in.
        refine .of_codes sound (.of_insert spentLaw_refl sound.lawful inserted ?_)
          (Rows.insert_committed inserted) ⟨?_, put ++ [first.1], by simp [split], ?_⟩
        · intro code later stored
          cases stored
        · cases sweep <;> exact begun
        · exact replaces_insert replaces inserted
    | deleting sweep rest =>
      obtain ⟨begun, replaces⟩ := expects
      cases rest with
      | nil =>
        cases acted
        refine .idle sound ?_
        -- What was live and is not new has been deleted by now.
        have cared : Replaces tx store (sweep.codes.map Prod.fst)
            fun id => store.codes.HeldBy tx id none :=
          ⟨replaces.fresh, replaces.live, fun serial id live =>
            (replaces.covers serial id live).resolve_left List.not_mem_nil⟩
        cases sweep with
        | issue regeneration codes => exact ⟨rfl, begun.1, begun.2, cared⟩
        | clear => exact cared
      | cons first rest =>
        simp only [act, advance, Option.map_eq_some_iff, Prod.exists] at acted
        obtain ⟨codes, matched, changed, result⟩ := acted
        cases result
        -- One more of the old codes is deleted.
        refine .of_codes sound (.of_change spentLaw_refl sound.lawful changed ?_)
          (Rows.change_committed changed) ⟨?_, replaces_delete replaces changed⟩
        · intro version seen allowed code later stored deleted
          cases deleted
        cases sweep <;> exact begun
    | stepping counter =>
      simp only [act, advance, Option.map_eq_some_iff, Prod.exists] at acted
      obtain ⟨user, matched, changed, result⟩ := acted
      split at result
      · rename_i hit
        subst hit
        cases result
        refine .of_user sound (Row.change_committed changed)
          (fun _ different => Row.change_undisturbed different changed) ⟨expects.codes, ?_⟩
        -- The step that is written is above the counter that is committed.
        rcases Row.change_cases changed with ⟨missed, _⟩ | ⟨current, _, seen, below, _, stays, mine⟩
        · cases missed
        · rw [Row.view_eq_committed expects.user] at seen
          exact ⟨current, _, stays.trans seen, below, mine, rfl⟩
      · cases result
        exact .rolled_back sound
    | matching typed now =>
      simp only [act, advance] at acted
      -- Only a code that matches is gone on with.
      split at acted
      · cases acted
        exact .rolled_back sound
      · split at acted <;> cases acted
        · exact .rolled_back sound
        · exact .idle sound expects
    | spending id now =>
      simp only [act, advance, Option.map_eq_some_iff, Prod.exists] at acted
      obtain ⟨codes, matched, changed, result⟩ := acted
      split at result
      · rename_i hit
        subst hit
        cases result
        obtain ⟨found, seen, unused, mine⟩ := Rows.change_matched changed
        -- The code that is spent was unused, and is committed as it was seen.
        have stored : store.codes.committed id = some found :=
          (Row.view_eq_committed (expects.codes id)).symm.trans seen
        have same := Rows.change_committed changed
        refine .of_codes sound (.of_change spentLaw_refl sound.lawful changed ?_) same
          ⟨expects.user, ⟨found, (same id).trans stored, unused⟩, ⟨_, mine, rfl⟩, ?_⟩
        · intro version _ _ code later _ spent again
          cases Option.some.inj spent
          cases again
        · intro other code held
          rcases Rows.change_heldBy changed held with before | ⟨_, _, _, _, spent⟩
          · exact absurd before (expects.codes other _)
          · -- The transaction holds no other code.
            cases Option.some.inj spent
            rfl
      · cases result
        exact .rolled_back sound
    | flushed outcome =>
      cases acted
      rcases outcome with _ | occurrence
      · exact expects.elim
      · cases occurrence with
        | proved secret => exact expects.elim
        | began acting => exact expects.elim
        | issued acting regeneration ids =>
          obtain rfl : acting = tx := expects.1
          -- The new set is published, as no other was issued since the call began.
          exact .issue sound expects (by simpa [unreissued] using met)
        | acceptedStep counter => exact .acceptedStep sound expects
        | acceptedCode id => exact .acceptedCode sound expects
        | cleared => exact .cleared sound expects
    | done answer => cases acted

end Acting

end MfaPhase

/-- A call publishes its codes only if no others were issued since it began. -/
abbrev Unreissued : MfaSystem τ → τ × MfaEvent → Prop :=
  Sessions.Allows fun store event phase => MfaPhase.unreissued event store phase = true

/-- Nobody holds a row, nothing has happened, and no call starts an enrolment. -/
structure MfaSystem.Enrolled (system : MfaSystem τ) : Prop where
  user : system.store.user.held = none
  codes : ∀ id, (system.store.codes.row id).held = none
  history : system.store.history = []
  unbegun : ∀ tx, (∃ call, system.phase tx = .start call ∧ call.begins = false) ∨
    ∃ answer, system.phase tx = .done answer

section Runs

variable {codeAt : String → Nat → String} {start last : MfaSystem τ}

/-- An enrolled system is sound, and every session is where it expects to be. -/
theorem MfaSystem.Enrolled.annotated (enrolled : start.Enrolled) :
    Sessions.Annotated MfaStore.Sound (fun tx store phase => phase.Expects tx store) start := by
  constructor
  · -- An empty history leaves nothing to be true to.
    constructor
    case lawful => exact fun id => .of_unlocked (enrolled.codes id)
    case justified => exact enrolled.history ▸ .nil
    case counter => exact fun earlier last => nomatch enrolled.history ▸ last
    case accepted => exact fun id member => nomatch enrolled.history ▸ member
    case issued => exact fun tx regeneration ids member => nomatch enrolled.history ▸ member
    case live => exact fun id _ ids last => nomatch enrolled.history ▸ last
  · intro tx
    -- Every session has yet to begin, or is over.
    rcases enrolled.unbegun tx with ⟨call, begun, allowed⟩ | ⟨answer, begun⟩
    · rw [begun]
      refine ⟨⟨Row.not_heldBy_of_unlocked enrolled.user, fun id =>
        Row.not_heldBy_of_unlocked (enrolled.codes id)⟩, ?_, allowed⟩
      rw [enrolled.history]
      exact List.not_mem_nil
    · rw [begun]
      trivial

/-- In every run in which no call publishes its codes past others that were issued since it began,
the accepted steps rise between clears, every code is accepted at most once, and a regeneration puts
an end to the codes of the calls before it. -/
theorem second_factor_single_use {events : List (τ × MfaEvent)} (enrolled : start.Enrolled)
    (met : Guarded (mfaStep codeAt) Unreissued start events)
    (ran : run (mfaStep codeAt) start events = some last) :
    StepsRise last.store.history ∧ CodesOnce last.store.history ∧
      CodesReplaced last.store.history := by
  -- What each event keeps holds at the end, and the history is justified then.
  have kept : Sessions.Annotated MfaStore.Sound (fun tx store phase => phase.Expects tx store)
      last := by
    refine run_invariant (fun world event next holds allowed taken => ?_) enrolled.annotated met ran
    obtain ⟨tx, event⟩ := event
    have acting : ∀ store phase,
        MfaPhase.act codeAt tx event world.store (world.phase tx) = some (store, phase) →
        MfaPhase.Proceeds tx world.store store phase := fun _ _ acted =>
      MfaPhase.act_proceeds holds.shared (holds.own tx) allowed acted
    refine holds.step taken (fun store phase acted => ?_) ?_
    · exact ⟨(acting store phase acted).sound, (acting store phase acted).expects⟩
    · -- Every other session expects what it did before.
      intro store phase other progress acted different expects
      exact expects.kept (acting store phase acted).moves different
  have justified := kept.shared.justified
  exact ⟨stepsRise_of_justified justified, codesOnce_of_justified justified,
    codesReplaced_of_justified justified⟩

/-- Two calls reissue the codes, and a third one signs in with a code of the first. -/
def reissueTwice : MfaSystem Nat where
  store := ⟨.free (some ⟨true, some "GEZDGNBVGY3TQOJQGEZDGNBVGY3TQOJQ", none⟩),
    .stored [(0, ⟨"22223333AA", none⟩)], []⟩
  phase
    | 0 => .start (.regenerateRecoveryCodes [(10, "ABCDEFGHJK")])
    | 1 => .start (.regenerateRecoveryCodes [(11, "MNPQRSTUVW")])
    | _ => .start (.verifySecondFactor "abcde-fghjk" 59)

/-- The system of the two reissues is enrolled. -/
theorem reissueTwice_enrolled : reissueTwice.Enrolled := by
  refine ⟨rfl, fun _ => rfl, rfl, fun tx => ?_⟩
  match tx with
  | 0 => exact .inl ⟨_, rfl, rfl⟩
  | 1 => exact .inl ⟨_, rfl, rfl⟩
  | _ + 2 => exact .inl ⟨_, rfl, rfl⟩

/-- The codes are reissued once, and one of the new ones is spent. -/
theorem second_factor_single_use_spent :
    ∃ last, run (mfaStep sampleCodeAt) reissueTwice
        (List.replicate 7 (0, MfaEvent.advance) ++ List.replicate 4 (2, MfaEvent.advance)) = some last ∧
      last.store.history = [.began 0, .issued 0 true [10], .acceptedCode 10] ∧
      StepsRise last.store.history ∧ CodesOnce last.store.history ∧
        CodesReplaced last.store.history := by
  have met : Guarded (mfaStep sampleCodeAt) Unreissued reissueTwice
      (List.replicate 7 (0, MfaEvent.advance) ++
        List.replicate 4 (2, MfaEvent.advance)) := by decide
  exact ⟨_, rfl, rfl, second_factor_single_use reissueTwice_enrolled met rfl⟩

/-- Both calls read the codes before either writes, and after the second one has replaced them, a
code of the first one is accepted. -/
theorem second_factor_reissued : reissueTwice.Enrolled ∧
    ∃ last, run (mfaStep sampleCodeAt) reissueTwice
        ([(0, MfaEvent.advance), (0, .advance)] ++ List.replicate 7 (1, MfaEvent.advance) ++
          List.replicate 5 (0, MfaEvent.advance) ++ List.replicate 4 (2, MfaEvent.advance)) = some last ∧
      ¬CodesReplaced last.store.history := by
  refine ⟨reissueTwice_enrolled, _, rfl, fun replaced => ?_⟩
  have refused := replaced [.began 0, .began 1] 1 [11] [.issued 0 true [10], .acceptedCode 10] rfl
    0 true [10] (by decide) (by decide +kernel) 10 (by decide)
  exact refused (by decide)

end Runs

end Trusca
