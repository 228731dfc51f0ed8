import Trusca.Account.PasswordReset
import Trusca.Store.Lawful

/-! Reset tokens are used once, alone and without an error, as long as no call comes between the reads
and the writes of another one and no live token is left out of the candidates. -/

namespace Trusca

open Store

variable {τ : Type*} [DecidableEq τ] {settings : PasswordResetSettings}

/-- How a stored token may change: it can stop being pending, and nothing else. -/
def Ages (_ : TokenId) : Option PasswordResetToken → Option PasswordResetToken → Prop
  | some old, some new =>
      new.userId = old.userId ∧ new.createdAt = old.createdAt ∧ new.expiresAt = old.expiresAt ∧
        (new.pending = true → old.pending = true) ∧
        (old.usedAt.isSome = true → new.usedAt.isSome = true)
  | some _, none => False
  | none, _ => True

/-- A token that stays as it is ages. -/
theorem Ages.refl (id : TokenId) (version : Option PasswordResetToken) : Ages id version version := by
  cases version with
  | none => trivial
  | some token => exact ⟨rfl, rfl, rfl, fun pending => pending, fun used => used⟩

/-- Two ageings in a row are one. -/
theorem Ages.trans {id : TokenId} {first second third : Option PasswordResetToken}
    (one : Ages id first second) (two : Ages id second third) : Ages id first third := by
  -- A token that is missing has no age; one that is there has all three parts.
  cases first with
  | none => trivial
  | some old =>
    cases second with
    | none => exact one.elim
    | some middle =>
      cases third with
      | none => exact two.elim
      | some new =>
        obtain ⟨user, created, expires, pending, used⟩ := one
        obtain ⟨userTwo, createdTwo, expiresTwo, pendingTwo, usedTwo⟩ := two
        exact ⟨userTwo.trans user, createdTwo.trans created, expiresTwo.trans expires,
          fun still => pending (pendingTwo still), fun was => usedTwo (used was)⟩

/-- A stored token stays stored. -/
theorem Ages.some {id : TokenId} {old : PasswordResetToken} {version : Option PasswordResetToken}
    (ages : Ages id (some old) version) : ∃ new, version = some new ∧ Ages id (some old) (some new) := by
  cases version with
  | none => exact ages.elim
  | some new => exact ⟨new, rfl, ages⟩

/-- A token is expired, and another one was issued after its cooldown. -/
def Outlived (settings : PasswordResetSettings) (now : Time) (old new : PasswordResetToken) : Prop :=
  old.expiresAt ≤ now ∧ old.createdAt < new.createdAt - settings.cooldown

/-- Of two pending tokens of one user, one has been outlived. -/
def Spaced (settings : PasswordResetSettings) (now : Time)
    (tokens : Rows TokenId τ PasswordResetToken) : Prop :=
  ∀ first second one two, first ≠ second → tokens.committed first = some one →
    tokens.committed second = some two → one.userId = two.userId →
    one.pending = true → two.pending = true →
    Outlived settings now one two ∨ Outlived settings now two one

/-- What holds of the stored tokens whatever the calls do. -/
structure ResetSound (settings : PasswordResetSettings) (store : ResetStore τ) : Prop where
  lawful : store.tokens.Lawful Ages
  spaced : Spaced settings store.now store.tokens
  used : ∀ id ∈ store.changed, ∃ token, store.tokens.committed id = some token ∧
    token.usedAt.isSome = true
  once : store.changed.Nodup

/-- A call holds the tokens that it has found superseded, up to those that are left. -/
def Supersedes (tx : τ) (tokens : Rows TokenId τ PasswordResetToken) (found rest : List TokenId) :
    Prop :=
  ∀ id ∈ found, id ∈ rest ∨ ∃ token, tokens.HeldBy tx id (some token) ∧ token.pending = false

/-- A call holds no new token but the one that it issues. -/
def Issues (tx : τ) (tokens : Rows TokenId τ PasswordResetToken) (issue : Option ResetIssue) : Prop :=
  ∀ id version, tokens.HeldBy tx id version → tokens.committed id = none →
    ∃ plan ∈ issue, ∃ token, id = plan.id ∧ version = some token ∧ token.userId = plan.userId ∧
      token.createdAt = plan.startedAt

namespace ResetPhase

/-- What a call may rely on between its own steps. -/
def Relies (tx : τ) (store : ResetStore τ) : ResetPhase → Prop
  | .invalidating _ _ found rest =>
      Supersedes tx store.tokens found rest ∧ Issues tx store.tokens none
  | .inserted issue found =>
      Supersedes tx store.tokens found [] ∧ Issues tx store.tokens (some issue)
  | .marked id =>
      id ∉ store.changed ∧ Issues tx store.tokens none ∧
        ∃ token, store.tokens.HeldBy tx id (some token) ∧ token.usedAt.isSome = true
  | .done answer =>
      answer ≠ .error .multipleResultsFound ∧ ∀ id version, ¬store.tokens.HeldBy tx id version
  | _ => ∀ id version, ¬store.tokens.HeldBy tx id version

end ResetPhase

section Effects

variable {store next : ResetStore τ} {tokens later : Rows TokenId τ PasswordResetToken} {tx : τ}
  {phase : ResetPhase}

omit [DecidableEq τ] in
/-- What a call has superseded stays superseded while others leave its rows alone. -/
theorem Supersedes.kept {found rest : List TokenId} (supersedes : Supersedes tx tokens found rest)
    (steady : Rows.Undisturbed tx tokens later) : Supersedes tx later found rest := by
  intro id member
  refine (supersedes id member).imp_right ?_
  rintro ⟨token, held, spent⟩
  exact ⟨token, ((steady id).heldBy _).mpr held, spent⟩

omit [DecidableEq τ] in
/-- What a call has issued stays issued while others leave its rows alone. -/
theorem Issues.kept {issue : Option ResetIssue} (issues : Issues tx tokens issue)
    (steady : Rows.Undisturbed tx tokens later) : Issues tx later issue := by
  intro id version held missing
  have mine := ((steady id).heldBy version).mp held
  refine issues id version mine ?_
  exact ((steady id).committed version mine).symm.trans missing

omit [DecidableEq τ] in
/-- A transaction that holds no row holds none after others have moved. -/
theorem free_kept (free : ∀ id version, ¬tokens.HeldBy tx id version)
    (steady : Rows.Undisturbed tx tokens later) : ∀ id version, ¬later.HeldBy tx id version :=
  fun id => (steady id).unheld (free id)

omit [DecidableEq τ] in
/-- What a call relies on survives what the others do. -/
theorem ResetPhase.Relies.kept (relies : phase.Relies tx store)
    (steady : Rows.Undisturbed tx store.tokens next.tokens)
    (changed : ∀ id version, store.tokens.HeldBy tx id version → id ∉ store.changed →
      id ∉ next.changed) : phase.Relies tx next := by
  -- By the phase: what the call holds stays held, and what it marked was marked by nobody else.
  cases phase with
  | invalidating issue readAt found rest => exact ⟨relies.1.kept steady, relies.2.kept steady⟩
  | inserted issue found => exact ⟨relies.1.kept steady, relies.2.kept steady⟩
  | marked id =>
    obtain ⟨fresh, issues, token, held, used⟩ := relies
    exact ⟨changed id _ held fresh, issues.kept steady, token,
      ((steady id).heldBy _).mpr held, used⟩
  | done answer => exact ⟨relies.1, free_kept relies.2 steady⟩
  | _ => exact free_kept relies steady

/-- Tokens that were spaced before a commit are, and a token is new only if the call issues it. -/
theorem Spaced.commit (lawful : tokens.Lawful Ages) {now : Time} (spaced : Spaced settings now tokens)
    {issue : Option ResetIssue} (issues : Issues tx tokens issue)
    (alone : ∀ plan ∈ issue, ∀ id token, tokens.committed id = some token →
      token.userId = plan.userId → token.pending = true →
      (∃ new, (tokens.commit tx).committed id = some new ∧ new.pending = true) →
      token.expiresAt ≤ now ∧ token.createdAt < plan.startedAt - settings.cooldown) :
    Spaced settings now (tokens.commit tx) := by
  -- What is stored after the commit was stored before, or is the token that the call issues.
  have origin : ∀ id new, (tokens.commit tx).committed id = some new →
      (∃ old, tokens.committed id = some old ∧ Ages id (some old) (some new)) ∨
      ∃ plan ∈ issue, id = plan.id ∧ new.userId = plan.userId ∧ new.createdAt = plan.startedAt := by
    intro id new stored
    cases before : tokens.committed id with
    | some old =>
      have ages := lawful.evolves Ages.refl tx id
      rw [before, stored] at ages
      exact .inl ⟨old, rfl, ages⟩
    | none =>
      right
      rcases Row.heldBy_or_unheld (tokens.row id) tx with ⟨version, held⟩ | unheld
      · obtain ⟨plan, here, token, named, rfl, user, created⟩ := issues id version held before
        rw [Rows.commit_committed_of_heldBy held] at stored
        cases stored
        exact ⟨plan, here, named, user, created⟩
      · rw [Rows.commit_committed_of_unheld unheld, before] at stored
        cases stored
  intro first second one two different storedOne storedTwo sameUser pendingOne pendingTwo
  rcases origin first one storedOne with ⟨oldOne, beforeOne, agesOne⟩ | ⟨plan, here, namedOne, userOne, createdOne⟩
  · obtain ⟨oldUser, oldCreated, oldExpires, oldPending, _⟩ := agesOne
    rcases origin second two storedTwo with ⟨oldTwo, beforeTwo, agesTwo⟩ | ⟨plan, here, namedTwo, userTwo, createdTwo⟩
    · obtain ⟨twoUser, twoCreated, twoExpires, twoPending, _⟩ := agesTwo
      have apart := spaced first second oldOne oldTwo different beforeOne beforeTwo
        (by rw [← oldUser, ← twoUser, sameUser]) (oldPending pendingOne) (twoPending pendingTwo)
      simpa only [Outlived, oldCreated, oldExpires, twoCreated, twoExpires] using apart
    · left
      have gone := alone plan here first oldOne beforeOne (by rw [← oldUser, sameUser, userTwo])
        (oldPending pendingOne) ⟨one, storedOne, pendingOne⟩
      simpa only [Outlived, oldCreated, oldExpires, createdTwo] using gone
  · rcases origin second two storedTwo with ⟨oldTwo, beforeTwo, agesTwo⟩ | ⟨other, there, namedTwo, _, _⟩
    · obtain ⟨twoUser, twoCreated, twoExpires, twoPending, _⟩ := agesTwo
      right
      have gone := alone plan here second oldTwo beforeTwo (by rw [← twoUser, ← sameUser, userOne])
        (twoPending pendingTwo) ⟨two, storedTwo, pendingTwo⟩
      simpa only [Outlived, twoCreated, twoExpires, createdOne] using gone
    · -- A call issues one token only.
      cases Option.some.inj (here.symm.trans there)
      exact absurd (namedOne.trans namedTwo.symm) different

omit [DecidableEq τ] in
/-- Tokens that are spaced stay so as time passes. -/
theorem Spaced.passes {now after : Time} (spaced : Spaced settings now tokens) (passed : now ≤ after) :
    Spaced settings after tokens := by
  intro first second one two different storedOne storedTwo sameUser pendingOne pendingTwo
  refine (spaced first second one two different storedOne storedTwo sameUser pendingOne
    pendingTwo).imp ?_ ?_
  · exact fun gone => ⟨gone.1.trans passed, gone.2⟩
  · exact fun gone => ⟨gone.1.trans passed, gone.2⟩

omit [DecidableEq τ] in
/-- Being spaced only reads the committed rows. -/
theorem Spaced.same {now : Time} (spaced : Spaced settings now tokens)
    (same : ∀ id, later.committed id = tokens.committed id) : Spaced settings now later := by
  intro first second one two different storedOne storedTwo
  rw [same] at storedOne storedTwo
  exact spaced first second one two different storedOne storedTwo

/-- What a step of a call does to the store. -/
structure ResetProceeds (settings : PasswordResetSettings) (tx : τ) (store next : ResetStore τ) :
    Prop where
  sound : ResetSound settings next
  others : ∀ other, other ≠ tx → Rows.Undisturbed other store.tokens next.tokens
  changed : next.changed = store.changed ∨
    ∃ id version, store.tokens.HeldBy tx id version ∧ next.changed = store.changed ++ [id]

omit [DecidableEq τ] in
/-- A step that publishes nothing. -/
theorem ResetProceeds.of_advances (sound : ResetSound settings store)
    (advances : store.tokens.Advances Ages tx next.tokens)
    (same : ∀ id, next.tokens.committed id = store.tokens.committed id)
    (now : store.now ≤ next.now) (changed : next.changed = store.changed) :
    ResetProceeds settings tx store next where
  sound := {
    lawful := advances.lawful
    spaced := (sound.spaced.passes now).same same
    used := by
      intro id member
      rw [changed] at member
      rw [same]
      exact sound.used id member
    once := changed ▸ sound.once }
  others := advances.others
  changed := .inl changed

omit [DecidableEq τ] in
/-- A call that touches nothing proceeds. -/
theorem ResetProceeds.idle (sound : ResetSound settings store) :
    ResetProceeds settings tx store store :=
  .of_advances sound (.idle Ages.refl sound.lawful) (fun _ => rfl) le_rfl rfl

/-- A call that rolls back proceeds. -/
theorem ResetProceeds.rollback (sound : ResetSound settings store) :
    ResetProceeds settings tx store (store.rollback tx) :=
  .of_advances sound (.of_rollback Ages.refl sound.lawful)
    (fun id => congrFun Rows.rollback_committed id) le_rfl rfl

/-- A call that is rolled back holds nothing. -/
theorem rollback_free (store : ResetStore τ) (tx : τ) (id : TokenId)
    (version : Option PasswordResetToken) : ¬(store.rollback tx).tokens.HeldBy tx id version :=
  Row.rollback_unheld version

/-- A transaction that has committed holds no row. -/
theorem commit_free (store : ResetStore τ) (tx : τ) (id : TokenId)
    (version : Option PasswordResetToken) : ¬(store.commit tx).tokens.HeldBy tx id version :=
  Row.commit_unheld version

/-- A statement on one token that the call has found stored. -/
theorem edit_proceeds {edit : PasswordResetToken → Option PasswordResetToken} {id : TokenId}
    {rows : Rows TokenId τ PasswordResetToken} {here : Bool}
    (allowed : ∀ token, Ages id (some token) (edit token)) (sound : ResetSound settings store)
    (edited : store.tokens.change tx id (fun _ => true) edit = some (rows, here)) :
    ResetProceeds settings tx store { store with tokens := rows } := by
  refine .of_advances sound (.of_change Ages.refl sound.lawful edited ?_)
    (Rows.change_committed edited) le_rfl rfl
  intro token seen _
  rcases Row.heldBy_or_unheld (store.tokens.row id) tx with ⟨version, held⟩ | unheld
  · -- The version that the call holds already has come from the stored one.
    have mine : version = some token := (Row.HeldBy.view_eq held).symm.trans seen
    have ages := sound.lawful id tx version held
    rw [mine] at ages
    exact ages.trans (allowed token)
  · have stored : store.tokens.committed id = some token :=
      (Row.view_eq_committed unheld).symm.trans seen
    rw [stored]
    exact allowed token

/-- A statement on one token makes no new one. -/
theorem edit_issues {edit : PasswordResetToken → Option PasswordResetToken} {id : TokenId}
    {here : Bool} (issues : Issues tx tokens none)
    (edited : tokens.change tx id (fun _ => true) edit = some (later, here)) :
    Issues tx later none := by
  intro other version held missing
  rw [Rows.change_committed edited] at missing
  -- The row is the edited one, or it was held before.
  rcases Rows.change_heldBy edited held with before | ⟨rfl, token, seen, _, _⟩
  · exact issues other version before missing
  · -- Held before or not, its token was there, so nothing is missing.
    rcases Row.heldBy_or_unheld (tokens.row other) tx with ⟨mine, old⟩ | unheld
    · obtain ⟨plan, here, _⟩ := issues other mine old missing
      cases here
    · have stored := (Row.view_eq_committed unheld).symm.trans seen
      exact absurd (stored.symm.trans missing) nofun

omit [DecidableEq τ] in
/-- A transaction that holds no row has issued whatever it has stated. -/
theorem issues_of_free (free : ∀ id version, ¬tokens.HeldBy tx id version)
    (issue : Option ResetIssue) : Issues tx tokens issue :=
  fun id version held => absurd held (free id version)

omit [DecidableEq τ] in
/-- The token that is inserted is the new one. -/
theorem insert_issues {issue : ResetIssue} {token : PasswordResetToken}
    (issues : Issues tx tokens none) (user : token.userId = issue.userId)
    (created : token.createdAt = issue.startedAt)
    (inserted : tokens.insert tx issue.id token = some later) : Issues tx later (some issue) := by
  intro id version held missing
  rw [Rows.insert_committed inserted] at missing
  obtain ⟨_, row, taken, rfl⟩ := Rows.insert_cases inserted
  obtain ⟨_, _, _, mine⟩ := Row.insert_cases taken
  unfold Rows.HeldBy at held
  rw [Rows.set_row] at held
  -- The inserted row is the call's own token; every other one was held before.
  split at held
  · rename_i same
    exact ⟨issue, rfl, token, same, (held.unique mine).2, user, created⟩
  · obtain ⟨plan, here, _⟩ := issues id version held missing
    cases here

omit [DecidableEq τ] in
/-- Inserting the new token keeps what has been superseded. -/
theorem insert_supersedes {id : TokenId} {token : PasswordResetToken} {found : List TokenId}
    (supersedes : Supersedes tx tokens found []) (inserted : tokens.insert tx id token = some later) :
    Supersedes tx later found [] := by
  intro other member
  -- A token of the list was superseded already, and inserting another leaves it.
  obtain none_left | ⟨old, held, spent⟩ := supersedes other member
  · cases none_left
  refine .inr ⟨old, ?_, spent⟩
  obtain ⟨_, row, taken, rfl⟩ := Rows.insert_cases inserted
  obtain ⟨_, free, _⟩ := Row.insert_cases taken
  unfold Rows.HeldBy at held ⊢
  rw [Rows.set_row]
  split
  · rename_i same
    rw [same] at held
    exact absurd held (Row.not_heldBy_of_unlocked free _)
  · exact held

/-- Under the guard, the query for a recent token finds at most one. -/
theorem hasRecentToken_isSome {issue : ResetIssue} (sound : ResetSound settings store)
    (free : ∀ id version, ¬store.tokens.HeldBy tx id version)
    (fine : ResetPhase.orderly settings store .advance (.checking issue) = true) :
    store.hasRecentToken settings tx issue.userId issue.startedAt ≠ none := by
  intro several
  unfold ResetStore.hasRecentToken at several
  split at several
  · cases several
  · cases several
  · -- Only a second row is left, and both rows are distinct.
    rename_i none_found one_found
    have distinct : (store.tokens.select tx
        (PasswordResetToken.recent settings issue.userId issue.startedAt)).Nodup :=
      store.tokens.nodup.filter _
    match found : store.tokens.select tx
        (PasswordResetToken.recent settings issue.userId issue.startedAt) with
    | [] => exact none_found found
    | [id] => exact one_found id found
    | first :: second :: rest =>
      rw [found] at distinct
      have different : first ≠ second := by
        rintro rfl
        simp at distinct
      -- Each of the two is stored, pending and within the cooldown.
      have facts : ∀ id ∈ [first, second], ∃ token, store.tokens.committed id = some token ∧
          token.userId = issue.userId ∧ issue.startedAt - settings.cooldown ≤ token.createdAt ∧
          token.pending = true ∧ token.createdAt ≤ issue.startedAt := by
        intro id member
        have listed : id ∈ store.tokens.select tx
            (PasswordResetToken.recent settings issue.userId issue.startedAt) := by
          rw [found]
          simp only [List.mem_cons, List.not_mem_nil, or_false] at member ⊢
          rcases member with rfl | rfl
          · exact .inl rfl
          · exact .inr (.inl rfl)
        obtain ⟨token, seen, recent⟩ := Rows.mem_select.mp listed
        have stored : store.tokens.committed id = some token :=
          (Row.view_eq_committed (free id)).symm.trans seen
        simp only [PasswordResetToken.recent, Bool.and_eq_true, decide_eq_true_eq] at recent
        obtain ⟨⟨user, window⟩, pending⟩ := recent
        have early := List.all_eq_true.mp fine (id, token) (Rows.mem_entries.mpr stored)
        simp only [user, pending, ne_eq, not_true_eq_false, decide_false, Bool.not_true,
          Bool.false_or, decide_eq_true_eq] at early
        exact ⟨token, stored, user, window, pending, early⟩
      -- Two such tokens are closer to each other than the run allows.
      obtain ⟨one, storedOne, userOne, windowOne, pendingOne, earlyOne⟩ := facts first (by simp)
      obtain ⟨two, storedTwo, userTwo, windowTwo, pendingTwo, earlyTwo⟩ := facts second (by simp)
      rcases sound.spaced first second one two different storedOne storedTwo
        (userOne.trans userTwo.symm) pendingOne pendingTwo with ⟨_, apart⟩ | ⟨_, apart⟩
      · -- In either order the cooldown lies between them, and both lie within one.
        exact (apart.trans_le ((Int.sub_le_sub_right earlyTwo _).trans windowOne)).false
      · exact (apart.trans_le ((Int.sub_le_sub_right earlyOne _).trans windowTwo)).false

end Effects

section Steps

variable {store next : ResetStore τ} {tx : τ} {phase after : ResetPhase} {event : ResetEvent}

/-- The commit of a request leaves its token as the only live one. -/
theorem inserted_proceeds {issue : ResetIssue} {found : List TokenId}
    (sound : ResetSound settings store)
    (relies : (ResetPhase.inserted issue found).Relies tx store)
    (fine : ResetPhase.orderly settings store .advance (.inserted issue found) = true) :
    ResetProceeds settings tx store (store.commit tx) := by
  obtain ⟨supersedes, issues⟩ := relies
  have evolves := sound.lawful.evolves Ages.refl tx
  refine ⟨⟨sound.lawful.commit tx, sound.spaced.commit sound.lawful issues ?_, ?_, sound.once⟩,
    fun other different => Rows.commit_undisturbed different, .inl rfl⟩
  · rintro plan ⟨⟩ id token stored user pending ⟨new, published, still⟩
    have clear := List.all_eq_true.mp fine (id, token) (Rows.mem_entries.mpr stored)
    simp only [user, pending, ne_eq, not_true_eq_false, decide_false, Bool.not_true,
      Bool.false_or, Bool.or_eq_true, List.contains_iff_mem, decide_eq_true_eq] at clear
    rcases clear with member | gone
    · -- What the call has superseded is not pending any more.
      obtain none_left | ⟨mine, held, spent⟩ := supersedes id member
      · cases none_left
      · rw [Rows.commit_committed_of_heldBy held] at published
        cases published
        exact absurd (still.symm.trans spent) (by decide)
    · exact gone
  · intro id member
    obtain ⟨token, stored, used⟩ := sound.used id member
    have ages := evolves id
    rw [stored] at ages
    obtain ⟨new, published, kept⟩ := ages.some
    exact ⟨new, published, kept.2.2.2.2 used⟩

/-- The commit of a change of the password uses a token that was unused. -/
theorem marked_proceeds {id : TokenId} (sound : ResetSound settings store)
    (relies : (ResetPhase.marked id).Relies tx store) :
    ResetProceeds settings tx store
      { store.commit tx with changed := store.changed ++ [id] } := by
  obtain ⟨fresh, issues, mine, held, used⟩ := relies
  -- A commit only ages the tokens that were there.
  have evolves := sound.lawful.evolves Ages.refl tx
  refine ⟨⟨sound.lawful.commit tx, sound.spaced.commit sound.lawful issues nofun, ?_, ?_⟩,
    fun other different => Rows.commit_undisturbed different, .inr ⟨id, _, held, rfl⟩⟩
  · -- The tokens that were used stay so, and the one of this call is used by the commit.
    intro other member
    rcases List.mem_append.mp member with old | new
    · obtain ⟨token, stored, was⟩ := sound.used other old
      have ages := evolves other
      rw [stored] at ages
      obtain ⟨new, published, kept⟩ := ages.some
      exact ⟨new, published, kept.2.2.2.2 was⟩
    · rw [List.mem_singleton.mp new]
      exact ⟨mine, Rows.commit_committed_of_heldBy held, used⟩
  · -- The token is new among those that have changed a password.
    rw [← List.concat_eq_append]
    exact sound.once.concat fresh

/-- Every step of a call leaves sound tokens, and what the call relies on next. -/
theorem ResetPhase.advance_proceeds (sound : ResetSound settings store)
    (relies : phase.Relies tx store) (fine : phase.orderly settings store .advance = true)
    (acted : phase.advance settings tx store = some (next, after)) :
    ResetProceeds settings tx store next ∧ after.Relies tx next := by
  cases phase with
  -- No user, a throttled one, or a transaction begins: nothing is written yet.
  | request email id plaintext =>
    simp only [ResetPhase.advance] at acted
    split at acted
    · cases acted
      exact ⟨.idle sound, by simp, relies⟩
    · split at acted
      · cases acted
        exact ⟨.idle sound, relies⟩
      · cases acted
        exact ⟨.idle sound, by simp, relies⟩
  -- Two recent tokens would raise, which the order of the run excludes.
  | checking issue =>
    have some_answer := hasRecentToken_isSome sound relies fine
    simp only [ResetPhase.advance] at acted
    split at acted
    · rename_i several
      exact absurd several some_answer
    · cases acted
      exact ⟨.idle sound, by simp, relies⟩
    · cases acted
      exact ⟨.idle sound, relies⟩
  | reading issue =>
    cases acted
    exact ⟨.idle sound, fun id member => .inl member, issues_of_free relies none⟩
  -- The older tokens one by one, and at the end of the list the new one.
  | invalidating issue readAt found rest =>
    obtain ⟨supersedes, issues⟩ := relies
    cases rest with
    | nil =>
      obtain ⟨rows, inserted, same⟩ := Option.map_eq_some_iff.mp acted
      cases same
      refine ⟨?_, insert_supersedes supersedes inserted, insert_issues issues rfl rfl inserted⟩
      exact .of_advances sound (.of_insert Ages.refl sound.lawful inserted trivial)
        (Rows.insert_committed inserted) le_rfl rfl
    | cons id rest =>
      obtain ⟨⟨rows, here⟩, edited, same⟩ := Option.map_eq_some_iff.mp acted
      -- A token that no longer matches sends the transaction back.
      cases here with
      | false =>
        cases same
        exact ⟨.rollback sound, by simp, rollback_free store tx⟩
      | true =>
        cases same
        -- A token marked as used stays spent, and the rest of the list goes on.
        refine ⟨edit_proceeds ?_ sound edited, ?_, edit_issues issues edited⟩
        · intro token
          exact ⟨rfl, rfl, rfl, by simp [PasswordResetToken.pending], fun used => used⟩
        · intro other member
          by_cases same : other = id
          · subst same
            obtain ⟨token, _, _, held⟩ := Rows.change_matched edited
            exact .inr ⟨_, held, by simp [PasswordResetToken.pending]⟩
          · obtain left | ⟨token, held, spent⟩ := supersedes other member
            · exact .inl ((List.mem_cons.mp left).resolve_left same)
            · exact .inr ⟨token, Rows.change_keeps edited same held, spent⟩
  -- The commit of an issue, where the new token joins the stored ones.
  | inserted issue found =>
    cases acted
    exact ⟨inserted_proceeds sound relies fine, by simp, commit_free store tx⟩
  -- The other half: a token is looked up, matched and consumed.
  | consume plaintext newPassword =>
    simp only [ResetPhase.advance] at acted
    split at acted
    · cases acted
      exact ⟨.idle sound, by simp, relies⟩
    · split at acted
      · cases acted
        exact ⟨.idle sound, by simp, relies⟩
      · cases acted
        exact ⟨.idle sound, relies⟩
  | matched id userId readAt newPassword =>
    simp only [ResetPhase.advance] at acted
    split at acted
    · cases acted
      exact ⟨.idle sound, by simp, relies⟩
    · split at acted
      · cases acted
        exact ⟨.idle sound, relies⟩
      · cases acted
        exact ⟨.idle sound, by simp, relies⟩
  -- The password changes before the token is marked, in one transaction.
  | rotating id userId readAt newPassword =>
    obtain ⟨⟨rows, here⟩, edited, same⟩ := Option.map_eq_some_iff.mp acted
    cases here with
    | false =>
      cases same
      exact ⟨.rollback sound, by simp, rollback_free store tx⟩
    | true =>
      cases same
      exact ⟨⟨⟨sound.lawful, sound.spaced, sound.used, sound.once⟩,
        fun other _ => .refl other _, .inl rfl⟩, relies⟩
  | marking id readAt =>
    obtain ⟨⟨rows, here⟩, edited, same⟩ := Option.map_eq_some_iff.mp acted
    cases here with
    | false =>
      cases same
      exact ⟨.rollback sound, by simp, rollback_free store tx⟩
    | true =>
      cases same
      refine ⟨edit_proceeds ?_ sound edited, ?_, edit_issues (issues_of_free relies none) edited, ?_⟩
      · intro token
        exact ⟨rfl, rfl, rfl, by simp [PasswordResetToken.pending], by simp⟩
      · -- The stored token is unused, so it has changed no password yet.
        intro member
        obtain ⟨token, stored, used⟩ := sound.used id member
        simp only [ResetPhase.orderly, stored, Option.all_some] at fine
        rw [Option.isNone_iff_eq_none] at fine
        rw [fine] at used
        cases used
      · obtain ⟨token, _, _, held⟩ := Rows.change_matched edited
        exact ⟨_, held, rfl⟩
  -- The commit of a change, which is the token's one use.
  | marked id =>
    cases acted
    exact ⟨marked_proceeds sound relies, by simp, commit_free store tx⟩
  | done answer => cases acted

/-- So does every event. -/
theorem ResetPhase.act_proceeds (sound : ResetSound settings store) (relies : phase.Relies tx store)
    (fine : phase.orderly settings store event = true)
    (acted : ResetPhase.act settings tx event store phase = some (next, after)) :
    ResetProceeds settings tx store next ∧ after.Relies tx next := by
  -- The three events of a call: its own step, an abort, and time that passes.
  cases event with
  | advance => exact ResetPhase.advance_proceeds sound relies fine acted
  -- An abort drops what the call has done, wherever it was.
  | abort =>
    have ended : (next, after) = (store.rollback tx, .done (.error .aborted)) := by
      cases phase <;> first | exact (Option.some.inj acted).symm | cases acted
    cases ended
    exact ⟨.rollback sound, nofun, rollback_free store tx⟩
  -- Time passes for everybody alike.
  | wait elapsed =>
    cases acted
    have later : store.now ≤ store.now + elapsed := Int.le_add_of_nonneg_right (Int.natCast_nonneg _)
    refine ⟨⟨⟨sound.lawful, sound.spaced.passes later, sound.used, sound.once⟩,
      fun other _ => .refl other _, .inl rfl⟩, ?_⟩
    exact relies.kept (.refl tx _) fun _ _ _ fresh => fresh

/-- A call that holds nothing reads the stored tokens. -/
theorem fetch_eq_entries (free : ∀ id version, ¬store.tokens.HeldBy tx id version)
    (wanted : PasswordResetToken → Bool) :
    store.tokens.fetch tx wanted = store.tokens.entries.filter fun (_, token) => wanted token := by
  unfold Rows.fetch Rows.entries
  rw [List.filter_filterMap]
  -- Row by row: nothing of the reader's own is among them, so it sees what is committed.
  refine List.filterMap_congr fun id _ => ?_
  have seen : store.tokens.view tx id = store.tokens.committed id :=
    Row.view_eq_committed (free id)
  rw [seen]
  cases store.tokens.committed id with
  | none => rfl
  | some token => cases wanted token <;> simp [Option.filter, *]

/-- Among few enough live tokens, a live one is matched. -/
theorem consume_matches {plaintext newPassword : String} {id : TokenId} {token : PasswordResetToken}
    (free : ∀ id version, ¬store.tokens.HeldBy tx id version)
    (fine : ResetPhase.orderly settings store .advance (.consume plaintext newPassword) = true)
    (given : plaintext ≠ "") (stored : store.tokens.committed id = some token)
    (live : token.live store.now = true) (same : token.tokenHash = plaintext) :
    ∃ other hit, store.tokens.committed other = some hit ∧ hit.live store.now = true ∧
      hit.tokenHash = plaintext ∧
      (ResetPhase.consume plaintext newPassword).advance settings tx store =
        some (store, .matched other hit.userId store.now newPassword) := by
  have few := of_decide_eq_true fine
  rw [← fetch_eq_entries free] at few
  -- The candidates are all the live tokens.
  have all_read : ∀ item, item ∈ store.candidates tx ↔
      item ∈ store.tokens.fetch tx (PasswordResetToken.live store.now) := by
    intro item
    unfold ResetStore.candidates
    rw [List.take_of_length_le (by rwa [List.length_insertionSort]), List.mem_insertionSort]
  have listed : (id, token) ∈ store.candidates tx := by
    rw [all_read, Rows.mem_fetch]
    exact ⟨(Row.view_eq_committed (free id)).trans stored, live⟩
  cases found : matchResetToken (store.candidates tx) plaintext with
  | none =>
    have missed := List.find?_eq_none.mp found (id, token) listed
    simp [same] at missed
  | some item =>
    obtain ⟨other, hit⟩ := item
    have member := (all_read _).mp (List.mem_of_find?_eq_some found)
    obtain ⟨seen, also⟩ := Rows.mem_fetch.mp member
    refine ⟨other, hit, (Row.view_eq_committed (free other)).symm.trans seen, also, ?_, ?_⟩
    · simpa using List.find?_some found
    · simp [ResetPhase.advance, given, found]

end Steps

section System

variable {system next final : ResetSystem τ} {event : τ × ResetEvent}

/-- No token has been issued yet, and every call is about to begin. -/
structure ResetSystem.Fresh (system : ResetSystem τ) : Prop where
  tokens : ∀ id, system.store.tokens.row id = .free none
  changed : system.store.changed = []
  phase : ∀ tx, (∃ email id plaintext, system.phase tx = .request email id plaintext) ∨
    ∃ plaintext newPassword, system.phase tx = .consume plaintext newPassword

/-- The tokens are sound, and every call may rely on what it holds. -/
abbrev ResetStands (settings : PasswordResetSettings) (system : ResetSystem τ) : Prop :=
  Sessions.Annotated (ResetSound settings) (fun tx store phase => phase.Relies tx store) system

omit [DecidableEq τ] in
/-- A fresh system stands. -/
theorem ResetSystem.Fresh.stands (fresh : system.Fresh) : ResetStands settings system := by
  -- At the start no row is held, and none is stored.
  have free : ∀ tx id version, ¬system.store.tokens.HeldBy tx id version := by
    intro tx id version held
    unfold Rows.HeldBy at held
    rw [fresh.tokens] at held
    cases held
  have missing : ∀ id, system.store.tokens.committed id = none := by
    intro id
    unfold Rows.committed
    rw [fresh.tokens]
    rfl
  refine ⟨⟨fun id tx version held => absurd held (free tx id version), ?_, ?_, ?_⟩, fun tx => ?_⟩
  · intro first second one two _ stored
    cases (missing first).symm.trans stored
  · rw [fresh.changed]
    exact nofun
  · rw [fresh.changed]
    exact .nil
  · rcases fresh.phase tx with ⟨email, id, plaintext, here⟩ | ⟨plaintext, newPassword, here⟩
    · rw [here]
      exact free tx
    · rw [here]
      exact free tx

/-- A step at an orderly moment. -/
theorem ResetStands.step (stands : ResetStands settings system)
    (fine : Sessions.Allows
      (fun store event phase => ResetPhase.orderly settings store event phase = true) system event)
    (taken : resetStep settings system event = some next) : ResetStands settings next := by
  obtain ⟨tx, event⟩ := event
  refine Sessions.Annotated.step stands taken (fun store phase acted => ?_)
    fun store phase other progress acted different relies => ?_
  · have proceeds := ResetPhase.act_proceeds stands.shared (stands.own tx) fine acted
    exact ⟨proceeds.1.sound, proceeds.2⟩
  · have proceeds := (ResetPhase.act_proceeds stands.shared (stands.own tx) fine acted).1
    refine relies.kept (proceeds.others other different) fun id version held fresh => ?_
    -- A token that another call marks is one that it holds.
    rcases proceeds.changed with same | ⟨marked, found, mine, same⟩
    · rw [same]
      exact fresh
    · rw [same, List.mem_append, not_or]
      refine ⟨fresh, fun here => ?_⟩
      rw [List.mem_singleton.mp here] at held
      exact different (held.unique mine).1

/-- In every run whose steps come at orderly moments, each token changes the password at most once,
each user has at most one live token, no query for one row finds several, and every live token that
is presented is matched. -/
theorem reset_tokens_orderly (events : List (τ × ResetEvent)) (fresh : system.Fresh)
    (fine : Guarded (resetStep settings) (Sessions.Allows
      fun store event phase => ResetPhase.orderly settings store event phase = true) system events)
    (ran : Store.run (resetStep settings) system events = some final) :
    final.store.changed.Nodup ∧
    (∀ first second one two, final.store.tokens.committed first = some one →
      final.store.tokens.committed second = some two → one.userId = two.userId →
      one.live final.store.now = true → two.live final.store.now = true → first = second) ∧
    (∀ tx, final.phase tx ≠ .done (.error .multipleResultsFound)) ∧
    (∀ earlier later middle tx plaintext newPassword id token,
      events = earlier ++ (tx, ResetEvent.advance) :: later →
      Store.run (resetStep settings) system earlier = some middle →
      middle.phase tx = .consume plaintext newPassword → plaintext ≠ "" →
      middle.store.tokens.committed id = some token → token.live middle.store.now = true →
      token.tokenHash = plaintext →
      ∃ after other hit, resetStep settings middle (tx, .advance) = some after ∧
        after.phase tx = .matched other hit.userId middle.store.now newPassword ∧
        middle.store.tokens.committed other = some hit ∧ hit.tokenHash = plaintext) := by
  have kept : ∀ (system : ResetSystem τ) event next, ResetStands settings system →
      Sessions.Allows (fun store event phase => ResetPhase.orderly settings store event phase = true)
        system event →
      resetStep settings system event = some next → ResetStands settings next :=
    fun _ _ _ stands fine taken => stands.step fine taken
  -- What holds at the end of the run gives the first three parts, and what holds in its middle the last.
  have stands := run_invariant kept fresh.stands fine ran
  refine ⟨stands.shared.once, ?_, ?_, ?_⟩
  · -- Two tokens of one user are spaced, so that one of them is over.
    intro first second one two storedOne storedTwo user liveOne liveTwo
    by_contra different
    simp only [PasswordResetToken.live, Bool.and_eq_true, decide_eq_true_eq] at liveOne liveTwo
    rcases stands.shared.spaced first second one two different storedOne storedTwo user liveOne.1
      liveTwo.1 with ⟨gone, _⟩ | ⟨gone, _⟩
    · exact gone.not_gt liveOne.2
    · exact gone.not_gt liveTwo.2
  · -- A call that has failed relied on having found one match.
    intro tx failed
    have relies := stands.own tx
    rw [failed] at relies
    exact relies.1 rfl
  · -- A call that looks for its token finds the one that stands for it.
    intro earlier later middle tx plaintext newPassword id token split reached waits given stored
      live same
    rw [split] at fine
    obtain ⟨front, here, _⟩ := fine.append reached
    have before := run_invariant kept fresh.stands front reached
    have free := before.own tx
    -- It waits on a row that nobody else has taken.
    rw [waits] at free
    have allowed : ResetPhase.orderly settings middle.store .advance
        (.consume plaintext newPassword) = true := by
      rw [← waits]
      exact here
    obtain ⟨other, hit, found, _, equal, taken⟩ :=
      consume_matches free allowed given stored live same
    have acted : ResetPhase.act settings tx .advance middle.store (middle.phase tx) =
        some (middle.store, .matched other hit.userId middle.store.now newPassword) := by
      rw [waits]
      exact taken
    exact ⟨_, other, hit, Sessions.step_eq_some.mpr ⟨_, _, acted, rfl⟩, by simp, found, equal⟩

end System

/-- One user, four requests for the address and two calls with one token. -/
def oneAddress : ResetSystem Nat where
  store := ⟨0, .stored [(1, ⟨"a", true, false, "old"⟩)], .stored [], []⟩
  phase := fun tx =>
    if tx = 0 then .request "a" 10 "x"
    else if tx = 1 then .request "a" 11 "y"
    else if tx = 2 then .request "a" 12 "z"
    else if tx = 3 then .request "a" 13 "w"
    else .consume "x" "new"

/-- The two requests start fresh. -/
theorem oneAddress_fresh : oneAddress.Fresh where
  tokens := fun _ => rfl
  changed := rfl
  phase := by
    intro tx
    -- By the call's number, each at its start.
    simp only [oneAddress]
    split_ifs
    · exact .inl ⟨_, _, _, rfl⟩
    · exact .inl ⟨_, _, _, rfl⟩
    · exact .inl ⟨_, _, _, rfl⟩
    · exact .inl ⟨_, _, _, rfl⟩
    · exact .inr ⟨_, _, rfl⟩

/-- A token is issued and used, and the next one is issued after the cooldown. -/
def resetsInTurn : List (Nat × ResetEvent) :=
  [(0, .advance), (0, .advance), (0, .advance), (0, .advance), (0, .advance), (4, .advance),
    (4, .advance), (4, .advance), (4, .advance), (4, .advance), (0, .wait 360000000),
    (1, .advance), (1, .advance), (1, .advance), (1, .advance), (1, .advance)]

/-- The theorem at calls that come one after the other. -/
theorem reset_tokens_orderly_in_turn :
    ∃ final, Store.run (resetStep ⟨300⟩) oneAddress resetsInTurn = some final ∧
      final.store.changed = [10] ∧ final.store.changed.Nodup ∧
      final.phase 1 = .done (.ok (.issued 11)) := by
  -- The run ends with one changed token and one issued.
  have ends : (Store.run (resetStep ⟨300⟩) oneAddress resetsInTurn).map
      (fun final => (final.store.changed, final.phase 1)) =
      some ([10], .done (.ok (.issued 11))) := by
    decide +kernel
  obtain ⟨final, ran, stored⟩ := Option.map_eq_some_iff.mp ends
  obtain ⟨changed, issued⟩ := Prod.mk.inj stored
  have orderly := reset_tokens_orderly resetsInTurn oneAddress_fresh (by decide +kernel) ran
  exact ⟨final, ran, changed, orderly.1, issued⟩

/-- Three requests read before any of them commits, the fourth one finds three tokens, and two calls
match one token before either of them marks it. -/
def resetsAtOnce : List (Nat × ResetEvent) :=
  [(0, .advance), (0, .advance), (0, .advance), (0, .advance), (1, .advance), (1, .advance),
    (1, .advance), (1, .advance), (2, .advance), (2, .advance), (2, .advance), (2, .advance),
    (0, .advance), (1, .advance), (2, .advance), (3, .advance), (3, .advance),
    (4, .advance), (4, .advance), (5, .advance), (5, .advance), (4, .advance), (4, .advance),
    (4, .advance), (5, .advance), (5, .advance), (5, .advance)]

/-- A token changes the password twice, a user has two live tokens, and a request fails because of
them. -/
theorem reset_tokens_crossing :
    ∃ final, oneAddress.Fresh ∧ Store.run (resetStep ⟨300⟩) oneAddress resetsAtOnce = some final ∧
      ¬final.store.changed.Nodup ∧
      (∃ first second one two, first ≠ second ∧ final.store.tokens.committed first = some one ∧
        final.store.tokens.committed second = some two ∧ one.userId = two.userId ∧
        one.live final.store.now = true ∧ two.live final.store.now = true) ∧
      final.phase 3 = .done (.error .multipleResultsFound) := by
  -- The two requests both see no recent token, and the two resets both match the old one.
  have ends : (Store.run (resetStep ⟨300⟩) oneAddress resetsAtOnce).map
      (fun final => ((final.store.changed, final.phase 3), final.store.now,
        final.store.tokens.committed 11, final.store.tokens.committed 12)) =
      some (([10, 10], .done (.error .multipleResultsFound)), 0,
        some ⟨1, "y", 3600000000, none, none, 0⟩, some ⟨1, "z", 3600000000, none, none, 0⟩) := by
    decide +kernel
  obtain ⟨final, ran, stored⟩ := Option.map_eq_some_iff.mp ends
  simp only [Prod.mk.injEq] at stored
  obtain ⟨⟨changed, failed⟩, now, one, two⟩ := stored
  refine ⟨final, oneAddress_fresh, ran, ?_, ⟨11, 12, _, _, by decide, one, two, rfl, ?_, ?_⟩, failed⟩
  · rw [changed]
    decide
  · rw [now]
    decide
  · rw [now]
    decide

end Trusca
