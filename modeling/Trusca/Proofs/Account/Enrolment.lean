import Trusca.Account.SecondFactor
import Trusca.Store.RowLaws

/-! An enabled second factor was proved, unless a write of the user overtakes what its call has read
of it. -/

namespace Trusca

open Store

variable {τ : Type*}

/-- A factor that is enabled has a secret against which a code was verified. -/
def Proven (history : List (MfaOccurrence τ)) (user : MfaUser) : Prop :=
  user.mfaEnabled = true → ∃ secret, user.mfaSecret = some secret ∧ .proved secret ∈ history

/-- What is proven stays so. -/
theorem Proven.mono {history later : List (MfaOccurrence τ)} {user : MfaUser}
    (proven : Proven history user) (grows : history ⊆ later) : Proven later user := by
  intro enabled
  obtain ⟨secret, stored, member⟩ := proven enabled
  exact ⟨secret, stored, grows member⟩

namespace MfaStore

/-- Every version of the user is proven, the committed one and those to come. -/
structure AllProven (store : MfaStore τ) : Prop where
  committed : ∀ user, store.user.committed = some user → Proven store.history user
  held : ∀ tx user, store.user.HeldBy tx (some user) → Proven store.history user

variable {store next : MfaStore τ}

/-- Versions that were there before are proven still. -/
theorem AllProven.mono (proven : store.AllProven) (grows : store.history ⊆ next.history)
    (same : next.user = store.user) : next.AllProven := by
  constructor
  · intro user stored
    exact (proven.committed user (same ▸ stored)).mono grows
  · intro tx user held
    exact (proven.held tx user (same ▸ held)).mono grows

variable [DecidableEq τ] {tx : τ}

/-- What a transaction sees of the user is proven. -/
theorem AllProven.view (proven : store.AllProven) {user : MfaUser}
    (seen : store.user.view tx = some user) : Proven store.history user := by
  rcases Row.heldBy_or_unheld store.user tx with ⟨version, held⟩ | unheld
  · rw [held.view_eq] at seen
    exact proven.held tx user (seen ▸ held)
  · rw [Row.view_eq_committed unheld] at seen
    exact proven.committed user seen

/-- A statement that leaves a proven version. -/
theorem AllProven.change {accepts : MfaUser → Bool} {edit : MfaUser → MfaUser} {row : Row τ MfaUser}
    {matched : Bool} (proven : store.AllProven)
    (changed : store.user.change tx accepts (fun current => some (edit current)) =
      some (row, matched))
    (keeps : ∀ current, store.user.view tx = some current → Proven store.history (edit current)) :
    AllProven { store with user := row } := by
  -- The row was left alone, or edited in this transaction's own view.
  rcases Row.change_cases changed with ⟨_, rfl, _⟩ | ⟨current, _, seen, _, _, same, mine⟩
  · exact proven
  · constructor
    · intro user stored
      exact proven.committed user (same ▸ stored)
    · -- The only held version is the edited one, and the edit keeps what it has seen.
      intro owner user held
      obtain ⟨_, found⟩ := held.unique mine
      rw [Option.some.inj found]
      exact keeps current seen

/-- A commit publishes a proven version. -/
theorem AllProven.commit (proven : store.AllProven) (outcome : Option (MfaOccurrence τ)) :
    (store.commit tx outcome).AllProven := by
  have grows : store.history ⊆ (store.commit tx outcome).history :=
    List.subset_append_left _ _
  -- What this transaction held is committed now, and a proof of then is one of now.
  rcases Row.heldBy_or_unheld store.user tx with ⟨version, mine⟩ | unheld
  · have freed : (store.commit tx outcome).user = .free version := mine.commit_eq
    constructor
    · intro user stored
      rw [freed] at stored
      exact (proven.held tx user (stored ▸ mine)).mono grows
    · -- Nobody holds the row after its commit.
      intro owner user held
      rw [freed] at held
      cases held
  · exact proven.mono grows (Row.commit_of_unheld unheld)

/-- A rollback leaves the proven versions. -/
theorem AllProven.rollback (proven : store.AllProven) : (store.rollback tx).AllProven := by
  constructor
  · intro user stored
    exact proven.committed user (Row.rollback_committed.symm.trans stored)
  · -- Only this transaction's version was dropped.
    intro owner user held
    have released : Row.Releases tx store.user (store.user.rollback tx) := Row.rollback_releases
    rcases released with ⟨_, _, _, freed⟩ | ⟨_, same⟩
    · have free : (store.rollback tx).user = _ := freed
      rw [free] at held
      cases held
    · have same : (store.rollback tx).user = store.user := same
      rw [same] at held
      exact proven.held owner user held

end MfaStore

namespace MfaPhase

/-- What a call may rely on between its own steps: until it writes the user it holds nothing of the
row, and what it is about to write is proven. -/
def Relies (tx : τ) (store : MfaStore τ) : MfaPhase τ → Prop
  | .start _ => ∀ version, ¬store.user.HeldBy tx version
  | .writing _ assigned _ =>
      (∀ version, ¬store.user.HeldBy tx version) ∧ Proven store.history assigned
  | _ => True

/-- The side condition of a step: the user is written while its flag and its secret are still what
the call has read. -/
def unovertaken (event : MfaEvent) (store : MfaStore τ) : MfaPhase τ → Bool
  | .writing loaded _ _ => event == .abort || store.user.committed.all fun user =>
      user.mfaEnabled == loaded.mfaEnabled && user.mfaSecret == loaded.mfaSecret
  | _ => true

/-- A step of a call: it leaves proven versions, forgets nothing, and keeps the locks of the others. -/
structure Advances (tx : τ) (store next : MfaStore τ) (after : MfaPhase τ) : Prop where
  proven : next.AllProven
  grows : store.history ⊆ next.history
  others : ∀ other, other ≠ tx → Row.Undisturbed other store.user next.user
  relies : Relies tx next after

variable {codeAt : String → Nat → String} {tx : τ} {store next : MfaStore τ}
  {phase after : MfaPhase τ}

/-- What a call relies on survives what the others do. -/
theorem Relies.kept (relies : Relies tx store phase) (grows : store.history ⊆ next.history)
    (steady : Row.Undisturbed tx store.user next.user) : Relies tx next phase := by
  cases phase with
  | start call => exact steady.unheld relies
  | writing loaded assigned sweep => exact ⟨steady.unheld relies.1, relies.2.mono grows⟩
  | _ => trivial

/-- A step that leaves the user row alone. -/
theorem Advances.elsewhere (proven : store.AllProven) (same : next.user = store.user)
    (grows : store.history ⊆ next.history) (relies : Relies tx next after) :
    Advances tx store next after :=
  ⟨proven.mono grows same, grows, fun other _ => same ▸ .refl other store.user, relies⟩

variable [DecidableEq τ]

/-- A call that ends without a trace. -/
theorem Advances.rolled_back (proven : store.AllProven) {answer : Except MfaError Unit} :
    Advances tx store (store.rollback tx) (.done answer) :=
  ⟨proven.rollback, List.Subset.refl _, fun _ different => Row.rollback_undisturbed different, trivial⟩

omit [DecidableEq τ] in
/-- What a call does once it has read the user. -/
theorem load_advances {user : MfaUser} (call : MfaCall) (proven : store.AllProven)
    (unheld : ∀ version, ¬store.user.HeldBy tx version) :
    Advances tx store (load codeAt tx store user call).1 (load codeAt tx store user call).2 := by
  -- A call that is refused changes nothing.
  have idle : ∀ phase, Relies tx store phase → Advances tx store store phase :=
    fun phase relies => .elsewhere proven rfl (List.Subset.refl _) relies
  -- Only completing an enrolment may leave the factor enabled, and only with the secret that was proved.
  cases call with
  | beginEnrolment secret =>
    simp only [load]
    split
    · exact idle _ trivial
    · rename_i disabled
      refine idle _ ⟨unheld, fun enabled => absurd enabled disabled⟩
  | completeEnrolment code moment codes =>
    simp only [load]
    split
    · exact idle _ trivial
    · split
      · exact idle _ trivial
      · rename_i secret stored
        split
        · -- The code that was accepted proves the secret that is stored.
          exact idle _ trivial
        · refine .elsewhere proven rfl (List.subset_append_left _ _) ⟨unheld, fun _ => ?_⟩
          exact ⟨secret, stored, List.mem_append_right _ List.mem_cons_self⟩
  | verifySecondFactor code moment =>
    simp only [load]
    split
    · exact idle _ trivial
    · split
      · exact idle _ trivial
      · split <;> exact idle _ trivial
  | regenerateRecoveryCodes codes =>
    simp only [load]
    split
    · -- A regeneration only notes that it has begun.
      exact idle _ trivial
    · exact .elsewhere proven rfl (List.subset_append_left _ _) trivial
  | clearForUser => exact idle _ ⟨unheld, fun enabled => by cases enabled⟩

/-- Every step that overtakes nobody keeps the factor proven. -/
theorem act_advances {event : MfaEvent} (proven : store.AllProven) (relies : Relies tx store phase)
    (met : unovertaken event store phase = true)
    (acted : act codeAt tx event store phase = some (next, after)) :
    Advances tx store next after := by
  cases event with
  -- A rollback adds nothing to what is proved.
  | abort =>
    cases phase <;> simp only [act, Option.some.injEq, Prod.mk.injEq, reduceCtorEq] at acted <;>
      obtain ⟨rfl, rfl⟩ := acted <;> exact .rolled_back proven
  | advance =>
    cases phase with
    | start call =>
      simp only [act, advance] at acted
      split at acted
      · cases acted
        exact .elsewhere proven rfl (List.Subset.refl _) trivial
      · -- What the call does with the row it has loaded is a lemma of its own.
        rename_i user seen
        have advances : Advances tx store (load codeAt tx store user call).1
            (load codeAt tx store user call).2 := load_advances call proven relies
        rw [Option.some.inj acted] at advances
        exact advances
    -- The UPDATE of the user row, or nothing when the row is no longer there.
    | writing loaded assigned sweep =>
      obtain ⟨unheld, justified⟩ := relies
      simp only [act, advance, Option.map_eq_some_iff, Prod.exists] at acted
      obtain ⟨row, matched, changed, result⟩ := acted
      split at result
      · cases result
        refine ⟨proven.change changed fun current seen => ?_, List.Subset.refl _,
          fun _ different => Row.change_undisturbed different changed, ?_⟩
        · -- Flag and secret become what was assigned, since they are what was read.
          rw [Row.view_eq_committed unheld] at seen
          simp only [unovertaken, seen, Option.all_some, Bool.or_eq_true, Bool.and_eq_true,
            beq_iff_eq, reduceCtorEq, false_or] at met
          simpa only [Proven, MfaUser.flush, met.1, met.2, flushColumn_self] using justified
        · cases sweep <;> trivial
      · cases result
        exact .rolled_back proven
    -- The recovery codes are other rows, so what follows leaves the user row.
    | reading sweep =>
      cases acted
      exact .elsewhere proven rfl (List.Subset.refl _) trivial
    | inserting sweep rest found =>
      cases rest with
      | nil =>
        cases acted
        exact .elsewhere proven rfl (List.Subset.refl _) trivial
      | cons first rest =>
        simp only [act, advance, Option.map_eq_some_iff] at acted
        obtain ⟨codes, _, result⟩ := acted
        cases result
        exact .elsewhere proven rfl (List.Subset.refl _) trivial
    | deleting sweep rest =>
      cases rest with
      | nil =>
        cases acted
        exact .elsewhere proven rfl (List.Subset.refl _) trivial
      | cons first rest =>
        simp only [act, advance, Option.map_eq_some_iff] at acted
        obtain ⟨written, _, result⟩ := acted
        cases result
        exact .elsewhere proven rfl (List.Subset.refl _) trivial
    -- The step of the counter writes the same row, under its own condition.
    | stepping counter =>
      simp only [act, advance, Option.map_eq_some_iff, Prod.exists] at acted
      obtain ⟨row, matched, changed, result⟩ := acted
      split at result
      · cases result
        -- The step changes neither the flag nor the secret.
        refine ⟨proven.change changed fun current seen => ?_, List.Subset.refl _,
          fun _ different => Row.change_undisturbed different changed, trivial⟩
        have before : Proven store.history current := proven.view seen
        exact before
      · cases result
        exact .rolled_back proven
    -- No code matches, one does, or the transaction goes back.
    | matching typed now =>
      simp only [act, advance] at acted
      split at acted
      · cases acted
        exact .rolled_back proven
      · split at acted <;> cases acted
        · exact .rolled_back proven
        · exact .elsewhere proven rfl (List.Subset.refl _) trivial
    | spending id now =>
      simp only [act, advance, Option.map_eq_some_iff, Prod.exists] at acted
      obtain ⟨codes, matched, _, result⟩ := acted
      split at result <;> cases result
      · exact .elsewhere proven rfl (List.Subset.refl _) trivial
      · exact .rolled_back proven
    -- The commit is where the held version becomes the stored one.
    | flushed outcome =>
      cases acted
      exact ⟨proven.commit outcome, List.subset_append_left _ _,
        fun _ different => Row.commit_undisturbed different, trivial⟩
    | done answer => cases acted

end MfaPhase

/-- Nobody holds the user or a code, and no call has begun. -/
structure MfaSystem.Fresh (system : MfaSystem τ) : Prop where
  user : system.store.user.held = none
  codes : ∀ id, (system.store.codes.row id).held = none
  unbegun : ∀ tx, (∃ call, system.phase tx = .start call) ∨ ∃ answer, system.phase tx = .done answer

/-- The user is written while its flag and its secret are still what the call has read. -/
abbrev UserUnovertaken [DecidableEq τ] : MfaSystem τ → τ × MfaEvent → Prop :=
  Sessions.Allows fun store event phase => MfaPhase.unovertaken event store phase = true

section Runs

variable [DecidableEq τ] {codeAt : String → Nat → String} {start last : MfaSystem τ}

/-- In every run whose writes of the user are not overtaken, a factor that is enabled has a secret
against which a code was verified. -/
theorem enabled_factor_proved {events : List (τ × MfaEvent)} (fresh : start.Fresh)
    (proved : ∀ user, start.store.user.committed = some user → Proven start.store.history user)
    (met : Guarded (mfaStep codeAt) UserUnovertaken start events)
    (ran : run (mfaStep codeAt) start events = some last) :
    ∀ user, last.store.user.committed = some user → user.mfaEnabled = true →
      ∃ secret, user.mfaSecret = some secret ∧ .proved secret ∈ last.store.history := by
  -- At the start nothing is held, and the stored factor is proved.
  have sound : Sessions.Annotated MfaStore.AllProven MfaPhase.Relies start := by
    refine ⟨⟨proved, fun tx user held => ?_⟩, fun tx => ?_⟩
    · exact absurd held (Row.not_heldBy_of_unlocked fresh.user _)
    · rcases fresh.unbegun tx with ⟨call, begun⟩ | ⟨answer, begun⟩
      · rw [begun]
        exact Row.not_heldBy_of_unlocked fresh.user
      · rw [begun]
        trivial
  -- Each event keeps what is proved and what every session relies on.
  have kept : Sessions.Annotated MfaStore.AllProven MfaPhase.Relies last := by
    refine run_invariant (fun world event next holds allowed taken => ?_) sound met ran
    obtain ⟨tx, event⟩ := event
    have acting : ∀ store phase,
        MfaPhase.act codeAt tx event world.store (world.phase tx) = some (store, phase) →
        MfaPhase.Advances tx world.store store phase := fun _ _ acted =>
      MfaPhase.act_advances holds.shared (holds.own tx) allowed acted
    refine holds.step taken (fun store phase acted => ?_) ?_
    · exact ⟨(acting store phase acted).proven, (acting store phase acted).relies⟩
    · intro store phase other progress acted different relies
      have advances := acting store phase acted
      exact relies.kept advances.grows (advances.others other different)
  exact fun user stored => kept.shared.committed user stored

/-- The codes of the first steps under the secret of the published test vectors. -/
def sampleCodeAt (_ : String) (counter : Nat) : String :=
  ["755224", "287082", "359152", "969429", "338314"].getD counter "254676"

/-- The first call completes an enrolment with a code of the first step, and the second one starts
the enrolment again. -/
def enrolTwice : MfaSystem Bool where
  store := ⟨.free (some ⟨false, some "GEZDGNBVGY3TQOJQGEZDGNBVGY3TQOJQ", none⟩), .stored [], []⟩
  phase := fun again =>
    if again then .start (.beginEnrolment "JBSWY3DPEHPK3PXPJBSWY3DPEHPK3PXP")
    else .start (.completeEnrolment "287082" 59 [(0, "ABCDEFGHJK")])

/-- The two enrolments start fresh. -/
theorem enrolTwice_fresh : enrolTwice.Fresh :=
  ⟨rfl, fun _ => rfl, fun again => by cases again <;> exact .inl ⟨_, rfl⟩⟩

/-- The row they start from is the one its history proves. -/
theorem enrolTwice_proved (user : MfaUser) (stored : enrolTwice.store.user.committed = some user) :
    Proven enrolTwice.store.history user := by
  cases stored
  exact fun enabled => by cases enabled

/-- The enrolment is complete before the other call reads, and refuses it. -/
theorem enabled_factor_proved_alone :
    ∃ last, run (mfaStep sampleCodeAt) enrolTwice
        (List.replicate 7 (false, MfaEvent.advance) ++ [(true, MfaEvent.advance)]) = some last ∧
      ∀ user, last.store.user.committed = some user → user.mfaEnabled = true →
        ∃ secret, user.mfaSecret = some secret ∧ .proved secret ∈ last.store.history := by
  have met : Guarded (mfaStep sampleCodeAt) UserUnovertaken enrolTwice
      (List.replicate 7 (false, MfaEvent.advance) ++ [(true, MfaEvent.advance)]) := by decide +kernel
  exact ⟨_, rfl, enabled_factor_proved enrolTwice_fresh enrolTwice_proved met rfl⟩

/-- Both calls read the user before either writes, and the secret of the second one replaces the
secret that was proved. -/
theorem enabled_factor_unproved : enrolTwice.Fresh ∧
    (∀ user, enrolTwice.store.user.committed = some user →
      Proven enrolTwice.store.history user) ∧
    ∃ last user, run (mfaStep sampleCodeAt) enrolTwice
        ([(true, MfaEvent.advance)] ++ List.replicate 7 (false, MfaEvent.advance) ++
          List.replicate 2 (true, MfaEvent.advance)) = some last ∧
      last.store.user.committed = some user ∧ user.mfaEnabled = true ∧
      ¬∃ secret, user.mfaSecret = some secret ∧ .proved secret ∈ last.store.history := by
  refine ⟨enrolTwice_fresh, enrolTwice_proved, _, _, rfl, rfl, rfl, ?_⟩
  rintro ⟨secret, stored, member⟩
  have same : "JBSWY3DPEHPK3PXPJBSWY3DPEHPK3PXP" = secret := Option.some.inj stored
  subst same
  exact absurd member (by decide +kernel)

end Runs

end Trusca
