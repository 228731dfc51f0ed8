import Mathlib.Data.List.Nodup
import Mathlib.Data.List.Perm.Subperm
import Trusca.Account.PendingToken

/-! A pending token is worth three code checks and one session. -/

namespace Trusca

open Store

variable {τ : Type*}

namespace MfaVerifyPhase

/-- The request has an attempt of the token and is still at work. -/
def counted : MfaVerifyPhase → Bool
  | .attempted _ | .claimed _ | .checking _ | .wrongCode | .accepted _ => true
  | _ => false

/-- The request may still come to the check of its code. -/
def awaits : MfaVerifyPhase → Bool
  | .start _ | .decoded _ | .attempted _ | .claimed _ => true
  | _ => false

/-- The request has the claim and may still give it back or issue a session. -/
def claims : MfaVerifyPhase → Bool
  | .claimed _ | .checking _ | .wrongCode | .accepted _ => true
  | _ => false

end MfaVerifyPhase

/-- The counter stands for the admitted requests, and only these have had a code checked. -/
structure Tallied (admitted : List τ) (system : MfaVerifySystem τ) : Prop where
  lasting : ∀ entry, system.store.attempts = some entry →
    system.store.issuedAt + pendingWindow ≤ entry.expires ∧ admitted.length ≤ entry.value
  unused : system.store.attempts = none → admitted = []
  bounded : admitted.length ≤ mfaAttemptsPerToken
  counted : ∀ tx, (system.phase tx).counted = true → tx ∈ admitted
  checked : ∀ tx ∈ system.store.checked, tx ∈ admitted
  once : system.store.checked.Nodup
  awaits : ∀ tx, (system.phase tx).awaits = true → tx ∉ system.store.checked

/-- At most one request has the claim, and none has it once a session is issued. -/
structure Claimed (system : MfaVerifySystem τ) : Prop where
  lasting : ∀ entry, system.store.spent = some entry →
    system.store.issuedAt + pendingWindow ≤ entry.expires
  held : ∀ tx, (system.phase tx).claims = true →
    system.store.spent ≠ none ∧ system.store.sessions = []
  alone : ∀ tx other, (system.phase tx).claims = true → (system.phase other).claims = true →
    other = tx
  used : system.store.sessions ≠ [] → system.store.spent ≠ none
  single : system.store.sessions.length ≤ 1

/-- What holds of a token for as long as its keys are kept. -/
structure Exchanging (system : MfaVerifySystem τ) : Prop where
  made : system.store.issuedAt ≤ system.store.now
  kept : system.store.now < system.store.issuedAt + pendingWindow →
    (∃ admitted, Tallied admitted system) ∧ Claimed system

/-- The token has just been made, and no request has come further than its start. -/
structure MfaVerifySystem.Fresh (system : MfaVerifySystem τ) : Prop where
  made : system.store.issuedAt ≤ system.store.now
  attempts : system.store.attempts = none
  spent : system.store.spent = none
  checked : system.store.checked = []
  sessions : system.store.sessions = []
  phases : ∀ tx, ∃ request, system.phase tx = .start request

variable [DecidableEq τ] {system : MfaVerifySystem τ} {tx : τ} {admitted : List τ}
  {token : PendingToken τ} {after : MfaVerifyPhase}

/-- A property of a phase that a step does not give to the acting request was there before. -/
theorem phase_of_update {has : MfaVerifyPhase → Bool} {other : τ}
    (kept : has after = true → has (system.phase tx) = true)
    (holds : has (Function.update system.phase tx after other) = true) :
    has (system.phase other) = true := by
  by_cases same : other = tx
  · subst same
    exact kept (by simpa using holds)
  · simpa [Function.update_of_ne same] using holds

/-- The acting request's part of a property of phases. -/
theorem phase_of_update_or {has : MfaVerifyPhase → Bool} {other : τ}
    (holds : has (Function.update system.phase tx after other) = true) :
    other = tx ∨ has (system.phase other) = true := by
  by_cases same : other = tx
  · exact .inl same
  · exact .inr (by simpa [Function.update_of_ne same] using holds)

/-- A step that neither counts an attempt nor checks a code. -/
theorem Tallied.moved (tallied : Tallied admitted system)
    (issued : token.issuedAt = system.store.issuedAt)
    (attempts : token.attempts = system.store.attempts)
    (checked : token.checked = system.store.checked)
    (counted : after.counted = true → (system.phase tx).counted = true)
    (awaits : after.awaits = true → (system.phase tx).awaits = true) :
    Tallied admitted ⟨token, Function.update system.phase tx after⟩ where
  -- The counter and the checks are those of before; only the phase of one call has changed.
  lasting entry stored := by
    rw [issued]
    exact tallied.lasting entry (attempts.symm.trans stored)
  unused none_yet := tallied.unused (attempts.symm.trans none_yet)
  bounded := tallied.bounded
  counted other holds := tallied.counted other (phase_of_update counted holds)
  checked other member := tallied.checked other (checked ▸ member)
  once := checked ▸ tallied.once
  awaits other holds member :=
    tallied.awaits other (phase_of_update awaits holds) (checked ▸ member)

/-- A step that leaves the claim and the sessions alone. -/
theorem Claimed.moved (claimed : Claimed system)
    (issued : token.issuedAt = system.store.issuedAt)
    (spent : token.spent = system.store.spent)
    (sessions : token.sessions = system.store.sessions)
    (claims : after.claims = true → (system.phase tx).claims = true) :
    Claimed ⟨token, Function.update system.phase tx after⟩ where
  -- The spend marker and the sessions are those of before.
  lasting entry stored := by
    rw [issued]
    exact claimed.lasting entry (spent.symm.trans stored)
  held other holds := by
    rw [spent, sessions]
    exact claimed.held other (phase_of_update claims holds)
  alone first second holds also :=
    claimed.alone first second (phase_of_update claims holds) (phase_of_update claims also)
  used issuedOne := by
    rw [spent]
    exact claimed.used (sessions ▸ issuedOne)
  single := sessions ▸ claimed.single

omit [DecidableEq τ] in
/-- As long as the keys are kept, the counter that is stored is the counter that is found. -/
theorem Tallied.attempts_at (tallied : Tallied admitted system)
    (alive : system.store.now < system.store.issuedAt + pendingWindow) :
    system.store.attempts.at? system.store.now = system.store.attempts := by
  cases stored : system.store.attempts with
  | none => rfl
  | some entry =>
    have lasts := (tallied.lasting entry stored).1
    exact Key.at?_eq_some.mpr ⟨rfl, by omega⟩

omit [DecidableEq τ] in
/-- As long as the keys are kept, the claim that is stored is the claim that is found. -/
theorem Claimed.spent_at (claimed : Claimed system)
    (alive : system.store.now < system.store.issuedAt + pendingWindow) :
    system.store.spent.at? system.store.now = system.store.spent := by
  cases stored : system.store.spent with
  | none => rfl
  | some entry =>
    have lasts := claimed.lasting entry stored
    exact Key.at?_eq_some.mpr ⟨rfl, by omega⟩

/-- Counting an attempt admits the request, or finds that no attempt is left. -/
theorem Tallied.attempt (tallied : Tallied admitted system)
    (made : system.store.issuedAt ≤ system.store.now)
    (alive : system.store.now < system.store.issuedAt + pendingWindow)
    {request : MfaVerifyRequest} (here : system.phase tx = .decoded request) :
    ∃ admitted, Tallied admitted ⟨system.store.spendAttempt.1, Function.update system.phase tx
      (if system.store.spendAttempt.2 = true then .attempted request else .exhausted)⟩ := by
  have found := tallied.attempts_at alive
  -- The counter after the step, and how it compares with what it stood for.
  obtain ⟨used, stored, lasts, counts, left⟩ : ∃ used : Entry Nat,
      system.store.spendAttempt.1 = { system.store with attempts := some used } ∧
      system.store.issuedAt + pendingWindow ≤ used.expires ∧
      admitted.length + 1 ≤ used.value ∧
      system.store.spendAttempt.2 = decide (used.value ≤ mfaAttemptsPerToken) := by
    unfold PendingToken.spendAttempt
    rw [found]
    cases stored : system.store.attempts with
    | none =>
      refine ⟨_, rfl, ?_, ?_, rfl⟩
      · exact Nat.add_le_add_right made _
      · rw [tallied.unused stored]
        exact Nat.le_refl _
    | some entry =>
      obtain ⟨lasts, counts⟩ := tallied.lasting entry stored
      exact ⟨_, rfl, lasts, Nat.succ_le_succ counts, rfl⟩
  rw [stored, left]
  by_cases budget : used.value ≤ mfaAttemptsPerToken
  · -- The request is admitted.
    refine ⟨admitted ++ [tx], ?_⟩
    simp only [budget, decide_true, if_true]
    constructor
    case lasting =>
      intro entry same
      cases Option.some.inj same
      exact ⟨lasts, by simpa using counts⟩
    case unused => exact fun empty => nomatch empty
    case bounded =>
      simp only [List.length_append, List.length_singleton]
      omega
    case counted =>
      intro other holds
      rcases phase_of_update_or holds with rfl | before
      · simp
      · exact List.mem_append_left _ (tallied.counted other before)
    case checked => exact fun other member => List.mem_append_left _ (tallied.checked other member)
    case once => exact tallied.once
    case awaits =>
      intro other holds
      exact tallied.awaits other (phase_of_update (fun _ => by rw [here]; rfl) holds)
  · -- The counter is past its bound, and nobody is admitted.
    refine ⟨admitted, ?_⟩
    simp only [budget, decide_false, Bool.false_eq_true, if_false]
    constructor
    case lasting =>
      intro entry same
      cases Option.some.inj same
      exact ⟨lasts, by omega⟩
    case unused => exact fun empty => nomatch empty
    case bounded => exact tallied.bounded
    case counted => exact fun other holds =>
      tallied.counted other (phase_of_update (by simp [MfaVerifyPhase.counted]) holds)
    case checked => exact tallied.checked
    case once => exact tallied.once
    case awaits =>
      intro other holds
      exact tallied.awaits other (phase_of_update (by simp [MfaVerifyPhase.awaits]) holds)

/-- A request that comes to the check had not been there. -/
theorem Tallied.check (tallied : Tallied admitted system) {request : MfaVerifyRequest}
    (here : system.phase tx = .claimed request) :
    Tallied admitted
      ⟨{ system.store with checked := system.store.checked ++ [tx] },
        Function.update system.phase tx (.checking request)⟩ where
  lasting := tallied.lasting
  unused := tallied.unused
  bounded := tallied.bounded
  -- The step only adds this request to the checked ones.
  counted other holds := tallied.counted other (phase_of_update (fun _ => by rw [here]; rfl) holds)
  -- A checked request has been counted, whether before or now.
  checked other member := by
    rcases List.mem_append.mp member with before | now
    · exact tallied.checked other before
    · cases List.mem_singleton.mp now
      exact tallied.counted tx (by rw [here]; rfl)
  -- It was waiting, so it has not been checked before.
  once := by
    have awaited : tx ∉ system.store.checked := tallied.awaits tx (by rw [here]; rfl)
    exact List.nodup_append.mpr ⟨tallied.once, List.nodup_singleton tx, by
      intro other member _ last
      cases List.mem_singleton.mp last
      exact fun same => awaited (same ▸ member)⟩
  awaits other holds member := by
    by_cases same : other = tx
    · -- The request itself is past waiting.
      subst same
      simp [MfaVerifyPhase.awaits] at holds
    · have before : (system.phase other).awaits = true := by
        simpa [Function.update_of_ne same] using holds
      rcases List.mem_append.mp member with earlier | now
      · exact tallied.awaits other before earlier
      · exact same (List.mem_singleton.mp now)

/-- A claim is taken only where nobody has one and no session is issued. -/
theorem Claimed.take (claimed : Claimed system)
    (made : system.store.issuedAt ≤ system.store.now)
    (free : system.store.spent = none) :
    Claimed ⟨{ system.store with spent := some ⟨(), system.store.now + pendingWindow⟩ },
      Function.update system.phase tx after⟩ := by
  have nobody : ∀ other, (system.phase other).claims ≠ true := fun other holds =>
    (claimed.held other holds).1 free
  have no_session : system.store.sessions = [] := by
    by_contra issued
    exact claimed.used issued free
  -- Whoever has a claim afterwards is the request that has just taken it.
  have mine : ∀ other, (Function.update system.phase tx after other).claims = true → other = tx :=
    fun other holds => (phase_of_update_or holds).resolve_right (nobody other)
  constructor
  case lasting =>
    intro entry same
    cases Option.some.inj same
    exact Nat.add_le_add_right made _
  case held => exact fun other holds => ⟨nofun, no_session⟩
  case alone => exact fun first second holds also => (mine second also).trans (mine first holds).symm
  case used => exact fun _ => nofun
  case single => simp [no_session]

/-- Trying to take the claim; the request has it only if it was free. -/
theorem Claimed.spendOnce (claimed : Claimed system)
    (made : system.store.issuedAt ≤ system.store.now)
    (alive : system.store.now < system.store.issuedAt + pendingWindow)
    (claims : system.store.spendOnce.2 = false → after.claims = true →
      (system.phase tx).claims = true) :
    Claimed ⟨system.store.spendOnce.1, Function.update system.phase tx after⟩ := by
  have found := claimed.spent_at alive
  unfold PendingToken.spendOnce at claims ⊢
  -- The token is alive, so the marker says whether it was spent.
  rw [found] at claims ⊢
  cases stored : system.store.spent with
  | none => exact claimed.take made stored
  | some entry =>
    rw [stored] at claims
    exact claimed.moved rfl rfl rfl (claims rfl)

/-- Once the request with the claim has let go of it, nobody has one. -/
theorem Claimed.nobody (claimed : Claimed system) (here : (system.phase tx).claims = true)
    (leaves : after.claims = false) (other : τ) :
    (Function.update system.phase tx after other).claims ≠ true := by
  intro holds
  by_cases same : other = tx
  · subst same
    simp [leaves] at holds
  · have before : (system.phase other).claims = true := by
      simpa [Function.update_of_ne same] using holds
    exact same (claimed.alone tx other here before)

/-- The claim that is given back is the only one. -/
theorem Claimed.release (claimed : Claimed system) (here : (system.phase tx).claims = true)
    (leaves : after.claims = false) :
    Claimed ⟨system.store.releaseSpend, Function.update system.phase tx after⟩ := by
  -- The call has claimed the token and no session was issued; released, nobody claims it.
  have no_session := (claimed.held tx here).2
  have nobody := claimed.nobody here leaves
  constructor
  case lasting => exact fun entry stored => nomatch stored
  case held => exact fun other holds => absurd holds (nobody other)
  case alone => exact fun first _ holds _ => absurd holds (nobody first)
  case used => exact fun issued => absurd no_session issued
  case single => simp [PendingToken.releaseSpend, no_session]

/-- The session that is issued is the first, and its claim stays. -/
theorem Claimed.issue (claimed : Claimed system) (here : (system.phase tx).claims = true)
    (leaves : after.claims = false) :
    Claimed ⟨{ system.store with sessions := system.store.sessions ++ [tx] },
      Function.update system.phase tx after⟩ := by
  -- The claim goes over into the one session.
  obtain ⟨taken, no_session⟩ := claimed.held tx here
  have nobody := claimed.nobody here leaves
  constructor
  case lasting => exact claimed.lasting
  case held => exact fun other holds => absurd holds (nobody other)
  case alone => exact fun first _ holds _ => absurd holds (nobody first)
  case used => exact fun _ => taken
  case single => simp [no_session]

/-- What a request does to the counter and the checks, wherever it stands. -/
theorem Tallied.advance (tallied : Tallied admitted system)
    (made : system.store.issuedAt ≤ system.store.now)
    (alive : system.store.now < system.store.issuedAt + pendingWindow)
    (taken : (system.phase tx).advance tx system.store = some (token, after)) :
    ∃ admitted, Tallied admitted ⟨token, Function.update system.phase tx after⟩ := by
  -- One case for each step of a verification; only two of them touch what is counted.
  cases here : system.phase tx with
  | start request =>
    simp only [here, MfaVerifyPhase.advance] at taken
    split at taken
    all_goals
      cases taken
      exact ⟨admitted, tallied.moved rfl rfl rfl (by simp [here, MfaVerifyPhase.counted])
        (by simp [here, MfaVerifyPhase.awaits])⟩
  -- The attempt is counted here, and the check is admitted when it is within the cap.
  | decoded request =>
    simp only [here, MfaVerifyPhase.advance, Option.some.injEq, Prod.mk.injEq] at taken
    obtain ⟨rfl, rfl⟩ := taken
    exact tallied.attempt made alive here
  | exhausted =>
    simp only [here, MfaVerifyPhase.advance, Option.some.injEq, Prod.mk.injEq] at taken
    -- The exhausted token is spent, which no count depends on.
    obtain ⟨rfl, rfl⟩ := taken
    refine ⟨admitted, tallied.moved ?_ ?_ ?_ (fun left => nomatch left) fun left => nomatch left⟩
    all_goals
      unfold PendingToken.spendOnce
      split <;> rfl
  | attempted request =>
    simp only [here, MfaVerifyPhase.advance, Option.some.injEq, Prod.mk.injEq] at taken
    obtain ⟨rfl, rfl⟩ := taken
    refine ⟨admitted, tallied.moved ?_ ?_ ?_ (fun _ => by rw [here]; rfl) fun _ => by rw [here]; rfl⟩
    all_goals
      unfold PendingToken.spendOnce
      split <;> rfl
  -- The claim is turned down, or the check begins.
  | claimed request =>
    simp only [here, MfaVerifyPhase.advance] at taken
    split at taken
    · cases taken
      exact ⟨admitted, tallied.moved rfl rfl rfl (fun left => nomatch left) fun left => nomatch left⟩
    · cases taken
      exact ⟨admitted, tallied.check here⟩
  | checking request =>
    simp only [here, MfaVerifyPhase.advance, Option.some.injEq, Prod.mk.injEq] at taken
    -- Whatever the check says, it has been counted already.
    obtain ⟨rfl, rfl⟩ := taken
    refine ⟨admitted, tallied.moved rfl rfl rfl (fun _ => by rw [here]; rfl) fun left => ?_⟩
    split at left <;> exact nomatch left
  | wrongCode =>
    simp only [here, MfaVerifyPhase.advance, Option.some.injEq, Prod.mk.injEq] at taken
    obtain ⟨rfl, rfl⟩ := taken
    exact ⟨admitted, tallied.moved rfl rfl rfl (fun left => nomatch left) fun left => nomatch left⟩
  | accepted request =>
    simp only [here, MfaVerifyPhase.advance] at taken
    split at taken
    all_goals
      cases taken
      exact ⟨admitted, tallied.moved rfl rfl rfl (fun left => nomatch left) fun left => nomatch left⟩
  | done session => simp [here, MfaVerifyPhase.advance] at taken

/-- What a request does to the claim and the sessions, wherever it stands. -/
theorem Claimed.advance (claimed : Claimed system)
    (made : system.store.issuedAt ≤ system.store.now)
    (alive : system.store.now < system.store.issuedAt + pendingWindow)
    (taken : (system.phase tx).advance tx system.store = some (token, after)) :
    Claimed ⟨token, Function.update system.phase tx after⟩ := by
  cases here : system.phase tx with
  -- Refused at the start, or decoded: the claim is nobody's yet.
  | start request =>
    simp only [here, MfaVerifyPhase.advance] at taken
    split at taken
    all_goals
      cases taken
      exact claimed.moved rfl rfl rfl fun left => nomatch left
  | decoded request =>
    simp only [here, MfaVerifyPhase.advance, Option.some.injEq, Prod.mk.injEq] at taken
    obtain ⟨rfl, rfl⟩ := taken
    refine claimed.moved rfl rfl rfl fun left => ?_
    split at left <;> exact nomatch left
  -- The attempt is counted here, and the counter never runs backwards.
  | exhausted =>
    simp only [here, MfaVerifyPhase.advance, Option.some.injEq, Prod.mk.injEq] at taken
    obtain ⟨rfl, rfl⟩ := taken
    exact claimed.spendOnce made alive fun _ left => nomatch left
  | attempted request =>
    simp only [here, MfaVerifyPhase.advance, Option.some.injEq, Prod.mk.injEq] at taken
    obtain ⟨rfl, rfl⟩ := taken
    refine claimed.spendOnce made alive fun refused left => ?_
    -- A request that was refused does not go on.
    simp [refused, MfaVerifyPhase.claims] at left
  -- The claim has been made, and the checks only read it.
  | claimed request =>
    simp only [here, MfaVerifyPhase.advance] at taken
    split at taken
    all_goals
      cases taken
      exact claimed.moved rfl rfl rfl fun _ => by rw [here]; rfl
  | checking request =>
    simp only [here, MfaVerifyPhase.advance, Option.some.injEq, Prod.mk.injEq] at taken
    obtain ⟨rfl, rfl⟩ := taken
    exact claimed.moved rfl rfl rfl fun _ => by rw [here]; rfl
  -- A wrong code gives the claim back.
  | wrongCode =>
    simp only [here, MfaVerifyPhase.advance, Option.some.injEq, Prod.mk.injEq] at taken
    obtain ⟨rfl, rfl⟩ := taken
    exact claimed.release (by rw [here]; rfl) rfl
  -- Of an accepted code the session is issued, or the claim stays for nobody.
  | accepted request =>
    simp only [here, MfaVerifyPhase.advance] at taken
    split at taken
    · cases taken
      exact claimed.moved rfl rfl rfl fun left => nomatch left
    · cases taken
      exact claimed.issue (by rw [here]; rfl) rfl
  | done session => simp [here, MfaVerifyPhase.advance] at taken

omit [DecidableEq τ] in
/-- A request takes no time, and does not change when the token was made. -/
theorem MfaVerifyPhase.advance_clock {phase : MfaVerifyPhase} {store : PendingToken τ}
    (taken : phase.advance tx store = some (token, after)) :
    token.now = store.now ∧ token.issuedAt = store.issuedAt := by
  -- Spending touches the marker and no clock.
  have spends : store.spendOnce.1.now = store.now ∧
      store.spendOnce.1.issuedAt = store.issuedAt := by
    unfold PendingToken.spendOnce
    split <;> exact ⟨rfl, rfl⟩
  -- The steps that spend, those that leave the token, and those that branch.
  cases phase
  all_goals
    simp only [MfaVerifyPhase.advance, Option.some.injEq, Prod.mk.injEq, reduceCtorEq] at taken
  case exhausted => exact taken.1 ▸ spends
  case attempted => exact taken.1 ▸ spends
  case decoded => exact taken.1 ▸ ⟨rfl, rfl⟩
  case checking => exact taken.1 ▸ ⟨rfl, rfl⟩
  case wrongCode => exact taken.1 ▸ ⟨rfl, rfl⟩
  all_goals
    split at taken <;> cases taken <;> exact ⟨rfl, rfl⟩

/-- One event of one request keeps what holds of the token. -/
theorem Exchanging.step {next : MfaVerifySystem τ} {event : τ × MfaVerifyEvent}
    (exchanging : Exchanging system) (taken : mfaVerifyStep system event = some next) :
    Exchanging next := by
  obtain ⟨tx, event⟩ := event
  obtain ⟨token, after, acted, rfl⟩ := Sessions.step_eq_some.mp taken
  cases event with
  | advance =>
    obtain ⟨clock, issued⟩ := MfaVerifyPhase.advance_clock acted
    refine ⟨by simpa only [clock, issued] using exchanging.made, fun alive => ?_⟩
    rw [show (Sessions.mk token _ : MfaVerifySystem τ).store = token from rfl, clock, issued] at alive
    obtain ⟨⟨admitted, tallied⟩, claimed⟩ := exchanging.kept alive
    exact ⟨tallied.advance exchanging.made alive acted, claimed.advance exchanging.made alive acted⟩
  | wait elapsed =>
    simp only [MfaVerifyPhase.act, Option.some.injEq, Prod.mk.injEq] at acted
    obtain ⟨rfl, rfl⟩ := acted
    refine ⟨Nat.le_add_right_of_le exchanging.made, fun alive => ?_⟩
    -- The keys that are kept after the wait were kept before it.
    obtain ⟨⟨admitted, tallied⟩, claimed⟩ :=
      exchanging.kept (Nat.lt_of_le_of_lt (Nat.le_add_right _ _) alive)
    exact ⟨⟨admitted, tallied.moved rfl rfl rfl id id⟩, claimed.moved rfl rfl rfl id⟩

omit [DecidableEq τ] in
/-- A token that has just been made. -/
theorem MfaVerifySystem.Fresh.exchanging (fresh : system.Fresh) : Exchanging system := by
  refine ⟨fresh.made, fun _ => ⟨⟨[], ?_⟩, ?_⟩⟩
  · -- Nobody has been counted, and no attempt is stored.
    have idle : ∀ tx, (system.phase tx).counted = false := by
      intro tx
      obtain ⟨request, here⟩ := fresh.phases tx
      rw [here]
      rfl
    constructor
    case lasting => exact fun entry stored => nomatch fresh.attempts.symm.trans stored
    case unused => exact fun _ => rfl
    case bounded => exact Nat.zero_le _
    case counted => exact fun tx holds => absurd holds (by simp [idle])
    case checked => simp [fresh.checked]
    case once => simp [fresh.checked]
    case awaits => simp [fresh.checked]
  · -- Nobody has claimed the token, and no session was issued.
    have idle : ∀ tx, (system.phase tx).claims = false := by
      intro tx
      obtain ⟨request, here⟩ := fresh.phases tx
      rw [here]
      rfl
    constructor
    case lasting => exact fun entry stored => nomatch fresh.spent.symm.trans stored
    case held => exact fun tx holds => absurd holds (by simp [idle])
    case alone => exact fun tx _ holds _ => absurd holds (by simp [idle])
    case used => exact fun issued => absurd fresh.sessions issued
    case single => simp [fresh.sessions]

omit [DecidableEq τ] in
/-- The distinct requests that had a code checked are among those admitted. -/
theorem Tallied.checked_length (tallied : Tallied admitted system) :
    system.store.checked.length ≤ mfaAttemptsPerToken := by
  classical
  calc system.store.checked.length
      ≤ admitted.length := (List.subperm_of_subset tallied.once tallied.checked).length_le
    _ ≤ mfaAttemptsPerToken := tallied.bounded

omit [DecidableEq τ] in
/-- A token that is valid has its keys kept. -/
theorem pendingExpiry_le (issuedAt : Nat) : pendingExpiry issuedAt ≤ issuedAt + pendingWindow :=
  Nat.div_mul_le_self _ _

/-- For the whole lifetime of a pending token, whichever requests present it and however their steps
interleave, at most three of them have a code checked and at most one issues a session. -/
theorem pending_token_exchanged_once {last : MfaVerifySystem τ} {events : List (τ × MfaVerifyEvent)}
    (fresh : system.Fresh) (ran : run mfaVerifyStep system events = some last)
    (valid : last.store.now < pendingExpiry last.store.issuedAt) :
    last.store.checked.length ≤ mfaAttemptsPerToken ∧ last.store.sessions.length ≤ 1 := by
  have exchanging : Exchanging last :=
    run_invariant (fun _ _ _ holds _ taken => Exchanging.step holds taken) fresh.exchanging
      (Guarded.trivially system events) ran
  obtain ⟨⟨admitted, tallied⟩, claimed⟩ :=
    exchanging.kept (Nat.lt_of_lt_of_le valid (pendingExpiry_le _))
  exact ⟨tallied.checked_length, claimed.single⟩

/-- Two requests present one token, and the second one has the right code. -/
def mistypedFirst : MfaVerifySystem Bool where
  store := ⟨7500, 7300, none, none, [], []⟩
  phase := fun right => .start ⟨true, false, right, false⟩

/-- The first request gives the claim back, and the second one takes it four seconds later. -/
theorem pending_token_exchanged_once_mistyped :
    ∃ last, run mfaVerifyStep mistypedFirst (List.replicate 6 (false, MfaVerifyEvent.advance) ++
        (true, MfaVerifyEvent.wait 4000) :: List.replicate 6 (true, MfaVerifyEvent.advance)) =
          some last ∧
      last.store.checked = [false, true] ∧ last.store.sessions = [true] ∧
      last.store.checked.length ≤ mfaAttemptsPerToken ∧ last.store.sessions.length ≤ 1 := by
  -- The token is fresh, and the wrong code comes first.
  have fresh : mistypedFirst.Fresh :=
    ⟨by decide, rfl, rfl, rfl, rfl, fun right => ⟨_, rfl⟩⟩
  -- Two checks, and one session for the second of them.
  have ends : (run mfaVerifyStep mistypedFirst (List.replicate 6 (false, MfaVerifyEvent.advance) ++
      (true, MfaVerifyEvent.wait 4000) ::
        List.replicate 6 (true, MfaVerifyEvent.advance))).map (·.store) =
      some ⟨11500, 7300, some ⟨2, 307500⟩, some ⟨(), 311500⟩, [false, true], [true]⟩ := by
    decide +kernel
  obtain ⟨last, ran, stored⟩ := Option.map_eq_some_iff.mp ends
  have valid : last.store.now < pendingExpiry last.store.issuedAt := by
    rw [stored]
    decide
  exact ⟨last, ran, by rw [stored], by rw [stored], pending_token_exchanged_once fresh ran valid⟩

end Trusca
