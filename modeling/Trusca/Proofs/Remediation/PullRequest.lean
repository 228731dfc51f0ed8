import Mathlib.Tactic
import Trusca.Remediation.PullRequest

/-! A retry whose calls all return opens the pull request exactly when no earlier attempt has left its
branch or a fresh lock behind, and a pull request that was opened is recorded unless its answer was lost. -/

namespace Trusca

open Store

/-- All calls of an attempt return, as far as GitHub takes them. -/
def Attempt.Unhindered (attempt : Attempt) : Prop :=
  attempt.reclaimDies = false ∧ ∀ call ∈ githubCalls attempt, call.1 = .returns

/-- A retry goes through: a pull request is open already, or its branch does not exist and the lock of
every abandoned attempt is stale. -/
def PullState.Retriable (state : PullState) (now : Time) : Prop :=
  (∃ row ∈ state.rows, row.status = .opened) ∨
    state.github.branch = false ∧
      ∀ row ∈ state.rows, row.status = .creating → row.updatedAt < now - creatingStaleTtl

/-- The answer to the call that opens the pull request reaches the service, or its process ends. -/
def Attempt.Answered (attempt : Attempt) : Prop :=
  attempt.openPr ≠ .fails true ∧ attempt.openPr ≠ .escapes true

/-- A pull request is recorded with its number and its address. -/
def PullState.Records (state : PullState) (pull : PullRequest) : Prop :=
  ∃ row ∈ state.rows, row.status = .opened ∧ row.prNumber = some pull.number ∧
    row.prUrl = some pull.url

section Calls

variable {attempt : Attempt} {repo : GitHubRepo}

/-- The calls before the last one, none of which opens a pull request. -/
def preparingCalls (attempt : Attempt) : List (CallOutcome × (GitHubRepo → Option GitHubRepo)) :=
  [(attempt.mintToken, some), (attempt.getBaseRefSha, some),
    (attempt.createBranch, githubCreateBranch), (attempt.getFileSha, some),
    (attempt.putManifest, some)]

/-- The calls of an attempt are those that prepare the branch and then the one that opens the request. -/
theorem githubCalls_eq :
    githubCalls attempt = preparingCalls attempt ++ [(attempt.openPr, githubOpenPr attempt)] := rfl

/-- Unhindered calls are done exactly when the branch did not exist. -/
theorem makeCalls_unhindered (unhindered : attempt.Unhindered) :
    (makeCalls repo (githubCalls attempt)).2 = .done ↔ repo.branch = false := by
  obtain ⟨_, returned⟩ := unhindered
  simp only [githubCalls, List.mem_cons, List.not_mem_nil, or_false, forall_eq_or_imp,
    -- Each of the six calls returned.
    forall_eq] at returned
  obtain ⟨mint, base, branch, file, put, pull⟩ := returned
  simp only [githubCalls, makeCalls, mint, base, branch, file, put, pull]
  -- The branch is the one thing that can be in the way.
  cases exists_ : repo.branch with
  | true => simp [githubCreateBranch, exists_]
  | false => simp [githubCreateBranch, githubOpenPr, exists_]

/-- The preparing calls open no pull request. -/
theorem makeCalls_preparing_pulls :
    (makeCalls repo (preparingCalls attempt)).1.pulls = repo.pulls := by
  -- None of the calls before the pull request touches the pulls.
  have kept : ∀ call ∈ preparingCalls attempt, ∀ before after : GitHubRepo,
      before.pulls = repo.pulls → call.2 before = some after → after.pulls = repo.pulls := by
    intro call member before after same acted
    simp only [preparingCalls, List.mem_cons, List.not_mem_nil, or_false] at member
    rcases member with rfl | rfl | rfl | rfl | rfl
    -- The branch is the one call that can be refused; it leaves the pulls as well.
    case inr.inr.inl =>
      simp only [githubCreateBranch] at acted
      split at acted
      · cases acted
      · cases acted
        exact same
    all_goals
      cases acted
      exact same
  exact makeCalls_invariant kept rfl

/-- The calls of an attempt open no pull request, or open one and then are done, unless the last call
did not return. -/
theorem makeCalls_pulls :
    ((makeCalls repo (githubCalls attempt)).1.pulls = repo.pulls ∧
        (makeCalls repo (githubCalls attempt)).2 ≠ .done) ∨
      ((makeCalls repo (githubCalls attempt)).1.pulls =
          repo.pulls ++ [⟨attempt.number, attempt.url, attempt.id⟩] ∧
        ((makeCalls repo (githubCalls attempt)).2 = .done ∨ attempt.openPr = .fails true ∨
          attempt.openPr = .escapes true ∨ attempt.openPr = .dies true)) := by
  -- The pulls stand as before when the last call is made.
  have prepared := @makeCalls_preparing_pulls attempt repo
  rw [githubCalls_eq, makeCalls_append]
  generalize makeCalls repo (preparingCalls attempt) = result at prepared ⊢
  obtain ⟨next, ending⟩ := result
  dsimp only at prepared
  cases ending with
  -- All was prepared: the pull request is made unless the call fails before it acts.
  | done =>
    dsimp only
    cases last : attempt.openPr with
    | returns => exact .inr (by simp [makeCalls, githubOpenPr, prepared])
    | fails acted => cases acted <;> simp [makeCalls, githubOpenPr, prepared]
    | escapes acted => cases acted <;> simp [makeCalls, githubOpenPr, prepared]
    | dies acted => cases acted <;> simp [makeCalls, githubOpenPr, prepared]
  -- A failed or abandoned preparation opens no pull request.
  | failed => exact .inl ⟨prepared, by simp⟩
  | abandoned => exact .inl ⟨prepared, by simp⟩

end Calls

/-- At most one record holds the lock. -/
def LockedOnce (rows : List PullRow) : Prop :=
  rows.Pairwise fun one other => ¬(one.holdsLock = true ∧ other.holdsLock = true)

section Lock

variable {rows : List PullRow} {now : Time} {reclaimDies : Bool}

/-- A record that was released does not hold the lock, unless its pull request is open. -/
theorem holdsLock_reclaim {row : PullRow} (closed : row.status ≠ .opened) :
    (reclaim now row).holdsLock = false := by
  unfold reclaim PullRow.holdsLock
  cases status : row.status with
  | opened => exact absurd status closed
  | _ => simp [status]

/-- How the lock is taken when no pull request is open: freely, not at all, or from an attempt that was
abandoned. -/
theorem persistCreatingRow_cases (closed : ∀ row ∈ rows, row.status ≠ .opened) :
    (persistCreatingRow rows now reclaimDies = (rows, some (creatingRow now)) ∧
        ∀ row ∈ rows, row.holdsLock = false) ∨
      ∃ holder ∈ rows, holder.status = .creating ∧
        (persistCreatingRow rows now reclaimDies = (rows, none) ∧
            ¬holder.updatedAt < now - creatingStaleTtl ∨
          persistCreatingRow rows now reclaimDies = (rows.map (reclaim now),
              if reclaimDies then none else some (creatingRow now)) ∧
            holder.updatedAt < now - creatingStaleTtl) := by
  unfold persistCreatingRow
  -- Nobody holds the lock, so the row goes in.
  cases found : rows.reverse.find? PullRow.holdsLock with
  | none =>
    refine .inl ⟨rfl, ?_⟩
    intro row member
    simpa using List.find?_eq_none.mp found row (List.mem_reverse.mpr member)
  -- A holder is a creating row, since the opened ones were sent back earlier.
  | some holder =>
    have member := List.mem_reverse.mp (List.mem_of_find?_eq_some found)
    have unopened := closed holder member
    have creating : holder.status = .creating := by
      have holds := List.find?_some found
      simpa [PullRow.holdsLock, unopened] using holds
    refine .inr ⟨holder, member, creating, ?_⟩
    simp only [unopened, if_false]
    -- A fresh holder keeps the lock, a stale one is reclaimed.
    split
    · rename_i fresh
      exact .inl ⟨rfl, fresh⟩
    · rename_i stale
      exact .inr ⟨rfl, not_not.mp stale⟩

end Lock

namespace PullState

variable {state : PullState} {attempt : Attempt}

/-- What an attempt does: nothing when a pull request is open; nothing on GitHub when it does not get the
lock; else its calls, with a record of how they ended. -/
theorem create_cases (state : PullState) (attempt : Attempt) :
    ((∃ row ∈ state.rows, row.status = .opened) ∧ state.createNpmRemediationPr attempt = state) ∨
      (∀ row ∈ state.rows, row.status ≠ .opened) ∧
        ((state.createNpmRemediationPr attempt = state ∧
            ∃ holder ∈ state.rows, holder.status = .creating ∧
              ¬holder.updatedAt < attempt.now - creatingStaleTtl) ∨
          ∃ rows, (∀ row ∈ rows, row.holdsLock = false) ∧
            ((∀ row ∈ state.rows, row.holdsLock = false) ∨
              ∃ holder ∈ state.rows, holder.status = .creating ∧
                holder.updatedAt < attempt.now - creatingStaleTtl) ∧
            (attempt.reclaimDies = true ∧
                state.createNpmRemediationPr attempt = { state with rows := rows } ∨
              state.createNpmRemediationPr attempt =
                ⟨rows ++ [settleRow attempt (creatingRow attempt.now)
                    (makeCalls state.github (githubCalls attempt)).2],
                  (makeCalls state.github (githubCalls attempt)).1⟩)) := by
  -- An open pull request is answered before anything else is read.
  by_cases some_open : ∃ row ∈ state.rows, row.status = .opened
  · refine .inl ⟨some_open, ?_⟩
    obtain ⟨row, member, opened⟩ := some_open
    rw [createNpmRemediationPr, if_pos (List.any_eq_true.mpr ⟨row, member, by simp [opened]⟩)]
  · push Not at some_open
    refine .inr ⟨some_open, ?_⟩
    have none_open : ¬(state.rows.any fun row => row.status == .opened) = true := by
      simpa using some_open
    rcases @persistCreatingRow_cases state.rows attempt.now attempt.reclaimDies some_open with
      ⟨taken, free⟩ | ⟨holder, member, creating, ⟨taken, fresh⟩ | ⟨taken, stale⟩⟩
    · -- The lock is free: the calls are made and the row is settled.
      refine .inr ⟨state.rows, free, .inl free, .inr ?_⟩
      rw [createNpmRemediationPr, if_neg none_open, taken]
    · -- The lock is held by another attempt, which ends this one.
      refine .inl ⟨?_, holder, member, creating, fresh⟩
      rw [createNpmRemediationPr, if_neg none_open, taken]
    · -- The stale lock is reclaimed; the worker may die right after.
      refine .inr ⟨state.rows.map (reclaim attempt.now), ?_, .inr ⟨holder, member, creating, stale⟩, ?_⟩
      · intro row released
        obtain ⟨old, listed, rfl⟩ := List.mem_map.mp released
        exact holdsLock_reclaim (some_open old listed)
      · rw [createNpmRemediationPr, if_neg none_open, taken]
        cases dies : attempt.reclaimDies with
        | true => exact .inl ⟨rfl, rfl⟩
        | false => exact .inr rfl

/-- Records none of which holds the lock, and one more. -/
theorem lockedOnce_snoc {rows : List PullRow} (free : ∀ row ∈ rows, row.holdsLock = false)
    (last : PullRow) : LockedOnce (rows ++ [last]) := by
  refine List.pairwise_append.mpr ⟨?_, List.pairwise_singleton _ _, ?_⟩
  · -- No row in front holds the lock, so at most the last one does.
    refine List.Pairwise.imp_of_mem ?_ (List.pairwise_of_forall fun _ _ => True.intro)
    intro one other member _ _ both
    rw [free one member] at both
    cases both.1
  · intro one member other _ both
    rw [free one member] at both
    cases both.1

/-- Every attempt leaves at most one record with the lock. -/
theorem create_lockedOnce (locked : LockedOnce state.rows) :
    LockedOnce (state.createNpmRemediationPr attempt).rows := by
  -- By what the attempt did to the rows.
  rcases create_cases state attempt with ⟨_, same⟩ | ⟨_, ⟨same, _⟩ | ⟨rows, free, _, ⟨_, same⟩ | same⟩⟩
  · rwa [same]
  · rwa [same]
  · -- Reclaimed rows hold nothing.
    rw [same]
    refine List.Pairwise.imp_of_mem ?_ (List.pairwise_of_forall fun _ _ => True.intro)
    intro one other member _ _ both
    rw [free one member] at both
    cases both.1
  · -- And settled ones are followed by the attempt's own row.
    rw [same]
    exact lockedOnce_snoc free _

/-- At most one record holds the lock after any attempts. -/
theorem attemptAll_lockedOnce (attempts : List Attempt) : LockedOnce (attemptAll attempts).rows := by
  induction attempts using List.reverseRecOn with
  | nil => exact List.Pairwise.nil
  | append_singleton attempts attempt ih =>
    rw [attemptAll, List.foldl_append]
    exact create_lockedOnce ih

/-- The record of the calls is open exactly when they are done. -/
theorem settleRow_opened {now : Time} {ending : CallsEnd} :
    (settleRow attempt (creatingRow now) ending).status = .opened ↔ ending = .done := by
  cases ending <;> simp [settleRow, creatingRow]

/-- An unhindered retry ends with an open pull request exactly when nothing stands in its way. -/
theorem unhindered_opens_iff (locked : LockedOnce state.rows) (unhindered : attempt.Unhindered) :
    (∃ row ∈ (state.createNpmRemediationPr attempt).rows, row.status = .opened) ↔
      state.Retriable attempt.now := by
  unfold Retriable
  rcases create_cases state attempt with ⟨opened, same⟩ |
      ⟨closed, ⟨same, holder, member, creating, fresh⟩ | ⟨rows, free, lock, ⟨dies, _⟩ | same⟩⟩
  · -- Opened before, so the call answers with the open one.
    rw [same]
    exact iff_of_true opened (.inl opened)
  · -- The lock is held by a record that is still fresh.
    rw [same]
    refine iff_of_false (fun ⟨row, listed, opened⟩ => closed row listed opened) ?_
    rintro (⟨row, listed, opened⟩ | ⟨_, stale⟩)
    · exact closed row listed opened
    · exact fresh (stale holder member creating)
  · -- A call that dies is excluded.
    rw [unhindered.1] at dies
    cases dies
  · -- The lock is taken over: no row is open, and whoever held it is stale.
    have freed : ∀ row ∈ rows, row.status ≠ .opened := by
      intro row listed opened
      have held := free row listed
      simp [PullRow.holdsLock, opened] at held
    have stale : ∀ row ∈ state.rows, row.status = .creating →
        row.updatedAt < attempt.now - creatingStaleTtl := by
      intro row listed creating
      have holds : row.holdsLock = true := by simp [PullRow.holdsLock, creating]
      rcases lock with free | ⟨holder, member, held, stale⟩
      · rw [free row listed] at holds
        cases holds
      · by_cases same : row = holder
        · rwa [same]
        · -- Two records would hold the lock at once.
          have both : holder.holdsLock = true := by simp [PullRow.holdsLock, held]
          have : Std.Symm fun one other : PullRow =>
              ¬(one.holdsLock = true ∧ other.holdsLock = true) :=
            ⟨fun _ _ apart both => apart both.symm⟩
          exact absurd ⟨holds, both⟩ (List.Pairwise.forall locked listed member same)
    rw [same]
    simp only [List.mem_append, List.mem_singleton, or_and_right, exists_or, exists_eq_left,
      settleRow_opened, makeCalls_unhindered unhindered]
    constructor
    · rintro (⟨row, listed, opened⟩ | absent)
      · exact absurd opened (freed row listed)
      · exact .inr ⟨absent, stale⟩
    · rintro (⟨row, listed, opened⟩ | ⟨absent, _⟩)
      · exact absurd opened (closed row listed)
      · exact .inr absent

/-- Every pull request that was opened is recorded, unless its attempt died right after opening it. -/
theorem attemptAll_records (attempts : List Attempt)
    (answered : ∀ attempt ∈ attempts, attempt.Answered) :
    ∀ pull ∈ (attemptAll attempts).github.pulls, (attemptAll attempts).Records pull ∨
      ∃ attempt ∈ attempts, attempt.id = pull.openedBy ∧ attempt.openPr = .dies true := by
  -- Along the attempts, the last one first.
  induction attempts using List.reverseRecOn with
  | nil => simp [attemptAll, initial]
  | append_singleton attempts attempt ih =>
    have before := ih fun other member => answered other (List.mem_append_left _ member)
    have mine := answered attempt (by simp)
    have shape : attemptAll (attempts ++ [attempt]) =
        (attemptAll attempts).createNpmRemediationPr attempt := by
      simp [attemptAll, List.foldl_append]
    rw [shape]
    generalize attemptAll attempts = state at before
    -- Where no row is open, a pull there must be one of an attempt that died in the call.
    have kept : (∀ row ∈ state.rows, row.status ≠ .opened) → ∀ pull ∈ state.github.pulls,
        ∃ earlier ∈ attempts ++ [attempt], earlier.id = pull.openedBy ∧ earlier.openPr = .dies true := by
      intro closed pull listed
      rcases before pull listed with ⟨row, member, opened, _⟩ | ⟨earlier, member, dead⟩
      · exact absurd opened (closed row member)
      · exact ⟨earlier, List.mem_append_left _ member, dead⟩
    -- What the last attempt did, case by case.
    rcases create_cases state attempt with ⟨_, same⟩ |
        ⟨closed, ⟨same, _⟩ | ⟨rows, free, _, ⟨_, same⟩ | same⟩⟩
    · rw [same]
      intro pull listed
      refine (before pull listed).imp_right ?_
      rintro ⟨earlier, member, dead⟩
      exact ⟨earlier, List.mem_append_left _ member, dead⟩
    · rw [same]
      exact fun pull listed => .inr (kept closed pull listed)
    · rw [same]
      exact fun pull listed => .inr (kept closed pull listed)
    · rw [same]
      intro pull listed
      -- The calls open nothing more, or exactly the attempt's own pull request.
      rcases @makeCalls_pulls attempt state.github with ⟨unchanged, _⟩ | ⟨grown, ended⟩
      · rw [unchanged] at listed
        exact .inr (kept closed pull listed)
      · rw [grown, List.mem_append, List.mem_singleton] at listed
        rcases listed with old | rfl
        · exact .inr (kept closed pull old)
        · -- The answer came, or it was lost: only a death in the call leaves the pull without a row.
          rcases ended with done | lost | escaped | died
          · rw [done]
            exact .inl ⟨_, List.mem_append_right _ List.mem_cons_self, rfl, rfl, rfl⟩
          · exact absurd lost mine.1
          · exact absurd escaped mine.2
          · exact .inr ⟨attempt, by simp, rfl, died⟩

end PullState

/-- After any attempts, an unhindered retry ends with an open pull request exactly when a pull request is
open, or the branch does not exist and no fresh lock is held; and when no answer to the last call was
lost, every pull request is recorded unless its attempt died right after opening it. -/
theorem remediation_attempts_recover (attempts : List Attempt) (retry : Attempt)
    (answered : ∀ attempt ∈ attempts, attempt.Answered) (unhindered : retry.Unhindered) :
    ((∃ row ∈ ((PullState.attemptAll attempts).createNpmRemediationPr retry).rows,
          row.status = .opened) ↔
        (PullState.attemptAll attempts).Retriable retry.now) ∧
      ∀ pull ∈ (PullState.attemptAll attempts).github.pulls,
        (PullState.attemptAll attempts).Records pull ∨
          ∃ attempt ∈ attempts, attempt.id = pull.openedBy ∧ attempt.openPr = .dies true :=
  ⟨PullState.unhindered_opens_iff (PullState.attemptAll_lockedOnce attempts) unhindered,
    PullState.attemptAll_records attempts answered⟩

/-- An attempt all of whose calls return but one of the last two. -/
def demoAttempt (id : AttemptId) (now : Time) (putManifest openPr : CallOutcome) : Attempt where
  id := id
  now := now
  reclaimDies := false
  mintToken := .returns
  getBaseRefSha := .returns
  createBranch := .returns
  getFileSha := .returns
  putManifest := putManifest
  openPr := openPr
  number := 40 + id
  url := "pull"

/-- Nothing hinders the attempt. -/
theorem demoAttempt_unhindered (id : AttemptId) (now : Time) :
    (demoAttempt id now .returns .returns).Unhindered := by
  refine ⟨rfl, ?_⟩
  intro call member
  simp only [githubCalls, demoAttempt, List.mem_cons, List.not_mem_nil, or_false] at member
  rcases member with rfl | rfl | rfl | rfl | rfl | rfl <;> rfl

/-- An attempt without a token leaves nothing behind, and the retry opens the pull request. -/
theorem remediation_attempts_recover_token :
    ∃ row ∈ ((PullState.attemptAll
        [{ demoAttempt 1 0 .returns .returns with mintToken := .fails false }]).createNpmRemediationPr
          (demoAttempt 2 10 .returns .returns)).rows, row.status = .opened := by
  refine (remediation_attempts_recover
    [{ demoAttempt 1 0 .returns .returns with mintToken := .fails false }]
    (demoAttempt 2 10 .returns .returns) ?_ (demoAttempt_unhindered 2 10)).1.mpr
    (.inr ⟨by decide, by decide⟩)
  intro attempt member
  rw [List.mem_singleton.mp member]
  exact ⟨nofun, nofun⟩

/-- A commit that fails leaves the branch behind, and every retry of the same bumps fails at creating it;
and a pull request whose answer was lost is recorded nowhere. -/
theorem remediation_attempts_stuck :
    (((PullState.attemptAll [demoAttempt 1 0 (.fails false) .returns]).createNpmRemediationPr
        (demoAttempt 2 5000 .returns .returns)).createNpmRemediationPr
          (demoAttempt 3 10000 .returns .returns)).rows.map PullRow.status =
        [.failed, .failed, .failed] ∧
      (PullState.attemptAll [demoAttempt 1 0 .returns (.fails true)]).github.pulls =
        [⟨41, "pull", 1⟩] ∧
      (PullState.attemptAll [demoAttempt 1 0 .returns (.fails true)]).rows =
        [⟨.failed, 0, none, none⟩] := by
  decide

end Trusca
