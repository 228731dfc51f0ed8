import Trusca.Authz.Access
import Trusca.Store.Calls

/-! Opening a remediation pull request: the row that locks a set of bumps, the calls to GitHub, and what
an attempt leaves behind wherever it ends. -/

namespace Trusca

open Store

/-- The status of the record of a pull request. -/
inductive PullStatus where
  | creating
  | opened
  | failed
  | superseded
  deriving Repr, DecidableEq

/-- A record of a pull request for the set of bumps. -/
structure PullRow where
  status : PullStatus
  updatedAt : Time
  prNumber : Option Nat
  prUrl : Option String
  deriving Repr, DecidableEq

abbrev AttemptId := Nat

/-- A pull request on GitHub, with the attempt that opened it. -/
structure PullRequest where
  number : Nat
  url : String
  openedBy : AttemptId
  deriving Repr, DecidableEq

/-- What GitHub holds for the set of bumps; the name of the branch depends on the set alone. -/
structure GitHubRepo where
  branch : Bool
  pulls : List PullRequest
  deriving Repr, DecidableEq

/-- One attempt to open the pull request, with how each of its calls comes out. -/
structure Attempt where
  id : AttemptId
  now : Time
  /-- The process ends after it has released the lock of an attempt that was abandoned. -/
  reclaimDies : Bool
  mintToken : CallOutcome
  getBaseRefSha : CallOutcome
  createBranch : CallOutcome
  getFileSha : CallOutcome
  putManifest : CallOutcome
  openPr : CallOutcome
  /-- What GitHub would answer to the last call. -/
  number : Nat
  url : String

/-- The records for the set of bumps, in the order of their creation, and GitHub. -/
structure PullState where
  rows : List PullRow
  github : GitHubRepo

/-- How long a record may be in creation before its attempt counts as abandoned: 15 minutes. -/
def creatingStaleTtl : Int := 900

/-- Whether a record holds the lock: the partial unique index covers it. -/
def PullRow.holdsLock (row : PullRow) : Bool := row.status == .creating || row.status == .opened

/-- The record of an attempt that has just begun. -/
def creatingRow (now : Time) : PullRow := ⟨.creating, now, none, none⟩

/-- Release the lock of a record that was abandoned. -/
def reclaim (now : Time) (row : PullRow) : PullRow :=
  if row.status = .creating then { row with status := .failed, updatedAt := now } else row

/-- Take the lock: the records as they are then, and the new one unless the lock is held. -/
def persistCreatingRow (rows : List PullRow) (now : Time) (reclaimDies : Bool) :
    List PullRow × Option PullRow :=
  -- The newest of the records that hold the lock.
  match rows.reverse.find? PullRow.holdsLock with
  | none => (rows, some (creatingRow now))
  | some conflicting =>
      if conflicting.status = .opened then (rows, none)
      else if ¬conflicting.updatedAt < now - creatingStaleTtl then (rows, none)
      else
        let released := rows.map (reclaim now)
        (released, if reclaimDies then none else some (creatingRow now))

/-- GitHub refuses to create a branch that exists. -/
def githubCreateBranch (repo : GitHubRepo) : Option GitHubRepo :=
  if repo.branch then none else some { repo with branch := true }

/-- GitHub opens a pull request. -/
def githubOpenPr (attempt : Attempt) (repo : GitHubRepo) : Option GitHubRepo :=
  some { repo with pulls := repo.pulls ++ [⟨attempt.number, attempt.url, attempt.id⟩] }

/-- The calls of an attempt, in order. -/
def githubCalls (attempt : Attempt) : List (CallOutcome × (GitHubRepo → Option GitHubRepo)) :=
  [(attempt.mintToken, some), (attempt.getBaseRefSha, some),
    (attempt.createBranch, githubCreateBranch), (attempt.getFileSha, some),
    (attempt.putManifest, some), (attempt.openPr, githubOpenPr attempt)]

/-- The record after the calls. -/
def settleRow (attempt : Attempt) (record : PullRow) : CallsEnd → PullRow
  | .done =>
      { record with
        status := .opened
        updatedAt := attempt.now
        prNumber := some attempt.number
        prUrl := some attempt.url }
  | .failed => { record with status := .failed, updatedAt := attempt.now }
  -- Nothing was written any more, so the record still holds the lock.
  | .abandoned => record

namespace PullState

/-- Nothing was attempted yet. -/
def initial : PullState := ⟨[], ⟨false, []⟩⟩

/-- One attempt. -/
def createNpmRemediationPr (state : PullState) (attempt : Attempt) : PullState :=
  -- An open pull request for the bumps is returned as it is.
  if state.rows.any fun row => row.status == .opened then state
  else
    match persistCreatingRow state.rows attempt.now attempt.reclaimDies with
    | (rows, none) => { state with rows := rows }
    | (rows, some record) =>
        let (github, ending) := makeCalls state.github (githubCalls attempt)
        ⟨rows ++ [settleRow attempt record ending], github⟩

/-- The attempts in turn. -/
def attemptAll (attempts : List Attempt) : PullState :=
  attempts.foldl createNpmRemediationPr initial

end PullState

end Trusca
