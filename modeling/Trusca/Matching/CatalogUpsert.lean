import Trusca.Matching.Rematch

/-! The row of a vulnerability in the catalog, with its scores, as an entry of a report inserts, finds or
refreshes it. -/

namespace Trusca

/-- A row of the catalog with the scores that predict its exploitation. -/
structure ScoredCatalogRow extends CatalogRow where
  epssScore : Option Rat
  epssPercentile : Option Rat
  deriving DecidableEq

/-- An entry of a report with what it says about those scores. -/
structure ScoredTrivyVuln extends TrivyVuln where
  epss : Json
  deriving DecidableEq

section Scores

/-- A score between zero and one; whatever else is no score. The conversion of a large integer raises. -/
def coerceScore : Json → Except Unit (Option Rat)
  | .num value =>
      -- An integer beyond the range of a float raises, any other number is compared.
      if value.isInt && decide (floatOverflow ≤ value.num.natAbs) then .error ()
      -- Not a probability: dropped without an error.
      else if value < 0 || 1 < value then .ok none
      else .ok (some value)
  | _ => .ok none

/-- The score and the percentile of an entry. -/
def extractEpss (epss : Json) : Except Unit (Option Rat × Option Rat) :=
  match epss with
  | .obj fields => do
      let score ← coerceScore (((Json.obj fields).get? "Score").getD .null)
      let percentile ← coerceScore (((Json.obj fields).get? "Percentile").getD .null)
      return (score, percentile)
  -- An entry without the object has neither score.
  | _ => .ok (none, none)

end Scores

section Upsert

/-- A stale row with its scores brought up to date. -/
def refreshScoredRow (row : ScoredCatalogRow) (vuln : ScoredTrivyVuln) :
    Except Unit ScoredCatalogRow := do
  let (score, percentile) ← extractEpss vuln.epss
  return {
    toCatalogRow := refreshStaleCatalogRow row.toCatalogRow vuln.toTrivyVuln
    -- A score that is missing does not erase the one stored.
    epssScore := score.or row.epssScore
    epssPercentile := percentile.or row.epssPercentile }

/-- The row that an entry is inserted with. -/
def newScoredRow (vuln : ScoredTrivyVuln) : Except Unit ScoredCatalogRow := do
  let (score, percentile) ← extractEpss vuln.epss
  return { toCatalogRow := newCatalogRow vuln.toTrivyVuln, epssScore := score, epssPercentile := percentile }

/-- A row as it is, or refreshed when it is stale. -/
def refreshIfStale (row : ScoredCatalogRow) (vuln : ScoredTrivyVuln) : Except Unit ScoredCatalogRow :=
  if isStaleCatalogRow row.toCatalogRow then refreshScoredRow row vuln else .ok row

/-- What became of the insertion. -/
inductive InsertAttempt where
  | inserted
  /-- Somebody else inserted the row first; this is what is there then, if anything. -/
  | lost (winner : Option ScoredCatalogRow)

/-- Insert the row of an entry, or refresh and return the one that is there; and whether the insertion was
lost to somebody else. -/
def upsertScoredFromTrivy (existing : Option ScoredCatalogRow) (vuln : ScoredTrivyVuln)
    (attempt : InsertAttempt) : Except Unit (Option ScoredCatalogRow × Bool) :=
  match existing with
  -- Known already: refreshed where the feed is newer.
  | some row => do
      let row ← refreshIfStale row vuln
      return (some row, false)
  | none => do
      let row ← newScoredRow vuln
      -- The insert runs under a savepoint, and may lose against another task.
      match attempt with
      | .inserted => return (some row, false)
      | .lost none => return (none, true)
      -- The loser reads the winner's row again and refreshes it as if it had been there.
      | .lost (some winner) =>
          let winner ← refreshIfStale winner vuln
          return (some winner, true)

end Upsert

end Trusca
