import Mathlib.Data.Prod.Lex
import Trusca.Gate.Database
import Trusca.Upgrade.Version

/-! The upgrade that clears the open findings of one component, and how urgent it is. -/

namespace Trusca

/-- An exploit probability, in the steps of its column: whole hundred-thousandths. -/
abbrev Epss := Int

/-- How a deployment reads and compares version texts. -/
structure VersionScheme where
  Version : Type
  parseVersion : String → Option Version
  /-- Negative, zero or positive as the first version is lower, equal or higher. -/
  compareVersions : Version → Version → Int

/-- What one open finding contributes to the recommendation of its component. -/
structure FindingSignal where
  fixedVersion : Option String
  severity : Severity
  epssScore : Option Epss
  deriving Repr, DecidableEq

/-- Why a component has, or has not, a recommended version. -/
inductive RecommendationReason where
  | ok
  | noFixVersion
  | unparseableVersion
  | noOpenFindings
  deriving Repr, DecidableEq

/-- The recommendation for one component. -/
structure UpgradeRecommendation where
  recommendedVersion : Option String
  reason : RecommendationReason
  direct : Bool
  maxSeverity : Option Severity
  maxEpss : Option Epss
  findingCount : Nat
  contributingFixVersions : List String
  deriving Repr, DecidableEq

/-- The rank of a severity, the most urgent highest. -/
def severityRank : Severity → Nat
  | .critical => 5
  | .high => 4
  | .medium => 3
  | .low => 2
  | .info => 1
  | .unknown => 0

/-- The first severity of the highest rank. -/
def maxSeverity (signals : List FindingSignal) : Option Severity :=
  (signals.foldl
    (fun (best : Option Severity × Int) signal =>
      let rank : Int := severityRank signal.severity
      if rank > best.2 then (some signal.severity, rank) else best)
    (none, -1)).1

/-- The highest exploit probability that is known. -/
def maxEpss (signals : List FindingSignal) : Option Epss :=
  signals.foldl
    (fun best signal =>
      match signal.epssScore, best with
      | none, best => best
      | some score, none => some score
      | some score, some best => if score > best then some score else some best)
    none

variable (scheme : VersionScheme)

/-- The first of the highest versions, with its text. -/
def highestVersion (best : String × scheme.Version) :
    List (String × scheme.Version) → String × scheme.Version
  | [] => best
  | candidate :: rest =>
      highestVersion (if scheme.compareVersions candidate.2 best.2 > 0 then candidate else best) rest

/-- The lowest version that clears all open findings of a component at once. -/
def recommendForComponent (signals : List FindingSignal) (direct : Bool) : UpgradeRecommendation :=
  let recommend (version : Option String) (reason : RecommendationReason)
      (contributing : List String) : UpgradeRecommendation :=
    { recommendedVersion := version
      reason := reason
      direct := direct
      maxSeverity := maxSeverity signals
      maxEpss := maxEpss signals
      findingCount := signals.length
      contributingFixVersions := contributing }
  if signals.isEmpty then recommend none .noOpenFindings []
  -- A partial upgrade is not recommended: it would look like a full one.
  else if signals.any fun signal => signal.fixedVersion.isNone then
    recommend none .noFixVersion []
  else
    let parseable := (signals.filterMap FindingSignal.fixedVersion).filterMap fun raw =>
      (scheme.parseVersion raw).map fun parsed => (raw, parsed)
    match parseable with
    | [] => recommend none .unparseableVersion []
    | first :: rest =>
        recommend (some (highestVersion scheme first rest).1) .ok (parseable.map Prod.fst)

/-- The urgency of a recommendation; one that cannot be acted on loses its direct term. -/
def priorityRank (recommendation : UpgradeRecommendation) : Nat ×ₗ Nat ×ₗ Epss :=
  let directTerm :=
    if recommendation.recommendedVersion.isSome && recommendation.direct then 1 else 0
  let severityTerm := severityRank (recommendation.maxSeverity.getD .unknown)
  toLex (directTerm, toLex (severityTerm, recommendation.maxEpss.getD 0))

/-- The way of the deployment itself; a text that cannot be read counts as no version here. -/
abbrev textScheme (table : DigitTable) : VersionScheme where
  Version := ParsedVersion
  parseVersion raw :=
    match parseVersion table raw with
    | .ok parsed => parsed
    | .error _ => none
  compareVersions first second :=
    match compareVersions first second with
    | .lt => -1
    | .eq => 0
    | .gt => 1

/-- The recommendation from the texts of the fixes. They are read only when every finding has one, and
then a text that cannot be read is an error. -/
def recommendFromTexts (table : DigitTable) (signals : List FindingSignal) (direct : Bool) :
    Except ValueError UpgradeRecommendation := do
  let texts :=
    if signals.any fun signal => signal.fixedVersion.isNone then []
    else signals.filterMap FindingSignal.fixedVersion
  let _ ← texts.mapM (parseVersion table)
  return recommendForComponent (textScheme table) signals direct

end Trusca
