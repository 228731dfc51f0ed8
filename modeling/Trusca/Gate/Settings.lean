import Mathlib.Data.Rat.Defs
import Mathlib.Algebra.Order.Ring.Rat
import Trusca.Data.Json
import Trusca.Data.Text
import Trusca.Scan.Lifecycle

/-! How the build gate reads its environment, what an axis of it was able to judge, and what a
scan may say about its own completeness. -/

namespace Trusca

/-- The environment of one evaluation, with the number formats of the runtime. -/
structure Environment where
  getenv : String → Option String
  /-- The number a text stands for; absent when the text is refused or not a finite number. -/
  float : String → Option Rat
  /-- A number in the general format. -/
  formatG : Rat → String

section Switches

/-- The spellings that switch an option on. -/
def truthyTokens : List String := ["1", "true", "yes", "on"]

/-- The spellings that switch the malicious axis off. -/
def falsyTokens : List String := ["false", "0", "no"]

/-- Whether only criticals that are not proven unreachable block; off unless asked for. -/
def resolveReachableCriticalOnly (env : Environment) : Bool :=
  match env.getenv "GATE_REACHABLE_CRITICAL_ONLY" with
  | none => false
  | some raw => truthyTokens.contains (lower (strip raw))

/-- Whether a known-malicious package blocks; on unless switched off. -/
def resolveGateMaliciousEnabled (env : Environment) : Bool :=
  -- A spelling nobody knows keeps the axis on.
  !falsyTokens.contains (lower (strip ((env.getenv "GATE_MALICIOUS_ENABLED").getD "true")))

/-- The exploit-prediction score that blocks; absent when unset, unreadable or out of range. -/
def resolveEpssThreshold (env : Environment) : Option Rat :=
  match env.getenv "GATE_EPSS_THRESHOLD" with
  | none => none
  | some raw =>
      if strip raw = "" then none
      else (env.float raw).filter fun value => 0 ≤ value && value ≤ 1

/-- Whether an opt-in axis is switched on. -/
def resolveAxisEnabled (env : Environment) (name : String) : Bool :=
  truthyTokens.contains (lower (strip ((env.getenv name).getD "")))

/-- What to do when an axis judged nothing. -/
inductive OnMissingData where
  | allow
  | block
  deriving Repr, DecidableEq

/-- What an axis does about missing data; anything but `block` allows. -/
def resolveAxisOnMissingData (env : Environment) (name : String) : OnMissingData :=
  if lower (strip ((env.getenv name).getD "")) = "block" then .block else .allow

/-- What the EPSS axis does about missing data. -/
def resolveEpssOnMissingData (env : Environment) : OnMissingData :=
  resolveAxisOnMissingData env "GATE_EPSS_ON_MISSING_DATA"

end Switches

section Axis

/-- What an axis was able to judge on one scan. -/
inductive AxisOutcome where
  | notConfigured
  | evaluated
  | partialData
  | noData
  deriving Repr, DecidableEq

/-- Classify an axis by how many of the rows it judges carry the data it needs. -/
def classifyAxisOutcome (configured : Bool) (candidates withData : Nat) : AxisOutcome :=
  if !configured then .notConfigured
  -- Nothing to judge is a real answer.
  else if candidates = 0 then .evaluated
  else if withData = 0 then .noData
  else if withData < candidates then .partialData
  else .evaluated

/-- Classify the EPSS axis: it is configured when a threshold is set. -/
def classifyEpssGateOutcome (threshold : Option Rat) (openFindings findingsWithScore : Nat) :
    AxisOutcome :=
  classifyAxisOutcome threshold.isSome openFindings findingsWithScore

/-- Whether an outcome blocks: only an axis that judged nothing, and only when asked to. -/
def axisBlocks (outcome : AxisOutcome) (onMissingData : OnMissingData) : Bool :=
  outcome == .noData && onMissingData == .block

end Axis

section Completeness

/-- What a scan recorded about itself. -/
abbrev ScanMetadata := List (String × Json)

/-- The stages that may be recorded as degraded. -/
def degradableStages : List String :=
  ["generate", "prep", "cocoapods", "scope_filter", "normalize", "enrich", "document_metadata",
   "sign", "attest", "scancode", "detected_licenses", "approvals", "scanoss", "preserve",
   "reachability"]

/-- The reasons a stage degrades for. -/
def stageReasons : List String :=
  ["failed", "timeout", "not_installed", "too_large", "fallback", "unavailable",
   "budget_exhausted", "no_components"]

/-- The recorded degradations, in the order of the stages; other entries are dropped. -/
def degradedStages (metadata : ScanMetadata) : List (String × String) :=
  match metadata.lookup "stage_outcomes" with
  | some (.obj fields) =>
      degradableStages.filterMap fun stage =>
        match (fields.lookup stage).bind fun entry => entry.get? "reason" with
        -- A reason outside the closed set is read as no record.
        | some (.str reason) => if stageReasons.contains reason then some (stage, reason) else none
        | _ => none
  | _ => []

/-- The stages whose failure can leave a component or an edge out. -/
def inventoryStages : List String := ["generate", "prep", "cocoapods"]

/-- Whether a set is known to be complete. -/
inductive CompletenessVerdict where
  | complete
  | incomplete
  | unknown
  deriving Repr, DecidableEq

/-- The verdicts for the components and for the dependency graph, with their basis. -/
structure Completeness where
  assemblies : CompletenessVerdict
  dependencies : CompletenessVerdict
  basis : String
  deriving Repr, DecidableEq

/-- The verdict for the components, and why. -/
def inventoryVerdict (scanKind : Option ScanKind) (metadata : ScanMetadata) (excludedCount : Nat) :
    CompletenessVerdict × String :=
  -- The first gap that is known decides, and a gap nobody recorded is not known.
  let outcome := metadata.lookup "component_outcome"
  if scanKind = some .sbom then (.unknown, "ingested_document")
  else if (metadata.lookup "stage_timings").isNone then (.unknown, "not_recorded")
  else if 0 < excludedCount then (.incomplete, "profile_filter")
  else if outcome = some (.str "empty_with_manifests") then (.incomplete, "empty_with_manifests")
  else if outcome = some (.str "empty_no_manifests") then (.unknown, "no_manifests")
  else
    let degraded := (degradedStages metadata).map Prod.fst
    match inventoryStages.find? degraded.contains with
    | some stage => (.incomplete, "stage_degraded:" ++ stage)
    | none => (.complete, "no_known_gap")

/-- The verdicts for one scan. -/
def assess (scanKind : Option ScanKind) (metadata : ScanMetadata)
    (componentCount edgeCount excludedCount : Nat) : Completeness :=
  let (inventory, basis) := inventoryVerdict scanKind metadata excludedCount
  if inventory ≠ .complete then ⟨inventory, inventory, basis⟩
  -- Components without a graph: nothing is claimed about the edges.
  else if 1 < componentCount ∧ edgeCount = 0 then ⟨.complete, .unknown, "no_graph"⟩
  else ⟨.complete, .complete, basis⟩

/-- Whether the completeness verdict blocks: an incomplete scan does, an unknown one only when
asked to. -/
def incompleteScanBlocks (outcome : CompletenessVerdict) (onUnknown : OnMissingData) : Bool :=
  outcome == .incomplete || (outcome == .unknown && onUnknown != .allow)

end Completeness

end Trusca
