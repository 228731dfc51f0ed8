import Trusca.Gate.Database

/-! The build gate: the verdict on one project, from all its axes. -/

namespace Trusca

/-- Whether a build may go on. -/
inductive GateOutcome where
  | pass
  | fail
  deriving Repr, DecidableEq

/-- The verdict on a project, with the counts it acted on. -/
structure GateResult where
  gate : GateOutcome
  reason : Option String
  criticalCveCount : Nat
  forbiddenLicenseCount : Nat
  projectId : ProjectId
  scanId : Option ScanId
  evaluatedAt : Time
  epssGateCount : Nat := 0
  epssThreshold : Option Rat := none
  reachableCriticalCveCount : Nat := 0
  reachableGateEnforced : Bool := false
  reachableRelaxationApplied : Bool := false
  maliciousComponentCount : Nat := 0
  maliciousGateEnforced : Bool := true
  maliciousScanAssessed : Bool := false
  componentOutcome : Option String := none
  epssOutcome : AxisOutcome := .notConfigured
  epssOnMissingData : OnMissingData := .allow
  kevGateCount : Nat := 0
  kevGateEnabled : Bool := false
  kevOutcome : AxisOutcome := .notConfigured
  kevOnMissingData : OnMissingData := .allow
  eolGateCount : Nat := 0
  eolGateEnabled : Bool := false
  eolOutcome : AxisOutcome := .notConfigured
  eolOnMissingData : OnMissingData := .allow
  incompleteScanGateEnabled : Bool := false
  /-- Absent when the axis is off. -/
  incompleteScanOutcome : Option CompletenessVerdict := none
  incompleteScanBasis : Option String := none
  incompleteScanOnUnknown : OnMissingData := .allow

section Settings

/-- A field of the policy, or what the environment says where the policy decides nothing. -/
structure GateSettings where
  epssThreshold : Option Rat
  reachableCriticalOnly : Bool
  maliciousGateEnabled : Bool

/-- The settings of one project: the one place where policy rows and environment meet. -/
def gateSettings (env : Environment) (db : GateDb) (project : ProjectId) : GateSettings :=
  -- A field the policy rows decide is not read from the environment at all.
  let policy := resolveForProject db project
  { epssThreshold := policy.epssThreshold.or (resolveEpssThreshold env)
    reachableCriticalOnly :=
      policy.reachableCriticalOnly.getD (resolveReachableCriticalOnly env)
    maliciousGateEnabled := policy.maliciousBlocks.getD (resolveGateMaliciousEnabled env) }

end Settings

section Axes

/-- The forbidden components: re-classified under the effective policy, else as they were stored. -/
def resolveForbiddenLicenseCount (db : GateDb) (project : ProjectId) (scan : ScanId) (now : Time) :
    Nat :=
  match (db.teamIdForProject project).bind (getEffectivePolicy db) with
  -- Without a policy the category stored with each licence stands.
  | none => countForbiddenLicenseComponents db scan
  | some policy =>
      countForbiddenVerdicts (categorizeLicenseRows (loadScanLicenseRows db scan) policy now)

/-- The malicious components no waiver covers, with the tallies behind them. -/
def resolveMaliciousCount (db : GateDb) (project : ProjectId) (scan : ScanId) (now : Time) :
    Nat × MaliciousScanCounts :=
  let counts := maliciousScanCounts db scan
  let policy := (db.teamIdForProject project).bind (getEffectivePolicy db)
  let waived := activeMaliciousWaivers policy now
  -- Two shortcuts, then the flagged purls are matched against the waivers one by one.
  if counts.flaggedPurls.isEmpty then (0, counts)
  else if waived.isEmpty then (counts.flaggedPurls.length, counts)
  else (countUnwaived waived counts.flaggedPurls, counts)

/-- The completeness verdict of a scan; nothing is excluded here. -/
def resolveIncompleteScan (db : GateDb) (scan : ScanId) : Completeness :=
  -- A scan that has gone is assessed as one that recorded nothing.
  let row := db.scans.find? scan
  assess (row.map GateScan.kind) ((row.map GateScan.scanMetadata).getD [])
    (db.scanComponents.countP (·.scanId == scan)) (db.dependencyEdges.countP (· == scan)) 0

/-- What a scan recorded about its components. -/
def resolveComponentOutcome (db : GateDb) (scan : ScanId) : Option String :=
  match (db.scans.find? scan).bind fun row => row.scanMetadata.lookup "component_outcome" with
  -- Only the three outcomes that the scanner writes are believed.
  | some (.str recorded) =>
      if ["components_found", "empty_no_manifests", "empty_with_manifests"].contains recorded then
        some recorded
      else none
  | _ => none

/-- What one data-driven axis counted and was able to judge. -/
structure AxisReading where
  enabled : Bool
  onMissingData : OnMissingData
  count : Nat
  outcome : AxisOutcome

/-- Read an opt-in axis: nothing is counted while it is off. -/
def readAxis (enabled : Bool) (onMissingData : OnMissingData) (count : Nat)
    (coverage : Nat × Nat) : AxisReading where
  enabled := enabled
  onMissingData := onMissingData
  count := if enabled then count else 0
  outcome := if enabled then classifyAxisOutcome true coverage.1 coverage.2 else .notConfigured

/-- The axis of known-exploited vulnerabilities. -/
def readKevAxis (env : Environment) (db : GateDb) (scan : ScanId) : AxisReading :=
  readAxis (resolveAxisEnabled env "GATE_KEV_ENABLED")
    (resolveAxisOnMissingData env "GATE_KEV_ON_MISSING_DATA")
    (countOpenKevFindings db scan) (countKevCoverage db scan)

/-- The end-of-life axis. -/
def readEolAxis (env : Environment) (db : GateDb) (scan : ScanId) : AxisReading :=
  readAxis (resolveAxisEnabled env "GATE_EOL_ENABLED")
    (resolveAxisOnMissingData env "GATE_EOL_ON_MISSING_DATA")
    (countEolComponents db scan) (countEolCoverage db scan)

end Axes

section Reason

/-- The counts and flags a reason is composed from. -/
structure GateFindings where
  criticalCveCount : Nat
  forbiddenLicenseCount : Nat
  epssGateCount : Nat
  epssThreshold : Option Rat
  maliciousComponentCount : Nat
  reachableCriticalOnly : Bool
  epssBlocked : Bool
  kevGateCount : Nat
  kevBlocked : Bool
  eolGateCount : Nat
  eolBlocked : Bool
  incompleteScanBlocked : Bool
  incompleteScanOutcome : Option CompletenessVerdict
  incompleteScanBasis : Option String

/-- The singular or the plural. -/
def counted (count : Nat) (singular plural : String) : String :=
  if count = 1 then singular else plural

/-- A clause, when its condition holds. -/
def clause (holds : Bool) (text : String) : List String := if holds then [text] else []

/-- The clauses of a reason, in their order; there are none when the build passes. -/
def reasonParts (env : Environment) (found : GateFindings) : List String :=
  -- Both EPSS clauses spell the threshold the same way.
  let threshold := (found.epssThreshold.map env.formatG).getD "None"
  let detail := (found.incompleteScanBasis.filter (· ≠ "")).elim "" fun basis => " (" ++ basis ++ ")"
  clause (0 < found.criticalCveCount)
    (toString found.criticalCveCount ++ " " ++
      (if found.reachableCriticalOnly then "reachable critical" else "critical") ++ " " ++
      counted found.criticalCveCount "CVE" "CVEs" ++ " detected") ++
  clause (0 < found.forbiddenLicenseCount)
    (toString found.forbiddenLicenseCount ++ " forbidden-licensed " ++
      counted found.forbiddenLicenseCount "component" "components" ++ " detected") ++
  clause (found.epssThreshold.isSome && 0 < found.epssGateCount)
    (toString found.epssGateCount ++ " open " ++ counted found.epssGateCount "CVE" "CVEs" ++
      " with EPSS >= " ++ threshold) ++
  clause found.epssBlocked
    ("the EPSS >= " ++ threshold ++ " gate could not be evaluated because no open finding on " ++
      "this scan has an EPSS score") ++
  clause (0 < found.kevGateCount)
    (toString found.kevGateCount ++ " open " ++ counted found.kevGateCount "CVE" "CVEs" ++
      " listed as known-exploited (CISA KEV)") ++
  clause found.kevBlocked
    ("the known-exploited (KEV) gate could not be evaluated because the KEV catalog has never " ++
      "been synced on this deployment") ++
  clause (0 < found.eolGateCount)
    (toString found.eolGateCount ++ " " ++ counted found.eolGateCount "component" "components" ++
      " past end of life") ++
  clause found.eolBlocked
    ("the end-of-life gate could not be evaluated because no component on this scan has been " ++
      "checked against the lifecycle catalog") ++
  clause found.incompleteScanBlocked
    (if found.incompleteScanOutcome = some .incomplete then
      "the scan is incomplete" ++ detail ++ ": components or dependencies may be missing, so " ++
        "the counts above understate the risk"
    else
      "the scan's completeness could not be established" ++ detail ++
        ", and GATE_INCOMPLETE_SCAN_ON_UNKNOWN is set to block") ++
  clause (0 < found.maliciousComponentCount)
    (toString found.maliciousComponentCount ++ " known-malicious " ++
      counted found.maliciousComponentCount "package" "packages" ++
      " detected — remove and rotate exposed credentials")

/-- The human-readable reason, absent on a pass. -/
def buildReason (env : Environment) (found : GateFindings) : Option String :=
  if (reasonParts env found).isEmpty then none
  else some ("; ".intercalate (reasonParts env found))

end Reason

section Gate

/-- Whether the reachable-only relaxation takes effect: it is asked for, and the scan's open
criticals were analysed at all. -/
def relaxationApplies (settings : GateSettings) (counts : CriticalReachabilityCounts) : Bool :=
  settings.reachableCriticalOnly && 0 < counts.analysed

/-- The criticals that drive the verdict; an unanalysed one keeps blocking. -/
def blockingCriticalCount (settings : GateSettings) (counts : CriticalReachabilityCounts) : Nat :=
  if relaxationApplies settings counts then counts.total - counts.unreachable else counts.total

/-- What the gate finds on one scan. -/
def gateFindings (env : Environment) (db : GateDb) (project : ProjectId) (scan : ScanId)
    (now : Time) : GateFindings :=
  let settings := gateSettings env db project
  let critical := criticalReachabilityCounts db scan
  let coverage := countEpssCoverage db scan
  let epssOutcome := classifyEpssGateOutcome settings.epssThreshold coverage.1 coverage.2
  let kev := readKevAxis env db scan
  let eol := readEolAxis env db scan
  let incompleteEnabled := resolveAxisEnabled env "GATE_INCOMPLETE_SCAN_ENABLED"
  let onUnknown := resolveAxisOnMissingData env "GATE_INCOMPLETE_SCAN_ON_UNKNOWN"
  let completeness := resolveIncompleteScan db scan
  { criticalCveCount := blockingCriticalCount settings critical
    forbiddenLicenseCount := resolveForbiddenLicenseCount db project scan now
    -- Without a threshold nothing is counted against it.
    epssGateCount := settings.epssThreshold.elim 0 (countOpenEpssFindings db scan)
    epssThreshold := settings.epssThreshold
    maliciousComponentCount :=
      if settings.maliciousGateEnabled then (resolveMaliciousCount db project scan now).1 else 0
    reachableCriticalOnly := relaxationApplies settings critical
    epssBlocked := axisBlocks epssOutcome (resolveEpssOnMissingData env)
    kevGateCount := kev.count
    kevBlocked := axisBlocks kev.outcome kev.onMissingData
    eolGateCount := eol.count
    eolBlocked := axisBlocks eol.outcome eol.onMissingData
    incompleteScanBlocked := incompleteEnabled && incompleteScanBlocks completeness.assemblies onUnknown
    incompleteScanOutcome := if incompleteEnabled then some completeness.assemblies else none
    incompleteScanBasis := if incompleteEnabled then some completeness.basis else none }

/-- The verdict on a project without a scan: no signal passes. -/
def noScanResult (env : Environment) (db : GateDb) (project : ProjectId) (now : Time) :
    GateResult :=
  -- Nothing is scanned, so nothing can fail.
  { gate := .pass
    reason := none
    criticalCveCount := 0
    forbiddenLicenseCount := 0
    projectId := project
    scanId := none
    evaluatedAt := now
    epssThreshold := (gateSettings env db project).epssThreshold
    reachableGateEnforced := (gateSettings env db project).reachableCriticalOnly
    maliciousGateEnforced := false }

/-- The verdict on a scan of a project: any reason fails the build. -/
def scanResult (env : Environment) (db : GateDb) (project : ProjectId) (scan : ScanId)
    (now : Time) : GateResult :=
  let settings := gateSettings env db project
  let critical := criticalReachabilityCounts db scan
  let coverage := countEpssCoverage db scan
  let kev := readKevAxis env db scan
  let eol := readEolAxis env db scan
  let malicious := (resolveMaliciousCount db project scan now).2
  let found := gateFindings env db project scan now
  let reason := buildReason env found
  { gate := if reason.isSome then .fail else .pass
    reason := reason
    criticalCveCount := found.criticalCveCount
    forbiddenLicenseCount := found.forbiddenLicenseCount
    projectId := project
    scanId := some scan
    evaluatedAt := now
    epssGateCount := found.epssGateCount
    epssThreshold := settings.epssThreshold
    reachableCriticalCveCount := critical.reachable
    reachableGateEnforced := settings.reachableCriticalOnly
    reachableRelaxationApplied := found.reachableCriticalOnly
    maliciousComponentCount := found.maliciousComponentCount
    maliciousGateEnforced := settings.maliciousGateEnabled
    -- Every component was looked at, not merely one.
    maliciousScanAssessed :=
      settings.maliciousGateEnabled && malicious.assessed == malicious.total
    componentOutcome := resolveComponentOutcome db scan
    epssOutcome := classifyEpssGateOutcome settings.epssThreshold coverage.1 coverage.2
    epssOnMissingData := resolveEpssOnMissingData env
    kevGateCount := kev.count
    kevGateEnabled := kev.enabled
    kevOutcome := kev.outcome
    kevOnMissingData := kev.onMissingData
    eolGateCount := eol.count
    eolGateEnabled := eol.enabled
    eolOutcome := eol.outcome
    eolOnMissingData := eol.onMissingData
    incompleteScanGateEnabled := resolveAxisEnabled env "GATE_INCOMPLETE_SCAN_ENABLED"
    incompleteScanOutcome := found.incompleteScanOutcome
    incompleteScanBasis := found.incompleteScanBasis
    incompleteScanOnUnknown := resolveAxisOnMissingData env "GATE_INCOMPLETE_SCAN_ON_UNKNOWN" }

/-- The scan the gate reads when none is pinned: the latest succeeded one, of one ref if asked. -/
def GateDb.latestSucceededScanId (db : GateDb) (project : ProjectId) (ref : Option String) :
    Option ScanId :=
  (db.projects.find? project).bind fun row =>
    let scans := (db.scans.rows.map GateScan.toScanRecord).filter fun scan =>
      ref.all fun wanted => scan.ref == some wanted
    (latestSucceededScan scans project row.defaultBranch).map ScanRecord.id

/-- The verdict of the build gate on a project, on the pinned scan or on the latest one. -/
def evaluateGate (env : Environment) (db : GateDb) (project : ProjectId) (now : Time)
    (pinned : Option ScanId) (ref : Option String) : GateResult :=
  -- A pinned scan is taken as it is, without a look at its project or status.
  match pinned.or (db.latestSucceededScanId project ref) with
  | none => noScanResult env db project now
  | some scan => scanResult env db project scan now

end Gate

end Trusca
