import Mathlib.Data.List.Dedup
import Trusca.Gate.ActionQueue
import Trusca.Proofs.License.Categorize

/-! The terms of the build gate, said of the rows of the database, and what each count of the gate
says about them. -/

namespace Trusca

section Rows

/-- A finding is open on a scan, and this is its vulnerability. -/
structure OpenFinding (db : GateDb) (scan : ScanId) (finding : ReportedFinding)
    (vulnerability : Vulnerability) : Prop where
  stored : finding ∈ db.findings.rows
  onScan : finding.scanId = scan
  undecided : finding.status ∉ closedFindingStatuses
  about : db.vulnerabilityOf finding = some vulnerability

/-- A scan found a component of this version. -/
def ScannedVersion (db : GateDb) (scan : ScanId) (version : ComponentVersion) : Prop :=
  ∃ component ∈ db.scanComponents, component.scanId = scan ∧ db.versionOf component = some version

/-- Whether a finding is open on a scan, as a statement. -/
theorem openOn_iff (scan : ScanId) (finding : ReportedFinding) :
    openOn scan finding = true ↔ finding.scanId = scan ∧ finding.status ∉ closedFindingStatuses := by
  unfold openOn
  simp

/-- A test on the vulnerability of a finding is a test on the one vulnerability it is about. -/
theorem passes_iff (db : GateDb) (test : ReportedFinding → Vulnerability → Bool)
    (finding : ReportedFinding) :
    db.passes test finding = true ↔
      ∃ vulnerability, db.vulnerabilityOf finding = some vulnerability ∧
        test finding vulnerability = true := by
  unfold GateDb.passes
  -- The inner join drops a finding whose vulnerability is missing.
  cases db.vulnerabilityOf finding <;> simp

/-- A count of open findings is positive when one of them passes the test. -/
theorem countOpen_pos_iff (db : GateDb) (scan : ScanId)
    (test : ReportedFinding → Vulnerability → Bool) :
    0 < countOpen db scan test ↔
      ∃ finding vulnerability, OpenFinding db scan finding vulnerability ∧
        test finding vulnerability = true := by
  unfold countOpen
  -- A positive count is a row that meets the condition, and the other way round.
  rw [List.countP_pos_iff]
  constructor
  · rintro ⟨finding, stored, passes⟩
    rw [Bool.and_eq_true, openOn_iff, passes_iff] at passes
    obtain ⟨⟨onScan, undecided⟩, vulnerability, about, holds⟩ := passes
    exact ⟨finding, vulnerability, ⟨stored, onScan, undecided, about⟩, holds⟩
  · -- The row itself is the one that is counted.
    rintro ⟨finding, vulnerability, open_finding, holds⟩
    refine ⟨finding, open_finding.stored, ?_⟩
    rw [Bool.and_eq_true, openOn_iff, passes_iff]
    exact ⟨⟨open_finding.onScan, open_finding.undecided⟩, vulnerability, open_finding.about, holds⟩

/-- Nothing is counted when no open finding passes the test. -/
theorem countOpen_eq_zero_iff (db : GateDb) (scan : ScanId)
    (test : ReportedFinding → Vulnerability → Bool) :
    countOpen db scan test = 0 ↔
      ∀ finding vulnerability, OpenFinding db scan finding vulnerability →
        test finding vulnerability = false := by
  rw [← Nat.le_zero, ← Nat.not_lt, countOpen_pos_iff]
  simp

/-- A count of components is positive when one of their versions passes the test. -/
theorem countComponents_pos_iff (db : GateDb) (scan : ScanId) (test : ComponentVersion → Bool) :
    0 < countComponents db scan test ↔
      ∃ version, ScannedVersion db scan version ∧ test version = true := by
  unfold countComponents ScannedVersion
  rw [List.countP_pos_iff]
  constructor
  · rintro ⟨component, found, passes⟩
    rw [Bool.and_eq_true, beq_iff_eq] at passes
    -- The test is on the version the component stands for.
    cases version : db.versionOf component with
    | none => simp [version] at passes
    | some value =>
      rw [version] at passes
      exact ⟨value, ⟨component, found, passes.1, version⟩, passes.2⟩
  · rintro ⟨version, ⟨component, found, onScan, about⟩, holds⟩
    refine ⟨component, found, ?_⟩
    rw [Bool.and_eq_true, beq_iff_eq, about]
    exact ⟨onScan, holds⟩

/-- The open findings of a scan, whether or not their vulnerability is known. -/
theorem countP_openOn_pos_iff (db : GateDb) (scan : ScanId) :
    0 < db.findings.rows.countP (openOn scan) ↔
      ∃ finding ∈ db.findings.rows, finding.scanId = scan ∧
        finding.status ∉ closedFindingStatuses := by
  rw [List.countP_pos_iff]
  refine exists_congr fun finding => and_congr_right fun _ => ?_
  exact openOn_iff scan finding

end Rows

section Terms

variable (env : Environment) (db : GateDb) (project : ProjectId) (scan : ScanId) (now : Time)

/-- The licence policy in force for a project. -/
def policyInForce : Option LicensePolicy :=
  (db.teamIdForProject project).bind (getEffectivePolicy db)

/-- The scan has an open critical finding. -/
def HasCritical : Prop :=
  ∃ finding vulnerability, OpenFinding db scan finding vulnerability ∧
    vulnerability.severity = .critical

/-- Proven unreachable criticals do not block: the project asks for it, and reachability analysis
has judged at least one open critical of the scan. -/
def Relaxed : Prop :=
  (gateSettings env db project).reachableCriticalOnly = true ∧
    ∃ finding vulnerability, OpenFinding db scan finding vulnerability ∧
      vulnerability.severity = .critical ∧ finding.reachability.reachable.isSome

/-- The scan has an open critical finding that blocks the gate. -/
def BlockingCritical : Prop :=
  ∃ finding vulnerability, OpenFinding db scan finding vulnerability ∧
    vulnerability.severity = .critical ∧
    (Relaxed env db project scan → finding.reachability.reachable ≠ some false)

/-- A component of the scan has a forbidden licence: under the policy in force, or as it was
stored when there is none. -/
def ForbiddenLicense : Prop :=
  ∃ finding ∈ db.licenseFindings, finding.scanId = scan ∧
    match policyInForce db project with
    | none => ∃ license, db.licenses.find? finding.licenseId = some license ∧
        license.category = .forbidden
    | some policy => ∃ row, db.licenseRow finding = some row ∧
        policyCategoryOf policy row.spdxId row.purl now = .forbidden

/-- An open finding of the scan reaches a threshold, when there is one. -/
def ReachesScore (threshold : Option Rat) : Prop :=
  ∃ value, threshold = some value ∧
    ∃ finding vulnerability, OpenFinding db scan finding vulnerability ∧
      scoresAtLeast value finding vulnerability = true

/-- A threshold is set, no open finding has a score, and that blocks. -/
def ScoresMissing : Prop :=
  (gateSettings env db project).epssThreshold.isSome ∧ resolveEpssOnMissingData env = .block ∧
    (∃ finding vulnerability, OpenFinding db scan finding vulnerability) ∧
    ∀ finding vulnerability, OpenFinding db scan finding vulnerability →
      vulnerability.epssScore = none

/-- The axis of known-exploited vulnerabilities is on, and an open finding is listed, or the last
sync has seen none of them and that blocks. -/
def KevBlocks : Prop :=
  resolveAxisEnabled env "GATE_KEV_ENABLED" = true ∧
    ((∃ finding vulnerability, OpenFinding db scan finding vulnerability ∧
        vulnerability.kev = true) ∨
      (resolveAxisOnMissingData env "GATE_KEV_ON_MISSING_DATA" = .block ∧
        (∃ finding ∈ db.findings.rows, finding.scanId = scan ∧
          finding.status ∉ closedFindingStatuses) ∧
        ∀ finding vulnerability, OpenFinding db scan finding vulnerability →
          ∀ synced, db.kevLastSyncedAt = some synced → synced < vulnerability.createdAt))

/-- The end-of-life axis is on, and a component is past its end of life, or none has a real answer
and that blocks. -/
def EolBlocks : Prop :=
  resolveAxisEnabled env "GATE_EOL_ENABLED" = true ∧
    ((∃ version, ScannedVersion db scan version ∧ version.eolState = some .eol) ∨
      (resolveAxisOnMissingData env "GATE_EOL_ON_MISSING_DATA" = .block ∧
        (∃ version, ScannedVersion db scan version) ∧
        ∀ version, ScannedVersion db scan version → version.eolAnswered = false))

/-- The completeness axis is on, and the scan's own record blocks. -/
def IncompleteBlocks : Prop :=
  resolveAxisEnabled env "GATE_INCOMPLETE_SCAN_ENABLED" = true ∧
    incompleteScanBlocks (resolveIncompleteScan db scan).assemblies
      (resolveAxisOnMissingData env "GATE_INCOMPLETE_SCAN_ON_UNKNOWN") = true

/-- A component of the scan is flagged as malicious and no waiver covers it. -/
def FlaggedUnwaived : Prop :=
  ∃ component ∈ db.scanComponents, component.scanId = scan ∧
    ∃ purl, db.flaggedPurl component = some purl ∧
      basePurl purl ∉ activeMaliciousWaivers (policyInForce db project) now

end Terms

section Counts

variable (env : Environment) (db : GateDb) (project : ProjectId) (scan : ScanId) (now : Time)

/-- The open critical findings are counted. -/
theorem countCritical_pos_iff : 0 < countOpen db scan isCritical ↔ HasCritical db scan := by
  rw [countOpen_pos_iff]
  refine exists_congr fun finding => exists_congr fun vulnerability => and_congr_right fun _ => ?_
  unfold isCritical
  exact beq_iff_eq

/-- The relaxation applies when it is asked for and something was analysed. -/
theorem relaxationApplies_iff :
    relaxationApplies (gateSettings env db project) (criticalReachabilityCounts db scan) = true ↔
      Relaxed env db project scan := by
  unfold relaxationApplies criticalReachabilityCounts Relaxed
  rw [Bool.and_eq_true, decide_eq_true_iff, countOpen_pos_iff]
  -- Analysed means judged either way, reachable or not.
  refine and_congr_right fun _ => ?_
  refine exists_congr fun finding => exists_congr fun vulnerability => and_congr_right fun _ => ?_
  simp [isCritical]

/-- A test on the finding alone can be taken out of a test on its vulnerability. -/
theorem passes_and (test : ReportedFinding → Vulnerability → Bool)
    (second : ReportedFinding → Bool) (finding : ReportedFinding) :
    db.passes (fun finding vulnerability => test finding vulnerability && second finding) finding =
      (db.passes test finding && second finding) := by
  unfold GateDb.passes
  cases db.vulnerabilityOf finding <;> simp

/-- Open findings that pass a test split by a second test. -/
theorem countOpen_split (test : ReportedFinding → Vulnerability → Bool)
    (second : ReportedFinding → Bool) :
    countOpen db scan test =
      countOpen db scan (fun finding vulnerability =>
        test finding vulnerability && second finding) +
      countOpen db scan (fun finding vulnerability =>
        test finding vulnerability && !second finding) := by
  unfold countOpen
  -- The second test reads the finding only, so it stands beside the join.
  simp only [passes_and db test second, passes_and db test fun finding => !second finding]
  induction db.findings.rows with
  | nil => rfl
  | cons finding rest ih =>
    -- A finding that counts on the left counts in exactly one of the two on the right.
    rw [List.countP_cons, List.countP_cons, List.countP_cons, ih]
    cases openOn scan finding <;> cases db.passes test finding <;> cases second finding <;>
      simp <;> omega

/-- The criticals that drive the verdict are those that block. -/
theorem blockingCriticalCount_pos_iff :
    0 < blockingCriticalCount (gateSettings env db project) (criticalReachabilityCounts db scan) ↔
      BlockingCritical env db project scan := by
  have applies := relaxationApplies_iff env db project scan
  unfold blockingCriticalCount
  by_cases relaxed : Relaxed env db project scan
  · -- Under the relaxation the proven unreachable criticals are taken off the total.
    rw [if_pos (applies.mpr relaxed)]
    have split := countOpen_split db scan isCritical fun finding =>
      finding.reachability.reachable == some false
    -- What is left of the total is what the second test turns away.
    have left : (criticalReachabilityCounts db scan).total -
        (criticalReachabilityCounts db scan).unreachable =
        countOpen db scan fun finding vulnerability =>
          isCritical finding vulnerability && !(finding.reachability.reachable == some false) := by
      unfold criticalReachabilityCounts
      dsimp only
      omega
    rw [left, countOpen_pos_iff]
    unfold BlockingCritical
    refine exists_congr fun finding => exists_congr fun vulnerability => and_congr_right fun _ => ?_
    simp [isCritical, relaxed]
  · -- Without it every open critical blocks.
    rw [if_neg fun holds => relaxed (applies.mp holds)]
    refine (countCritical_pos_iff db scan).trans ?_
    unfold HasCritical BlockingCritical
    refine exists_congr fun finding => exists_congr fun vulnerability => and_congr_right fun _ => ?_
    simp [relaxed]

/-- The open findings at or above a threshold are counted, when there is one. -/
theorem epssCount_pos_iff (threshold : Option Rat) :
    0 < threshold.elim 0 (countOpenEpssFindings db scan) ↔ ReachesScore db scan threshold := by
  unfold ReachesScore
  cases threshold with
  -- Without a threshold the axis does not exist.
  | none => simp
  | some value =>
    refine (countOpen_pos_iff db scan (scoresAtLeast value)).trans ?_
    simp

/-- An axis that judged nothing has candidates, and none of them carries the data. -/
theorem axisBlocks_classify_iff (configured : Bool) (candidates withData : Nat)
    (onMissingData : OnMissingData) :
    axisBlocks (classifyAxisOutcome configured candidates withData) onMissingData = true ↔
      configured = true ∧ onMissingData = .block ∧ 0 < candidates ∧ withData = 0 := by
  unfold axisBlocks classifyAxisOutcome
  cases configured with
  | false => simp
  | true =>
    -- Nothing to judge is not the same as having judged nothing.
    by_cases empty : candidates = 0
    · simp [empty]
    · by_cases missing : withData = 0
      · -- Candidates without data are the one case that blocks.
        simp [empty, missing, Nat.pos_of_ne_zero empty]
      · by_cases fewer : withData < candidates <;> simp [empty, missing, fewer]

/-- The EPSS axis blocks on missing data. -/
theorem epssBlocked_iff :
    axisBlocks (classifyEpssGateOutcome (gateSettings env db project).epssThreshold
      (countEpssCoverage db scan).1 (countEpssCoverage db scan).2)
      (resolveEpssOnMissingData env) = true ↔ ScoresMissing env db project scan := by
  unfold classifyEpssGateOutcome ScoresMissing countEpssCoverage
  rw [axisBlocks_classify_iff, countOpen_pos_iff]
  -- The candidates are the open findings, the data are their scores.
  refine and_congr_right fun _ => and_congr_right fun _ => and_congr ?_ ?_
  · simp
  · -- No finding with a score is counted exactly when every open one lacks it.
    rw [countOpen_eq_zero_iff]
    refine forall_congr' fun finding => forall_congr' fun vulnerability => ?_
    refine imp_congr_right fun _ => ?_
    cases vulnerability.epssScore <;> simp

/-- An opt-in axis blocks by its count, or by having judged nothing. -/
theorem readAxis_blocks_iff (enabled : Bool) (onMissingData : OnMissingData) (count : Nat)
    (coverage : Nat × Nat) :
    (0 < (readAxis enabled onMissingData count coverage).count ∨
      axisBlocks (readAxis enabled onMissingData count coverage).outcome
        (readAxis enabled onMissingData count coverage).onMissingData = true) ↔
      enabled = true ∧ (0 < count ∨
        (onMissingData = .block ∧ 0 < coverage.1 ∧ coverage.2 = 0)) := by
  unfold readAxis
  cases enabled with
  -- An axis that is off counts nothing and judges nothing.
  | false => simp [axisBlocks]
  | true =>
    simp only [if_true, true_and]
    rw [axisBlocks_classify_iff]
    simp

/-- The axis of known-exploited vulnerabilities, said of the rows. -/
theorem readKevAxis_blocks_iff :
    (0 < (readKevAxis env db scan).count ∨
      axisBlocks (readKevAxis env db scan).outcome (readKevAxis env db scan).onMissingData =
        true) ↔ KevBlocks env db scan := by
  unfold readKevAxis KevBlocks
  rw [readAxis_blocks_iff]
  refine and_congr_right fun _ => or_congr ?_ (and_congr_right fun _ => and_congr ?_ ?_)
  · -- A listed finding blocks by itself.
    exact countOpen_pos_iff db scan _
  · -- The candidates are the open findings, whether or not there was a sync.
    have candidates : (countKevCoverage db scan).1 = db.findings.rows.countP (openOn scan) := by
      unfold countKevCoverage
      cases db.kevLastSyncedAt <;> rfl
    rw [candidates]
    exact countP_openOn_pos_iff db scan
  · unfold countKevCoverage
    cases db.kevLastSyncedAt with
    -- Before the first sync nothing has been seen.
    | none => simp
    | some synced =>
      -- A finding counts as seen when its vulnerability is older than the sync.
      dsimp only
      rw [countOpen_eq_zero_iff]
      simp

/-- The end-of-life axis, said of the rows. -/
theorem readEolAxis_blocks_iff :
    (0 < (readEolAxis env db scan).count ∨
      axisBlocks (readEolAxis env db scan).outcome (readEolAxis env db scan).onMissingData =
        true) ↔ EolBlocks env db scan := by
  unfold readEolAxis EolBlocks countEolComponents countEolCoverage
  rw [readAxis_blocks_iff]
  refine and_congr_right fun _ => or_congr ?_ (and_congr_right fun _ => and_congr ?_ ?_)
  · -- One component past its end of life is enough.
    refine (countComponents_pos_iff db scan _).trans ?_
    simp
  · refine (countComponents_pos_iff db scan _).trans ?_
    simp
  · -- No component has an answer exactly when none is counted.
    rw [← Nat.le_zero, ← Nat.not_lt, countComponents_pos_iff]
    simp

/-- The components counted as forbidden under a policy. -/
theorem countForbiddenVerdicts_pos_iff
    (verdicts : List (ComponentVersionId × ComponentPolicyVerdict)) :
    0 < countForbiddenVerdicts verdicts ↔ AnyForbidden verdicts := by
  unfold countForbiddenVerdicts AnyForbidden
  -- One forbidden component is enough.
  rw [List.countP_pos_iff]
  refine exists_congr fun entry => and_congr_right fun _ => ?_
  exact beq_iff_eq

/-- A licence was stored as forbidden. -/
theorem storedForbidden_iff (license : LicenseId) :
    ((db.licenses.find? license).any fun row => row.category == .forbidden) = true ↔
      ∃ row, db.licenses.find? license = some row ∧ row.category = .forbidden := by
  cases db.licenses.find? license <;> simp

/-- The licence expressions of a scan are those of its licence findings. -/
theorem mem_loadScanLicenseRows (row : LicenseRow) :
    row ∈ loadScanLicenseRows db scan ↔
      ∃ finding ∈ db.licenseFindings, finding.scanId = scan ∧ db.licenseRow finding = some row := by
  unfold loadScanLicenseRows
  rw [List.mem_dedup, List.mem_filterMap]
  simp [and_assoc]

/-- The forbidden components the gate counts. -/
theorem resolveForbiddenLicenseCount_pos_iff :
    0 < resolveForbiddenLicenseCount db project scan now ↔
      ForbiddenLicense db project scan now := by
  unfold resolveForbiddenLicenseCount ForbiddenLicense policyInForce
  cases (db.teamIdForProject project).bind (getEffectivePolicy db) with
  | none =>
    -- The stored categories count, each component once.
    dsimp only
    unfold countForbiddenLicenseComponents
    rw [List.length_pos_iff_exists_mem]
    simp only [List.mem_dedup, List.mem_map, List.mem_filter, Bool.and_eq_true, beq_iff_eq,
      storedForbidden_iff]
    constructor
    · -- The component is read off the finding that names it.
      rintro ⟨component, finding, ⟨member, onScan, forbidden⟩, -⟩
      exact ⟨finding, member, onScan, forbidden⟩
    · rintro ⟨finding, member, onScan, forbidden⟩
      exact ⟨finding.componentVersionId, finding, ⟨member, onScan, forbidden⟩, rfl⟩
  | some policy =>
    -- Under a policy every expression is classified anew, and a component keeps its worst verdict.
    dsimp only
    rw [countForbiddenVerdicts_pos_iff, categorizeLicenseRows_forbidden_iff]
    constructor
    · rintro ⟨row, listed, forbidden⟩
      obtain ⟨finding, member, onScan, stands⟩ := (mem_loadScanLicenseRows db scan row).mp listed
      exact ⟨finding, member, onScan, row, stands, forbidden⟩
    · rintro ⟨finding, member, onScan, row, stands, forbidden⟩
      refine ⟨row, ?_, forbidden⟩
      exact (mem_loadScanLicenseRows db scan row).mpr ⟨finding, member, onScan, stands⟩

/-- The flagged purls of a scan are those of its components. -/
theorem mem_flaggedPurlsForScan (purl : String) :
    purl ∈ flaggedPurlsForScan db scan ↔
      ∃ component ∈ db.scanComponents, component.scanId = scan ∧
        db.flaggedPurl component = some purl := by
  unfold flaggedPurlsForScan
  rw [List.mem_dedup, List.mem_filterMap]
  simp [and_assoc]

/-- The purls no waiver covers are counted. -/
theorem countUnwaived_pos_iff (waived purls : List String) :
    0 < countUnwaived waived purls ↔ ∃ purl ∈ purls, basePurl purl ∉ waived := by
  unfold countUnwaived
  rw [List.countP_pos_iff]
  simp

/-- The malicious components the gate counts. -/
theorem resolveMaliciousCount_pos_iff :
    0 < (resolveMaliciousCount db project scan now).1 ↔ FlaggedUnwaived db project scan now := by
  -- With nothing waived the count is that of all flagged purls.
  have counts : 0 < (resolveMaliciousCount db project scan now).1 ↔
      0 < countUnwaived (activeMaliciousWaivers (policyInForce db project) now)
        (flaggedPurlsForScan db scan) := by
    unfold resolveMaliciousCount maliciousScanCounts policyInForce
    dsimp only
    -- The two early answers are what the count would have been.
    split
    · rename_i empty
      rw [List.isEmpty_iff] at empty
      simp [empty, countUnwaived]
    · split
      · rename_i unwaived
        rw [List.isEmpty_iff] at unwaived
        simp [unwaived, countUnwaived]
      · rfl
  rw [counts, countUnwaived_pos_iff]
  unfold FlaggedUnwaived
  constructor
  · rintro ⟨purl, listed, uncovered⟩
    obtain ⟨component, member, onScan, flagged⟩ := (mem_flaggedPurlsForScan db scan purl).mp listed
    exact ⟨component, member, onScan, purl, flagged, uncovered⟩
  · rintro ⟨component, member, onScan, purl, flagged, uncovered⟩
    refine ⟨purl, ?_, uncovered⟩
    exact (mem_flaggedPurlsForScan db scan purl).mpr ⟨component, member, onScan, flagged⟩

end Counts

end Trusca
