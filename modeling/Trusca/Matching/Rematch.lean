import Mathlib.Data.Int.ConditionallyCompleteOrder
import Mathlib.Data.List.Sort
import Mathlib.Order.ConditionallyCompleteLattice.Basic
import Trusca.Data.Json
import Trusca.Data.Text
import Trusca.Gate.Database
import Trusca.Scan.Lifecycle

/-! Matching scans against the vulnerability catalog they share, and the sweep that matches them again. -/

namespace Trusca

section Catalog

/-- A row of the catalog, without the scores that nothing here reads. -/
structure CatalogRow where
  source : String
  severity : Severity
  summary : Option String
  details : Option String
  references : Json
  deriving DecidableEq

/-- An entry of a report that names a vulnerability, with the package it resolves to. -/
structure TrivyVuln where
  vulnerabilityId : String
  purl : Option String
  severity : Json
  title : Json
  description : Json
  references : Json
  deriving DecidableEq

/-- The text of a value that is one. -/
def Json.text? : Json → Option String
  | .str value => some value
  | _ => none

/-- Whether a text holds a control character. -/
def hasControl (text : String) : Bool :=
  text.toList.any fun character => character.toNat < 0x20 || character.toNat == 0x7F

/-- A reported severity; whatever is not one of the known words is unknown. -/
def normalizeSeverity (raw : Json) : Severity :=
  match raw.text?.map strip with
  | none => .unknown
  | some text =>
      -- A control character anywhere makes the whole text unusable.
      if hasControl text then .unknown
      else
        -- Any case, and only the five words.
        match lower text with
        | "critical" => .critical
        | "high" => .high
        | "medium" => .medium
        | "low" => .low
        | "info" => .info
        | _ => .unknown

/-- The longest reference that is kept. -/
def referenceMaxLen : Nat := 2048

/-- The most references that are kept. -/
def referenceListMax : Nat := 200

/-- Whether a stripped reference is kept: a link of a known scheme. -/
def keepsReference (candidate : String) : Bool :=
  candidate != "" && !hasControl candidate && candidate.length ≤ referenceMaxLen &&
    candidate.toList.contains ':' &&
    ["http", "https", "ftp", "git", "ssh"].contains
      (lower (String.ofList (candidate.toList.takeWhile (· != ':'))))

/-- The references of an entry that are kept. -/
def normalizeReferences (raw : Json) : List String :=
  match raw with
  | .arr items => (((items.filterMap Json.text?).map strip).filter keepsReference).take referenceListMax
  | _ => []

/-- References as the column holds them. -/
def referencesJson (raw : Json) : Json := .arr ((normalizeReferences raw).map .str)

/-- Whether both texts of a row say the same. -/
def sameTexts (summary details : Option String) : Bool :=
  match summary, details with
  | some first, some second => first == second && first != ""
  | _, _ => false

/-- Whether a value is a list of texts. -/
def isTextList : Json → Bool
  | .arr items => items.all fun item => item.text?.isSome
  | _ => false

/-- Whether a row was written by the importer that came before, or looks like it. -/
def isStaleCatalogRow (row : CatalogRow) : Bool :=
  row.source != "trivy" || sameTexts row.summary row.details || !isTextList row.references

/-- A text that says something, or else the one that is there. -/
def orKept (text kept : Option String) : Option String :=
  if text.any (· != "") then text else kept

/-- A stale row brought up to date with an entry. -/
def refreshStaleCatalogRow (row : CatalogRow) (vuln : TrivyVuln) : CatalogRow :=
  let severity := normalizeSeverity vuln.severity
  let summary := orKept vuln.title.text? row.summary
  let details := orKept vuln.description.text? row.details
  { source := "trivy"
    severity := if severity ≠ .unknown then severity else row.severity
    summary := summary
    -- Two columns that say the same become one.
    details := if sameTexts summary details then none else details
    references := referencesJson vuln.references }

/-- The row that an entry of an unknown vulnerability is inserted with. -/
def newCatalogRow (vuln : TrivyVuln) : CatalogRow where
  -- A new row keeps what the report says, and its severity in the portal's words.
  source := "trivy"
  severity := normalizeSeverity vuln.severity
  summary := vuln.title.text?
  details := vuln.description.text?
  references := referencesJson vuln.references

/-- The catalog, by the name of the vulnerability, which is unique. -/
abbrev VulnCatalog := String → Option CatalogRow

/-- What an entry does to the row of its vulnerability: a row that is not stale is left alone. -/
def upsertVulnerabilityRow (row : Option CatalogRow) (vuln : TrivyVuln) : CatalogRow :=
  match row with
  | some existing => if isStaleCatalogRow existing then refreshStaleCatalogRow existing vuln else existing
  | none => newCatalogRow vuln

/-- The catalog after an entry, when no other writer is at work. -/
def upsertVulnerabilityFromTrivy (catalog : VulnCatalog) (vuln : TrivyVuln) : VulnCatalog :=
  Function.update catalog vuln.vulnerabilityId
    (some (upsertVulnerabilityRow (catalog vuln.vulnerabilityId) vuln))

end Catalog

section Report

/-- What a report holds where a vulnerability is expected. -/
inductive ReportItem where
  | entry (vuln : TrivyVuln)
  /-- A block or an entry that could not be read. -/
  | gap
  deriving DecidableEq

/-- A report, block after block; without results it is malformed. -/
structure TrivyReport where
  results : Option (List ReportItem)
  deriving DecidableEq

/-- A report with nothing unreadable in it. -/
def TrivyReport.ofEntries (vulns : List TrivyVuln) : TrivyReport := ⟨some (vulns.map .entry)⟩

/-- A finding of a scan: the vulnerability and the component version. -/
abbrev RematchKey := String × ComponentVersionId

/-- The components of a scan, by package URL without qualifiers. -/
abbrev ComponentIndex := String → Option ComponentVersionId

/-- The entries that are attached to a component of the scan, each pair of name and package once. -/
def attachedEntries (index : ComponentIndex) :
    List (String × String) → List TrivyVuln → List (TrivyVuln × ComponentVersionId)
  | _, [] => []
  | seen, vuln :: rest =>
      -- A package the report gives no purl for cannot be attached.
      match vuln.purl with
      | none => attachedEntries index seen rest
      | some purl =>
          -- Of two entries about one package the first stands.
          if (vuln.vulnerabilityId, purl) ∈ seen then attachedEntries index seen rest
          else
            -- The purl names no component of the scan.
            match index purl with
            | none => attachedEntries index ((vuln.vulnerabilityId, purl) :: seen) rest
            | some version =>
                (vuln, version) :: attachedEntries index ((vuln.vulnerabilityId, purl) :: seen) rest

/-- The entries of a report that can be read. -/
def TrivyReport.entries (report : TrivyReport) : List TrivyVuln :=
  (report.results.getD []).filterMap fun item =>
    match item with
    | .entry vuln => some vuln
    | .gap => none

/-- Whether a report says everything, so that what it does not name is gone. -/
def TrivyReport.isComplete (report : TrivyReport) : Bool :=
  report.results.any fun items => items.all (· != .gap)

/-- The pairs that a report has for the components of a scan. -/
def reportedKeys (index : ComponentIndex) (report : TrivyReport) : List RematchKey :=
  (attachedEntries index [] report.entries).map fun (vuln, version) => (vuln.vulnerabilityId, version)

/-- The findings of a scan brought in line with a report: a pair that it has is kept or inserted, and one
that it no longer has is deleted when the report is complete. -/
def reconciledKeys (existing reported : List RematchKey) (complete : Bool) : List RematchKey :=
  (existing.filter fun key => !complete || reported.contains key) ++
    (reported.filter fun key => !existing.contains key).dedup

end Report

section Notifications

/-- The rank of a severity; an unknown one is below all others. -/
def rematchSeverityRank : Severity → Int
  | .critical => 4
  | .high => 3
  | .medium => 2
  | .low => 1
  | .info => 0
  | .unknown => -1

/-- Severities that are alerted. -/
def isNotifiable (severity : Severity) : Bool := severity == .critical || severity == .high

/-- The findings of a scan with the severities that the catalog gives them. -/
def snapshotFindings (catalog : VulnCatalog) (keys : List RematchKey) : List (RematchKey × Severity) :=
  keys.filterMap fun key => (catalog key.1).map fun row => (key, row.severity)

/-- The severity of a pair in a snapshot. -/
def snapshotSeverity (snapshot : List (RematchKey × Severity)) (key : RematchKey) : Option Severity :=
  (snapshot.find? fun found => found.1 == key).map Prod.snd

/-- The pairs that are new, and those whose severity rose. -/
def diffSnapshots (prior current : List (RematchKey × Severity)) : List RematchKey × List RematchKey :=
  let keys := current.map Prod.fst
  -- New keys are those that the earlier snapshot does not have.
  (keys.filter fun key => (snapshotSeverity prior key).isNone,
    keys.filter fun key =>
      match snapshotSeverity prior key, snapshotSeverity current key with
      -- Escalated ones have both, and a higher rank now.
      | some before, some after => rematchSeverityRank before < rematchSeverityRank after
      | _, _ => false)

/-- The order in which a set is gone through, which is not the program's own. -/
structure SetOrder (α : Type) where
  arrange : List α → List α
  perm : ∀ items, (arrange items).Perm items

/-- How many alerts of one scan are sent one by one. -/
def perScanNotificationCap : Nat := 10

/-- An alert, with the pairs that it stands for. -/
structure NotificationDescriptor where
  cveId : String
  projectId : ProjectId
  projectName : String
  severity : String
  pairs : List RematchKey
  deriving Repr, DecidableEq

/-- A severity in capitals. -/
def Severity.upper : Severity → String
  | .critical => "CRITICAL"
  | .high => "HIGH"
  | .medium => "MEDIUM"
  | .low => "LOW"
  | .info => "INFO"
  | .unknown => "UNKNOWN"

/-- What an alert for the pairs beyond the cap names: the first of them, and how many follow. -/
def overflowText (first : RematchKey) (rest : List RematchKey) : String :=
  first.1 ++ " (+" ++ toString rest.length ++ " more)"

/-- The changed pairs that are alerted, by name of the vulnerability. -/
def notifiablePairs (order : SetOrder RematchKey) (changed : List RematchKey)
    (current : List (RematchKey × Severity)) : List RematchKey :=
  ((order.arrange changed).filter fun key =>
    isNotifiable ((snapshotSeverity current key).getD .unknown)).insertionSort fun first second =>
      first.1 ≤ second.1

/-- The alerts for the changed pairs: one each up to the cap, and one for the rest. -/
def buildNotificationDescriptors (order : SetOrder RematchKey) (projectId : ProjectId)
    (projectName : String) (changed : List RematchKey) (current : List (RematchKey × Severity)) :
    List NotificationDescriptor :=
  let notifiable := notifiablePairs order changed current
  let single (key : RematchKey) : NotificationDescriptor :=
    ⟨key.1, projectId, projectName, ((snapshotSeverity current key).getD .unknown).upper, [key]⟩
  -- Up to the cap each alert is one message, the rest share one.
  (notifiable.take perScanNotificationCap).map single ++
    match notifiable.drop perScanNotificationCap with
    | [] => []
    | first :: rest =>
        -- The shared message takes the worst severity of what it stands for.
        let worst := if (first :: rest).any fun key => snapshotSeverity current key == some .critical then
          "CRITICAL" else "HIGH"
        [⟨overflowText first rest, projectId, projectName, worst, first :: rest⟩]

end Notifications

section Tarball

/-- A member of a tarball. -/
structure TarMember where
  name : String
  isRegular : Bool
  size : Nat
  deriving Repr, DecidableEq

/-- The tarball that was preserved for a scan. -/
inductive PreservedTarball where
  | absent
  /-- Reading it is an error of the archive or of the disk. -/
  | unreadable
  /-- Its compressed stream breaks off, which is an error of neither of them. -/
  | broken (error : String)
  | members (all : List TarMember)
  deriving Repr, DecidableEq

/-- The member that holds the bill of materials. -/
def sbomMemberName : String := ".trustedoss/cdxgen.cdx.json"

/-- The most bytes that are extracted. -/
def sbomExtractMaxBytes : Nat := 128 * 1024 * 1024

/-- The last member of a name. -/
def getMember (name : String) (all : List TarMember) : Option TarMember :=
  all.reverse.find? fun member => member.name == name

/-- Whether a tarball carries a bill of materials. A stream that breaks off is not caught. -/
def preservedTarballHasSbom : PreservedTarball → Except String Bool
  | .absent | .unreadable => .ok false
  | .broken error => .error error
  | .members all => .ok ((getMember sbomMemberName all).any TarMember.isRegular)

/-- Why a worker leaves a scan as it is. -/
inductive SkipReason where
  | lockedOrNotSucceeded
  | fileNotFound
  | preservedSbomMissing
  | preservationTooLarge
  | sourcePreservationError
  | trivyFailed (reason : String)
  | refusedEmptyReplacementMalformed
  | unexpected (name : String)
  deriving Repr, DecidableEq

/-- Extracting the bill of materials; the size is all that matters of it here. -/
def extractPreservedSbom : PreservedTarball → Except SkipReason Nat
  | .absent => .error .fileNotFound
  | .unreadable => .error .sourcePreservationError
  -- Nothing here catches it either, only the worker does.
  | .broken error => .error (.unexpected error)
  | .members all =>
      match getMember sbomMemberName all with
      | none => .error .preservedSbomMissing
      | some member =>
          if !member.isRegular then .error .preservedSbomMissing
          else if sbomExtractMaxBytes < member.size then .error .preservationTooLarge
          else .ok member.size

end Tarball

section Worker

/-- What the sweep and the worker read and write of a scan. -/
structure RematchScan where
  id : ScanId
  projectId : ProjectId
  status : ScanStatus
  supersededAt : Option Time
  lastRematchedAt : Option Time
  deriving Repr, DecidableEq

/-- The database and the disk. -/
structure RematchDb where
  scans : List RematchScan
  catalog : VulnCatalog
  findings : ScanId → List RematchKey
  components : ScanId → ComponentIndex
  projectNames : ProjectId → Option String
  tarballs : ProjectId → ScanId → PreservedTarball
  /-- The primary key of the scans. -/
  scansOnce : (scans.map RematchScan.id).Nodup

/-- The catalog and the findings of a scan after a report on it. -/
def RematchDb.persistTrivyFindings (db : RematchDb) (scan : ScanId) (report : TrivyReport) : RematchDb :=
  let attached := attachedEntries (db.components scan) [] report.entries
  { db with
    catalog := (attached.map Prod.fst).foldl upsertVulnerabilityFromTrivy db.catalog
    -- Only a complete report takes findings away.
    findings := Function.update db.findings scan
      (reconciledKeys (db.findings scan) (reportedKeys (db.components scan) report) report.isComplete) }

/-- The scans with a new time of the last match of one of them. -/
def RematchDb.stamp (db : RematchDb) (scan : ScanId) (now : Time) : RematchDb :=
  { db with
    scans := db.scans.map fun row => if row.id = scan then { row with lastRematchedAt := some now } else row
    scansOnce := by
      -- The edit leaves the ids, so they stay distinct.
      have same : (db.scans.map fun row =>
          if row.id = scan then { row with lastRematchedAt := some now } else row).map RematchScan.id =
          db.scans.map RematchScan.id := by
        rw [List.map_map]
        refine List.map_congr_left fun row _ => ?_
        simp only [Function.comp_apply]
        split_ifs <;> rfl
      rw [same]
      exact db.scansOnce }

/-- What a worker meets while it matches a scan again. -/
structure RematchRun where
  /-- Whether another worker holds the row of the scan. -/
  locked : Bool
  /-- What the matcher makes of the bill of materials. -/
  trivy : Except SkipReason TrivyReport
  order : SetOrder RematchKey
  now : Time

/-- What a worker ends with. -/
inductive RematchOutcome where
  | skipped (reason : SkipReason)
  | completed (notifications : List NotificationDescriptor)
  deriving Repr, DecidableEq

/-- A completed match: the findings and the catalog follow the report, the time is moved, and the pairs
that are new or rose are alerted. -/
def completeRematch (db : RematchDb) (scan : RematchScan) (report : TrivyReport) (run : RematchRun) :
    RematchDb × List NotificationDescriptor :=
  -- Severities come from the catalog, before and after.
  let prior := snapshotFindings db.catalog (db.findings scan.id)
  let matched := db.persistTrivyFindings scan.id report
  let current := snapshotFindings matched.catalog (matched.findings scan.id)
  let (newKeys, elevatedKeys) := diffSnapshots prior current
  (matched.stamp scan.id run.now,
    buildNotificationDescriptors run.order scan.projectId
      ((db.projectNames scan.projectId).getD (toString scan.projectId)) (newKeys ++ elevatedKeys) current)

/-- Match one scan again: only a completed match moves the time of its last one. -/
def rematchScanFindings (db : RematchDb) (scanId : ScanId) (run : RematchRun) :
    RematchDb × RematchOutcome :=
  match db.scans.find? fun scan => scan.id == scanId && scan.status == .succeeded with
  | none => (db, .skipped .lockedOrNotSucceeded)
  | some scan =>
      if run.locked then (db, .skipped .lockedOrNotSucceeded)
      else
        match extractPreservedSbom (db.tarballs scan.projectId scan.id) with
        | .error reason => (db, .skipped reason)
        | .ok _ =>
            match run.trivy with
            | .error reason => (db, .skipped reason)
            | .ok report =>
                -- A malformed report does not wipe findings that are there.
                if snapshotFindings db.catalog (db.findings scan.id) ≠ [] ∧ report.results.isNone then
                  (db, .skipped .refusedEmptyReplacementMalformed)
                else
                  let (next, notifications) := completeRematch db scan report run
                  (next, .completed notifications)

end Worker

section Sweep

/-- How often a scan is matched again, how many scans a sweep takes, and the slack of its cutoff. -/
structure RematchSettings where
  intervalHours : Nat
  batchSize : Nat
  lockSkewSeconds : Nat
  deriving Repr, DecidableEq

/-- One call of the sweep. -/
structure SweepTick where
  now : Time
  /-- The order in which the database returns scans of one time. -/
  tieBreak : ScanId → Nat
  /-- Whether the broker takes the task of a scan. -/
  accepts : ScanId → Bool

/-- Whether a scan is due. -/
def RematchScan.isDue (cutoff : Time) (scan : RematchScan) : Bool :=
  scan.status == .succeeded && scan.supersededAt.isNone &&
    match scan.lastRematchedAt with
    | none => true
    | some last => last < cutoff

/-- What scans are ordered by: never matched again first, and then the oldest. -/
def RematchScan.sweepKey (scan : RematchScan) : WithBot Time :=
  match scan.lastRematchedAt with
  | none => ⊥
  | some last => last

/-- The time before which a scan must have been matched to be due. -/
def sweepCutoff (settings : RematchSettings) (now : Time) : Time :=
  now - (3600 * (settings.intervalHours : Int) + (settings.lockSkewSeconds : Int))

/-- The scans that are due, in the order of the query. -/
def RematchDb.dueScans (db : RematchDb) (settings : RematchSettings) (tick : SweepTick) : List RematchScan :=
  (db.scans.filter (RematchScan.isDue (sweepCutoff settings tick.now))).insertionSort fun first second =>
    first.sweepKey < second.sweepKey ∨
      first.sweepKey = second.sweepKey ∧ tick.tieBreak first.id ≤ tick.tieBreak second.id

/-- Whether a scan has something to be matched again. -/
def RematchDb.hasSbom (db : RematchDb) (scan : RematchScan) : Except String Bool :=
  preservedTarballHasSbom (db.tarballs scan.projectId scan.id)

/-- Send out the tasks of some scans one by one; what a look at a tarball raises ends the loop. -/
def RematchDb.sendOut (db : RematchDb) (tick : SweepTick) : List RematchScan → List RematchScan × Option String
  | [] => ([], none)
  | scan :: rest =>
      match db.hasSbom scan with
      -- The predicate has raised, and the loop over the scans ends here.
      | .error error => ([], some error)
      | .ok false => db.sendOut tick rest
      | .ok true =>
          let (sent, raised) := db.sendOut tick rest
          -- A refused message is logged, and the scan is not counted as enqueued.
          (if tick.accepts scan.id then scan :: sent else sent, raised)

/-- The scans whose tasks one call of the sweep sends out, and what it raises: the batch is cut before they
are looked at. -/
def enqueueDueRematches (db : RematchDb) (settings : RematchSettings) (tick : SweepTick) :
    List RematchScan × Option String :=
  let candidates := (db.dueScans settings tick).take settings.batchSize
  db.sendOut tick candidates

/-- What happens between the beat and the workers. -/
inductive RematchEvent where
  | tick (tick : SweepTick)
  | rematch (scan : ScanId) (run : RematchRun)
  /-- The first match of a scan, in its pipeline. -/
  | matched (scan : ScanId) (report : TrivyReport)

/-- The database after an event; a tick only sends out tasks. -/
def RematchDb.serve (db : RematchDb) : RematchEvent → RematchDb
  | .tick _ => db
  | .rematch scan run => (rematchScanFindings db scan run).1
  | .matched scan report => db.persistTrivyFindings scan report

/-- The database after a run of events. -/
def RematchDb.runEvents (db : RematchDb) (events : List RematchEvent) : RematchDb :=
  events.foldl RematchDb.serve db

end Sweep

end Trusca
