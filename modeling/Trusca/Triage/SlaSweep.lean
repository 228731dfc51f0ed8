import Mathlib.Algebra.GroupWithZero.Nat
import Mathlib.Data.List.Sort
import Trusca.Gate.Database
import Trusca.Scan.Resolution
import Trusca.Store.Run
import Trusca.Store.Table

/-! The sweep that alerts a team to findings past their deadline: its window, the alerts it collects, and
its runs, which may fail, die or overlap. -/

namespace Trusca

open Store

/-- The window without an anchor, a day. -/
def slaDefaultWindow : Int := 86400

/-- The furthest that a window reaches back, seven days. -/
def slaMaxCatchUp : Int := 604800

/-- Where the window of a sweep begins. -/
def slaWindowStart (anchor : Option Time) (now : Time) : Time :=
  match anchor with
  | none => now - slaDefaultWindow
  | some anchor =>
      -- A restored snapshot, or a clock that moved backwards.
      if now ≤ anchor then now - slaDefaultWindow
      else if anchor < now - slaMaxCatchUp then now - slaMaxCatchUp
      else anchor

/-- What the sweep reads of a project. -/
structure SlaProject where
  id : ProjectId
  name : String
  teamId : GroupId
  archived : Bool
  deriving Repr, DecidableEq

/-- A finding with its effective deadline, if it has one. -/
structure SlaFinding where
  scanId : ScanId
  severity : Severity
  status : FindingStatus
  effectiveDue : Option Time
  deriving Repr, DecidableEq

/-- A membership with what the sweep reads of its user. -/
structure SlaMember where
  teamId : GroupId
  userId : UserId
  isServiceAccount : Bool
  isActive : Bool
  deriving Repr, DecidableEq

/-- What a sweep reads of the database. -/
structure SlaSnapshot where
  projects : List SlaProject
  scans : List ScanRecord
  findings : List SlaFinding
  members : List SlaMember

namespace SlaSnapshot

/-- The newest succeeded scan of a project. -/
def latestScan (db : SlaSnapshot) (project : ProjectId) : Option ScanId :=
  -- DISTINCT ON (project_id) ... ORDER BY created_at DESC, id DESC
  ((succeededScans db.scans project).insertionSort fun first second =>
    second.createdAt < first.createdAt ∨
      first.createdAt = second.createdAt ∧ second.id ≤ first.id).head?.map ScanRecord.id

/-- The open findings of the latest scan of a project whose deadline lies in the window. -/
def crossed (db : SlaSnapshot) (windowStart now : Time) (project : ProjectId) : List SlaFinding :=
  db.findings.filter fun finding =>
    db.latestScan project == some finding.scanId &&
      !closedFindingStatuses.contains finding.status &&
      -- No deadline of either kind fails both comparisons.
      finding.effectiveDue.any fun due => decide (windowStart ≤ due) && decide (due < now)

end SlaSnapshot

/-- The severities, worst first; those without a policy deadline come last, by name. -/
def severityOrder : List Severity := [.critical, .high, .medium, .low, .info, .unknown]

/-- The name of a severity. -/
def Severity.word : Severity → String
  -- The words that stand in the message.
  | .critical => "critical"
  | .high => "high"
  | .medium => "medium"
  | .low => "low"
  | .info => "info"
  | .unknown => "unknown"

/-- A project with the counts of its findings that crossed their deadline, by severity. -/
structure BreachedProject where
  project : SlaProject
  bySeverity : List (Severity × Nat)
  deriving Repr, DecidableEq

/-- The number of findings that crossed. -/
def BreachedProject.total (breached : BreachedProject) : Nat :=
  (breached.bySeverity.map Prod.snd).sum

/-- The projects with findings that crossed their deadline in the window. -/
def breachedCounts (db : SlaSnapshot) (windowStart now : Time) : List BreachedProject :=
  (db.projects.filter fun project => !project.archived).filterMap fun project =>
    let rows := db.crossed windowStart now project.id
    let counts := severityOrder.filterMap fun severity =>
      -- A group without rows does not appear in the result.
      match rows.countP fun finding => finding.severity == severity with
      | 0 => none
      | count => some (severity, count)
    if rows.isEmpty then none else some ⟨project, counts⟩

/-- The members of a team who can read an alert. -/
def teamMemberUserIds (db : SlaSnapshot) (team : GroupId) : List UserId :=
  (db.members.filter fun member =>
    member.teamId == team && !member.isServiceAccount && member.isActive).map SlaMember.userId

/-- One alert: for a project, to a member of its team. -/
structure SlaAlert where
  userId : UserId
  projectId : ProjectId
  projectName : String
  breachCount : String
  severityBreakdown : String
  title : String
  body : String
  link : String
  deriving Repr, DecidableEq

/-- The title and the body of the alert for a project. -/
def buildInAppPayload (written : Time → String) (breached : BreachedProject) (windowStart : Time) :
    String × String :=
  let total := breached.total
  let noun := if total = 1 then "finding" else "findings"
  let name := breached.project.name
  let parts := ", ".intercalate
    -- The severities in the order in which they were counted.
    (breached.bySeverity.map fun (severity, count) => s!"{severity.word} {count}")
  let since := written windowStart
  (s!"SLA breach: {total} {noun} overdue in {name}",
    s!"{total} open {noun} crossed the remediation SLA since {since} ({parts}). " ++
      "Review the overdue list and triage or remediate.")

/-- The alerts of a sweep, in the order in which they are sent. -/
def slaAlerts (written : Time → String) (db : SlaSnapshot) (windowStart now : Time) : List SlaAlert :=
  (breachedCounts db windowStart now).flatMap fun breached =>
    let (title, body) := buildInAppPayload written breached windowStart
    let project := breached.project.id
    -- The breakdown names only the severities that have a policy deadline.
    let ranked := breached.bySeverity.filter fun (severity, _) =>
      severity != .info && severity != .unknown
    (teamMemberUserIds db breached.project.teamId).map fun user =>
      { userId := user
        projectId := project
        projectName := breached.project.name
        breachCount := toString breached.total
        severityBreakdown := ", ".intercalate
          (ranked.map fun (severity, count) => s!"{severity.word}={count}")
        title := title
        body := body
        link := s!"/projects/{project}?tab=vulnerabilities&sla=overdue" }

abbrev SweepId := Nat

/-- The window of a sweep. -/
structure SweepWindow where
  start : Time
  /-- The instant that the sweep ran up to, the anchor of the next one. -/
  stop : Time
  deriving Repr, DecidableEq

/-- How a sweep has ended. -/
inductive SweepEnd where
  | succeeded
  /-- Switched off, or an error before any alert was sent. -/
  | skipped
  /-- Its row stays unfinished. -/
  | killed
  deriving Repr, DecidableEq

/-- A sweep, with the columns of its history row. -/
structure Sweep where
  id : SweepId
  startedAt : Time
  /-- Absent until the sweep has read the database. -/
  window : Option SweepWindow
  /-- The alerts that are still to be sent. -/
  pending : List SlaAlert
  /-- Absent while it is running. -/
  ended : Option SweepEnd
  deriving Repr, DecidableEq

/-- An alert that the broker took from a sweep. -/
structure SentAlert where
  sweep : SweepId
  alert : SlaAlert
  deriving Repr, DecidableEq

/-- The sweeps so far and the alerts that were enqueued. -/
structure SweepState where
  clock : Time
  sweeps : Table Sweep.id
  sent : List SentAlert

/-- The end of the window of the succeeded sweep that was started last. -/
def loadAnchor (sweeps : List Sweep) : Option Time :=
  -- ORDER BY started_at DESC LIMIT 1
  (((sweeps.filter fun sweep => sweep.ended == some .succeeded).insertionSort
    fun first second => second.startedAt ≤ first.startedAt).head?.bind Sweep.window).map
      SweepWindow.stop

/-- What can happen to the sweeps. -/
inductive SweepEvent where
  /-- The recorder opens the row of a sweep. -/
  | start (sweep : SweepId) (moment : Time)
  /-- A sweep takes the time, loads the anchor and collects its alerts. -/
  | read (sweep : SweepId) (now moment : Time) (db : SlaSnapshot)
  /-- The broker takes or refuses the next alert of a sweep, which goes on either way. -/
  | send (sweep : SweepId) (accepted : Bool)
  /-- The sweep returns, and the recorder closes its row. -/
  | finish (sweep : SweepId)
  | skip (sweep : SweepId)
  | kill (sweep : SweepId)

namespace SweepState

/-- No sweep was started yet. -/
def initial (clock : Time) : SweepState := ⟨clock, ⟨[], by simp⟩, []⟩

/-- The sweep with an id that is still running. -/
def running (state : SweepState) (sweep : SweepId) : Option Sweep :=
  (state.sweeps.find? sweep).filter fun found => found.ended.isNone

/-- One event of the sweeps. -/
def step (written : Time → String) (state : SweepState) : SweepEvent → Option SweepState
  | .start sweep moment =>
      if state.clock < moment then
        (state.sweeps.insert ⟨sweep, moment, none, [], none⟩).map fun sweeps =>
          { state with clock := moment, sweeps := sweeps }
      else none
  | .read sweep now moment db =>
      (state.running sweep).bind fun found =>
        if found.window = none ∧ found.startedAt ≤ now ∧ now ≤ moment ∧ state.clock ≤ moment then
          let windowStart := slaWindowStart (loadAnchor state.sweeps.rows) now
          let read : Sweep :=
            { found with
              window := some ⟨windowStart, now⟩
              pending := slaAlerts written db windowStart now }
          some { state with clock := moment, sweeps := state.sweeps.put read }
        else none
  | .send sweep accepted =>
      (state.running sweep).bind fun found =>
        match found.pending with
        | [] => none
        | alert :: rest =>
            some
              { state with
                sweeps := state.sweeps.put { found with pending := rest }
                -- A refused alert is logged, and the sweep counts as succeeded all the same.
                sent := if accepted then state.sent ++ [⟨sweep, alert⟩] else state.sent }
  | .finish sweep =>
      (state.running sweep).bind fun found =>
        if found.window.isSome ∧ found.pending = [] then
          some { state with sweeps := state.sweeps.put { found with ended := some .succeeded } }
        else none
  | .skip sweep =>
      (state.running sweep).bind fun found =>
        if found.window = none then
          some { state with sweeps := state.sweeps.put { found with ended := some .skipped } }
        else none
  | .kill sweep =>
      (state.running sweep).map fun found =>
        { state with sweeps := state.sweeps.put { found with ended := some .killed } }

end SweepState

end Trusca
