import Trusca.License.Policy

/-! Scheduled scans: the poller that enqueues a scan for every project whose schedule is due. -/

namespace Trusca

abbrev ScheduleId := Nat

/-- What the clocks on the wall of a zone show, in seconds. -/
structure TimeZone where
  wall : Time → Int
  /-- No zone sets its clocks back by more than 23 hours. -/
  setBack : ∀ earlier later, earlier ≤ later → wall earlier ≤ wall later + 82800

namespace TimeZone

/-- The hour of the day on the wall. -/
def hour (zone : TimeZone) (now : Time) : Int := zone.wall now % 86400 / 3600

/-- The date on the wall, in days. -/
def date (zone : TimeZone) (now : Time) : Int := zone.wall now / 86400

/-- The day of the week on the wall, from Monday; day zero was a Thursday. -/
def weekday (zone : TimeZone) (now : Time) : Int := (zone.date now + 3) % 7

end TimeZone

/-- How often a schedule fires. -/
inductive Cadence where
  | daily
  | weekly
  deriving Repr, DecidableEq

/-- A schedule of a project or the default of an organization, without the time it last fired. -/
structure ScanSchedule where
  id : ScheduleId
  organizationId : OrganizationId
  /-- Absent in the default of the organization. -/
  projectId : Option ProjectId
  isActive : Bool
  cadence : Option Cadence
  hour : Option Int
  dayOfWeek : Option Int
  timezone : String
  deriving Repr, DecidableEq

/-- A project with the organization that its team belongs to. -/
structure ScheduledProject where
  id : ProjectId
  organizationId : OrganizationId
  archived : Bool
  deriving Repr, DecidableEq

/-- The projects and the schedules that the poller reads. -/
structure ScanPlan where
  projects : List ScheduledProject
  schedules : List ScanSchedule
  /-- The primary key of the projects. -/
  projectsOnce : (projects.map ScheduledProject.id).Nodup
  /-- The primary key of the schedules. -/
  schedulesOnce : (schedules.map ScanSchedule.id).Nodup
  /-- A project has one row and an organization one default. -/
  scopesOnce : schedules.Pairwise fun one other =>
    one.projectId ≠ other.projectId ∨
      one.projectId = none ∧ one.organizationId ≠ other.organizationId

/-- When each schedule last fired, the one column that the poller writes. -/
abbrev LastTriggered := ScheduleId → Option Time

/-- The zone of a schedule at whose hour, and day for a weekly one, the moment is. -/
def slotZone (zones : String → Option TimeZone) (schedule : ScanSchedule) (now : Time) :
    Option TimeZone :=
  match zones schedule.timezone with
  -- A zone that is no longer shipped never makes a schedule due.
  | none => none
  | some zone =>
      if schedule.hour ≠ some (zone.hour now) then none
      else if schedule.cadence = some .weekly ∧ schedule.dayOfWeek ≠ some (zone.weekday now) then none
      else some zone

/-- Whether a schedule fires now: in its slot, and not yet on this date. -/
def isDue (zones : String → Option TimeZone) (triggered : LastTriggered) (schedule : ScanSchedule)
    (now : Time) : Bool :=
  match slotZone zones schedule now with
  | none => false
  | some zone =>
      match triggered schedule.id with
      -- Never fired before: the slot alone decides.
      | none => true
      -- Once a day at most, by the date in the schedule's own zone.
      | some last => zone.date last != zone.date now

/-- The rows that an outer join pairs with one row of the left side. -/
def outerJoin {α : Type} (rows : List α) (on : α → Bool) : List (Option α) :=
  match rows.filter on with
  | [] => [none]
  | row :: rest => (row :: rest).map some

namespace ScanPlan

/-- Whether a row is the own schedule of a project. -/
def isOwn (project : ScheduledProject) (schedule : ScanSchedule) : Bool :=
  schedule.projectId = some project.id

/-- Whether a row is the default that a project inherits. -/
def isDefault (project : ScheduledProject) (schedule : ScanSchedule) : Bool :=
  schedule.organizationId = project.organizationId && schedule.projectId.isNone

/-- The projects that are due, each with the schedule that governs it. -/
def dueTargets (plan : ScanPlan) (zones : String → Option TimeZone) (triggered : LastTriggered)
    (now : Time) : List (ScheduledProject × ScanSchedule) :=
  -- Archiving disables new scans.
  (plan.projects.filter fun project => !project.archived).flatMap fun project =>
    (outerJoin plan.schedules (isOwn project)).flatMap fun own =>
      (outerJoin plan.schedules (isDefault project)).filterMap fun orgDefault =>
        match own.or orgDefault with
        | none => none
        | some effective =>
            if !effective.isActive || effective.cadence.isNone then none
            else if isDue zones triggered effective now then some (project, effective)
            else none

end ScanPlan

/-- What the poller reads when the turn of a project comes. -/
structure ScanReading where
  /-- The queued and running scans of the team. -/
  teamActive : Nat
  /-- Whether a scan of the project without a ref is queued or running. -/
  inFlight : Bool

/-- One tick of the poller. -/
structure PollTick where
  now : Time
  /-- Whether the workspace volume is over its hard limit, for every project alike. -/
  diskOverHardLimit : Bool
  reading : ProjectId → ScanReading

/-- Why no scan may be enqueued for a team. -/
inductive CapacityGuard where
  | skippedTeamAtCapacity
  | skippedDiskFull
  deriving Repr, DecidableEq

/-- The guard before a scan is enqueued; a cap of zero is no cap. -/
def capacityGuardReason (cap : Int) (active : Nat) (diskOverHardLimit : Bool) : Option CapacityGuard :=
  if 0 < cap ∧ cap ≤ active then some .skippedTeamAtCapacity
  else if diskOverHardLimit then some .skippedDiskFull
  else none

/-- What a tick reports. -/
structure PollResult where
  enqueued : List ProjectId
  skippedActive : Nat
  skippedCapacity : Nat
  skippedDisk : Nat
  deriving Repr, DecidableEq

/-- The report of a tick that has not looked at a project yet. -/
def PollResult.empty : PollResult := ⟨[], 0, 0, 0⟩

/-- The loop of the poller over the projects that were due when the tick began. -/
def pollLoop (cap : Int) (tick : PollTick) :
    LastTriggered → PollResult → List (ScheduledProject × ScanSchedule) → LastTriggered × PollResult
  | triggered, result, [] => (triggered, result)
  | triggered, result, (project, schedule) :: rest =>
      let reading := tick.reading project.id
      match capacityGuardReason cap reading.teamActive tick.diskOverHardLimit with
      | some .skippedTeamAtCapacity =>
          pollLoop cap tick triggered { result with skippedCapacity := result.skippedCapacity + 1 } rest
      -- The disk is full for every project, so the tick stops here.
      | some .skippedDiskFull => (triggered, { result with skippedDisk := result.skippedDisk + 1 })
      | none =>
          -- The index on scans in flight refuses a second one, and the schedule is not stamped.
          if reading.inFlight then
            pollLoop cap tick triggered { result with skippedActive := result.skippedActive + 1 } rest
          else
            pollLoop cap tick (Function.update triggered schedule.id (some tick.now))
              { result with enqueued := result.enqueued ++ [project.id] } rest

/-- One tick: enqueue every project whose schedule is due. -/
def pollDueSchedules (plan : ScanPlan) (zones : String → Option TimeZone) (cap : Int)
    (triggered : LastTriggered) (tick : PollTick) : LastTriggered × PollResult :=
  pollLoop cap tick triggered .empty (plan.dueTargets zones triggered tick.now)

/-- The ticks of the poller in turn, from schedules that have not fired yet, with their reports. -/
def pollAll (plan : ScanPlan) (zones : String → Option TimeZone) (cap : Int) (ticks : List PollTick) :
    LastTriggered × List (PollTick × PollResult) :=
  ticks.foldl
    -- Each poll reads the stamps that the one before has left.
    (fun (triggered, reports) tick =>
      let (next, result) := pollDueSchedules plan zones cap triggered tick
      (next, reports ++ [(tick, result)]))
    (fun _ => none, [])

end Trusca
