import Mathlib.Tactic
import Trusca.Scan.Schedule

/-! A scheduled scan runs once on every date, and is lost exactly when another project of the same
schedule was served on that date while this one was held up. -/

namespace Trusca

namespace TimeZone

/-- Two moments of the same hour of the day have their dates in the order of the moments. -/
theorem date_le_of_hour_eq (zone : TimeZone) {earlier later : Time} (order : earlier ≤ later)
    (same : zone.hour earlier = zone.hour later) : zone.date earlier ≤ zone.date later := by
  have back := zone.setBack earlier later order
  unfold hour date at *
  omega

end TimeZone

section Slot

variable {zones : String → Option TimeZone} {schedule : ScanSchedule} {now : Time} {zone : TimeZone}

/-- The slot of a schedule is in its zone and at its hour. -/
theorem slotZone_eq_some (slot : slotZone zones schedule now = some zone) :
    zones schedule.timezone = some zone ∧ schedule.hour = some (zone.hour now) := by
  unfold slotZone at slot
  -- No zone, no hour on the schedule, another hour: three ways to `none` before the last branch.
  split at slot
  · cases slot
  · rename_i found
    split at slot
    · cases slot
    · rename_i hour
      split at slot
      · cases slot
      · cases slot
        exact ⟨found, not_not.mp hour⟩

/-- Two slots of a schedule are in the same zone, with their dates in the order of the moments. -/
theorem slotZone_date_le {later : Time} {other : TimeZone} (order : now ≤ later)
    (slot : slotZone zones schedule now = some zone)
    (again : slotZone zones schedule later = some other) :
    zone = other ∧ zone.date now ≤ zone.date later := by
  obtain ⟨found, hour⟩ := slotZone_eq_some slot
  obtain ⟨foundAgain, hourAgain⟩ := slotZone_eq_some again
  cases Option.some.inj (found.symm.trans foundAgain)
  exact ⟨rfl, zone.date_le_of_hour_eq order (Option.some.inj (hour.symm.trans hourAgain))⟩

/-- A schedule is due in its slot, unless it has fired on the date. -/
theorem isDue_iff {triggered : LastTriggered} :
    isDue zones triggered schedule now = true ↔
      ∃ zone, slotZone zones schedule now = some zone ∧
        ∀ last, triggered schedule.id = some last → zone.date last ≠ zone.date now := by
  unfold isDue
  cases slot : slotZone zones schedule now with
  | none => simp
  | some zone =>
    cases stamp : triggered schedule.id with
    | none => simp
    | some last => simp

end Slot

/-- Where at most one row matches, an outer join finds it. -/
theorem outerJoin_eq_find {α : Type} {rows : List α} {on : α → Bool}
    (once : rows.Pairwise fun one other => ¬(on one = true ∧ on other = true)) :
    outerJoin rows on = [rows.find? on] := by
  unfold outerJoin
  induction rows with
  | nil => rfl
  | cons row rest ih =>
    -- Rows are apart, so a row that matches leaves none behind it that does.
    obtain ⟨apart, once⟩ := List.pairwise_cons.mp once
    cases match_ : on row with
    | false => simpa [match_] using ih once
    | true =>
      have others : rest.filter on = [] := by
        rw [List.filter_eq_nil_iff]
        intro other member both
        exact apart other member ⟨match_, both⟩
      simp [match_, others]

namespace ScanPlan

variable (plan : ScanPlan) {zones : String → Option TimeZone} {triggered : LastTriggered} {now : Time}

/-- The effective schedule of a project: its own row, or the default of its organization. -/
def effective (project : ScheduledProject) : Option ScanSchedule :=
  (plan.schedules.find? (isOwn project)).or (plan.schedules.find? (isDefault project))

/-- An active schedule is the effective one of a project that is not archived. -/
structure Governs (project : ScheduledProject) (schedule : ScanSchedule) : Prop where
  member : project ∈ plan.projects
  current : project.archived = false
  effective : plan.effective project = some schedule
  active : schedule.isActive = true
  cadence : schedule.cadence ≠ none

variable {plan}

/-- The effective schedule is one of the rows. -/
theorem effective_mem {project : ScheduledProject} {schedule : ScanSchedule}
    (found : plan.effective project = some schedule) : schedule ∈ plan.schedules := by
  rcases Option.or_eq_some_iff.mp found with own | ⟨_, inherited⟩
  · exact List.mem_of_find?_eq_some own
  · exact List.mem_of_find?_eq_some inherited

/-- Two rows with one key are the same row. -/
theorem schedule_eq_of_id {one other : ScanSchedule} (first : one ∈ plan.schedules)
    (second : other ∈ plan.schedules) (same : one.id = other.id) : one = other :=
  List.inj_on_of_nodup_map plan.schedulesOnce first second same

/-- Two projects with one key are the same project. -/
theorem project_eq_of_id {one other : ScheduledProject} (first : one ∈ plan.projects)
    (second : other ∈ plan.projects) (same : one.id = other.id) : one = other :=
  List.inj_on_of_nodup_map plan.projectsOnce first second same

/-- A project has at most one row of its own. -/
theorem isOwn_once (project : ScheduledProject) :
    plan.schedules.Pairwise fun one other =>
      ¬(isOwn project one = true ∧ isOwn project other = true) := by
  refine plan.scopesOnce.imp ?_
  intro one other apart both
  simp only [isOwn, decide_eq_true_eq] at both
  rcases apart with differs | ⟨missing, _⟩
  · exact differs (both.1.trans both.2.symm)
  · rw [missing] at both
    cases both.1

/-- A project inherits at most one default. -/
theorem isDefault_once (project : ScheduledProject) :
    plan.schedules.Pairwise fun one other =>
      ¬(isDefault project one = true ∧ isDefault project other = true) := by
  refine plan.scopesOnce.imp ?_
  intro one other apart both
  simp only [isDefault, Bool.and_eq_true, decide_eq_true_eq, Option.isNone_iff_eq_none] at both
  obtain ⟨⟨org, missing⟩, ⟨orgOther, missingOther⟩⟩ := both
  rcases apart with differs | ⟨_, differs⟩
  · exact differs (missing.trans missingOther.symm)
  · exact differs (org.trans orgOther.symm)

/-- The schedule of a project that is due, if it is. -/
def dueSchedule (plan : ScanPlan) (zones : String → Option TimeZone) (triggered : LastTriggered)
    (now : Time) (project : ScheduledProject) : Option (ScheduledProject × ScanSchedule) :=
  match plan.effective project with
  | none => none
  | some schedule =>
      if !schedule.isActive || schedule.cadence.isNone then none
      else if isDue zones triggered schedule now then some (project, schedule)
      else none

/-- The join pairs every project with its effective schedule. -/
theorem dueTargets_eq :
    plan.dueTargets zones triggered now =
      (plan.projects.filter fun project => !project.archived).filterMap
        (plan.dueSchedule zones triggered now) := by
  -- Project by project: the two outer joins give its own schedule and the default one.
  rw [List.filterMap_eq_flatMap_toList]
  unfold dueTargets
  congr 1
  funext project
  rw [outerJoin_eq_find (isOwn_once project), outerJoin_eq_find (isDefault_once project)]
  simp only [List.flatMap_cons, List.flatMap_nil, List.append_nil, List.filterMap_cons,
    List.filterMap_nil, dueSchedule, effective]
  -- The own schedule goes first; an inactive one is no target, nor is one that is not due.
  cases (plan.schedules.find? (isOwn project)).or (plan.schedules.find? (isDefault project)) with
  | none => rfl
  | some schedule =>
    dsimp only
    by_cases idle : (!schedule.isActive || schedule.cadence.isNone) = true
    · simp only [if_pos idle, Option.toList_none]
    · by_cases due : isDue zones triggered schedule now = true
      · simp only [if_neg idle, if_pos due, Option.toList_some]
      · simp only [if_neg idle, if_neg due, Option.toList_none]

/-- What is due: the projects with an effective schedule that is due. -/
theorem mem_dueTargets {project : ScheduledProject} {schedule : ScanSchedule} :
    (project, schedule) ∈ plan.dueTargets zones triggered now ↔
      plan.Governs project schedule ∧ isDue zones triggered schedule now = true := by
  rw [dueTargets_eq, List.mem_filterMap]
  -- Each guard of the query, read off one after another.
  constructor
  · rintro ⟨listed, member, due⟩
    obtain ⟨member, current⟩ := List.mem_filter.mp member
    unfold dueSchedule at due
    split at due
    · cases due
    · rename_i found
      split at due
      · cases due
      · rename_i active
        split at due
        · rename_i isDue
          cases due
          simp only [Bool.or_eq_true, Bool.not_eq_true', Option.isNone_iff_eq_none, not_or,
            Bool.not_eq_false] at active
          exact ⟨⟨member, by simpa using current, found, active.1, active.2⟩, isDue⟩
        · cases due
  · -- And a schedule that governs passes all of them.
    rintro ⟨governs, due⟩
    refine ⟨project, List.mem_filter.mpr ⟨governs.member, by simp [governs.current]⟩, ?_⟩
    have cadence := governs.cadence
    simp [dueSchedule, governs.effective, governs.active, due, cadence]

/-- No project is due twice at one tick. -/
theorem dueTargets_nodup : ((plan.dueTargets zones triggered now).map (·.1.id)).Nodup := by
  -- A project gives one target at most, so the ids of the targets are among those of the projects.
  have kept : ∀ projects : List ScheduledProject,
      ((projects.filterMap (plan.dueSchedule zones triggered now)).map (·.1.id)).Sublist
        (projects.map ScheduledProject.id) := by
    intro projects
    induction projects with
    | nil => exact List.Sublist.refl _
    | cons project rest ih =>
      cases due : plan.dueSchedule zones triggered now project with
      | none => simpa [due] using ih.cons project.id
      | some target =>
        -- The target is the project's own.
        have own : target.1 = project := by
          unfold dueSchedule at due
          split at due
          · cases due
          · split at due
            · cases due
            · split at due
              · cases due
                rfl
              · cases due
        simpa [due, own] using ih
  rw [dueTargets_eq]
  exact ((kept _).trans (List.filter_sublist.map _)).nodup plan.projectsOnce

end ScanPlan

/-- No obstacle holds a project up at a tick. -/
def PollTick.clear (cap : Int) (tick : PollTick) (project : ProjectId) : Bool :=
  (capacityGuardReason cap (tick.reading project).teamActive tick.diskOverHardLimit).isNone &&
    !(tick.reading project).inFlight

section Loop

variable {cap : Int} {tick : PollTick}

/-- With the disk full, nothing is clear. -/
theorem clear_of_disk_full {project other : ProjectId}
    (full : capacityGuardReason cap (tick.reading project).teamActive tick.diskOverHardLimit =
      some .skippedDiskFull) : tick.clear cap other = false := by
  -- The disk is asked last, after the two caps.
  have full_disk : tick.diskOverHardLimit = true := by
    unfold capacityGuardReason at full
    split at full
    · cases full
    · split at full
      · assumption
      · cases full
  simp only [PollTick.clear, capacityGuardReason, full_disk, if_true]
  split <;> rfl

/-- The loop enqueues what is clear and stamps its schedules. -/
theorem pollLoop_spec (due : List (ScheduledProject × ScanSchedule)) (triggered : LastTriggered)
    (result : PollResult) :
    (pollLoop cap tick triggered result due).2.enqueued =
        result.enqueued ++ (due.filter fun target => tick.clear cap target.1.id).map (·.1.id) ∧
      ∀ schedule, (pollLoop cap tick triggered result due).1 schedule =
        if ∃ target ∈ due, tick.clear cap target.1.id = true ∧ target.2.id = schedule
        then some tick.now else triggered schedule := by
  -- Along the due targets, with what was triggered and counted so far.
  induction due generalizing triggered result with
  | nil => simp [pollLoop]
  | cons target rest ih =>
    obtain ⟨project, schedule⟩ := target
    unfold pollLoop
    dsimp only
    -- The cap is reached: the target is only counted.
    split
    · rename_i full
      have held : tick.clear cap project.id = false := by simp [PollTick.clear, full]
      obtain ⟨enqueued, stamped⟩ := ih triggered
        { result with skippedCapacity := result.skippedCapacity + 1 }
      refine ⟨by simp [enqueued, held], ?_⟩
      intro id
      rw [stamped]
      simp only [List.exists_mem_cons_iff, held, Bool.false_eq_true, false_and, false_or]
    · -- The disk is full: everything behind is held as well.
      rename_i full
      have held := fun other => @clear_of_disk_full cap tick project.id other full
      simp [held]
    · rename_i admitted
      -- A scan of the project is active already.
      split
      · rename_i busy
        have held : tick.clear cap project.id = false := by simp [PollTick.clear, busy]
        obtain ⟨enqueued, stamped⟩ := ih triggered
          { result with skippedActive := result.skippedActive + 1 }
        refine ⟨by simp [enqueued, held], ?_⟩
        intro id
        rw [stamped]
        simp only [List.exists_mem_cons_iff, held, Bool.false_eq_true, false_and, false_or]
      · -- Nothing stands in the way: the scan is enqueued and the schedule stamped.
        rename_i idle
        have free : tick.clear cap project.id = true := by simp [PollTick.clear, admitted, idle]
        obtain ⟨enqueued, stamped⟩ := ih (Function.update triggered schedule.id (some tick.now))
          { result with enqueued := result.enqueued ++ [project.id] }
        refine ⟨by simp [enqueued, free], ?_⟩
        intro id
        rw [stamped]
        -- The stamp is this schedule's; the others are stamped by later targets or not at all.
        by_cases own : schedule.id = id
        · subst own
          simp [free]
        · simp only [List.exists_mem_cons_iff, own, and_false, false_or]
          rw [Function.update_of_ne (Ne.symm own)]

end Loop

section Poll

variable {plan : ScanPlan} {zones : String → Option TimeZone} {cap : Int} {triggered : LastTriggered}
  {tick : PollTick} {project : ScheduledProject} {schedule : ScanSchedule}

/-- A tick enqueues the projects with a due schedule that nothing holds up. -/
theorem mem_enqueued (governs : plan.Governs project schedule) :
    project.id ∈ (pollDueSchedules plan zones cap triggered tick).2.enqueued ↔
      isDue zones triggered schedule tick.now = true ∧ tick.clear cap project.id = true := by
  rw [pollDueSchedules, (pollLoop_spec _ _ _).1]
  simp only [PollResult.empty, List.nil_append, List.mem_map, List.mem_filter, Prod.exists]
  constructor
  · -- A project fires through the one schedule in force for it, which `governs` names.
    rintro ⟨other, effective, ⟨target, clear⟩, same⟩
    obtain ⟨found, due⟩ := ScanPlan.mem_dueTargets.mp target
    obtain rfl := ScanPlan.project_eq_of_id found.member governs.member same
    cases Option.some.inj (found.effective.symm.trans governs.effective)
    exact ⟨due, clear⟩
  · rintro ⟨due, clear⟩
    exact ⟨project, schedule, ⟨ScanPlan.mem_dueTargets.mpr ⟨governs, due⟩, clear⟩, rfl⟩

/-- Only governed projects are enqueued. -/
theorem governs_of_enqueued (member : project ∈ plan.projects)
    (enqueued : project.id ∈ (pollDueSchedules plan zones cap triggered tick).2.enqueued) :
    ∃ schedule, plan.Governs project schedule := by
  rw [pollDueSchedules, (pollLoop_spec _ _ _).1] at enqueued
  simp only [PollResult.empty, List.nil_append, List.mem_map, List.mem_filter, Prod.exists] at enqueued
  obtain ⟨other, effective, ⟨target, _⟩, same⟩ := enqueued
  obtain ⟨found, _⟩ := ScanPlan.mem_dueTargets.mp target
  obtain rfl := ScanPlan.project_eq_of_id found.member member same
  exact ⟨effective, found⟩

/-- No project is enqueued twice at one tick. -/
theorem enqueued_nodup : (pollDueSchedules plan zones cap triggered tick).2.enqueued.Nodup := by
  rw [pollDueSchedules, (pollLoop_spec _ _ _).1]
  exact (List.filter_sublist.map _).nodup ScanPlan.dueTargets_nodup

/-- A tick stamps the schedules of the projects it enqueues, and no others. -/
theorem triggered_after (member : schedule ∈ plan.schedules) :
    ((∃ project, plan.Governs project schedule ∧
        project.id ∈ (pollDueSchedules plan zones cap triggered tick).2.enqueued) →
      (pollDueSchedules plan zones cap triggered tick).1 schedule.id = some tick.now) ∧
    ((¬∃ project, plan.Governs project schedule ∧
        project.id ∈ (pollDueSchedules plan zones cap triggered tick).2.enqueued) →
      -- The stamp is written for the targets that were clear, and only for these.
      (pollDueSchedules plan zones cap triggered tick).1 schedule.id = triggered schedule.id) := by
  have stamped := (@pollLoop_spec cap tick (plan.dueTargets zones triggered tick.now) triggered
    .empty).2 schedule.id
  constructor
  · rintro ⟨project, governs, enqueued⟩
    obtain ⟨due, clear⟩ := (mem_enqueued governs).mp enqueued
    exact stamped.trans (if_pos
      ⟨(project, schedule), ScanPlan.mem_dueTargets.mpr ⟨governs, due⟩, clear, rfl⟩)
  · intro resting
    refine stamped.trans (if_neg ?_)
    -- A target with this schedule's id is a project that this schedule governs.
    rintro ⟨⟨project, other⟩, target, clear, same⟩
    obtain ⟨governs, due⟩ := ScanPlan.mem_dueTargets.mp target
    obtain rfl := ScanPlan.schedule_eq_of_id (ScanPlan.effective_mem governs.effective) member same
    exact resting ⟨project, governs, (mem_enqueued governs).mpr ⟨due, clear⟩⟩

end Poll

section Runs

variable {plan : ScanPlan} {zones : String → Option TimeZone} {cap : Int}
  {triggered : LastTriggered} {reports : List (PollTick × PollResult)} {ticks before : List PollTick}
  {tick : PollTick} {project : ScheduledProject} {schedule : ScanSchedule} {zone : TimeZone}

/-- One more tick adds its report. -/
theorem pollAll_snoc :
    pollAll plan zones cap (ticks ++ [tick]) =
      ((pollDueSchedules plan zones cap (pollAll plan zones cap ticks).1 tick).1,
        (pollAll plan zones cap ticks).2 ++
          [(tick, (pollDueSchedules plan zones cap (pollAll plan zones cap ticks).1 tick).2)]) := by
  simp [pollAll, List.foldl_append]

/-- The reports are those of the ticks, each after the ticks before it. -/
theorem mem_polls {result : PollResult} :
    (tick, result) ∈ (pollAll plan zones cap ticks).2 ↔
      ∃ before after, ticks = before ++ tick :: after ∧
        result = (pollDueSchedules plan zones cap (pollAll plan zones cap before).1 tick).2 := by
  induction ticks using List.reverseRecOn with
  | nil => simp [pollAll]
  | append_singleton ticks last ih =>
    rw [pollAll_snoc, List.mem_append, ih, List.mem_singleton]
    constructor
    · rintro (⟨before, after, rfl, rfl⟩ | same)
      · exact ⟨before, after ++ [last], by simp, rfl⟩
      · cases same
        exact ⟨ticks, [], rfl, rfl⟩
    · rintro ⟨before, after, split, rfl⟩
      -- Either the tick is the last one, or the last one is the end of what comes after it.
      rcases List.eq_nil_or_concat after with rfl | ⟨middle, final, rfl⟩
      · obtain ⟨rfl, same⟩ := List.append_inj' split rfl
        cases same
        exact .inr rfl
      · rw [List.concat_eq_append, ← List.cons_append, ← List.append_assoc] at split
        obtain ⟨rfl, _⟩ := List.append_inj' split rfl
        exact .inl ⟨before, middle, rfl, rfl⟩

/-- A schedule fired at a moment: one of its projects was enqueued. -/
def Fired (plan : ScanPlan) (reports : List (PollTick × PollResult)) (schedule : ScanSchedule)
    (moment : Time) : Prop :=
  ∃ report ∈ reports, report.1.now = moment ∧
    ∃ project, plan.Governs project schedule ∧ project.id ∈ report.2.enqueued

/-- The stamp of a schedule is the last moment at which it fired, and it fires in its slot. -/
structure Stamped (plan : ScanPlan) (zones : String → Option TimeZone) (triggered : LastTriggered)
    (reports : List (PollTick × PollResult)) (schedule : ScanSchedule) : Prop where
  within : ∀ moment, Fired plan reports schedule moment →
    ∃ last, triggered schedule.id = some last ∧ moment ≤ last
  fired : ∀ last, triggered schedule.id = some last → Fired plan reports schedule last
  slot : ∀ moment, Fired plan reports schedule moment →
    ∃ zone, slotZone zones schedule moment = some zone

/-- Every tick keeps the stamps in step with the reports. -/
theorem Stamped.snoc (stamped : Stamped plan zones triggered reports schedule)
    (member : schedule ∈ plan.schedules) (past : ∀ report ∈ reports, report.1.now ≤ tick.now) :
    Stamped plan zones (pollDueSchedules plan zones cap triggered tick).1
      (reports ++ [(tick, (pollDueSchedules plan zones cap triggered tick).2)]) schedule := by
  have after := @triggered_after plan zones cap triggered tick schedule member
  -- What fired before fired no later than now.
  have kept : ∀ moment, Fired plan reports schedule moment → moment ≤ tick.now := by
    rintro _ ⟨report, listed, rfl, _⟩
    exact past report listed
  -- The new tick adds the firing of now, or none.
  have split : ∀ moment, Fired plan
      (reports ++ [(tick, (pollDueSchedules plan zones cap triggered tick).2)]) schedule moment ↔
      Fired plan reports schedule moment ∨ tick.now = moment ∧
        ∃ project, plan.Governs project schedule ∧
          project.id ∈ (pollDueSchedules plan zones cap triggered tick).2.enqueued := by
    intro moment
    simp only [Fired, List.mem_append, List.mem_singleton, or_and_right, exists_or, exists_eq_left]
  -- It fired: the stamp is now, which is due, and no earlier firing is later.
  by_cases fires : ∃ project, plan.Governs project schedule ∧
      project.id ∈ (pollDueSchedules plan zones cap triggered tick).2.enqueued
  · have stamp := after.1 fires
    refine ⟨?_, ?_, ?_⟩
    · intro moment fired
      refine ⟨tick.now, stamp, ?_⟩
      rcases (split moment).mp fired with earlier | ⟨rfl, _⟩
      · exact kept moment earlier
      · exact le_rfl
    · intro last found
      cases Option.some.inj (stamp.symm.trans found)
      exact (split _).mpr (.inr ⟨rfl, fires⟩)
    · intro moment fired
      rcases (split moment).mp fired with earlier | ⟨rfl, project, governs, enqueued⟩
      · exact stamped.slot moment earlier
      · obtain ⟨due, _⟩ := (mem_enqueued governs).mp enqueued
        obtain ⟨zone, slot, _⟩ := isDue_iff.mp due
        exact ⟨zone, slot⟩
  · -- It did not fire: stamp and firings are those of before.
    have stamp := after.2 fires
    have same : ∀ moment, Fired plan
        (reports ++ [(tick, (pollDueSchedules plan zones cap triggered tick).2)]) schedule moment ↔
        Fired plan reports schedule moment := by
      intro moment
      rw [split moment, or_iff_left fun both => fires both.2]
    refine ⟨?_, ?_, ?_⟩
    · intro moment fired
      rw [stamp]
      exact stamped.within moment ((same moment).mp fired)
    · intro last found
      exact (same last).mpr (stamped.fired last (stamp.symm.trans found))
    · intro moment fired
      exact stamped.slot moment ((same moment).mp fired)

/-- The stamps are in step with the reports after any ticks. -/
theorem pollAll_stamped (member : schedule ∈ plan.schedules)
    (ordered : ticks.Pairwise fun one other => one.now ≤ other.now) :
    Stamped plan zones (pollAll plan zones cap ticks).1 (pollAll plan zones cap ticks).2 schedule := by
  -- Over the ticks from the last, since the stamp is the last poll's.
  induction ticks using List.reverseRecOn with
  | nil => exact ⟨by simp [Fired, pollAll], by simp [pollAll], by simp [Fired, pollAll]⟩
  | append_singleton ticks tick ih =>
    obtain ⟨front, _, across⟩ := List.pairwise_append.mp ordered
    rw [pollAll_snoc]
    -- No later tick is earlier than the one appended.
    refine (ih front).snoc member ?_
    rintro ⟨other, result⟩ listed
    obtain ⟨before, after, rfl, _⟩ := mem_polls.mp listed
    exact across other (by simp) tick (by simp)

/-- A governed project is enqueued at a tick exactly when it is clear, in the slot of its schedule, and
the schedule has not fired on the date. -/
theorem enqueued_iff (governs : plan.Governs project schedule)
    (ordered : (before ++ [tick]).Pairwise fun one other => one.now ≤ other.now) :
    project.id ∈
        (pollDueSchedules plan zones cap (pollAll plan zones cap before).1 tick).2.enqueued ↔
      ∃ zone, slotZone zones schedule tick.now = some zone ∧ tick.clear cap project.id = true ∧
        ∀ moment, Fired plan (pollAll plan zones cap before).2 schedule moment →
          zone.date moment ≠ zone.date tick.now := by
  obtain ⟨front, _, across⟩ := List.pairwise_append.mp ordered
  have stamped := @pollAll_stamped plan zones cap before schedule
    (ScanPlan.effective_mem governs.effective) front
  have past : ∀ moment, Fired plan (pollAll plan zones cap before).2 schedule moment →
      moment ≤ tick.now := by
    rintro _ ⟨⟨other, result⟩, listed, rfl, _⟩
    obtain ⟨_, _, rfl, _⟩ := mem_polls.mp listed
    exact across other (by simp) tick (by simp)
  rw [mem_enqueued governs, isDue_iff]
  constructor
  · rintro ⟨⟨zone, slot, fresh⟩, clear⟩
    refine ⟨zone, slot, clear, ?_⟩
    intro moment fired same
    obtain ⟨last, stamp, order⟩ := stamped.within moment fired
    have firedLast := stamped.fired last stamp
    obtain ⟨firstZone, firstSlot⟩ := stamped.slot moment fired
    obtain ⟨lastZone, lastSlot⟩ := stamped.slot last firedLast
    -- The stamp lies between a moment of this date and now, so it is of this date.
    obtain ⟨rfl, lower⟩ := slotZone_date_le order firstSlot lastSlot
    obtain ⟨rfl, upper⟩ := slotZone_date_le (past last firedLast) lastSlot slot
    exact fresh last stamp (le_antisymm upper (same ▸ lower))
  · rintro ⟨zone, slot, clear, fresh⟩
    exact ⟨⟨zone, slot, fun last stamp => fresh last (stamped.fired last stamp)⟩, clear⟩

/-- What has fired stays in the reports of more ticks. -/
theorem Fired.append {more : List PollTick} {moment : Time}
    (fired : Fired plan (pollAll plan zones cap before).2 schedule moment) :
    Fired plan (pollAll plan zones cap (before ++ more)).2 schedule moment := by
  obtain ⟨⟨tick, result⟩, listed, same, served⟩ := fired
  obtain ⟨front, after, rfl, rfl⟩ := mem_polls.mp listed
  exact ⟨(tick, _), mem_polls.mpr ⟨front, after ++ more, by simp, rfl⟩, same, served⟩

/-- A project that is enqueued at a tick makes its schedule fire there. -/
theorem Fired.of_enqueued (governs : plan.Governs project schedule)
    (enqueued : project.id ∈
      (pollDueSchedules plan zones cap (pollAll plan zones cap before).1 tick).2.enqueued) :
    Fired plan (pollAll plan zones cap (before ++ [tick])).2 schedule tick.now :=
  ⟨(tick, _), mem_polls.mpr ⟨before, [], rfl, rfl⟩, rfl, project, governs, enqueued⟩

/-- The scans that were enqueued for a project on a date. -/
def scansOn (reports : List (PollTick × PollResult)) (project : ProjectId) (zone : TimeZone)
    (date : Int) : Nat :=
  (reports.map fun (tick, result) =>
    if zone.date tick.now = date then result.enqueued.count project else 0).sum

/-- One more report adds its scans of the date. -/
theorem scansOn_snoc {id : ProjectId} {date : Int} {result : PollResult} :
    scansOn (reports ++ [(tick, result)]) id zone date =
      scansOn reports id zone date +
        if zone.date tick.now = date then result.enqueued.count id else 0 := by
  simp [scansOn]

/-- No scan was enqueued on a date exactly when no report of the date has one. -/
theorem scansOn_eq_zero {id : ProjectId} {date : Int} :
    scansOn reports id zone date = 0 ↔
      ∀ report ∈ reports, zone.date report.1.now = date → id ∉ report.2.enqueued := by
  simp only [scansOn, List.sum_eq_zero_iff, List.mem_map, forall_exists_index, and_imp,
    forall_apply_eq_imp_iff₂, ite_eq_right_iff, List.count_eq_zero]

end Runs

/-- Every project is enqueued at most once on every date of its effective schedule. -/
def EnqueuedOncePerDate (plan : ScanPlan) (zones : String → Option TimeZone) (cap : Int)
    (ticks : List PollTick) : Prop :=
  ∀ project ∈ plan.projects, ∀ schedule, plan.effective project = some schedule →
    ∀ zone, zones schedule.timezone = some zone →
      ∀ date, scansOn (pollAll plan zones cap ticks).2 project.id zone date ≤ 1

/-- A project in the slot of its active schedule that was not enqueued on the date yet and meets no
obstacle is enqueued. -/
def NoScanLost (plan : ScanPlan) (zones : String → Option TimeZone) (cap : Int)
    (ticks : List PollTick) : Prop :=
  ∀ before tick after, ticks = before ++ tick :: after →
    ∀ project schedule zone, plan.Governs project schedule →
      slotZone zones schedule tick.now = some zone →
      scansOn (pollAll plan zones cap before).2 project.id zone (zone.date tick.now) = 0 →
      tick.clear cap project.id = true →
      project.id ∈ (pollDueSchedules plan zones cap (pollAll plan zones cap before).1 tick).2.enqueued

/-- No project of a schedule is held up through the tick at which another one of it is clear, and clear
itself only later on the date. -/
def NoneHeldPast (plan : ScanPlan) (zones : String → Option TimeZone) (cap : Int)
    (ticks : List PollTick) : Prop :=
  ∀ before first rest, ticks = before ++ first :: rest → ∀ second ∈ rest,
    ∀ ready project schedule zone, plan.Governs ready schedule → plan.Governs project schedule →
      slotZone zones schedule first.now = some zone → slotZone zones schedule second.now = some zone →
      zone.date first.now = zone.date second.now →
      first.clear cap ready.id = true → second.clear cap project.id = true →
      ∃ earlier ∈ before ++ [first], slotZone zones schedule earlier.now = some zone ∧
        zone.date earlier.now = zone.date first.now ∧ earlier.clear cap project.id = true

section Ticks

variable {plan : ScanPlan} {zones : String → Option TimeZone} {cap : Int} {ticks : List PollTick}

/-- A project is enqueued at most once on a date. -/
theorem enqueuedOncePerDate (ordered : ticks.Pairwise fun one other => one.now ≤ other.now) :
    EnqueuedOncePerDate plan zones cap ticks := by
  intro project member schedule effective zone found date
  induction ticks using List.reverseRecOn with
  | nil => simp [pollAll, scansOn]
  | append_singleton ticks tick ih =>
    obtain ⟨front, _, _⟩ := List.pairwise_append.mp ordered
    have before := ih front
    rw [pollAll_snoc, scansOn_snoc]
    -- A poll on another date adds nothing to the count.
    split
    · rename_i today
      by_cases enqueued : project.id ∈
          (pollDueSchedules plan zones cap (pollAll plan zones cap ticks).1 tick).2.enqueued
      · obtain ⟨other, governs⟩ := governs_of_enqueued member enqueued
        cases Option.some.inj (governs.effective.symm.trans effective)
        obtain ⟨slotted, slot, _, fresh⟩ := (enqueued_iff governs ordered).mp enqueued
        cases Option.some.inj (found.symm.trans (slotZone_eq_some slot).1)
        -- The schedule has not fired on this date, so the project was not enqueued on it either.
        have none_yet : scansOn (pollAll plan zones cap ticks).2 project.id zone date = 0 := by
          rw [scansOn_eq_zero]
          intro report listed same served
          exact fresh report.1.now ⟨report, listed, rfl, project, governs, served⟩
            (same.trans today.symm)
        -- A poll enqueues a project once at most.
        have once := List.nodup_iff_count_le_one.mp
          (@enqueued_nodup plan zones cap (pollAll plan zones cap ticks).1 tick) project.id
        rw [none_yet, zero_add]
        exact once
      · rw [List.count_eq_zero_of_not_mem enqueued]
        -- Not enqueued by this poll: the count is that of the polls before.
        exact before
    · exact before

/-- Where no project is held past another one, no scan is lost. -/
theorem NoneHeldPast.noScanLost (ordered : ticks.Pairwise fun one other => one.now ≤ other.now)
    (served : NoneHeldPast plan zones cap ticks) : NoScanLost plan zones cap ticks := by
  rintro before tick after rfl project schedule zone governs slot none_yet clear
  have upTo : (before ++ [tick]).Pairwise fun one other => one.now ≤ other.now := by
    rw [List.append_cons] at ordered
    exact (List.pairwise_append.mp ordered).1
  refine (enqueued_iff governs upTo).mpr ⟨zone, slot, clear, ?_⟩
  -- Suppose the schedule had fired earlier on the same date, for another project.
  rintro _ ⟨⟨first, result⟩, listed, rfl, ready, readyGoverns, enqueued⟩ same
  obtain ⟨front, middle, rfl, rfl⟩ := mem_polls.mp listed
  have upToFirst : (front ++ [first]).Pairwise fun one other => one.now ≤ other.now := by
    rw [List.append_assoc, List.cons_append, List.append_cons] at upTo
    exact (List.pairwise_append.mp upTo).1
  obtain ⟨firstZone, firstSlot, readyClear, fresh⟩ := (enqueued_iff readyGoverns upToFirst).mp enqueued
  cases Option.some.inj ((slotZone_eq_some firstSlot).1.symm.trans (slotZone_eq_some slot).1)
  -- Then some poll no later than that one would have found this project clear.
  obtain ⟨earlier, listed, earlierSlot, earlierDate, earlierClear⟩ :=
    served front first (middle ++ tick :: after) (by simp) tick (by simp) ready project schedule zone
      readyGoverns governs firstSlot slot same readyClear clear
  -- The schedule had not fired before that tick, so the project was enqueued there.
  obtain ⟨start, stop, split⟩ := List.append_of_mem listed
  have startFresh : ∀ moment, Fired plan (pollAll plan zones cap start).2 schedule moment →
      zone.date moment ≠ zone.date earlier.now := by
    intro moment fired
    rw [earlierDate]
    refine fresh moment ?_
    rcases List.eq_nil_or_concat stop with rfl | ⟨between, last, rfl⟩
    · obtain ⟨rfl, _⟩ := List.append_inj' split rfl
      exact fired
    · rw [List.concat_eq_append, ← List.cons_append, ← List.append_assoc] at split
      obtain ⟨rfl, _⟩ := List.append_inj' split rfl
      exact fired.append
  have upToEarlier : (start ++ [earlier]).Pairwise fun one other => one.now ≤ other.now := by
    rw [split, List.append_cons] at upToFirst
    exact (List.pairwise_append.mp upToFirst).1
  have missed := (enqueued_iff governs upToEarlier).mpr ⟨zone, earlierSlot, earlierClear, startFresh⟩
  -- So it would have been enqueued on the date, which `none_yet` denies.
  refine scansOn_eq_zero.mp none_yet (earlier, _) ?_ (earlierDate.trans same) missed
  refine mem_polls.mpr ⟨start, stop ++ middle, ?_, rfl⟩
  rw [← List.cons_append, ← List.append_assoc, ← split, List.append_assoc, List.singleton_append]

/-- Where no scan is lost, no project is held past another one. -/
theorem NoScanLost.noneHeldPast (ordered : ticks.Pairwise fun one other => one.now ≤ other.now)
    (kept : NoScanLost plan zones cap ticks) : NoneHeldPast plan zones cap ticks := by
  rintro before first rest rfl second later ready project schedule zone readyGoverns governs firstSlot
    secondSlot same readyClear clear
  by_contra held
  push Not at held
  obtain ⟨middle, after, rfl⟩ := List.append_of_mem later
  -- The schedule fires on the date no later than at the first of the two ticks.
  have fires : ∃ moment, Fired plan (pollAll plan zones cap (before ++ [first])).2 schedule moment ∧
      zone.date moment = zone.date first.now := by
    by_cases none_yet :
        scansOn (pollAll plan zones cap before).2 ready.id zone (zone.date first.now) = 0
    · exact ⟨first.now, .of_enqueued readyGoverns
        (kept before first _ rfl ready schedule zone readyGoverns firstSlot none_yet readyClear), rfl⟩
    · rw [scansOn_eq_zero] at none_yet
      push Not at none_yet
      obtain ⟨report, listed, today, served⟩ := none_yet
      exact ⟨report.1.now, Fired.append ⟨report, listed, rfl, ready, readyGoverns, served⟩, today⟩
  obtain ⟨moment, fired, today⟩ := fires
  -- From then on no poll of that date enqueues the project.
  have afterwards : ∀ between tick stop, middle ++ second :: after = between ++ tick :: stop →
      zone.date tick.now = zone.date first.now → project.id ∉
        (pollDueSchedules plan zones cap (pollAll plan zones cap (before ++ first :: between)).1
          tick).2.enqueued := by
    intro between tick stop split date enqueued
    have upTo : ((before ++ first :: between) ++ [tick]).Pairwise
        fun one other => one.now ≤ other.now := by
      rw [split, ← List.cons_append, ← List.append_assoc, List.append_cons] at ordered
      exact (List.pairwise_append.mp ordered).1
    obtain ⟨slotted, slot, _, fresh⟩ := (enqueued_iff governs upTo).mp enqueued
    cases Option.some.inj ((slotZone_eq_some slot).1.symm.trans (slotZone_eq_some firstSlot).1)
    rw [List.append_cons] at fresh
    exact fresh moment fired.append (today.trans date.symm)
  -- But the second tick has to, unless the project was enqueued on the date before.
  refine afterwards middle second after rfl same.symm ?_
  refine kept (before ++ first :: middle) second after (by simp) project schedule zone governs secondSlot
    ?_ clear
  rw [scansOn_eq_zero]
  rintro ⟨tick, result⟩ listed date served
  obtain ⟨start, stop, split, rfl⟩ := mem_polls.mp listed
  have upTo : (start ++ [tick]).Pairwise fun one other => one.now ≤ other.now := by
    rw [← List.cons_append, ← List.append_assoc, split, List.append_assoc, List.cons_append,
      List.append_cons] at ordered
    exact (List.pairwise_append.mp ordered).1
  obtain ⟨slotted, slot, tickClear, _⟩ := (enqueued_iff governs upTo).mp served
  cases Option.some.inj ((slotZone_eq_some slot).1.symm.trans (slotZone_eq_some firstSlot).1)
  -- Not up to the first tick, as it was held at all of these.
  have behind : tick ∉ before ++ [first] := by
    intro listed
    exact held tick listed slot (date.trans same.symm) tickClear
  rw [List.append_cons] at split
  -- So after it, where the schedule has fired already.
  rcases List.append_eq_append_iff.mp split with ⟨between, rfl, tail⟩ | ⟨between, front, tail⟩
  · rw [← List.append_cons] at served
    exact afterwards between tick (stop ++ second :: after) (by simp [tail]) (date.trans same.symm)
      served
  · cases between with
    | nil =>
      obtain rfl : before ++ [first] = start := by simpa using front
      rw [List.nil_append] at tail
      exact afterwards [] tick (stop ++ second :: after) (by simp [← tail]) (date.trans same.symm)
        served
    | cons other between =>
      obtain ⟨rfl, _⟩ := List.cons.inj tail
      exact behind (by simp [front])

end Ticks

/-- Every project gets its scan once on every date of its schedule, and none that meets no obstacle is
passed over, exactly when no project is held up past another one of the same schedule. -/
theorem scheduled_scans_served (plan : ScanPlan) (zones : String → Option TimeZone) (cap : Int)
    (ticks : List PollTick) (ordered : ticks.Pairwise fun one other => one.now ≤ other.now) :
    (EnqueuedOncePerDate plan zones cap ticks ∧ NoScanLost plan zones cap ticks) ↔
      NoneHeldPast plan zones cap ticks := by
  constructor
  · rintro ⟨_, kept⟩
    exact kept.noneHeldPast ordered
  · intro served
    exact ⟨enqueuedOncePerDate ordered, served.noScanLost ordered⟩

/-- The zone without an offset. -/
def utcZone : TimeZone where
  wall := fun now => now
  setBack := by
    intro earlier later order
    exact order.trans (le_add_of_nonneg_right (by decide))

/-- Two projects that inherit a daily default at nine. -/
def sharedPlan : ScanPlan where
  projects := [⟨1, 1, false⟩, ⟨2, 1, false⟩]
  schedules := [⟨5, 1, none, true, some .daily, some 9, none, "UTC"⟩]
  projectsOnce := by decide
  schedulesOnce := by decide
  scopesOnce := by simp

/-- A tick at which one project may have a scan in flight. -/
def sharedTick (minute : Int) (held : Option ProjectId) : PollTick where
  now := 32400 + 60 * minute
  diskOverHardLimit := false
  reading := fun project => ⟨0, held == some project⟩

/-- With no obstacle at two ticks, both projects are enqueued at the first. -/
theorem scheduled_scans_served_both :
    NoScanLost sharedPlan (fun _ => some utcZone) 2 [sharedTick 0 none, sharedTick 15 none] ∧
      (pollAll sharedPlan (fun _ => some utcZone) 2
        [sharedTick 0 none, sharedTick 15 none]).2.map (·.2.enqueued) = [[1, 2], []] := by
  refine ⟨((scheduled_scans_served sharedPlan (fun _ => some utcZone) 2
    [sharedTick 0 none, sharedTick 15 none] (by simp [sharedTick])).mpr ?_).2, by decide⟩
  -- Two polls, so the first slot's is one of the two.
  intro before first rest split second later ready project schedule zone _ _ firstSlot _ _ _ _
  have member : first ∈ [sharedTick 0 none, sharedTick 15 none] := by simp [split]
  refine ⟨first, by simp, firstSlot, rfl, ?_⟩
  simp only [List.mem_cons, List.not_mem_nil, or_false] at member
  rcases member with rfl | rfl
  · rfl
  · rfl

/-- While the second project has a scan in flight the first one is enqueued, which stamps the schedule
of both; a quarter of an hour later the second project is free and is passed over. -/
theorem scheduled_scan_lost :
    (pollAll sharedPlan (fun _ => some utcZone) 2
        [sharedTick 0 (some 2), sharedTick 15 none]).2.map (·.2.enqueued) = [[1], []] ∧
      ¬NoScanLost sharedPlan (fun _ => some utcZone) 2 [sharedTick 0 (some 2), sharedTick 15 none] := by
  -- The schedule fires in the first poll for one project, and the other is over the cap.
  refine ⟨by decide, ?_⟩
  intro kept
  have governs : sharedPlan.Governs ⟨2, 1, false⟩
      ⟨5, 1, none, true, some .daily, some 9, none, "UTC"⟩ :=
    -- At the second poll the slot is served already, by the stamp of the first.
    ⟨by decide, rfl, by decide, rfl, by decide⟩
  have enqueued := kept [sharedTick 0 (some 2)] (sharedTick 15 none) [] rfl _ _ utcZone governs rfl
    (by decide) rfl
  exact absurd enqueued (by decide)

end Trusca
