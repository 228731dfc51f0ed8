import Mathlib.Tactic
import Trusca.Triage.SlaSweep

/-! A finding past its deadline is alerted on by the first sweep after it that succeeds, unless the broker
refuses an alert of that sweep; without overlaps and deaths, no other sweep alerts on it. -/

namespace Trusca

open Store

section Window

variable {anchor now due : Time}

/-- A window that follows an earlier sweep does not reach back before it. -/
theorem anchor_le_slaWindowStart (earlier : anchor < now) :
    anchor ≤ slaWindowStart (some anchor) now := by
  simp only [slaWindowStart, not_le.mpr earlier, if_false]
  split
  · rename_i older
    exact older.le
  · exact le_rfl

/-- A window reaches a deadline that passed after the anchor, up to seven days back. -/
theorem slaWindowStart_le (earlier : anchor < now) (after : anchor ≤ due)
    (recent : now ≤ due + slaMaxCatchUp) : slaWindowStart (some anchor) now ≤ due := by
  simp only [slaWindowStart, not_le.mpr earlier, if_false]
  split
  · exact sub_le_iff_le_add.mpr recent
  · exact after

end Window

section Anchor

variable {sweeps : List Sweep}

/-- The succeeded sweeps, the last started first. -/
def succeededSweeps (sweeps : List Sweep) : List Sweep :=
  (sweeps.filter fun sweep => sweep.ended == some .succeeded).insertionSort
    fun first second => second.startedAt ≤ first.startedAt

/-- A succeeded sweep is one of the sweeps that has ended so. -/
theorem mem_succeededSweeps {sweep : Sweep} :
    sweep ∈ succeededSweeps sweeps ↔ sweep ∈ sweeps ∧ sweep.ended = some .succeeded := by
  rw [succeededSweeps, List.mem_insertionSort, List.mem_filter, beq_iff_eq]

/-- The anchor is read from the first of the succeeded sweeps. -/
theorem loadAnchor_eq :
    loadAnchor sweeps = ((succeededSweeps sweeps).head?.bind Sweep.window).map SweepWindow.stop := rfl

/-- The anchor is the end of the window of the last started of the succeeded sweeps. -/
theorem loadAnchor_eq_some {anchor : Time} (loaded : loadAnchor sweeps = some anchor) :
    ∃ last ∈ sweeps, last.ended = some .succeeded ∧
      (∃ window, last.window = some window ∧ window.stop = anchor) ∧
      ∀ other ∈ sweeps, other.ended = some .succeeded → other.startedAt ≤ last.startedAt := by
  simp only [loadAnchor_eq, Option.map_eq_some_iff, Option.bind_eq_some_iff] at loaded
  obtain ⟨window, ⟨last, first, found⟩, stop⟩ := loaded
  -- Sorted by the latest start, so the head is the sweep the query returns.
  have sorted : (succeededSweeps sweeps).Pairwise fun first second =>
    second.startedAt ≤ first.startedAt := List.pairwise_insertionSort _ _
  obtain ⟨rest, shape⟩ := List.head?_eq_some_iff.mp first
  obtain ⟨listed, ended⟩ := mem_succeededSweeps.mp (shape ▸ List.mem_cons_self)
  refine ⟨last, listed, ended, ⟨window, found, stop⟩, ?_⟩
  intro other member succeeded
  have among := mem_succeededSweeps.mpr ⟨member, succeeded⟩
  rw [shape] at sorted among
  -- The sweep itself, or one that the sorting put behind it.
  rcases List.mem_cons.mp among with rfl | later
  · exact le_rfl
  · exact (List.pairwise_cons.mp sorted).1 other later

/-- With a succeeded sweep there is an anchor, when every succeeded sweep has read. -/
theorem loadAnchor_isSome (read : ∀ sweep ∈ sweeps, sweep.ended = some .succeeded → sweep.window ≠ none)
    {prior : Sweep} (member : prior ∈ sweeps) (succeeded : prior.ended = some .succeeded) :
    ∃ anchor, loadAnchor sweeps = some anchor := by
  have among := mem_succeededSweeps.mpr ⟨member, succeeded⟩
  -- A succeeded sweep is among the sorted ones, so these are not empty.
  cases shape : succeededSweeps sweeps with
  | nil =>
    rw [shape] at among
    cases among
  | cons last rest =>
    obtain ⟨listed, ended⟩ := mem_succeededSweeps.mp (shape ▸ List.mem_cons_self : last ∈ _)
    obtain ⟨window, found⟩ := Option.ne_none_iff_exists'.mp (read last listed ended)
    exact ⟨window.stop, by simp [loadAnchor_eq, shape, found]⟩

end Anchor

/-- A finding is open in the latest scan of a project that is not archived. -/
structure Standing (db : SlaSnapshot) (project : SlaProject) (finding : SlaFinding) : Prop where
  project_mem : project ∈ db.projects
  current : project.archived = false
  finding_mem : finding ∈ db.findings
  latest : db.latestScan project.id = some finding.scanId
  undecided : finding.status ∉ closedFindingStatuses

/-- A sweep whose window holds the deadline of a finding collects an alert for every member of the
team. -/
theorem mem_slaAlerts {written : Time → String} {db : SlaSnapshot} {project : SlaProject}
    {finding : SlaFinding} {windowStart now due : Time} {user : UserId}
    (standing : Standing db project finding) (deadline : finding.effectiveDue = some due)
    (after : windowStart ≤ due) (before : due < now)
    (member : user ∈ teamMemberUserIds db project.teamId) :
    ∃ alert ∈ slaAlerts written db windowStart now,
      alert.projectId = project.id ∧ alert.userId = user := by
  -- The finding is in the window; `standing` has the other columns of the query.
  have crossed : finding ∈ db.crossed windowStart now project.id := by
    have undecided := standing.undecided
    rw [SlaSnapshot.crossed, List.mem_filter]
    refine ⟨standing.finding_mem, ?_⟩
    simp [standing.latest, undecided, deadline, after, before]
  -- So the project has a count, and is among the breached ones.
  have some_rows : (db.crossed windowStart now project.id).isEmpty = false := by
    rw [List.isEmpty_eq_false_iff]
    exact List.ne_nil_of_mem crossed
  have breached : ∃ found ∈ breachedCounts db windowStart now, found.project = project := by
    have listed : project ∈ db.projects.filter fun project => !project.archived :=
      List.mem_filter.mpr ⟨standing.project_mem, by simp [standing.current]⟩
    exact ⟨_, List.mem_filterMap.mpr ⟨project, listed, if_neg (by simp [some_rows])⟩, rfl⟩
  obtain ⟨found, listed, rfl⟩ := breached
  -- One alert for each member of the project's team.
  refine ⟨_, List.mem_flatMap.mpr ⟨found, listed, List.mem_map.mpr ⟨user, member, rfl⟩⟩, rfl, rfl⟩

/-- What an event does to a sweep that is running. -/
inductive SweepAdvances (written : Time → String) (state next : SweepState) :
    SweepEvent → Sweep → Sweep → Prop where
  | read {found : Sweep} {now moment : Time} {db : SlaSnapshot} (unread : found.window = none)
      (started : found.startedAt ≤ now) (taken : now ≤ moment) (order : state.clock ≤ moment)
      (clock : next.clock = moment) (sent : next.sent = state.sent) :
      SweepAdvances written state next (.read found.id now moment db) found
        { found with
          window := some ⟨slaWindowStart (loadAnchor state.sweeps.rows) now, now⟩
          pending := slaAlerts written db (slaWindowStart (loadAnchor state.sweeps.rows) now) now }
  | send {found : Sweep} {accepted : Bool} {alert : SlaAlert} {rest : List SlaAlert}
      (pending : found.pending = alert :: rest) (clock : next.clock = state.clock)
      (sent : next.sent = if accepted then state.sent ++ [⟨found.id, alert⟩] else state.sent) :
      SweepAdvances written state next (.send found.id accepted) found { found with pending := rest }
  | finish {found : Sweep} (read : found.window ≠ none) (pending : found.pending = [])
      (clock : next.clock = state.clock) (sent : next.sent = state.sent) :
      SweepAdvances written state next (.finish found.id) found
        { found with ended := some .succeeded }
  | skip {found : Sweep} (unread : found.window = none)
      (clock : next.clock = state.clock) (sent : next.sent = state.sent) :
      SweepAdvances written state next (.skip found.id) found { found with ended := some .skipped }
  | kill {found : Sweep} (clock : next.clock = state.clock) (sent : next.sent = state.sent) :
      SweepAdvances written state next (.kill found.id) found { found with ended := some .killed }

namespace SweepState

variable {written : Time → String} {state next : SweepState} {event : SweepEvent}

/-- A sweep that is running is the one found, and has not ended. -/
theorem running_eq_some {sweep : SweepId} {found : Sweep}
    (running : state.running sweep = some found) :
    state.sweeps.find? sweep = some found ∧ found.id = sweep ∧ found.ended = none := by
  simp only [SweepState.running, Option.filter_eq_some_iff, Option.isNone_iff_eq_none] at running
  exact ⟨running.1, Table.key_of_find? running.1, running.2⟩

/-- An update of a running sweep changes that sweep. -/
theorem find?_put_running {found edited : Sweep} (here : state.sweeps.find? found.id = some found)
    (same : edited.id = found.id) (other : SweepId) :
    (state.sweeps.put edited).find? other =
      if other = found.id then some edited else state.sweeps.find? other := by
  rw [Table.find?_put, same]
  split
  · rename_i mine
    rw [mine, here]
    rfl
  · rfl

/-- An event starts a sweep, or advances one that is running. -/
theorem step_cases (taken : step written state event = some next) :
    (∃ sweep moment, event = .start sweep moment ∧ state.clock < moment ∧ next.clock = moment ∧
        next.sent = state.sent ∧ state.sweeps.find? sweep = none ∧
        ∀ other, next.sweeps.find? other =
          if other = sweep then some ⟨sweep, moment, none, [], none⟩
          else state.sweeps.find? other) ∨
      ∃ found edited, state.sweeps.find? found.id = some found ∧ found.ended = none ∧
        edited.id = found.id ∧ SweepAdvances written state next event found edited ∧
        ∀ other, next.sweeps.find? other =
          if other = found.id then some edited else state.sweeps.find? other := by
  -- One case an event: a start adds a sweep, the others edit one that is running.
  cases event with
  | start sweep moment =>
    simp only [step] at taken
    split at taken
    · rename_i later
      obtain ⟨sweeps, added, rfl⟩ := Option.map_eq_some_iff.mp taken
      exact .inl ⟨sweep, moment, rfl, later, rfl, rfl, Table.find?_of_insert added,
        fun other => Table.find?_insert added other⟩
    · cases taken
  | read sweep now moment db =>
    simp only [step, Option.bind_eq_some_iff] at taken
    obtain ⟨found, running, taken⟩ := taken
    obtain ⟨here, rfl, idle⟩ := running_eq_some running
    -- The window is read once, after the start and in the order of the clock.
    split at taken
    · rename_i may
      obtain ⟨unread, started, read, order⟩ := may
      cases taken
      let windowStart := slaWindowStart (loadAnchor state.sweeps.rows) now
      let edited : Sweep :=
        { found with
          window := some ⟨windowStart, now⟩
          pending := slaAlerts written db windowStart now }
      exact .inr ⟨found, edited, here, idle, rfl, .read unread started read order rfl rfl,
        find?_put_running here rfl⟩
    · cases taken
  | send sweep accepted =>
    simp only [step, Option.bind_eq_some_iff] at taken
    obtain ⟨found, running, taken⟩ := taken
    obtain ⟨here, rfl, idle⟩ := running_eq_some running
    -- The next pending alert is sent, or refused, and is pending no longer.
    split at taken
    · cases taken
    · rename_i alert rest pending
      cases taken
      exact .inr ⟨found, { found with pending := rest }, here, idle, rfl, .send pending rfl rfl,
        find?_put_running here rfl⟩
  | finish sweep =>
    simp only [step, Option.bind_eq_some_iff] at taken
    obtain ⟨found, running, taken⟩ := taken
    obtain ⟨here, rfl, idle⟩ := running_eq_some running
    -- A sweep ends when it has read and nothing is pending.
    split at taken
    · rename_i may
      cases taken
      exact .inr ⟨found, { found with ended := some .succeeded }, here, idle, rfl,
        .finish (Option.isSome_iff_ne_none.mp may.1) may.2 rfl rfl, find?_put_running here rfl⟩
    · cases taken
  | skip sweep =>
    simp only [step, Option.bind_eq_some_iff] at taken
    obtain ⟨found, running, taken⟩ := taken
    obtain ⟨here, rfl, idle⟩ := running_eq_some running
    split at taken
    · -- It is skipped when it has not read.
      rename_i unread
      cases taken
      exact .inr ⟨found, { found with ended := some .skipped }, here, idle, rfl, .skip unread rfl rfl,
        find?_put_running here rfl⟩
    · cases taken
  | kill sweep =>
    simp only [step, Option.map_eq_some_iff] at taken
    obtain ⟨found, running, rfl⟩ := taken
    obtain ⟨here, rfl, idle⟩ := running_eq_some running
    exact .inr ⟨found, { found with ended := some .killed }, here, idle, rfl, .kill rfl rfl,
      find?_put_running here rfl⟩

/-- A sweep that has ended stays as it is, and an alert that was sent stays sent. -/
structure Settles (state next : SweepState) : Prop where
  ended : ∀ sweep found, state.sweeps.find? sweep = some found → found.ended ≠ none →
    next.sweeps.find? sweep = some found
  sent : ∀ alert ∈ state.sent, alert ∈ next.sent

/-- Every event leaves what has ended. -/
theorem step_settles (taken : step written state event = some next) : Settles state next := by
  -- A finished sweep stays as it ended, and what was sent stays sent.
  rcases step_cases taken with ⟨sweep, moment, -, -, -, sent, fresh, stored⟩ |
      ⟨found, edited, here, idle, -, advances, stored⟩
  · refine ⟨?_, fun alert listed => sent ▸ listed⟩
    intro other old known _
    rw [stored, if_neg, known]
    rintro rfl
    rw [fresh] at known
    cases known
  · constructor
    · -- Only a running sweep is edited.
      intro other old known done
      rw [stored, if_neg, known]
      rintro rfl
      cases Option.some.inj (here.symm.trans known)
      exact done idle
    · -- By the kind of edit: only a send adds to the sent alerts.
      intro alert listed
      cases advances with
      | read _ _ _ _ _ sent => rwa [sent]
      | send _ _ sent =>
        rw [sent]
        split
        · exact List.mem_append_left _ listed
        · exact listed
      | finish _ _ _ sent => rwa [sent]
      | skip _ _ sent => rwa [sent]
      | kill _ sent => rwa [sent]

/-- Every run leaves what has ended. -/
theorem run_settles {events : List SweepEvent} (ran : run (step written) state events = some next) :
    Settles state next :=
  run_relation (fun _ => True) Settles (fun _ => ⟨fun _ _ known _ => known, fun _ listed => listed⟩)
    (fun first second =>
      ⟨fun sweep found known done => second.ended sweep found (first.ended sweep found known done) done,
        fun alert listed => second.sent alert (first.sent alert listed)⟩)
    (fun _ _ _ _ _ taken => ⟨trivial, step_settles taken⟩) trivial (Guarded.trivially _ _) ran

/-- Every sweep that succeeded has read. -/
def SucceededRead (state : SweepState) : Prop :=
  ∀ sweep found, state.sweeps.find? sweep = some found → found.ended = some .succeeded →
    found.window ≠ none

/-- Only a sweep that has read can succeed. -/
theorem SucceededRead.step (holds : SucceededRead state)
    (taken : SweepState.step written state event = some next) : SucceededRead next := by
  -- A sweep that succeeded has read, since a finish asks for it.
  rcases step_cases taken with ⟨sweep, moment, -, -, -, -, -, stored⟩ |
      ⟨found, edited, here, idle, -, advances, stored⟩
  · intro other old known succeeded
    rw [stored] at known
    split at known
    · cases known
      cases succeeded
    · exact holds other old known succeeded
  · intro other old known succeeded
    rw [stored] at known
    -- The edited sweep: only a finish makes it succeed.
    split at known
    · cases known
      cases advances with
      | read => simp
      | send => exact absurd succeeded (by simp [idle])
      | finish read => exact read
      | skip => cases succeeded
      | kill => cases succeeded
    · exact holds other old known succeeded

/-- Every sweep that succeeded has read, throughout a run. -/
theorem run_succeededRead {clock : Time} {events : List SweepEvent}
    (ran : run (SweepState.step written) (initial clock) events = some next) : SucceededRead next := by
  have preserved : ∀ state event next, SucceededRead state → True →
      SweepState.step written state event = some next → SucceededRead next :=
    fun _ _ _ holds _ taken => holds.step taken
  refine run_invariant preserved ?_ (Guarded.trivially _ _) ran
  intro sweep found known
  cases known

/-- A sweep with its window has sent or has still to send each of its alerts, unless it has ended. -/
def Underway (sweep : SweepId) (window : SweepWindow) (alerts : List SlaAlert) (state : SweepState) :
    Prop :=
  ∃ found, state.sweeps.find? sweep = some found ∧ found.window = some window ∧
    (found.ended = none → ∀ alert ∈ alerts, alert ∈ found.pending ∨ ⟨sweep, alert⟩ ∈ state.sent)

/-- A sweep of which no alert is refused loses none. -/
theorem Underway.step {sweep : SweepId} {window : SweepWindow} {alerts : List SlaAlert}
    (holds : Underway sweep window alerts state) (accepted : event ≠ .send sweep false)
    (taken : SweepState.step written state event = some next) : Underway sweep window alerts next := by
  obtain ⟨mine, known, read, kept⟩ := holds
  have sentStays := (step_settles taken).sent
  -- A new sweep is another one; the running one may be this or another.
  rcases step_cases taken with ⟨other, moment, -, -, -, -, fresh, stored⟩ |
      ⟨found, edited, here, idle, -, advances, stored⟩
  · refine ⟨mine, ?_, read, ?_⟩
    · rw [stored, if_neg, known]
      rintro rfl
      rw [fresh] at known
      cases known
    · intro open_ alert listed
      exact (kept open_ alert listed).imp_right (sentStays _)
  · -- This sweep was edited: it has read, so it is not read again.
    by_cases same : sweep = found.id
    · subst same
      cases Option.some.inj (here.symm.trans known)
      refine ⟨edited, by rw [stored, if_pos rfl], ?_⟩
      cases advances with
      | read unread => rw [unread] at read; cases read
      | @send _ taken_ alert rest pending _ sent =>
        refine ⟨read, ?_⟩
        intro open_ wanted listed
        -- A refused send is excluded, and an accepted one sends what is no longer pending.
        cases taken_ with
        | false => exact absurd rfl accepted
        | true =>
          rw [if_pos rfl] at sent
          rcases kept idle wanted listed with waiting | already
          · rw [pending] at waiting
            rcases List.mem_cons.mp waiting with rfl | later
            · exact .inr (by simp [sent])
            · exact .inl later
          · exact .inr (sentStays _ already)
      | finish => exact ⟨read, nofun⟩
      | skip => exact ⟨read, nofun⟩
      | kill => exact ⟨read, nofun⟩
    · -- Another sweep was edited, so this one stands as it was.
      refine ⟨mine, by rw [stored, if_neg same, known], read, ?_⟩
      intro open_ alert listed
      exact (kept open_ alert listed).imp_right (sentStays _)

/-- A sweep of which no alert is refused loses none in any run. -/
theorem Underway.run {sweep : SweepId} {window : SweepWindow} {alerts : List SlaAlert}
    {events : List SweepEvent} (holds : Underway sweep window alerts state)
    (accepted : .send sweep false ∉ events)
    (ran : Store.run (SweepState.step written) state events = some next) :
    Underway sweep window alerts next := by
  -- The first event is not the refused send, so one step keeps what holds and the rest follows.
  induction events generalizing state with
  | nil =>
    cases ran
    exact holds
  | cons event rest ih =>
    obtain ⟨middle, taken, ran⟩ := run_cons.mp ran
    rw [List.mem_cons, not_or] at accepted
    exact ih (holds.step (Ne.symm accepted.1) taken) accepted.2 ran

/-- A sweep starts only when every sweep has ended, and none is killed. -/
def InTurn (state : SweepState) : SweepEvent → Prop
  | .start _ _ => ∀ found ∈ state.sweeps.rows, found.ended ≠ none
  | .kill _ => False
  | _ => True

instance (state : SweepState) : ∀ event, Decidable (InTurn state event)
  | .start _ _ => inferInstanceAs (Decidable (∀ found ∈ state.sweeps.rows, found.ended ≠ none))
  | .read _ _ _ _ => .isTrue trivial
  | .send _ _ => .isTrue trivial
  | .finish _ => .isTrue trivial
  | .skip _ => .isTrue trivial
  | .kill _ => .isFalse id

/-- Sweeps that were taken in turn: their windows follow one another. -/
structure Orderly (state : SweepState) : Prop where
  started : ∀ sweep found, state.sweeps.find? sweep = some found → found.startedAt ≤ state.clock
  stopped : ∀ sweep found window, state.sweeps.find? sweep = some found → found.window = some window →
    found.startedAt ≤ window.stop ∧ window.stop ≤ state.clock
  distinct : ∀ first second one other, state.sweeps.find? first = some one →
    state.sweeps.find? second = some other → one.startedAt = other.startedAt → first = second
  /-- The sweep that is running was started last. -/
  last : ∀ sweep found, state.sweeps.find? sweep = some found → found.ended = none →
    ∀ other old, state.sweeps.find? other = some old → old.startedAt ≤ found.startedAt
  closed : ∀ sweep found window, state.sweeps.find? sweep = some found → found.window = some window →
    found.ended = none ∨ found.ended = some .succeeded
  past : ∀ first second one other window, state.sweeps.find? first = some one →
    state.sweeps.find? second = some other → one.startedAt < other.startedAt →
    one.window = some window → window.stop < other.startedAt
  adjacent : ∀ first second one other window later, state.sweeps.find? first = some one →
    state.sweeps.find? second = some other → one.ended = some .succeeded →
    one.startedAt < other.startedAt → one.window = some window → other.window = some later →
    window.stop ≤ later.start

/-- Starting a sweep after the others have ended keeps them in order. -/
theorem Orderly.start (orderly : Orderly state) {sweep : SweepId} {moment : Time}
    (turn : InTurn state (.start sweep moment)) (later : state.clock < moment)
    (clock : next.clock = moment)
    (stored : ∀ other, next.sweeps.find? other =
      if other = sweep then some ⟨sweep, moment, none, [], none⟩ else state.sweeps.find? other) :
    Orderly next := by
  -- A sweep of the new state is the one that starts, or an old one.
  have cases_ : ∀ other found, next.sweeps.find? other = some found →
      other = sweep ∧ found = ⟨sweep, moment, none, [], none⟩ ∨
        other ≠ sweep ∧ state.sweeps.find? other = some found := by
    intro other found known
    rw [stored] at known
    split at known
    · rename_i same
      exact .inl ⟨same, (Option.some.inj known).symm⟩
    · rename_i differs
      exact .inr ⟨differs, known⟩
  -- All the old ones have started before it.
  have before : ∀ other found, state.sweeps.find? other = some found → found.startedAt < moment :=
    fun other found known => (orderly.started other found known).trans_lt later
  constructor
  · -- The clock has gone on to the new start.
    intro other found known
    rw [clock]
    rcases cases_ other found known with ⟨_, rfl⟩ | ⟨_, known⟩
    · exact le_rfl
    · exact (before other found known).le
  · intro other found window known read
    rcases cases_ other found known with ⟨_, rfl⟩ | ⟨_, known⟩
    · cases read
    · rw [clock]
      obtain ⟨low, high⟩ := orderly.stopped other found window known read
      exact ⟨low, high.trans later.le⟩
  · -- No two sweeps start at one moment, since the clock went on in between.
    intro first second one other firstKnown secondKnown same
    rcases cases_ first one firstKnown with ⟨mine, rfl⟩ | ⟨_, firstKnown⟩ <;>
      rcases cases_ second other secondKnown with ⟨theirs, rfl⟩ | ⟨_, secondKnown⟩
    · exact mine.trans theirs.symm
    · exact absurd same (before second other secondKnown).ne'
    · exact absurd same (before first one firstKnown).ne
    · exact orderly.distinct first second one other firstKnown secondKnown same
  · -- None is running besides the new one, which is what being in turn asks for.
    intro other found known idle third old oldKnown
    rcases cases_ other found known with ⟨_, rfl⟩ | ⟨_, known⟩
    · rcases cases_ third old oldKnown with ⟨_, rfl⟩ | ⟨_, oldKnown⟩
      · exact le_rfl
      · exact (before third old oldKnown).le
    · exact absurd idle (turn found (Table.mem_of_find? known))
  · intro other found window known read
    rcases cases_ other found known with ⟨_, rfl⟩ | ⟨_, known⟩
    · cases read
    · exact orderly.closed other found window known read
  · -- An old window ends before the new sweep starts.
    intro first second one other window firstKnown secondKnown order read
    rcases cases_ first one firstKnown with ⟨_, rfl⟩ | ⟨_, firstKnown⟩
    · cases read
    · rcases cases_ second other secondKnown with ⟨_, rfl⟩ | ⟨_, secondKnown⟩
      · exact (orderly.stopped first one window firstKnown read).2.trans_lt later
      · exact orderly.past first second one other window firstKnown secondKnown order read
  · -- The new sweep has no window yet, so only old neighbours have to be looked at.
    intro first second one other window after firstKnown secondKnown succeeded order read readAfter
    rcases cases_ first one firstKnown with ⟨_, rfl⟩ | ⟨_, firstKnown⟩
    · cases read
    · rcases cases_ second other secondKnown with ⟨_, rfl⟩ | ⟨_, secondKnown⟩
      · cases readAfter
      · exact orderly.adjacent first second one other window after firstKnown secondKnown succeeded order
          read readAfter

/-- A change of the running sweep keeps the sweeps in order, when its window follows the others. -/
theorem Orderly.edit (orderly : Orderly state) {found edited : Sweep}
    (here : state.sweeps.find? found.id = some found) (idle : found.ended = none)
    (stored : ∀ other, next.sweeps.find? other =
      if other = found.id then some edited else state.sweeps.find? other)
    (same : edited.startedAt = found.startedAt) (clock : state.clock ≤ next.clock)
    (stop : ∀ window, edited.window = some window →
      found.startedAt ≤ window.stop ∧ window.stop ≤ next.clock ∧
        (edited.ended = none ∨ edited.ended = some .succeeded) ∧
        ∀ other old earlier, state.sweeps.find? other = some old → old.ended = some .succeeded →
          old.startedAt < found.startedAt → old.window = some earlier →
          earlier.stop ≤ window.start) :
    Orderly next := by
  -- A sweep of the new table is the edited one, or was there before.
  have cases_ : ∀ other old, next.sweeps.find? other = some old →
      other = found.id ∧ old = edited ∨ other ≠ found.id ∧ state.sweeps.find? other = some old := by
    intro other old known
    rw [stored] at known
    split at known
    · rename_i mine
      exact .inl ⟨mine, (Option.some.inj known).symm⟩
    · rename_i differs
      exact .inr ⟨differs, known⟩
  -- The running sweep was started last, so nothing is started after it.
  have top : ∀ other old, next.sweeps.find? other = some old → ¬found.startedAt < old.startedAt := by
    intro other old known
    rcases cases_ other old known with ⟨_, rfl⟩ | ⟨_, known⟩
    · rw [same]
      exact lt_irrefl _
    · exact not_lt.mpr (orderly.last found.id found here idle other old known)
  constructor
  · -- No sweep starts in the future.
    intro other old known
    rcases cases_ other old known with ⟨_, rfl⟩ | ⟨_, known⟩
    · rw [same]
      exact (orderly.started _ _ here).trans clock
    · exact (orderly.started other old known).trans clock
  · -- A window ends before its sweep starts and not after now.
    intro other old window known read
    rcases cases_ other old known with ⟨_, rfl⟩ | ⟨_, known⟩
    · rw [same]
      exact ⟨(stop window read).1, (stop window read).2.1⟩
    · obtain ⟨low, high⟩ := orderly.stopped other old window known read
      exact ⟨low, high.trans clock⟩
  · -- Two sweeps never start at once.
    intro first second one other firstKnown secondKnown equal
    rcases cases_ first one firstKnown with ⟨rfl, rfl⟩ | ⟨_, firstKnown⟩ <;>
      rcases cases_ second other secondKnown with ⟨rfl, rfl⟩ | ⟨_, secondKnown⟩
    · rfl
    · exact orderly.distinct _ second found other here secondKnown (same.symm.trans equal)
    · exact orderly.distinct first _ one found firstKnown here (equal.trans same)
    · exact orderly.distinct first second one other firstKnown secondKnown equal
  · -- The open sweep is the last one.
    intro other old known open_ third older olderKnown
    rcases cases_ other old known with ⟨_, rfl⟩ | ⟨_, known⟩
    · rw [same]
      exact not_lt.mp (top third older olderKnown)
    · rcases cases_ third older olderKnown with ⟨_, rfl⟩ | ⟨_, olderKnown⟩
      · rw [same]
        exact orderly.last other old known open_ _ found here
      · exact orderly.last other old known open_ third older olderKnown
  · -- A sweep with a window is open or done.
    intro other old window known read
    rcases cases_ other old known with ⟨_, rfl⟩ | ⟨_, known⟩
    · exact (stop window read).2.2.1
    · exact orderly.closed other old window known read
  · -- A sweep starts after the windows of those before it.
    intro first second one other window firstKnown secondKnown order read
    rcases cases_ first one firstKnown with ⟨_, rfl⟩ | ⟨_, firstKnown⟩
    · rw [same] at order
      exact absurd order (top second other secondKnown)
    · rcases cases_ second other secondKnown with ⟨_, rfl⟩ | ⟨_, secondKnown⟩
      · rw [same] at order ⊢
        exact orderly.past first _ one found window firstKnown here order read
      · exact orderly.past first second one other window firstKnown secondKnown order read
  · -- A window begins where the one before it has ended.
    intro first second one other window after firstKnown secondKnown succeeded order read readAfter
    rcases cases_ first one firstKnown with ⟨_, rfl⟩ | ⟨_, firstKnown⟩
    · rw [same] at order
      exact absurd order (top second other secondKnown)
    · rcases cases_ second other secondKnown with ⟨_, rfl⟩ | ⟨_, secondKnown⟩
      · rw [same] at order
        exact (stop after readAfter).2.2.2 first one window firstKnown succeeded order read
      · exact orderly.adjacent first second one other window after firstKnown secondKnown succeeded order
          read readAfter

/-- The window that a sweep reads in its turn follows those of the succeeded sweeps. -/
theorem Orderly.anchor_after (orderly : Orderly state) {found : Sweep} {now : Time}
    (here : state.sweeps.find? found.id = some found) (idle : found.ended = none)
    (started : found.startedAt ≤ now) (read : SucceededRead state) {other : SweepId} {old : Sweep}
    {earlier : SweepWindow} (known : state.sweeps.find? other = some old)
    (succeeded : old.ended = some .succeeded) (window : old.window = some earlier) :
    earlier.stop ≤ slaWindowStart (loadAnchor state.sweeps.rows) now := by
  have readRows : ∀ sweep ∈ state.sweeps.rows, sweep.ended = some .succeeded → sweep.window ≠ none :=
    fun sweep member => read sweep.id sweep (Table.find?_of_mem member)
  -- There is an anchor, since a sweep has succeeded.
  obtain ⟨anchor, loaded⟩ := loadAnchor_isSome readRows (Table.mem_of_find? known) succeeded
  obtain ⟨last, member, lastSucceeded, ⟨lastWindow, lastRead, rfl⟩, newest⟩ := loadAnchor_eq_some loaded
  have lastKnown := Table.find?_of_mem member
  rw [loaded]
  -- The anchor is that of the last started sweep, whose window ends after the others.
  have reach : earlier.stop ≤ lastWindow.stop := by
    rcases (newest old (Table.mem_of_find? known) succeeded).lt_or_eq with before | equal
    · exact (orderly.past other last.id old last earlier known lastKnown before window).le.trans
        (orderly.stopped last.id last lastWindow lastKnown lastRead).1
    · obtain rfl := orderly.distinct other last.id old last known lastKnown equal
      cases Option.some.inj (known.symm.trans lastKnown)
      cases Option.some.inj (window.symm.trans lastRead)
      exact le_rfl
  -- It lies behind this sweep's start, as its sweep was started earlier.
  have ahead : lastWindow.stop < now := by
    have order := orderly.last found.id found here idle last.id last lastKnown
    rcases order.lt_or_eq with before | equal
    · exact (orderly.past last.id found.id last found lastWindow lastKnown here before
        lastRead).trans_le started
    · have mine := orderly.distinct last.id found.id last found lastKnown here equal
      rw [mine] at lastKnown
      cases Option.some.inj (here.symm.trans lastKnown)
      rw [idle] at lastSucceeded
      cases lastSucceeded
  exact reach.trans (anchor_le_slaWindowStart ahead)

/-- Every event that is taken in turn keeps the sweeps in order. -/
theorem Orderly.step (orderly : Orderly state) (read : SucceededRead state) (turn : InTurn state event)
    (taken : SweepState.step written state event = some next) : Orderly next := by
  rcases step_cases taken with ⟨sweep, moment, rfl, later, clock, -, -, stored⟩ |
      ⟨found, edited, here, idle, -, advances, stored⟩
  · -- A start has its own lemma; the edits keep every window but the one that is read.
    exact orderly.start turn later clock stored
  · cases advances with
    -- The window is read now: it starts at the anchor of the last sweep that succeeded.
    | read unread started taken_ order clock =>
      refine orderly.edit here idle stored rfl (by rw [clock]; exact order) ?_
      rintro window ⟨⟩
      refine ⟨started, by rw [clock]; exact taken_, .inl idle, ?_⟩
      intro other old earlier known succeeded _ oldRead
      exact orderly.anchor_after here idle started read known succeeded oldRead
    -- A send, and so a finish: the sweep's window stays.
    | send pending clock =>
      refine orderly.edit here idle stored rfl clock.ge ?_
      intro window mine
      obtain ⟨low, high⟩ := orderly.stopped found.id found window here mine
      refine ⟨low, high.trans clock.ge, .inl idle, ?_⟩
      intro other old earlier known succeeded order oldRead
      exact orderly.adjacent other found.id old found earlier window known here succeeded order oldRead
        mine
    | finish _ _ clock =>
      refine orderly.edit here idle stored rfl clock.ge ?_
      intro window mine
      obtain ⟨low, high⟩ := orderly.stopped found.id found window here mine
      refine ⟨low, high.trans clock.ge, .inr rfl, ?_⟩
      intro other old earlier known succeeded order oldRead
      exact orderly.adjacent other found.id old found earlier window known here succeeded order oldRead
        mine
    -- A sweep that is skipped has no window.
    | skip unread clock =>
      refine orderly.edit here idle stored rfl clock.ge ?_
      intro window mine
      have absent : found.window = some window := mine
      rw [unread] at absent
      cases absent
    | kill => exact turn.elim

/-- Sweeps that are taken in turn stay in order. -/
theorem run_orderly {clock : Time} {events : List SweepEvent}
    (turns : Guarded (SweepState.step written) InTurn (initial clock) events)
    (ran : run (SweepState.step written) (initial clock) events = some next) : Orderly next := by
  have preserved : ∀ state event next, SucceededRead state ∧ Orderly state → InTurn state event →
      SweepState.step written state event = some next → SucceededRead next ∧ Orderly next :=
    fun _ _ _ holds turn taken => ⟨holds.1.step taken, holds.2.step holds.1 turn taken⟩
  refine (run_invariant preserved ⟨?_, ?_⟩ turns ran).2
  · intro sweep found known
    cases known
  · constructor <;> intros <;> contradiction

/-- A sweep alerted a user to a deadline of a project: its window holds the deadline, and the broker took
its alert for the project. -/
def AlertedTo (state : SweepState) (sweep : SweepId) (project : ProjectId) (user : UserId)
    (due : Time) : Prop :=
  (∃ sent ∈ state.sent, sent.sweep = sweep ∧ sent.alert.projectId = project ∧
      sent.alert.userId = user) ∧
    ∃ found window, state.sweeps.find? sweep = some found ∧ found.window = some window ∧
      window.start ≤ due ∧ due < window.stop

/-- A sweep that reads sets out with the alerts of its window. -/
theorem read_underway {sweep : SweepId} {now moment : Time} {db : SlaSnapshot}
    (taken : step written state (.read sweep now moment db) = some next) :
    Underway sweep ⟨slaWindowStart (loadAnchor state.sweeps.rows) now, now⟩
      (slaAlerts written db (slaWindowStart (loadAnchor state.sweeps.rows) now) now) next := by
  rcases step_cases taken with ⟨_, _, other, _⟩ | ⟨found, edited, here, idle, _, advances, stored⟩
  · cases other
  · cases advances with
    | read =>
      exact ⟨_, by rw [stored, if_pos rfl], rfl, fun _ alert listed => .inl listed⟩

/-- A sweep that succeeds has sent all of its alerts. -/
theorem finish_underway {sweep : SweepId} {window : SweepWindow} {alerts : List SlaAlert}
    (holds : Underway sweep window alerts state)
    (taken : step written state (.finish sweep) = some next) :
    ∃ found, next.sweeps.find? sweep = some found ∧ found.window = some window ∧
      found.ended = some .succeeded ∧ ∀ alert ∈ alerts, ⟨sweep, alert⟩ ∈ next.sent := by
  obtain ⟨mine, known, read, kept⟩ := holds
  rcases step_cases taken with ⟨_, _, other, _⟩ | ⟨found, edited, here, idle, _, advances, stored⟩
  · -- Only a finish of this sweep changes it, and it does so with no alert pending.
    cases other
  · cases advances with
    | finish _ pending _ sent =>
      cases Option.some.inj (here.symm.trans known)
      refine ⟨{ mine with ended := some .succeeded }, by rw [stored, if_pos rfl], read, rfl, ?_⟩
      intro alert listed
      rw [sent]
      -- An alert of the sweep was waiting, which `pending` excludes, or was sent already.
      rcases kept idle alert listed with waiting | already
      · rw [pending] at waiting
        cases waiting
      · exact already

end SweepState

open SweepState

/-- The first sweep after a deadline that is recorded as succeeded, at most seven days after one that
was, alerts every member to it when the broker refuses none of its alerts; and among sweeps in turn it is
the only one that does. -/
theorem sla_breach_alerted (written : Time → String) (clock : Time)
    (before middle after : List SweepEvent) (reading closing closed final : SweepState)
    (sweep : SweepId) (now moment : Time) (db : SlaSnapshot) (project : SlaProject)
    (finding : SlaFinding) (due : Time) (user : UserId)
    (reached : run (step written) (initial clock) before = some reading)
    (swept : run (step written) reading (.read sweep now moment db :: middle) = some closing)
    (recorded : step written closing (.finish sweep) = some closed)
    (continued : run (step written) closed after = some final)
    (standing : Standing db project finding) (deadline : finding.effectiveDue = some due)
    (member : user ∈ teamMemberUserIds db project.teamId) (passed : due < now)
    (first : ∀ other found window, closing.sweeps.find? other = some found →
      found.ended = some .succeeded → found.window = some window → window.stop ≤ due)
    (previous : ∃ prior found window, reading.sweeps.find? prior = some found ∧
      found.ended = some .succeeded ∧ found.window = some window ∧ now ≤ window.stop + slaMaxCatchUp)
    (accepted : .send sweep false ∉ middle) :
    AlertedTo final sweep project.id user due ∧
      (Guarded (step written) InTurn (initial clock)
          (before ++ .read sweep now moment db :: middle ++ .finish sweep :: after) →
        ∀ other, AlertedTo final other project.id user due → other = sweep) := by
  have kept := run_settles swept
  have read := run_succeededRead reached
  obtain ⟨prior, found, window, known, succeeded, has, recent⟩ := previous
  have readRows : ∀ sweep ∈ reading.sweeps.rows, sweep.ended = some .succeeded → sweep.window ≠ none :=
    fun sweep member => read sweep.id sweep (Table.find?_of_mem member)
  -- The anchor exists, and is that of some succeeded sweep.
  obtain ⟨anchor, loaded⟩ := loadAnchor_isSome readRows (Table.mem_of_find? known) succeeded
  obtain ⟨last, listed, lastSucceeded, ⟨lastWindow, lastHas, rfl⟩, _⟩ := loadAnchor_eq_some loaded
  -- Both the anchor and the previous sweep end no later than the deadline.
  have anchored : lastWindow.stop ≤ due := first last.id last lastWindow
    (kept.ended last.id last (Table.find?_of_mem listed) (by simp [lastSucceeded])) lastSucceeded lastHas
  have priorStop : window.stop ≤ due := first prior found window
    (kept.ended prior found known (by simp [succeeded])) succeeded has
  have reaches : slaWindowStart (loadAnchor reading.sweeps.rows) now ≤ due := by
    rw [loaded]
    exact slaWindowStart_le (anchored.trans_lt passed) anchored
      (recent.trans (add_le_add_left priorStop _))
  -- The finding has crossed within the window, so its member is among the alerts.
  obtain ⟨alert, collected, about, addressed⟩ := mem_slaAlerts standing deadline reaches passed member
  obtain ⟨started, taken, ran⟩ := run_cons.mp swept
  -- The sweep finishes, so all of them have been sent.
  obtain ⟨mine, here, mineHas, mineSucceeded, sent⟩ :=
    finish_underway ((read_underway taken).run accepted ran) recorded
  have rest := run_settles continued
  have stays := rest.ended sweep mine here (by simp [mineSucceeded])
  refine ⟨⟨⟨_, rest.sent _ (sent alert collected), rfl, about, addressed⟩, mine, _, stays, mineHas, reaches,
    passed⟩, ?_⟩
  -- With the sweeps in turn, any other window that had it would overlap this one.
  rintro turns other ⟨_, old, oldWindow, oldKnown, oldHas, low, high⟩
  have whole : run (step written) (initial clock)
      (before ++ .read sweep now moment db :: middle ++ .finish sweep :: after) = some final := by
    rw [run_append, run_append, reached, Option.bind_some, swept, Option.bind_some, run, recorded]
    exact continued
  have orderly := run_orderly turns whole
  by_contra differs
  -- The other sweep started earlier, at the same time, or later.
  rcases lt_trichotomy old.startedAt mine.startedAt with earlier | equal | later
  · rcases orderly.closed other old oldWindow oldKnown oldHas with open_ | done
    · exact absurd (orderly.last other old oldKnown open_ sweep mine stays) (not_le.mpr earlier)
    · have apart := orderly.adjacent other sweep old mine oldWindow _ oldKnown stays done earlier oldHas
        mineHas
      exact absurd (high.trans_le (apart.trans reaches)) (lt_irrefl _)
  · exact differs (orderly.distinct other sweep old mine oldKnown stays equal)
  · have apart := orderly.adjacent sweep other mine old _ oldWindow stays oldKnown mineSucceeded later
      mineHas oldHas
    exact absurd (passed.trans_le (apart.trans low)) (lt_irrefl _)

/-- A project with one open finding, whose deadline passes in the second sweep, and two members. -/
def slaDb : SlaSnapshot where
  projects := [⟨1, "web", 1, false⟩]
  scans := [⟨10, 1, .succeeded, none, 5, none, 5⟩]
  findings := [⟨10, .high, .new, some 100000⟩]
  members := [⟨1, 7, false, true⟩, ⟨1, 8, false, true⟩]

/-- The finding stands in the project. -/
theorem slaDb_standing : Standing slaDb ⟨1, "web", 1, false⟩ ⟨10, .high, .new, some 100000⟩ :=
  ⟨by simp [slaDb], rfl, by simp [slaDb], by decide, by decide⟩

/-- A sweep that finds nothing to send. -/
def quietSweep (sweep : SweepId) (moment : Time) : List SweepEvent :=
  [.start sweep moment, .read sweep moment moment slaDb, .finish sweep]

/-- The sweep of the next day sends both alerts, and only it does. -/
theorem sla_breach_alerted_both :
    ∃ final,
      run (step fun _ => "") (initial 0)
        (quietSweep 1 50000 ++ [SweepEvent.start 2 136400] ++
          SweepEvent.read 2 136400 136400 slaDb :: [SweepEvent.send 2 true, .send 2 true] ++
          SweepEvent.finish 2 :: quietSweep 3 222800) = some final ∧
      AlertedTo final 2 1 8 100000 ∧
      ∀ other, AlertedTo final other 1 8 100000 → other = 2 := by
  -- The state the second sweep reads in: one sweep has succeeded.
  have opened : (run (step fun _ => "") (initial 0) (quietSweep 1 50000 ++
    [SweepEvent.start 2 136400])).map
      (fun state => state.sweeps.rows.map fun sweep => (sweep.window, sweep.ended)) =
      some [(some ⟨-36400, 50000⟩, some .succeeded), (none, none)] := by decide
  -- The state it finishes in: its window starts where the other's stopped.
  have shut : (run (step fun _ => "") (initial 0) (quietSweep 1 50000 ++ [SweepEvent.start 2 136400] ++
      SweepEvent.read 2 136400 136400 slaDb :: [SweepEvent.send 2 true, .send 2 true])).map
      (fun state => state.sweeps.rows.map fun sweep => (sweep.window, sweep.ended)) =
      some [(some ⟨-36400, 50000⟩, some .succeeded), (some ⟨50000, 136400⟩, none)] := by
    decide
  -- The whole run is possible.
  have ends : (run (step fun _ => "") (initial 0) (quietSweep 1 50000 ++ [SweepEvent.start 2 136400] ++
      SweepEvent.read 2 136400 136400 slaDb :: [SweepEvent.send 2 true, .send 2 true] ++
      SweepEvent.finish 2 :: quietSweep 3 222800)).isSome = true := by decide
  obtain ⟨final, whole⟩ := Option.isSome_iff_exists.mp ends
  -- The run, cut at the read and at the finish.
  have parts := whole
  rw [run_append] at parts
  obtain ⟨closing, toClosing, fromClosing⟩ := Option.bind_eq_some_iff.mp parts
  obtain ⟨closed, recorded, continued⟩ := run_cons.mp fromClosing
  rw [toClosing] at shut
  rw [run_append] at toClosing
  obtain ⟨reading, reached, swept⟩ := Option.bind_eq_some_iff.mp toClosing
  rw [reached] at opened
  simp only [Option.map_some, Option.some.injEq] at opened shut
  have alerted := sla_breach_alerted (fun _ => "") 0 (quietSweep 1 50000 ++ [SweepEvent.start 2 136400])
    [SweepEvent.send 2 true, .send 2 true] (quietSweep 3 222800) reading closing closed final
    2 136400 136400 slaDb ⟨1, "web", 1, false⟩ ⟨10, .high, .new, some 100000⟩ 100000 8 reached swept recorded continued
    slaDb_standing rfl (by decide) (by decide)
    -- The sweeps that succeeded before the finish: only the first, whose window stops at the start of this.
    (by
      intro other found window known succeeded has
      have listed : (found.window, found.ended) ∈
          closing.sweeps.rows.map fun sweep => (sweep.window, sweep.ended) :=
        List.mem_map_of_mem (Table.mem_of_find? known)
      rw [shut, has, succeeded] at listed
      simp only [List.mem_cons, Prod.mk.injEq, Option.some.injEq, List.not_mem_nil, or_false,
        reduceCtorEq, and_false, and_true] at listed
      rw [listed]
      decide)
    -- And one of them had succeeded when the window was read.
    (by
      have listed : (some (⟨-36400, 50000⟩ : SweepWindow), some SweepEnd.succeeded) ∈
          reading.sweeps.rows.map fun sweep => (sweep.window, sweep.ended) := by
        rw [opened]
        exact List.mem_cons_self
      obtain ⟨found, member, same⟩ := List.mem_map.mp listed
      exact ⟨found.id, found, ⟨-36400, 50000⟩, Table.find?_of_mem member, (Prod.mk.inj same).2,
        (Prod.mk.inj same).1, by decide⟩)
    (by simp)
  exact ⟨final, whole, alerted.1, alerted.2 (by decide)⟩

/-- The broker refuses the second alert of the sweep, which is recorded as succeeded; the sweep of the
day after starts where this one ended, and the member is never alerted. -/
theorem sla_breach_unalerted :
    (run (step fun _ => "") (initial 0)
        (quietSweep 1 50000 ++ [SweepEvent.start 2 136400] ++
          SweepEvent.read 2 136400 136400 slaDb :: [SweepEvent.send 2 true, .send 2 false] ++
          SweepEvent.finish 2 :: quietSweep 3 222800)).map
      (fun final => (final.sweeps.rows.map fun sweep => (sweep.window, sweep.ended),
        final.sent.map fun sent => (sent.sweep, sent.alert.projectId, sent.alert.userId))) =
      some ([(some ⟨-36400, 50000⟩, some .succeeded), (some ⟨50000, 136400⟩, some .succeeded),
        (some ⟨136400, 222800⟩, some .succeeded)], [(2, 1, 7)]) ∧
    8 ∈ teamMemberUserIds slaDb 1 ∧
    Standing slaDb ⟨1, "web", 1, false⟩ ⟨10, .high, .new, some 100000⟩ :=
  ⟨by decide, by decide +kernel, slaDb_standing⟩

end Trusca
