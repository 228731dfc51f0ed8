import Trusca.Approval.Enrolment
import Trusca.Store.Run

/-! A scan asks again about a component exactly when its licence set is not the one that the latest decision
recorded, and no component of a project has two open approvals. -/

namespace Trusca

open Store

section Statements

/-- Whether a component of a project has an open approval. -/
def HasOpen (approvals : Table ApprovalRow.id) (project : ProjectId) (component : Nat) : Prop :=
  ∃ row ∈ approvals.rows, row.opens component project = true

/-- No component of a project has two open approvals. -/
def OneOpen (approvals : Table ApprovalRow.id) : Prop :=
  ∀ component project, ∀ first ∈ approvals.rows, ∀ second ∈ approvals.rows,
    first.opens component project = true → second.opens component project = true → first = second

/-- The decision about a component that counts. -/
structure LatestDecision (approvals : Table ApprovalRow.id) (project : ProjectId) (component : Nat)
    (row : ApprovalRow) : Prop where
  listed : row ∈ approvals.rows
  decides : row.decides component project = true
  latest : ∀ other ∈ approvals.rows, other.decides component project = true →
    other.decisionOrder ≤ row.decisionOrder

/-- Whether a component carries a licence in a scan, as far as the approvals stage sees it. -/
def CarriesLicense (tables : EnrolmentTables) (scan : ScanId) (component : Nat) (identifier : String) : Prop :=
  identifier ≠ "" ∧ ∃ finding ∈ tables.licenseFindings, finding.scanId = scan ∧
    tables.componentOf finding.componentVersionId = component ∧
    finding.source.getD "" ∉ lateLicenseSources ∧ (tables.license finding.licenseId).identifier = identifier

/-- The latest decision about a component recorded the licence set that it carries in a scan. -/
def DecisionCovers (db : EnrolmentDb) (project : ProjectId) (scan : ScanId) (component : Nat) : Prop :=
  ∃ row ids, LatestDecision db.approvals project component row ∧ row.decidedLicenseIds = some ids ∧
    ∀ identifier, identifier ∈ ids ↔ CarriesLicense db.tables scan component identifier

/-- What the approvals stage of a scan promises. -/
structure EnrolmentLaws (db : EnrolmentDb) (call : EnrolmentCall) (final : EnrolmentDb) (created : List Nat) :
    Prop where
  rows : final.approvals.rows = db.approvals.rows ++ created.map fun component =>
    pendingApproval component call.projectId call.teamId none (call.fresh component) call.now
  settled : ∀ scan component, call.scanId = some scan → DecisionCovers db call.projectId scan component →
    component ∉ created
  asked : ∀ scan, call.scanId = some scan → ∀ component ∈ call.componentIds,
    ¬ DecisionCovers db call.projectId scan component →
    HasOpen final.approvals call.projectId component ∧
      (component ∈ created ↔ ¬ HasOpen db.approvals call.projectId component)
  single : OneOpen final.approvals
  again : ∀ team fresh now,
    autoCreatePendingApprovals final { call with teamId := team, fresh := fresh, now := now } = some (final, [])

/-- What every table in use keeps: one open approval each, and recorded sets in the order of a sorted set. -/
structure Enrolled (approvals : Table ApprovalRow.id) : Prop where
  single : OneOpen approvals
  recorded : ∀ row ∈ approvals.rows, ∀ ids, row.decidedLicenseIds = some ids → ids.Pairwise (· < ·)

end Statements

section Sets

variable {tables : EnrolmentTables} {scan : ScanId} {components : List Nat} {component : Nat} {identifier : String}

/-- A sorted set is in strict order. -/
theorem groupLicenseSets_strict (rows : List (Nat × String)) (component : Nat) :
    (EnrolmentTables.groupLicenseSets rows component).Pairwise (· < ·) := by
  unfold EnrolmentTables.groupLicenseSets
  have distinct := ((sortBy_perm id ((rows.filter fun row => row.1 = component && row.2 ≠ "").map
    Prod.snd).dedup).nodup_iff).mpr (List.nodup_dedup _)
  exact (sortBy_sorted id _).imp₂ (fun _ _ before different => lt_of_le_of_ne before different) distinct

/-- Sets in strict order with the same members are the same list. -/
theorem strict_ext {first second : List String} (one : first.Pairwise (· < ·)) (two : second.Pairwise (· < ·))
    (same : ∀ member, member ∈ first ↔ member ∈ second) : first = second := by
  refine List.Perm.eq_of_pairwise (fun _ _ _ _ before after => absurd before (lt_asymm after)) one two ?_
  exact (List.perm_ext_iff_of_nodup (one.imp ne_of_lt) (two.imp ne_of_lt)).mpr same

/-- A component that is asked for has the licences it carries in the scan. -/
theorem mem_licenseSetsForScan (requested : component ∈ components) :
    identifier ∈ tables.licenseSetsForScan scan components component ↔ CarriesLicense tables scan component identifier := by
  unfold EnrolmentTables.licenseSetsForScan EnrolmentTables.groupLicenseSets EnrolmentTables.licenseSetSelect CarriesLicense
  rw [mem_sortBy, List.mem_dedup, List.mem_map]
  -- The query's conditions, written as members of the lists it goes through.
  simp only [List.mem_filter, List.mem_dedup, List.mem_map, Bool.and_eq_true, decide_eq_true_eq,
    List.contains_iff_mem, List.mem_eraseDups, Bool.not_eq_true', ← Bool.not_eq_true]
  constructor
  · -- The pair the select gives has the finding it came from.
    rintro ⟨⟨_, _⟩, ⟨⟨finding, ⟨listed, ⟨own, -⟩, early⟩, same⟩, asked, named⟩, rfl⟩
    obtain ⟨rfl, rfl⟩ := Prod.mk.inj same
    exact ⟨named, finding, listed, own, asked, early, rfl⟩
  · -- And a finding that carries the licence gives such a pair.
    rintro ⟨named, finding, listed, own, rfl, early, rfl⟩
    exact ⟨_, ⟨⟨finding, ⟨listed, ⟨own, requested⟩, early⟩, rfl⟩, rfl, named⟩, rfl⟩

/-- The current licence set is sorted and names no licence twice. -/
theorem currentLicenseSet_strict (tables : EnrolmentTables) (project : ProjectId) (component : Nat) :
    (tables.currentLicenseSet project component).Pairwise (· < ·) := by
  unfold EnrolmentTables.currentLicenseSet
  split
  · exact .nil
  · exact groupLicenseSets_strict _ _

end Sets

section Latest

variable {approvals : Table ApprovalRow.id} {project : ProjectId} {component : Nat} {row : ApprovalRow}

/-- The set that counts is the one of the latest decision. -/
theorem latestDecidedLicenseSet_eq (latest : LatestDecision approvals project component row) :
    latestDecidedLicenseSet approvals project component = some row.decidedLicenseIds := by
  unfold latestDecidedLicenseSet
  have listed : row ∈ approvals.rows.filter fun row => row.decides component project :=
    List.mem_filter.mpr ⟨latest.listed, latest.decides⟩
  cases found : (approvals.rows.filter fun row => row.decides component project).argmax
      ApprovalRow.decisionOrder with
  | none =>
    rw [List.argmax_eq_none.mp found] at listed
    exact nomatch listed
  | some newest =>
    obtain ⟨among, decides⟩ := List.mem_filter.mp (List.argmax_mem (Option.mem_def.mpr found))
    have after := List.le_of_mem_argmax listed (Option.mem_def.mpr found)
    -- The order ends with the key of the row, so no two rows are equally late.
    have same := le_antisymm (latest.latest newest among decides) after
    have keys : newest.id = row.id :=
      (Prod.mk.inj (toLex_inj.mp (Prod.mk.inj (toLex_inj.mp (Prod.mk.inj (toLex_inj.mp same)).2)).2)).2
    rw [Table.eq_of_key among latest.listed keys]
    rfl

/-- What the stage reads is the set of a latest decision. -/
theorem exists_latest {decided : List String}
    (found : (latestDecidedLicenseSet approvals project component).join = some decided) :
    ∃ row, LatestDecision approvals project component row ∧ row.decidedLicenseIds = some decided := by
  unfold latestDecidedLicenseSet at found
  obtain ⟨row, newest, recorded⟩ := Option.map_eq_some_iff.mp (Option.join_eq_some_iff.mp found)
  obtain ⟨listed, decides⟩ := List.mem_filter.mp (List.argmax_mem (Option.mem_def.mpr newest))
  refine ⟨row, ⟨listed, decides, fun other among also => ?_⟩, recorded⟩
  exact List.le_of_mem_argmax (List.mem_filter.mpr ⟨among, also⟩) (Option.mem_def.mpr newest)

/-- The components to ask about are the requested ones that no latest decision settles. -/
theorem mem_uniqueIds {db : EnrolmentDb} {call : EnrolmentCall} {scan : ScanId} (kept : Enrolled db.approvals)
    (scanned : call.scanId = some scan) :
    component ∈ call.uniqueIds db ↔ component ∈ call.componentIds ∧ ¬ DecisionCovers db call.projectId scan component := by
  unfold EnrolmentCall.uniqueIds
  rw [scanned]
  dsimp only
  rw [List.mem_filter, List.mem_eraseDups]
  refine and_congr_right fun requested => ?_
  have carried := fun identifier => @mem_licenseSetsForScan db.tables scan _ component identifier
    (List.mem_eraseDups.mpr requested)
  -- What the latest decided row has recorded settles it: nothing recorded covers nothing.
  cases found : (latestDecidedLicenseSet db.approvals call.projectId component).join with
  | none =>
    refine iff_of_true rfl ?_
    rintro ⟨row, ids, latest, recorded, -⟩
    rw [latestDecidedLicenseSet_eq latest, recorded] at found
    exact nomatch found
  -- A recorded set covers the component exactly when it is the set the scan shows.
  | some decided =>
    dsimp only
    rw [decide_eq_true_eq, ne_eq, not_iff_not]
    constructor
    · rintro rfl
      obtain ⟨row, latest, recorded⟩ := exists_latest found
      exact ⟨row, _, latest, recorded, carried⟩
    · rintro ⟨row, ids, latest, recorded, same⟩
      rw [latestDecidedLicenseSet_eq latest, recorded] at found
      obtain rfl : ids = decided := Option.some.inj found
      -- Both lists are strictly sorted, so equal members make them equal.
      refine strict_ext (kept.recorded row latest.listed ids recorded) (groupLicenseSets_strict _ _) fun identifier => ?_
      rw [same, carried]

end Latest

section Insert

variable {project : ProjectId} {team : GroupId} {fresh : Nat → Nat} {now : Time}
  {approvals final : Table ApprovalRow.id} {created : List Nat} {component : Nat} {row : ApprovalRow}

/-- A component has an open approval when one of the rows opens it. -/
theorem hasOpen_iff : HasOpen approvals project component ↔
    (approvals.rows.any fun row => row.opens component project) = true := List.any_eq_true.symm

/-- A pending approval opens its own component in its own project. -/
theorem pending_opens {user : Option UserId} {id other : Nat} {place : ProjectId} :
    (pendingApproval component project team user id now).opens other place = true ↔
      component = other ∧ project = place := by
  change ((decide (component = other) && decide (project = place)) && true) = true ↔ _
  simp

/-- What the statement leaves: the old rows, and a pending row for each component that it inserted. -/
theorem insertPending_rows {components : List Nat}
    (inserted : insertPending project team fresh now approvals components = some (final, created)) :
    final.rows = approvals.rows ++
      created.map fun component => pendingApproval component project team none (fresh component) now := by
  induction components generalizing approvals created with
  | nil =>
    obtain ⟨rfl, rfl⟩ := Prod.mk.inj (Option.some.inj inserted)
    simp
  | cons component rest ih =>
    unfold insertPending at inserted
    split_ifs at inserted with there
    · -- An open row is there, so the component is passed over.
      exact ih inserted
    · -- Otherwise the row goes in last.
      obtain ⟨grown, added, inserted⟩ := Option.bind_eq_some_iff.mp inserted
      obtain ⟨⟨last, more⟩, later, done⟩ := Option.bind_eq_some_iff.mp inserted
      obtain ⟨rfl, rfl⟩ := Prod.mk.inj (Option.some.inj done)
      rw [ih later, Table.insert_rows added]
      simp

/-- A component gets a row when it had no open approval. -/
theorem mem_created {components : List Nat}
    (inserted : insertPending project team fresh now approvals components = some (final, created)) :
    component ∈ created ↔ component ∈ components ∧ ¬ HasOpen approvals project component := by
  induction components generalizing approvals created with
  | nil =>
    obtain ⟨rfl, rfl⟩ := Prod.mk.inj (Option.some.inj inserted)
    simp
  | cons head rest ih =>
    unfold insertPending at inserted
    -- The head is open already and is passed over.
    split_ifs at inserted with there
    · rw [ih inserted, List.mem_cons]
      refine ⟨fun both => ⟨.inr both.1, both.2⟩, ?_⟩
      rintro ⟨rfl | later, missing⟩
      · exact absurd (hasOpen_iff.mpr there) missing
      · exact ⟨later, missing⟩
    · obtain ⟨grown, added, inserted⟩ := Option.bind_eq_some_iff.mp inserted
      obtain ⟨⟨last, more⟩, later, done⟩ := Option.bind_eq_some_iff.mp inserted
      obtain ⟨rfl, rfl⟩ := Prod.mk.inj (Option.some.inj done)
      -- After the insertion the component itself is open, and the others are as they were.
      have opened : HasOpen grown project component ↔ HasOpen approvals project component ∨ head = component := by
        unfold HasOpen
        rw [Table.insert_rows added]
        simp only [List.mem_append, List.mem_singleton, or_and_right, exists_or, exists_eq_left, pending_opens, and_true]
      -- The head is created, and the rest as the induction says.
      rw [List.mem_cons, List.mem_cons, ih later, opened]
      by_cases same : component = head
      · subst same
        simpa [hasOpen_iff] using there
      · simp [same, Ne.symm same]

/-- Afterwards every component of the statement has an open approval. -/
theorem hasOpen_insertPending {components : List Nat} (listed : component ∈ components)
    (inserted : insertPending project team fresh now approvals components = some (final, created)) :
    HasOpen final project component := by
  unfold HasOpen
  rw [insertPending_rows inserted]
  by_cases there : HasOpen approvals project component
  · obtain ⟨row, member, opens⟩ := there
    exact ⟨row, List.mem_append_left _ member, opens⟩
  · refine ⟨_, List.mem_append_right _ (List.mem_map_of_mem ((mem_created inserted).mpr ⟨listed, there⟩)), ?_⟩
    exact pending_opens.mpr ⟨rfl, rfl⟩

/-- Where every component has an open approval, the statement inserts nothing. -/
theorem insertPending_none {components : List Nat}
    (opened : ∀ component ∈ components, HasOpen approvals project component) :
    insertPending project team fresh now approvals components = some (approvals, []) := by
  induction components with
  | nil => rfl
  | cons component rest ih =>
    unfold insertPending
    rw [if_pos (hasOpen_iff.mp (opened component List.mem_cons_self))]
    exact ih fun other later => opened other (List.mem_cons_of_mem _ later)

/-- A pending row for a component without an open approval does no harm. -/
theorem Enrolled.insert {user : Option UserId} {id : Nat} (kept : Enrolled approvals)
    (missing : ¬ HasOpen approvals project component)
    (added : approvals.insert (pendingApproval component project team user id now) = some final) : Enrolled final := by
  -- Every row of the new table is an old one or the row just inserted.
  have member {row : ApprovalRow} (listed : row ∈ final.rows) :
      row ∈ approvals.rows ∨ row = pendingApproval component project team user id now := by
    rw [Table.insert_rows added] at listed
    exact (List.mem_append.mp listed).imp_right List.mem_singleton.mp
  refine ⟨?_, ?_⟩
  · -- At most one open row a component: the new one opens where `missing` says there was none.
    intro other place first one second two here there
    obtain old | rfl := member one
    · obtain old' | rfl := member two
      · exact kept.single other place first old second old' here there
      · obtain ⟨rfl, rfl⟩ := pending_opens.mp there
        exact absurd ⟨first, old, here⟩ missing
    · obtain ⟨rfl, rfl⟩ := pending_opens.mp here
      obtain old' | rfl := member two
      · exact absurd ⟨second, old', there⟩ missing
      · rfl
  · -- The new row has recorded no licence set, so only the old rows have to be looked at.
    intro row listed ids recorded
    obtain old | rfl := member listed
    · exact kept.recorded row old ids recorded
    · exact nomatch recorded

/-- Inserting pending rows keeps one open approval per component. -/
theorem Enrolled.insertPending {components : List Nat} (kept : Enrolled approvals)
    (inserted : Trusca.insertPending project team fresh now approvals components = some (final, created)) :
    Enrolled final := by
  induction components generalizing approvals created with
  | nil =>
    obtain ⟨rfl, rfl⟩ := Prod.mk.inj (Option.some.inj inserted)
    exact kept
  | cons component rest ih =>
    unfold Trusca.insertPending at inserted
    split_ifs at inserted with there
    · exact ih kept inserted
    · -- The insert keeps the invariant, since no open row was there.
      obtain ⟨grown, added, inserted⟩ := Option.bind_eq_some_iff.mp inserted
      obtain ⟨⟨last, more⟩, later, done⟩ := Option.bind_eq_some_iff.mp inserted
      obtain ⟨rfl, rfl⟩ := Prod.mk.inj (Option.some.inj done)
      exact ih (kept.insert (fun opened => there (hasOpen_iff.mp opened)) added) later

/-- The rows that the statement inserts are no decisions. -/
theorem latestDecidedLicenseSet_pending (rows : final.rows = approvals.rows ++
    created.map fun component => pendingApproval component project team none (fresh component) now) :
    latestDecidedLicenseSet final = latestDecidedLicenseSet approvals := by
  funext place component
  -- A new row is pending, so none of them decides anything.
  have undecided : (created.map fun component => pendingApproval component project team none (fresh component)
      now).filter (fun row => row.decides component place) = [] := by
    refine List.filter_eq_nil_iff.mpr fun row listed decides => ?_
    obtain ⟨other, -, rfl⟩ := List.mem_map.mp listed
    simp [ApprovalRow.decides, pendingApproval, ApprovalStatus.terminal] at decides
  unfold latestDecidedLicenseSet
  rw [rows, List.filter_append, undecided, List.append_nil]

end Insert

section Kept

variable {approvals : Table ApprovalRow.id} {db next : EnrolmentDb}

/-- A row that is written back does no harm when it is open only where the old one was. -/
theorem Enrolled.put {row : ApprovalRow} (kept : Enrolled approvals)
    (stays : row.status.isOpen = true → ∃ old ∈ approvals.rows, old.id = row.id ∧ old.status.isOpen = true ∧
      old.componentId = row.componentId ∧ old.projectId = row.projectId)
    (recorded : ∀ ids, row.decidedLicenseIds = some ids → ids.Pairwise (· < ·)) : Enrolled (approvals.put row) := by
  -- A put replaces the row of its id and keeps all others.
  have member {other : ApprovalRow} (listed : other ∈ (approvals.put row).rows) :
      other = row ∨ (other ∈ approvals.rows ∧ other.id ≠ row.id) := by
    obtain ⟨old, there, rfl⟩ := List.mem_map.mp listed
    by_cases same : old.id = row.id
    · exact .inl (if_pos same)
    · exact .inr ⟨by rwa [if_neg same], by rwa [if_neg same]⟩
  -- What the new row opens, the row that it replaces opened.
  have replaced {component : Nat} {project : ProjectId} (opens : row.opens component project = true) :
      ∃ old ∈ approvals.rows, old.id = row.id ∧ old.opens component project = true := by
    simp only [ApprovalRow.opens, Bool.and_eq_true, decide_eq_true_eq] at opens
    obtain ⟨⟨rfl, rfl⟩, isOpen⟩ := opens
    obtain ⟨old, there, key, also, component, project⟩ := stays isOpen
    refine ⟨old, there, key, ?_⟩
    simp [ApprovalRow.opens, component, project, also]
  refine ⟨?_, ?_⟩
  · -- Two open rows of one pair: the new row stands in for the one it replaces.
    intro component project first one second two here there
    obtain rfl | ⟨old, different⟩ := member one
    · obtain rfl | ⟨old', different'⟩ := member two
      · rfl
      · obtain ⟨old, listed, key, opens⟩ := replaced here
        have same := kept.single component project old listed second old' opens there
        exact absurd (same ▸ key) different'
    · obtain rfl | ⟨old', different'⟩ := member two
      · obtain ⟨old', listed, key, opens⟩ := replaced there
        have same := kept.single component project first old old' listed here opens
        exact absurd (same ▸ key) different
      · exact kept.single component project first old second old' here there
  · -- The recorded sets are the new row's own, or as before.
    intro other listed ids found
    obtain rfl | ⟨old, -⟩ := member listed
    · exact recorded ids found
    · exact kept.recorded other old ids found

/-- The answer to an intake request is a decision. -/
theorem decidedIntakeStatus_terminal {tables : EnrolmentTables} {project : ProjectId} {purl : String}
    {verdict : ApprovalStatus} (answered : tables.decidedIntakeStatus project purl = some verdict) :
    verdict.terminal = true := by
  obtain ⟨request, newest, rfl⟩ := Option.map_eq_some_iff.mp answered
  have listed := List.mem_filter.mp (List.argmax_mem (Option.mem_def.mpr newest))
  exact (Bool.and_eq_true _ _ ▸ listed.2).2

/-- Carrying one intake over keeps one open approval per component. -/
theorem Enrolled.carryIntake {project : ProjectId} {created : List Nat} {scan : Option ScanId} {now : Time}
    {row : ApprovalRow} (kept : Enrolled approvals) :
    Enrolled (Trusca.carryIntake db project created scan now approvals row) := by
  unfold Trusca.carryIntake
  -- Without a verdict the row stays.
  split
  · exact kept
  · next verdict answered =>
    obtain ⟨purl, -, found⟩ := Option.bind_eq_some_iff.mp answered
    have decided := decidedIntakeStatus_terminal found
    refine kept.put (fun isOpen => ?_) fun ids recorded => ?_
    · -- The row is decided now, so it is not open.
      exact nomatch (decided ▸ isOpen : (!true) = true)
    · -- And it records the licence set of the scan, which is sorted.
      obtain ⟨scan, -, rfl⟩ := Option.map_eq_some_iff.mp recorded
      exact groupLicenseSets_strict _ _

/-- Carrying every intake over keeps one open approval per component. -/
theorem Enrolled.carryAll {project : ProjectId} {created : List Nat} {scan : Option ScanId} {now : Time}
    (rows : List ApprovalRow) (kept : Enrolled approvals) :
    Enrolled (rows.foldl (Trusca.carryIntake db project created scan now) approvals) := by
  induction rows generalizing approvals with
  | nil => exact kept
  | cons row rest ih => exact ih kept.carryIntake

/-- A move that is allowed starts from an open approval and keeps its component and its project. -/
theorem transitionApproval_ok {call : TransitionCall} {row moved : ComponentApproval}
    (allowed : transitionApproval call row = .ok moved) :
    row.status.isOpen = true ∧ moved.componentId = row.componentId ∧ moved.projectId = row.projectId ∧
      (moved.decidedLicenseIds = row.decidedLicenseIds ∨
        moved.decidedLicenseIds = some (call.currentLicenseSet row.projectId row.componentId)) := by
  unfold transitionApproval at allowed
  split_ifs at allowed with hidden stale barred role final
  -- In every allowed branch the row was open, as the transition map has nothing after a decision.
  all_goals
    have isOpen : row.status.isOpen = true := by
      cases status : row.status <;> simp_all [ApprovalStatus.transitionMap, ApprovalStatus.isOpen,
        ApprovalStatus.terminal]
    obtain rfl := Except.ok.inj allowed
  · exact ⟨isOpen, rfl, rfl, .inr rfl⟩
  · exact ⟨isOpen, rfl, rfl, .inl rfl⟩

/-- A transition keeps one open approval per component. -/
theorem Enrolled.transition (kept : Enrolled db.approvals) (id : Nat) (call : TransitionCall) :
    Enrolled (db.transition id call).approvals := by
  unfold EnrolmentDb.transition
  split
  · -- An unknown row and a refused transition change nothing.
    exact kept
  · next row found =>
    split
    · exact kept
    · next moved allowed =>
      obtain ⟨isOpen, component, project, recorded⟩ := transitionApproval_ok allowed
      have listed := Table.mem_of_find? found
      refine kept.put (fun _ => ⟨row, listed, rfl, isOpen, component.symm, project.symm⟩) fun ids here => ?_
      -- The recorded set is the row's own, or the current one, which is sorted.
      obtain same | current := recorded
      · exact kept.recorded row listed ids (same ▸ here)
      · obtain rfl := Option.some.inj (here.symm.trans current)
        exact currentLicenseSet_strict _ _ _

/-- Every event keeps what every table in use keeps. -/
theorem Enrolled.step {event : EnrolmentEvent} (kept : Enrolled db.approvals) (taken : db.step event = some next) :
    Enrolled next.approvals := by
  -- One case an event: only the inserts and the decisions touch the approvals.
  cases event with
  | scanned tables =>
    obtain rfl := Option.some.inj taken
    exact kept
  | enrol call =>
    obtain ⟨⟨final, created⟩, enrolled, rfl⟩ := Option.map_eq_some_iff.mp taken
    obtain ⟨⟨approvals, more⟩, inserted, same⟩ := Option.map_eq_some_iff.mp enrolled
    obtain ⟨rfl, rfl⟩ := Prod.mk.inj same
    exact kept.insertPending inserted
  | carry project created scan now =>
    obtain rfl := Option.some.inj taken
    exact kept.carryAll _
  -- The four guards of the endpoint, of which the open row's absence is the one that counts.
  | create call =>
    obtain ⟨team, -, taken⟩ := Option.bind_eq_some_iff.mp taken
    obtain ⟨-, -, taken⟩ := Option.bind_eq_some_iff.mp taken
    obtain ⟨-, -, taken⟩ := Option.bind_eq_some_iff.mp taken
    obtain ⟨_, free, taken⟩ := Option.bind_eq_some_iff.mp taken
    obtain ⟨approvals, added, done⟩ := Option.bind_eq_some_iff.mp taken
    obtain rfl := Option.some.inj done
    refine kept.insert (fun opened => ?_) added
    rw [hasOpen_iff] at opened
    simp [opened] at free
  | transition id call =>
    obtain rfl := Option.some.inj taken
    exact kept.transition id call
  | delete id call =>
    obtain rfl := Option.some.inj taken
    -- Deleting a row keeps both parts, since what is left is a part of the old table.
    unfold EnrolmentDb.delete
    split
    · exact kept
    · split
      · exact kept
      · refine ⟨?_, fun row listed => kept.recorded row (List.mem_filter.mp listed).1⟩
        intro component project first one second two
        exact kept.single component project first (List.mem_filter.mp one).1 second (List.mem_filter.mp two).1

end Kept

/-- A database before the first recorded set: one open approval each, and no set in any row. -/
structure Started (db : EnrolmentDb) : Prop where
  single : OneOpen db.approvals
  legacy : ∀ row ∈ db.approvals.rows, row.decidedLicenseIds = none

/-- After any calls and any changes of the scans, the approvals stage asks again exactly where the licence set is
not the recorded one, leaves one open approval each, and has nothing to ask the second time. -/
theorem autoCreatePendingApprovals_laws (start : EnrolmentDb) (events : List EnrolmentEvent) (db final : EnrolmentDb)
    (call : EnrolmentCall) (created : List Nat) (started : Started start)
    (ran : run EnrolmentDb.step start events = some db)
    (enrolled : autoCreatePendingApprovals db call = some (final, created)) :
    EnrolmentLaws db call final created := by
  -- The run starts with rows that record nothing, and keeps what it starts with.
  have first : Enrolled start.approvals :=
    ⟨started.single, fun row listed ids recorded => nomatch (started.legacy row listed).symm.trans recorded⟩
  have kept : Enrolled db.approvals :=
    @run_invariant _ _ EnrolmentDb.step (fun _ _ => True) (fun db => Enrolled db.approvals)
      (fun _ _ _ kept _ taken => kept.step taken) start db events first (Guarded.trivially _ _) ran
  obtain ⟨⟨approvals, more⟩, inserted, same⟩ := Option.map_eq_some_iff.mp enrolled
  obtain ⟨rfl, rfl⟩ := Prod.mk.inj same
  have rows := insertPending_rows inserted
  refine ⟨rows, ?_, ?_, (kept.insertPending inserted).single, ?_⟩
  · -- A settled component is not asked for, so it is not created.
    intro scan component scanned settled listed
    exact ((mem_uniqueIds kept scanned).mp ((mem_created inserted).mp listed).1).2 settled
  · -- One that is still open is asked for, and is created unless a row is open.
    intro scan scanned component requested open'
    have listed := (mem_uniqueIds kept scanned).mpr ⟨requested, open'⟩
    refine ⟨hasOpen_insertPending listed inserted, ?_⟩
    rw [mem_created inserted]
    exact and_iff_right listed
  · intro team fresh now
    -- The new rows are no decisions, so the second call asks about the same components, which are all open.
    have asked : EnrolmentCall.uniqueIds { call with teamId := team, fresh := fresh, now := now }
        { db with approvals := approvals } = call.uniqueIds db := by
      unfold EnrolmentCall.uniqueIds
      rw [latestDecidedLicenseSet_pending rows]
    unfold autoCreatePendingApprovals
    rw [asked, insertPending_none fun component listed => hasOpen_insertPending listed inserted]
    rfl

/-- Three components with one licence each, as the second scan finds them or as the first did. -/
def relicensedTables (scan : ScanId) (license : Nat) : EnrolmentTables where
  projectTeam := fun _ => some 1
  purl := fun _ => some "pkg:npm/lib"
  componentOf := id
  license := fun id => if id = 0 then ⟨some "MIT", "MIT License"⟩ else ⟨some "GPL-3.0-only", "GPL"⟩
  licenseFindings := [⟨scan, 7, 0, none⟩, ⟨scan, 8, license, none⟩, ⟨scan, 9, 0, none⟩]
  scans := [⟨scan, 3, .succeeded, .source, 5, some 6⟩]
  scanComponents := [(scan, 7), (scan, 8), (scan, 9)]
  intakeRequests := []

/-- A component that was approved before sets were recorded, and two that are open. -/
def legacyDb : EnrolmentDb where
  tables := relicensedTables 1 0
  approvals :=
    ⟨[{ pendingApproval 7 3 1 none 1 10 with status := .approved, decidedAt := some 11 },
      pendingApproval 8 3 1 none 2 10, pendingApproval 9 3 1 none 3 10], by decide⟩

/-- A team administrator moves an approval on. -/
def reviewed (action : ApprovalStatus) (ifMatch : Int) : TransitionCall where
  actor := ⟨40, .groupAdmin, [1], fun _ => some .groupAdmin, false⟩
  directory := ⟨fun _ => some [], fun _ => false, false, true⟩
  action := action
  decisionNote := none
  ifMatch := ifMatch
  now := 20
  currentLicenseSet := fun _ _ => []

/-- Both open approvals are granted, and then one of the two components changes its licence. -/
def relicensed : List EnrolmentEvent :=
  [.transition 2 (reviewed .underReview 1), .transition 2 (reviewed .approved 2),
    .transition 3 (reviewed .underReview 1), .transition 3 (reviewed .approved 2),
    .scanned (relicensedTables 2 1)]

/-- The approvals stage of the scan that found the other licence. -/
def secondScan : EnrolmentCall := ⟨3, 1, [7, 8, 9, 7], some 2, fun component => component, 30⟩

/-- A component that was approved without a set and one with another licence than it was approved with are asked
about again; one that still has its licence is not. -/
theorem autoCreatePendingApprovals_laws_relicensed : ∃ db final,
    run EnrolmentDb.step legacyDb relicensed = some db ∧
      db.approvals.rows.map (·.decidedLicenseIds) = [none, some ["MIT"], some ["MIT"]] ∧
      EnrolmentLaws db secondScan final [7, 8] := by
  have started : Started legacyDb := by
    refine ⟨fun component project first one second two here there => ?_, by decide⟩
    -- Of the three approvals two are open, and these are about two components.
    have apart : ∀ first ∈ legacyDb.approvals.rows, ∀ second ∈ legacyDb.approvals.rows,
        first.status.isOpen = true → second.status.isOpen = true →
          first.componentId = second.componentId → first = second := by
      decide
    simp only [ApprovalRow.opens, Bool.and_eq_true, decide_eq_true_eq] at here there
    exact apart first one second two here.2 there.2 (here.1.1.trans there.1.1.symm)
  have outcome : (run EnrolmentDb.step legacyDb relicensed).map (fun db =>
      (db.approvals.rows.map (·.decidedLicenseIds), (autoCreatePendingApprovals db secondScan).map Prod.snd)) =
        some ([none, some ["MIT"], some ["MIT"]], some [7, 8]) := by
    decide +kernel
  obtain ⟨db, ran, same⟩ := Option.map_eq_some_iff.mp outcome
  obtain ⟨sets, asked⟩ := Prod.mk.inj same
  obtain ⟨⟨final, created⟩, enrolled, rfl⟩ := Option.map_eq_some_iff.mp asked
  exact ⟨db, final, ran, sets,
    autoCreatePendingApprovals_laws legacyDb relicensed db final secondScan _ started ran enrolled⟩
end Trusca
