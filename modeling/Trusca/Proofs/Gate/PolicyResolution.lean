import Mathlib.Data.List.Dedup
import Mathlib.Data.List.Find
import Trusca.Gate.PolicyResolution

/-! Each threshold of the gate comes from the nearest row that sets it, and the approval statuses from every
row between the project and the organisation. -/

namespace Trusca

open Store

section Statements

/-- The rows between a group and its organisation, nearest first; absent where a level has none. -/
def GatePolicyTables.levels (tables : GatePolicyTables) (group : Group) : List (Option SavedGatePolicy) :=
  (group.chain.map fun id => tables.policies.find? (group.organizationId, some id)) ++
    [tables.policies.find? (group.organizationId, none)]

/-- The first level that sets a field sets it to this value. -/
def NearestValue {α : Type} (levels : List (Option SavedGatePolicy)) (field : SavedGatePolicy → Option α)
    (value : α) : Prop :=
  ∃ below row above, levels = below ++ some row :: above ∧
    (∀ level ∈ below, level.bind field = none) ∧ field row = some value

/-- Two tables differ in the row of one scope only, as after it was added, edited or deleted. -/
def DiffersAt (scope : OrganizationId × Option GroupId) (policies policies' : Table SavedGatePolicy.scope) :
    Prop :=
  ∀ other, other ≠ scope → policies'.find? other = policies.find? other

/-- The row decides nothing. -/
def SavedGatePolicy.Blank (row : SavedGatePolicy) : Prop :=
  row.epssThreshold = none ∧ row.reachableCriticalOnly = none ∧ row.maliciousBlocks = none ∧
    row.approvalRequiredStatuses = none

end Statements

section Fields

variable {chain : List GroupId} {byGroupId byGroupId' : GroupId → Option SavedGatePolicy}
  {orgRow orgRow' : Option SavedGatePolicy}

/-- A field is picked from the first level that has it. -/
theorem pick_eq {α : Type} (field : SavedGatePolicy → Option α) :
    (pick chain byGroupId orgRow field).map (·.1) =
      (chain.map byGroupId ++ [orgRow]).findSome? fun level => level.bind field := by
  rw [pick, List.findSome?_append, List.findSome?_map]
  -- Level by level, up the chain: the first that has a value gives it.
  induction chain with
  | nil => cases own : orgRow.bind field <;> simp [own]
  | cons id rest ih =>
    rw [List.findSome?_cons, List.findSome?_cons]
    cases here : (byGroupId id).bind field with
    | none => simpa [here] using ih
    | some value => simp [here]

/-- What is picked only depends on the one field of the rows along the chain. -/
theorem pick_congr {α : Type} {field : SavedGatePolicy → Option α}
    (groups : ∀ id ∈ chain, (byGroupId id).bind field = (byGroupId' id).bind field)
    (org : orgRow.bind field = orgRow'.bind field) :
    pick chain byGroupId orgRow field = pick chain byGroupId' orgRow' field := by
  -- The chain is read alike, and so is the organisation behind it.
  have found : (chain.findSome? fun id => ((byGroupId id).bind field).map fun value => (value, id)) =
      chain.findSome? fun id => ((byGroupId' id).bind field).map fun value => (value, id) := by
    induction chain with
    | nil => rfl
    | cons id rest ih =>
      obtain ⟨here, later⟩ := List.forall_mem_cons.mp groups
      rw [List.findSome?_cons, List.findSome?_cons, here, ih later]
  rw [pick, pick, found, org]

/-- The union of statuses only depends on the statuses named along the chain. -/
theorem unionApprovalStatuses_congr
    (groups : ∀ id ∈ chain, namedStatuses (byGroupId id) = namedStatuses (byGroupId' id))
    (org : namedStatuses orgRow = namedStatuses orgRow') :
    unionApprovalStatuses chain byGroupId orgRow = unionApprovalStatuses chain byGroupId' orgRow' := by
  -- The same levels contribute, and each names the same statuses.
  have contributing : (chain.filter fun id => namedStatuses (byGroupId id) ≠ []) =
      chain.filter fun id => namedStatuses (byGroupId' id) ≠ [] :=
    List.filter_congr fun id listed => by rw [groups id listed]
  have named : ((chain.filter fun id => namedStatuses (byGroupId' id) ≠ []).flatMap fun id =>
        namedStatuses (byGroupId id)) =
      (chain.filter fun id => namedStatuses (byGroupId' id) ≠ []).flatMap fun id =>
        namedStatuses (byGroupId' id) :=
    List.flatMap_congr fun id listed => groups id (List.mem_of_mem_filter listed)
  simp only [unionApprovalStatuses]
  rw [contributing, named, org]

/-- The fields that rows set are all that counts of them. -/
theorem resolvedFields_congr
    (groups : ∀ id ∈ chain, ∀ {α : Type} (field : SavedGatePolicy → Option α),
      (∀ row : SavedGatePolicy, row.Blank → field row = none) →
        (byGroupId id).bind field = (byGroupId' id).bind field)
    (org : ∀ {α : Type} (field : SavedGatePolicy → Option α),
      (∀ row : SavedGatePolicy, row.Blank → field row = none) → orgRow.bind field = orgRow'.bind field) :
    resolvedFields chain byGroupId orgRow = resolvedFields chain byGroupId' orgRow' := by
  -- Each field is resolved on its own, and no one asks more of a row than `field`.
  have statuses (row : SavedGatePolicy) (blank : row.Blank) : row.approvalRequiredStatuses = none :=
    blank.2.2.2
  -- The statuses are a union over the levels, the three others a pick of the nearest.
  have approvals : unionApprovalStatuses chain byGroupId orgRow =
      unionApprovalStatuses chain byGroupId' orgRow' := by
    refine unionApprovalStatuses_congr (fun id listed => ?_) ?_
    · rw [namedStatuses, namedStatuses, groups id listed _ statuses]
    · rw [namedStatuses, namedStatuses, org _ statuses]
  have epss : pick chain byGroupId orgRow (fun row => row.epssThreshold) =
      pick chain byGroupId' orgRow' fun row => row.epssThreshold :=
    pick_congr (fun id listed => groups id listed _ fun _ blank => blank.1)
      (org _ fun _ blank => blank.1)
  have reachable : pick chain byGroupId orgRow (fun row => row.reachableCriticalOnly) =
      pick chain byGroupId' orgRow' fun row => row.reachableCriticalOnly :=
    pick_congr (fun id listed => groups id listed _ fun _ blank => blank.2.1)
      (org _ fun _ blank => blank.2.1)
  have malicious : pick chain byGroupId orgRow (fun row => row.maliciousBlocks) =
      pick chain byGroupId' orgRow' fun row => row.maliciousBlocks :=
    pick_congr (fun id listed => groups id listed _ fun _ blank => blank.2.2.1)
      (org _ fun _ blank => blank.2.2.1)
  simp only [resolvedFields]
  rw [epss, reachable, malicious, approvals]

/-- A status needs a second person when some level names it. -/
theorem mem_unionApprovalStatuses {status : String} :
    status ∈ ((unionApprovalStatuses chain byGroupId orgRow).map (·.1)).getD [] ↔
      ∃ level ∈ chain.map byGroupId ++ [orgRow], status ∈ namedStatuses level := by
  -- The source walks the levels that name something, then the organisation's row.
  have named : status ∈ ((chain.filter fun id => namedStatuses (byGroupId id) ≠ []).flatMap fun id =>
        namedStatuses (byGroupId id)) ++ namedStatuses orgRow ↔
      ∃ level ∈ chain.map byGroupId ++ [orgRow], status ∈ namedStatuses level := by
    simp only [List.mem_append, List.mem_flatMap, List.mem_filter, List.mem_map, List.mem_singleton]
    constructor
    · intro listed
      obtain ⟨id, ⟨within, -⟩, member⟩ | member := listed
      · exact ⟨_, .inl ⟨id, within, rfl⟩, member⟩
      · exact ⟨_, .inr rfl, member⟩
    · -- A level that names a status is not empty, so the filter has kept it.
      intro listed
      obtain ⟨_, ⟨id, within, rfl⟩ | rfl, member⟩ := listed
      · exact .inl ⟨id, ⟨within, by simpa using List.ne_nil_of_mem member⟩, member⟩
      · exact .inr member
  rw [← named, unionApprovalStatuses]
  -- An empty union is stored as no union at all.
  split_ifs with empty
  · rw [List.isEmpty_iff.mp empty]
    simp
  · rw [Option.map_some, Option.getD_some, List.mem_mergeSort, List.mem_dedup]

end Fields

section Lookups

variable {tables : GatePolicyTables} {group : Group}

/-- The candidate row of a scope on the path is the stored row of the scope. -/
theorem candidate_find {team : Option GroupId} (onPath : team.all fun id => group.chain.contains id) :
    (tables.candidateRows group).find? (fun row => row.teamId == team) =
      tables.policies.find? (group.organizationId, team) := by
  have wanted : (tables.candidateRows group).find? (fun row => row.teamId == team) =
      (tables.policies.filter fun row => row.organizationId == group.organizationId &&
        row.teamId.all fun id => group.chain.contains id).find? (group.organizationId, team) := by
    refine List.find?_congr fun row listed => ?_
    obtain ⟨-, own⟩ := List.mem_filter.mp listed
    rw [Bool.and_eq_true, beq_iff_eq] at own
    rw [Bool.eq_iff_iff, beq_iff_eq, decide_eq_true_iff, SavedGatePolicy.scope, GatePolicy.scope, own.1]
    exact ⟨fun same => by rw [same], fun same => (Prod.mk.inj same).2⟩
  rw [wanted, Table.find?_filter]
  cases found : tables.policies.find? (group.organizationId, team) with
  | none => rfl
  | some row =>
    -- The row has the scope that was asked for, so it is a candidate.
    have key : row.scope = (group.organizationId, team) := Table.key_of_find? found
    rw [SavedGatePolicy.scope, GatePolicy.scope] at key
    obtain ⟨organization, own⟩ := Prod.mk.inj key
    rw [Option.filter_some, organization, own, beq_self_eq_true, onPath]
    rfl

/-- Where no row is found, nothing is decided. -/
theorem resolvedFields_none (chain : List GroupId) :
    resolvedFields chain (fun _ => none) none = ⟨none, none, none, none, [], chain⟩ := by
  -- No level has a value of any field.
  have nothing {α : Type} (field : SavedGatePolicy → Option α) :
      pick chain (fun _ => none) none field = none := by
    have missing : (chain.findSome? fun id =>
        (Option.bind none field).map fun value => (value, id)) = none :=
      List.findSome?_eq_none_iff.mpr fun _ _ => rfl
    rw [pick, missing]
    rfl
  -- And none names a status.
  have named : unionApprovalStatuses chain (fun _ => none) none = none := by
    simp [unionApprovalStatuses, namedStatuses]
  simp only [resolvedFields, nothing, named]
  rfl

/-- A group's policy depends on the rows of the scopes along its path only. -/
theorem resolveForGroup_eq :
    tables.resolveForGroup group =
      resolvedFields group.chain (fun id => tables.policies.find? (group.organizationId, some id))
        (tables.policies.find? (group.organizationId, none)) := by
  -- The candidate rows answer for each level as the table would.
  have full : resolvedFields group.chain
        (fun id => (tables.candidateRows group).find? fun row => row.teamId == some id)
        ((tables.candidateRows group).find? fun row => row.teamId == none) =
      resolvedFields group.chain (fun id => tables.policies.find? (group.organizationId, some id))
        (tables.policies.find? (group.organizationId, none)) := by
    refine resolvedFields_congr (fun id listed => ?_) ?_
    · intro α field _
      rw [candidate_find (by simpa using listed)]
    · intro α field _
      rw [candidate_find rfl]
  rw [← full, GatePolicyTables.resolveForGroup]
  dsimp only
  -- Without a candidate row the source returns the defaults, which is what no row resolves to.
  split_ifs with empty
  · rw [List.isEmpty_iff.mp empty]
    exact (resolvedFields_none group.chain).symm
  · rfl

end Lookups

section Inheritance

variable {tables : GatePolicyTables} {group : Group} {project : ProjectId}

/-- A field is resolved to the nearest value, and left open only when no level sets it. -/
theorem nearestValue_iff {α : Type} {levels : List (Option SavedGatePolicy)}
    {field : SavedGatePolicy → Option α} {value : α} :
    levels.findSome? (fun level => level.bind field) = some value ↔ NearestValue levels field value := by
  rw [List.findSome?_eq_some_iff]
  constructor
  · -- The level that answers is a row with the field set, and those below it have it unset.
    intro found
    obtain ⟨below, level, above, split, own, missing⟩ := found
    obtain ⟨row, rfl, set⟩ := Option.bind_eq_some_iff.mp own
    exact ⟨below, row, above, split, missing, set⟩
  · intro nearest
    obtain ⟨below, row, above, split, missing, set⟩ := nearest
    exact ⟨below, some row, above, split, set, missing⟩

/-- The approval statuses of a project are those of the levels of its group. -/
theorem mem_approvals {status : String} (owned : tables.groupForProject project = some group) :
    status ∈ (tables.resolveForProject project).approvalRequiredStatuses.getD [] ↔
      ∃ level ∈ tables.levels group, status ∈ namedStatuses level := by
  rw [GatePolicyTables.resolveForProject, owned]
  dsimp only
  rw [resolveForGroup_eq]
  exact mem_unionApprovalStatuses

/-- An added row that decides nothing changes nothing. -/
theorem resolveForProject_blank {row : SavedGatePolicy} {policies' : Table SavedGatePolicy.scope}
    (blank : row.Blank) (added : tables.policies.insert row = some policies') :
    ({ tables with policies := policies' } : GatePolicyTables).resolveForProject project =
      tables.resolveForProject project := by
  -- The new row is only found under its own scope, and there every field is empty.
  have same (scope : OrganizationId × Option GroupId) {α : Type} (field : SavedGatePolicy → Option α)
      (open_field : ∀ row : SavedGatePolicy, row.Blank → field row = none) :
      (policies'.find? scope).bind field = (tables.policies.find? scope).bind field := by
    rw [Table.find?_insert added]
    split_ifs with own
    · rw [own, Table.find?_of_insert added]
      exact open_field row blank
    · rfl
  unfold GatePolicyTables.resolveForProject
  -- The project keeps its team.
  have kept : ({ tables with policies := policies' } : GatePolicyTables).groupForProject project =
      tables.groupForProject project := rfl
  rw [kept]
  cases tables.groupForProject project with
  | none => rfl
  | some group =>
    dsimp only
    rw [resolveForGroup_eq, resolveForGroup_eq]
    -- So each level reads as before, and the fields resolve as before.
    refine resolvedFields_congr (fun id _ => ?_) ?_
    · intro α field open_field
      exact same _ field open_field
    · intro α field open_field
      exact same _ field open_field

/-- Each threshold is the nearest value on the path to the organisation, and the approval statuses are the
union along it; so what is written in one scope takes no status away that another scope names, and an added
row that decides nothing changes nothing. -/
theorem resolveForProject_inherits (owned : tables.groupForProject project = some group) :
    ((∀ value, (tables.resolveForProject project).epssThreshold = some value ↔
        NearestValue (tables.levels group) (fun row => row.epssThreshold) value) ∧
      (∀ value, (tables.resolveForProject project).reachableCriticalOnly = some value ↔
        NearestValue (tables.levels group) (fun row => row.reachableCriticalOnly) value) ∧
      ∀ value, (tables.resolveForProject project).maliciousBlocks = some value ↔
        NearestValue (tables.levels group) (fun row => row.maliciousBlocks) value) ∧
    (∀ status, status ∈ (tables.resolveForProject project).approvalRequiredStatuses.getD [] ↔
      ∃ level ∈ tables.levels group, status ∈ namedStatuses level) ∧
    (∀ edited policies', DiffersAt edited tables.policies policies' →
      ∀ upper, upper.all (fun id => group.chain.contains id) → (group.organizationId, upper) ≠ edited →
        ∀ status ∈ namedStatuses (tables.policies.find? (group.organizationId, upper)),
          status ∈ (({ tables with policies := policies' } : GatePolicyTables).resolveForProject
            project).approvalRequiredStatuses.getD []) ∧
    ∀ row policies', SavedGatePolicy.Blank row → tables.policies.insert row = some policies' →
      ({ tables with policies := policies' } : GatePolicyTables).resolveForProject project =
        tables.resolveForProject project := by
  -- The project resolves through its team's chain.
  have resolved : tables.resolveForProject project =
      resolvedFields group.chain (fun id => tables.policies.find? (group.organizationId, some id))
        (tables.policies.find? (group.organizationId, none)) := by
    rw [GatePolicyTables.resolveForProject, owned]
    exact resolveForGroup_eq
  refine ⟨⟨?_, ?_, ?_⟩, ?_, ?_, ?_⟩
  · -- The three picks, each the value of the nearest level that has one.
    intro value
    rw [resolved, ← nearestValue_iff]
    exact (congrArg (· = some value) (pick_eq _)).to_iff
  · intro value
    rw [resolved, ← nearestValue_iff]
    exact (congrArg (· = some value) (pick_eq _)).to_iff
  · intro value
    rw [resolved, ← nearestValue_iff]
    exact (congrArg (· = some value) (pick_eq _)).to_iff
  · exact fun status => mem_approvals owned
  · -- The edited scope is another one, so the level on the path still names the status.
    intro edited policies' differs upper onPath apart status named
    refine (@mem_approvals { tables with policies := policies' } _ _ _ owned).mpr
      ⟨policies'.find? (group.organizationId, upper), ?_, ?_⟩
    · -- The organisation's row is the last level, a group's row one of those before.
      cases upper with
      | none => exact List.mem_append_right _ (List.mem_singleton.mpr rfl)
      | some id =>
        refine List.mem_append_left _ (List.mem_map.mpr ⟨id, ?_, rfl⟩)
        simpa using onPath
    · rwa [differs _ apart]
  · exact fun row policies' blank added => resolveForProject_blank blank added

/-- The build gate, which reads the thresholds alone, resolves them alike. -/
theorem resolveForProject_thresholds {db : GateDb} (groups : db.groups = tables.groups)
    (projects : db.projects = tables.projects)
    (policies : ∀ scope, db.gatePolicies.find? scope =
      (tables.policies.find? scope).map SavedGatePolicy.toGatePolicy) :
    (Trusca.resolveForProject db project).epssThreshold =
        (tables.resolveForProject project).epssThreshold ∧
      (Trusca.resolveForProject db project).reachableCriticalOnly =
        (tables.resolveForProject project).reachableCriticalOnly ∧
      (Trusca.resolveForProject db project).maliciousBlocks =
        (tables.resolveForProject project).maliciousBlocks := by
  -- Both look the project's group up in the same two tables.
  have owner : (db.teamIdForProject project).bind db.groups.find? = tables.groupForProject project := by
    rw [GateDb.teamIdForProject, GatePolicyTables.groupForProject, groups, projects]
    cases tables.projects.find? project <;> rfl
  rw [Trusca.resolveForProject, GatePolicyTables.resolveForProject, owner]
  cases tables.groupForProject project with
  | none => exact ⟨rfl, rfl, rfl⟩
  | some group =>
    -- A field is picked level by level, and each level reads the same in both tables.
    have picked {α : Type} (field : GatePolicy → Option α) :
        pickField db group field = (pick group.chain
          (fun id => tables.policies.find? (group.organizationId, some id))
          (tables.policies.find? (group.organizationId, none)) fun row => field row.toGatePolicy).map
            (·.1) := by
      rw [pick_eq, List.findSome?_append, List.findSome?_map, pickField]
      have level (scope : OrganizationId × Option GroupId) : (db.gatePolicies.find? scope).bind field =
          (tables.policies.find? scope).bind fun row => field row.toGatePolicy := by
        rw [policies, Option.bind_map]
        rfl
      simp only [level, Function.comp_def, List.findSome?_cons, List.findSome?_nil]
      cases (tables.policies.find? (group.organizationId, none)).bind fun row => field row.toGatePolicy <;>
        rfl
    dsimp only
    rw [resolveForGroup_eq]
    exact ⟨picked _, picked _, picked _⟩

end Inheritance

/-- A group below another one, each with a row, in an organisation that asks for a second person. -/
def nestedPolicies : GatePolicyTables where
  groups := ⟨[⟨2, [1], 7⟩, ⟨1, [], 7⟩], by decide⟩
  projects := ⟨[⟨⟨1, "app", 2, none, none⟩, none⟩], by decide⟩
  policies :=
    ⟨[⟨⟨7, some 2, none, some true, none⟩, none, some [], 0⟩,
      ⟨⟨7, some 1, some (3 / 10), some false, none⟩, none, some ["fixed"], 0⟩,
      ⟨⟨7, none, some (1 / 2), none, some true⟩, none, some ["not_affected"], 0⟩], by decide⟩

/-- The row of the lower group, edited to name no status. -/
def editedRow : SavedGatePolicy := ⟨⟨7, some 2, none, none, some false⟩, none, none, 1⟩

/-- The project takes its threshold and a status from the groups above it. -/
theorem resolveForProject_inherits_nested :
    (nestedPolicies.resolveForProject 1).epssThreshold = some (3 / 10) ∧
      "not_affected" ∈ (({ nestedPolicies with
        policies := nestedPolicies.policies.put editedRow } : GatePolicyTables).resolveForProject
          1).approvalRequiredStatuses.getD [] := by
  have owned : nestedPolicies.groupForProject 1 = some ⟨2, [1], 7⟩ := rfl
  -- The laws, for the project whose team is nested.
  obtain ⟨⟨epss, -⟩, -, kept, -⟩ := resolveForProject_inherits owned
  refine ⟨(epss (3 / 10)).mpr ?_, ?_⟩
  · -- The own level has no threshold, so the parent's is the nearest.
    refine ⟨[nestedPolicies.policies.find? (7, some 2)], _, [nestedPolicies.policies.find? (7, none)], rfl,
      ?_, rfl⟩
    intro level listed
    rw [List.mem_singleton.mp listed]
    rfl
  · -- The edited row is another one, so the organisation's status is still asked for.
    refine kept (7, some 2) _ ?_ none rfl (by decide) "not_affected" (by decide)
    intro other apart
    rw [Table.find?_put]
    exact if_neg apart

end Trusca
