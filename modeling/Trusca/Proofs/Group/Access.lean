import Trusca.Group.Tree

/-! The clauses of list reads select the groups that a check of the single group admits. -/

namespace Trusca

open Store

namespace GroupForest

variable {forest : GroupForest} {settings : AccessSettings} {actor : CurrentUser} {group : GroupId}

/-- A subquery on the stored groups lists a group exactly when its row passes the clause. -/
theorem mem_selected_iff (clause : GroupRow → Bool) :
    group ∈ (forest.groups.rows.filter clause).map GroupRow.id ↔
      ∃ row, forest.groups.find? group = some row ∧ clause row = true := by
  simp only [List.mem_map, List.mem_filter]
  constructor
  · -- A group that is selected has its row, and a row is found under its own id.
    intro listed
    obtain ⟨row, ⟨member, passes⟩, rfl⟩ := listed
    exact ⟨row, Table.find?_of_mem member, passes⟩
  · intro found
    obtain ⟨row, stored, passes⟩ := found
    exact ⟨row, ⟨Table.mem_of_find? stored, passes⟩, Table.key_of_find? stored⟩

/-- The clause on the group of a row is the membership check of that group. -/
theorem groupScopedSubqueryPredicate_eq (direct : List GroupId) :
    forest.groupScopedSubqueryPredicate settings direct (some group) =
      memberReaches (forest.directory settings) direct group := by
  rw [Bool.eq_iff_iff]
  simp only [groupScopedSubqueryPredicate, Option.any_some, List.contains_iff_mem,
    mem_selected_iff, memberReaches, directory]
  cases found : forest.groups.find? group with
  | none =>
    -- A group that is not stored is neither listed nor reached.
    simp
  | some row =>
    have named : row.id = group := Table.key_of_find? found
    simp only [Option.some.injEq, exists_eq_left', Option.map_some, subtreeScopeFilter, named]
    cases direct with
    | nil =>
      -- Without memberships the subquery is empty, and no ancestor can be a direct group.
      simp
    | cons first rest =>
      -- Both sides ask for the group first and for its ancestors only with the cascade on.
      by_cases cascade : settings.groupCascadeEnabled = true
      · simp [cascade]
      · simp [cascade]

/-- The list of demo groups has the groups that the check of a single one admits. -/
theorem demoGroupIds_contains : forest.demoGroupIds.contains group = forest.isDemoGroup group := by
  rw [Bool.eq_iff_iff, List.contains_iff_mem]
  unfold demoGroupIds isDemoGroup
  simp only [List.mem_map, List.mem_filter, List.any_eq_true, Bool.and_eq_true, beq_iff_eq]
  constructor
  · -- The two conditions are asked in another order.
    intro listed
    obtain ⟨row, ⟨member, joined⟩, named⟩ := listed
    exact ⟨row, member, named, joined⟩
  · intro found
    obtain ⟨row, member, named, joined⟩ := found
    exact ⟨row, ⟨member, joined⟩, named⟩

/-- The rows a super admin reaches in a list are the ones it reaches one by one. -/
theorem superAdminReachPredicate_eq (super : isSuperAdmin actor = true) :
    forest.superAdminReachPredicate settings (some group) =
      superAdminReaches (forest.directory settings) actor (some group) := by
  unfold superAdminReachPredicate superAdminReaches
  rw [super]
  cases demo : settings.demoReadOnly with
  | false => simp [directory, demo]
  | true =>
    -- On the demo both ask whether the group belongs to the demo organisation.
    simp [directory, demo, ← demoGroupIds_contains]

/-- Where the flag and the role agree, the projects' clause admits the groups that a single check
admits. -/
theorem teamScopeFilter_eq (agree : actor.isSuperuser = (actor.role == .superAdmin)) :
    forest.teamScopeFilter settings actor group =
      canAccessGroup (forest.directory settings) actor group := by
  -- The flag alone decides the grade, since the role repeats it.
  have grade : isSuperAdmin actor = actor.isSuperuser := by
    rw [isSuperAdmin, ← agree, Bool.or_self]
  unfold teamScopeFilter canAccessGroup
  rw [← grade]
  cases super : isSuperAdmin actor with
  | true =>
    rw [if_pos rfl, if_pos rfl]
    exact superAdminReachPredicate_eq super
  | false =>
    simp only [Bool.false_eq_true, if_false]
    exact groupScopedSubqueryPredicate_eq actor.teamIds

/-- The action queue reads the same clause off the directory. -/
theorem teamScopeFilter_directory :
    Trusca.teamScopeFilter (forest.directory settings) actor group =
      forest.teamScopeFilter settings actor group := by
  unfold Trusca.teamScopeFilter teamScopeFilter
  split
  · -- A superuser is bounded by the demo, and by nothing else.
    unfold superAdminReachPredicate
    cases demo : settings.demoReadOnly with
    | false => simp [directory, demo]
    | true => simp [directory, demo, ← demoGroupIds_contains]
  · exact (groupScopedSubqueryPredicate_eq actor.teamIds).symm

/-- The clause of the other lists admits what a single check admits and, for a super admin on the
demo, what its memberships reach. -/
theorem groupVisibilityFilter_eq :
    selects (forest.groupVisibilityFilter settings actor) (some group) =
      (canAccessGroup (forest.directory settings) actor group ||
        (isSuperAdmin actor && settings.demoReadOnly &&
          memberReaches (forest.directory settings) actor.teamIds group)) := by
  unfold selects groupVisibilityFilter superAdminGroupFilter canAccessGroup
  cases super : isSuperAdmin actor with
  | false =>
    -- Everybody else is listed by membership and checked by membership.
    simp [groupScopedSubqueryPredicate_eq]
  | true =>
    cases demo : settings.demoReadOnly with
    | false =>
      -- A normal deployment adds no clause, and the single check admits every group.
      simp [superAdminReaches, super, directory, demo]
    | true => simp [superAdminReachPredicate_eq super, groupScopedSubqueryPredicate_eq]

/-- With the cascade on, the memberships reach the groups at and below the direct ones. -/
theorem memberReaches_iff {direct : List GroupId} {row : GroupRow}
    (cascade : settings.groupCascadeEnabled = true)
    (found : forest.groups.find? group = some row) :
    memberReaches (forest.directory settings) direct group = true ↔
      ∃ root ∈ direct, Relation.ReflTransGen
        (fun child parent => parentOf forest.groups child = some (some parent)) group root := by
  have lineage := forest.derived row (Table.mem_of_find? found)
  have stored : parentOf forest.groups group = some row.parentGroupId := by
    rw [parentOf, found, Option.map_some]
  have checked : memberReaches (forest.directory settings) direct group = true ↔
      group ∈ direct ∨ ∃ ancestor ∈ row.path, ancestor ∈ direct := by
    simp only [memberReaches, directory, found, Option.map_some, cascade]
    simp
  rw [checked]
  constructor
  · intro reached
    rcases reached with own | ⟨ancestor, listed, member⟩
    · exact ⟨group, own, .refl⟩
    · -- The path lists what the parent column reaches, from the parent on.
      obtain ⟨first, higher, climbs⟩ := lineage.mem_iff.mp listed
      exact ⟨ancestor, member, .head (stored.trans (congrArg some higher)) climbs⟩
  · intro below
    obtain ⟨root, member, climbs⟩ := below
    rcases climbs.cases_head with rfl | ⟨first, up, climbs⟩
    · exact .inl member
    · have higher : row.parentGroupId = some first := Option.some.inj (stored.symm.trans up)
      exact .inr ⟨root, lineage.mem_iff.mpr ⟨first, higher, climbs⟩, member⟩

end GroupForest

/-- The projects' clause selects exactly the groups that a check of the single group admits. The
clause of the other lists does so too, except that it adds the groups reached by the memberships
of a super admin on the public demo. With the cascade on, anybody else reaches exactly the groups
at and below the direct ones. -/
theorem list_access_eq_single (forest : GroupForest) (settings : AccessSettings)
    (actor : CurrentUser) (agree : actor.isSuperuser = (actor.role == .superAdmin))
    (group : GroupRow) (stored : group ∈ forest.groups.rows) :
    (forest.teamScopeFilter settings actor group.id = true ↔
        canAccessGroup (forest.directory settings) actor group.id = true) ∧
      (selects (forest.groupVisibilityFilter settings actor) (some group.id) = true ↔
        canAccessGroup (forest.directory settings) actor group.id = true ∨
          isSuperAdmin actor = true ∧ settings.demoReadOnly = true ∧
            memberReaches (forest.directory settings) actor.teamIds group.id = true) ∧
      (settings.groupCascadeEnabled = true → isSuperAdmin actor = false →
        (canAccessGroup (forest.directory settings) actor group.id = true ↔
          ∃ direct ∈ actor.teamIds, Relation.ReflTransGen
            (fun child parent => parentOf forest.groups child = some (some parent))
            group.id direct)) := by
  refine ⟨?_, ?_, ?_⟩
  · rw [GroupForest.teamScopeFilter_eq agree]
  · rw [GroupForest.groupVisibilityFilter_eq]
    simp only [Bool.or_eq_true, Bool.and_eq_true, and_assoc]
  · intro cascade plain
    -- Without the grade the single check is the membership check.
    rw [canAccessGroup, if_neg (by simp [plain])]
    exact GroupForest.memberReaches_iff cascade (Table.find?_of_mem stored)

/-- The demo organisation with one group, and a second organisation with a group and its child. -/
def demoForest : GroupForest where
  groups := ⟨[⟨1, 1, "demo", none, []⟩, ⟨2, 2, "core", none, []⟩, ⟨3, 2, "web", some 2, [2]⟩],
    by decide⟩
  organizations := ⟨[⟨1, demoOrgSlug⟩, ⟨2, "acme"⟩], by decide⟩
  derived := by
    intro group member
    simp only [List.mem_cons, List.not_mem_nil, or_false] at member
    rcases member with rfl | rfl | rfl
    · exact .root
    · exact .root
    · show Lineage _ (some 2) ([] ++ [2])
      exact .child rfl .root

/-- A developer of the second organisation reaches the child of its group. -/
theorem list_access_eq_single_developer :
    (demoForest.teamScopeFilter ⟨true, true⟩ ⟨7, .developer, [2], fun _ => none, false⟩ 3 = true ↔
        canAccessGroup (demoForest.directory ⟨true, true⟩)
          ⟨7, .developer, [2], fun _ => none, false⟩ 3 = true) ∧
      canAccessGroup (demoForest.directory ⟨true, true⟩)
        ⟨7, .developer, [2], fun _ => none, false⟩ 3 = true := by
  have agreed := list_access_eq_single demoForest ⟨true, true⟩
    ⟨7, .developer, [2], fun _ => none, false⟩ rfl ⟨3, 2, "web", some 2, [2]⟩
    (by simp [demoForest])
  exact ⟨agreed.1, by decide⟩

/-- On the public demo, a super admin who belongs to a group of another organisation finds it in a
list, and is refused when it asks for it. -/
theorem list_access_ne_single :
    selects (demoForest.groupVisibilityFilter ⟨true, true⟩
        ⟨7, .superAdmin, [2], fun _ => none, true⟩) (some 2) = true ∧
      canAccessGroup (demoForest.directory ⟨true, true⟩)
        ⟨7, .superAdmin, [2], fun _ => none, true⟩ 2 = false := by
  decide

end Trusca
