import Trusca.Authz.ApiKey

/-! A key reaches what its issuer reaches within its scope exactly when the issuer belongs directly to
the group the key is bound to and no group below the group of a project is asked for. -/

namespace Trusca

/-- The group and, while the cascade is on, its ancestors. -/
def accessChain (settings : AccessSettings) (row : GroupRow) : List GroupId :=
  row.id :: if settings.groupCascadeEnabled then row.path else []

/-- Where a key reaches what its issuer reaches within its scope: the group that the key is bound to is
a direct group of the issuer, or the memberships do not reach the group at all; and no group below the
group of a project is reached through it. -/
def KeyCovers (forest : GroupForest) (settings : AccessSettings)
    (teamIdForProject : ProjectId → Option GroupId) (user : KeyIssuer) (key : ApiKey)
    (group : GroupId) : Prop :=
  ∀ row ∈ forest.groups.find? group,
    let direct := user.memberships.map Prod.fst
    match key.scope with
    | .org => True
    | .team => ∀ team ∈ key.teamId, team ∈ accessChain settings row →
        team ∈ direct ∨ ∀ ancestor ∈ accessChain settings row, ancestor ∉ direct
    | .project => ∀ team ∈ key.projectId.bind teamIdForProject,
        (team = group → team ∈ direct ∨ ∀ ancestor ∈ accessChain settings row, ancestor ∉ direct) ∧
        (team ≠ group → team ∈ accessChain settings row → team ∉ direct)

section Roles

/-- The role that a fold over roles keeps is one of them. -/
theorem foldl_role_mem (first : Role) (rest : List Role) :
    rest.foldl (fun best role => if best.priority < role.priority then role else best) first ∈
      first :: rest := by
  induction rest generalizing first with
  | nil => simp
  | cons role rest ih =>
    rw [List.foldl_cons]
    -- The step keeps the best or takes the new role, and either is in the list.
    split
    · exact List.mem_cons_of_mem _ (ih role)
    · rcases List.mem_cons.mp (ih first) with same | later
      · rw [same]
        exact List.mem_cons_self
      · exact List.mem_cons_of_mem _ (List.mem_cons_of_mem _ later)

/-- No role of the list is above the one that the fold keeps. -/
theorem priority_le_foldl (first : Role) (rest : List Role) :
    ∀ role ∈ first :: rest, role.priority ≤ (rest.foldl
      (fun best role => if best.priority < role.priority then role else best) first).priority := by
  -- Along the list: the accumulator only grows, and each role it has met is below it.
  induction rest generalizing first with
  | nil =>
    intro role member
    rw [List.mem_singleton.mp member]
    exact le_rfl
  | cons other rest ih =>
    intro role member
    rw [List.foldl_cons]
    split
    · rename_i higher
      rcases List.mem_cons.mp member with rfl | later
      · exact higher.le.trans (ih other other List.mem_cons_self)
      · exact ih other role later
    · rename_i lower
      rcases List.mem_cons.mp member with rfl | later
      · exact ih role role List.mem_cons_self
      · rcases List.mem_cons.mp later with rfl | rest_has
        · exact (not_lt.mp lower).trans (ih first first List.mem_cons_self)
        · exact ih first role (List.mem_cons_of_mem _ rest_has)

/-- The highest role is that of a super admin exactly when one of the roles is. -/
theorem highestRole_eq_superAdmin {roles : List Role} :
    highestRole roles false = .superAdmin ↔ .superAdmin ∈ roles := by
  cases roles with
  | nil => decide
  | cons first rest =>
    simp only [highestRole, Bool.false_eq_true, if_false]
    -- The top role is one of the list, and a super admin in the list is at the top.
    constructor
    · intro top
      rw [← top]
      exact foldl_role_mem first rest
    · intro member
      -- Nothing is above the super admin but itself.
      have top := priority_le_foldl first rest .superAdmin member
      generalize rest.foldl _ first = best at top
      cases best with
      | superAdmin => rfl
      | _ => exact absurd top (by decide)

end Roles

section Access

variable {forest : GroupForest} {settings : AccessSettings} {group : GroupId} {user : KeyIssuer}
  {kept : List (GroupId × Role)}

/-- Some of the memberships of a user who is no super admin make no super admin. -/
theorem isSuperAdmin_principalOf (plain : isSuperAdmin (currentUser user) = false)
    (part : kept ⊆ user.memberships) : isSuperAdmin (principalOf user kept) = false := by
  simp only [isSuperAdmin, currentUser, principalOf, Bool.or_eq_false_iff] at plain ⊢
  obtain ⟨flag, role⟩ := plain
  rw [flag] at role ⊢
  refine ⟨rfl, ?_⟩
  -- A role of the narrowed list is one of the user's memberships.
  simp only [beq_eq_false_iff_ne, ne_eq, highestRole_eq_superAdmin] at role ⊢
  intro member
  obtain ⟨membership, here, same⟩ := List.mem_map.mp member
  exact role (List.mem_map.mpr ⟨membership, part here, same⟩)

/-- Memberships reach a stored group through its chain. -/
theorem memberReaches_iff_chain {direct : List GroupId} :
    memberReaches (forest.directory settings) direct group = true ↔
      ∃ row ∈ forest.groups.find? group, ∃ ancestor ∈ accessChain settings row, ancestor ∈ direct := by
  simp only [memberReaches, GroupForest.directory]
  -- An unknown group has no chain.
  cases found : forest.groups.find? group with
  | none => simp
  | some row =>
    have named : row.id = group := Store.Table.key_of_find? found
    -- With the cascade the ancestors count, without it the group alone.
    by_cases cascade : settings.groupCascadeEnabled = true
    · simp [accessChain, cascade, named]
    · simp [accessChain, cascade, named]

/-- What somebody who is no super admin can reach. -/
theorem canAccessGroup_principalOf (plain : isSuperAdmin (principalOf user kept) = false) :
    canAccessGroup (forest.directory settings) (principalOf user kept) group = true ↔
      ∃ row ∈ forest.groups.find? group, ∃ ancestor ∈ accessChain settings row,
        ancestor ∈ kept.map Prod.fst := by
  rw [canAccessGroup, if_neg (by simp [plain])]
  exact memberReaches_iff_chain

/-- The groups of the memberships that a scope keeps. -/
theorem mem_kept {allowed : List GroupId} {team : GroupId} :
    team ∈ (user.memberships.filter fun (team, _) => allowed.contains team).map Prod.fst ↔
      team ∈ allowed ∧ team ∈ user.memberships.map Prod.fst := by
  simp only [List.mem_map, List.mem_filter, List.contains_iff_mem, Prod.exists, exists_and_right,
    exists_eq_right]
  exact and_comm

end Access

/-- The groups that a key narrows the memberships of its issuer to. -/
def keyAllowed (teamIdForProject : ProjectId → Option GroupId) (user : KeyIssuer) (key : ApiKey) :
    List GroupId :=
  match key.scope with
  | .project => (key.projectId.bind teamIdForProject).toList
  | .team => key.teamId.toList
  | .org => user.memberships.map Prod.fst

/-- A principal is made for an active issuer, from the memberships in the scope of the key, and only for
a method that the key may use. -/
theorem getApiKeyPrincipal_eq_ok {users : UserId → Option KeyIssuer}
    {teamIdForProject : ProjectId → Option GroupId} {method : String} {apiKey : Option ApiKey}
    {principal : KeyPrincipal}
    (built : getApiKeyPrincipal users teamIdForProject method apiKey = .ok (some principal)) :
    ∃ key user, apiKey = some key ∧ key.createdByUserId.bind users = some user ∧
      user.isActive = true ∧ (key.scope = .project → key.projectId ≠ none) ∧
      (key.scope = .team → key.teamId ≠ none) ∧
      principal.toCurrentUser = principalOf user (user.memberships.filter
        fun (team, _) => (keyAllowed teamIdForProject user key).contains team) ∧
      principal.apiKeyReadOnly = (key.permissionBreadth != .readWrite) ∧
      breadthAllows method principal.apiKeyReadOnly = true := by
  -- The guards in the order the source checks them; each one that fires ends the request.
  unfold getApiKeyPrincipal at built
  cases apiKey with
  | none => cases built
  | some key =>
    simp only at built
    split at built
    · cases built
    · rename_i user found
      split at built
      · cases built
      · rename_i active
        split at built
        · cases built
        · rename_i project
          split at built
          · cases built
          · rename_i team
            split at built
            · rename_i allowed
              cases built
              refine ⟨key, user, rfl, found, by simpa using active, ?_, ?_, rfl, rfl, allowed⟩
              · -- The two scope guards, read the other way round.
                intro scope missing
                simp [scope, missing] at project
              · intro scope missing
                simp [scope, missing] at team
            · cases built

section Scope

variable {forest : GroupForest} {settings : AccessSettings} {row : GroupRow}
  {teamIdForProject : ProjectId → Option GroupId} {user : KeyIssuer} {key : ApiKey} {team : GroupId}

/-- The groups below a team, with the team, are those that have it on their chain. -/
theorem mem_accessChain_iff :
    team ∈ accessChain settings row ↔
      (decide (row.id = team) || settings.groupCascadeEnabled && row.path.contains team) = true := by
  rw [accessChain, List.mem_cons, eq_comm]
  by_cases cascade : settings.groupCascadeEnabled = true
  · simp [cascade]
  · simp [cascade]

/-- What a key bound to one team allows is what its issuer reaches below the team, unless the issuer
reaches the group without belonging to the team. -/
theorem bound_agrees_iff {chain direct : List GroupId} :
    ((∃ ancestor ∈ chain, ancestor ∈ [team] ∧ ancestor ∈ direct) ↔
        (∃ ancestor ∈ chain, ancestor ∈ direct) ∧ team ∈ chain) ↔
      (team ∈ chain → team ∈ direct ∨ ∀ ancestor ∈ chain, ancestor ∉ direct) := by
  simp only [List.mem_singleton]
  constructor
  · -- If the team lay above while the caller's own groups are others of the chain, the left side would fail.
    intro agreed above
    by_contra neither
    simp only [not_or, not_forall, not_not] at neither
    obtain ⟨outside, ancestor, listed, belongs⟩ := neither
    obtain ⟨_, _, rfl, inside⟩ := agreed.mpr ⟨⟨ancestor, listed, belongs⟩, above⟩
    exact outside inside
  · -- Conversely the team itself is the common group, or there is none on either side.
    intro covered
    constructor
    · rintro ⟨ancestor, listed, rfl, belongs⟩
      exact ⟨⟨ancestor, listed, belongs⟩, listed⟩
    · rintro ⟨⟨ancestor, listed, belongs⟩, above⟩
      rcases covered above with inside | none_belongs
      · exact ⟨team, above, rfl, inside⟩
      · exact absurd belongs (none_belongs ancestor listed)

/-- What a key bound to a project allows is its group when the issuer reaches it, unless the issuer
reaches the group without belonging to it, or another group lies below that group. -/
theorem pinned_agrees_iff {chain direct : List GroupId} {group : GroupId} (own : group ∈ chain) :
    ((∃ ancestor ∈ chain, ancestor ∈ [team] ∧ ancestor ∈ direct) ↔
        (∃ ancestor ∈ chain, ancestor ∈ direct) ∧ team = group) ↔
      (team = group → team ∈ direct ∨ ∀ ancestor ∈ chain, ancestor ∉ direct) ∧
        (team ≠ group → team ∈ chain → team ∉ direct) := by
  by_cases same : team = group
  · subst same
    have bound := @bound_agrees_iff team chain direct
    simpa [own] using bound
  · simp [same]

/-- The memberships that a key keeps reach a group exactly when the issuer does and the group is in the
scope of the key, where the key covers the group. -/
theorem kept_agrees_iff (found : forest.groups.find? row.id = some row) :
    ((∃ ancestor ∈ accessChain settings row,
          ancestor ∈ keyAllowed teamIdForProject user key ∧ ancestor ∈ user.memberships.map Prod.fst) ↔
        (∃ ancestor ∈ accessChain settings row, ancestor ∈ user.memberships.map Prod.fst) ∧
          keyScopeHas forest settings teamIdForProject key row.id = true) ↔
      KeyCovers forest settings teamIdForProject user key row.id := by
  unfold KeyCovers keyAllowed keyScopeHas
  rw [found]
  simp only [Option.mem_def, Option.some.injEq, forall_eq']
  -- By the scope of the key: org holds nothing back, the two others bind one group.
  cases scope : key.scope with
  | org => simp
  -- A team key: the bound group has to be on the chain and among the issuer's own.
  | team =>
    cases bound : key.teamId with
    | none => simp
    | some team =>
      simp only [Option.toList_some, Option.any_some, Option.some.injEq, forall_eq',
        ← mem_accessChain_iff]
      exact bound_agrees_iff
  -- A project key goes through the team of its project.
  | project =>
    cases named : key.projectId with
    | none => simp
    | some project =>
      cases pinned : teamIdForProject project with
      | none => simp [pinned]
      | some team =>
        simp only [Option.bind_some, pinned, Option.toList_some, Option.any_some, beq_iff_eq,
          Option.some.injEq, forall_eq']
        exact pinned_agrees_iff List.mem_cons_self

end Scope

/-- The principal of a key reaches a group exactly when the issuer does and the group is in the scope of
the key, and is given for a read-only key to a safe method only, exactly where the key covers the
group. -/
theorem key_principal_reaches_scope (forest : GroupForest) (settings : AccessSettings)
    (users : UserId → Option KeyIssuer) (teamIdForProject : ProjectId → Option GroupId)
    (method : String) (key : ApiKey) (user : KeyIssuer) (principal : KeyPrincipal) (group : GroupId)
    (issued : key.createdByUserId.bind users = some user)
    (plain : isSuperAdmin (currentUser user) = false)
    (built : getApiKeyPrincipal users teamIdForProject method (some key) = .ok (some principal)) :
    ((canAccessGroup (forest.directory settings) principal.toCurrentUser group = true ↔
          canAccessGroup (forest.directory settings) (currentUser user) group = true ∧
            keyScopeHas forest settings teamIdForProject key group = true) ∧
        (key.permissionBreadth = .readOnly → upperMethod method ∈ safeMethods)) ↔
      KeyCovers forest settings teamIdForProject user key group := by
  obtain ⟨_, _, ⟨⟩, again, active, project, team, kept, readOnly, allowed⟩ :=
    getApiKeyPrincipal_eq_ok built
  -- The key was issued by one user, so the two look-ups agree.
  cases issued.symm.trans again
  -- The permission breadth is checked while the principal is built.
  have safe : key.permissionBreadth = .readOnly → upperMethod method ∈ safeMethods := by
    intro breadth
    rw [readOnly, breadth] at allowed
    simpa [breadthAllows] using allowed
  have part : (user.memberships.filter
      fun (team, _) => (keyAllowed teamIdForProject user key).contains team) ⊆ user.memberships :=
    List.filter_subset_self _
  -- Fewer memberships make nobody a super admin.
  have narrowed := isSuperAdmin_principalOf plain part
  rw [and_iff_left safe, kept, canAccessGroup_principalOf narrowed, currentUser,
    canAccessGroup_principalOf plain]
  simp only [mem_kept]
  cases found : forest.groups.find? group with
  | none => simp [KeyCovers, found]
  | some row =>
    obtain rfl : row.id = group := Store.Table.key_of_find? found
    simpa using kept_agrees_iff found

/-- A group and its child. -/
def keyForest : GroupForest where
  groups := ⟨[⟨1, 1, "core", none, []⟩, ⟨2, 1, "web", some 1, [1]⟩], by decide⟩
  organizations := ⟨[⟨1, "acme"⟩], by decide⟩
  derived := by
    intro group member
    simp only [List.mem_cons, List.not_mem_nil, or_false] at member
    rcases member with rfl | rfl
    · exact .root
    · show Store.Lineage _ (some 1) ([] ++ [1])
      exact .child rfl .root

/-- A developer of the upper group. -/
def keyIssuer : KeyIssuer := ⟨7, true, false, [(1, .developer)]⟩

/-- A read-only key for the upper group. -/
def upperKey : ApiKey := ⟨.team, .readOnly, some 1, none, some 7⟩

/-- A key for a project. -/
def projectKey (project : ProjectId) : ApiKey := ⟨.project, .readWrite, none, some project, some 7⟩

/-- A key for the group of its issuer reads the child of the group. -/
theorem key_principal_reaches_child :
    keyScopeHas keyForest ⟨false, true⟩ (fun _ => none) upperKey 2 = true ∧
      ∃ principal,
        getApiKeyPrincipal (fun _ => some keyIssuer) (fun _ => none) "get" (some upperKey) =
          .ok (some principal) ∧
        canAccessGroup (keyForest.directory ⟨false, true⟩) principal.toCurrentUser 2 = true := by
  refine ⟨by decide, _, rfl, ?_⟩
  -- The key's team is the parent, which lies on the child's chain.
  have covered : KeyCovers keyForest ⟨false, true⟩ (fun _ => none) keyIssuer upperKey 2 := by
    intro row found
    cases found
    show ∀ team ∈ some 1, _
    decide
  exact ((key_principal_reaches_scope keyForest ⟨false, true⟩ (fun _ => some keyIssuer)
    (fun _ => none) "get" upperKey keyIssuer _ 2 rfl (by decide) rfl).mpr covered).1.mpr
    ⟨by decide, by decide +kernel⟩

/-- With the cascade on, a developer of the upper group reaches the child group, and a key of theirs for
a project of the child reaches nothing; and their key for a project of the upper group reaches the child
group, which is not the group of its project. -/
theorem key_principal_misses_scope :
    ∃ inChild inUpper,
      getApiKeyPrincipal (fun _ => some keyIssuer) (fun project => some project) "GET"
        (some (projectKey 2)) = .ok (some inChild) ∧
      getApiKeyPrincipal (fun _ => some keyIssuer) (fun project => some project) "GET"
        (some (projectKey 1)) = .ok (some inUpper) ∧
      (canAccessGroup (keyForest.directory ⟨false, true⟩) (currentUser keyIssuer) 2 = true ∧
        keyScopeHas keyForest ⟨false, true⟩ (fun project => some project) (projectKey 2) 2 = true ∧
        canAccessGroup (keyForest.directory ⟨false, true⟩) inChild.toCurrentUser 2 = false) ∧
      (keyScopeHas keyForest ⟨false, true⟩ (fun project => some project) (projectKey 1) 2 = false ∧
        canAccessGroup (keyForest.directory ⟨false, true⟩) inUpper.toCurrentUser 2 = true) :=
  ⟨_, _, rfl, rfl, by decide⟩

end Trusca
