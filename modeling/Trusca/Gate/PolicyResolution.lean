import Mathlib.Data.String.Basic
import Trusca.Gate.PolicySave
import Trusca.Store.Table

/-! The gate policy that applies to a project, field by field, with where each field came from. -/

namespace Trusca

open Store

/-- The scope of a saved row. -/
def SavedGatePolicy.scope (row : SavedGatePolicy) : OrganizationId × Option GroupId :=
  row.toGatePolicy.scope

/-- Where the value of one field came from. -/
structure GateFieldSource where
  /-- The groups that contributed, nearest to the project first. -/
  groupIds : List GroupId
  organizationContributed : Bool
  deriving Repr, DecidableEq

/-- What the gate applies to a project; an absent field is left to the environment. -/
structure ResolvedPolicy where
  epssThreshold : Option Rat
  reachableCriticalOnly : Option Bool
  maliciousBlocks : Option Bool
  approvalRequiredStatuses : Option (List String)
  /-- The fields that a policy decided, by name. -/
  sources : List (String × GateFieldSource)
  /-- The group of the project and its ancestors, nearest first. -/
  chain : List GroupId

/-- The tables that are read. -/
structure GatePolicyTables where
  groups : Table Group.id
  projects : Table fun project : PortfolioProject => project.id
  policies : Table SavedGatePolicy.scope

section Fields

variable (chain : List GroupId) (byGroupId : GroupId → Option SavedGatePolicy)
  (orgRow : Option SavedGatePolicy)

/-- The nearest value of one field, with its source. -/
def pick {α : Type} (field : SavedGatePolicy → Option α) : Option (α × GateFieldSource) :=
  match chain.findSome? fun id => ((byGroupId id).bind field).map fun value => (value, id) with
  | some (value, id) => some (value, ⟨[id], false⟩)
  | none => (orgRow.bind field).map fun value => (value, ⟨[], false⟩)

/-- The statuses a row names. -/
def namedStatuses (row : Option SavedGatePolicy) : List String :=
  (row.bind SavedGatePolicy.approvalRequiredStatuses).getD []

/-- The statuses of every group in the chain and of the organisation, with their sources. -/
def unionApprovalStatuses : Option (List String × GateFieldSource) :=
  -- Statuses add up over the chain, where the other fields take the nearest row.
  let contributing := chain.filter fun id => namedStatuses (byGroupId id) ≠ []
  let orgNamed := namedStatuses orgRow
  let allNamed := (contributing.flatMap fun id => namedStatuses (byGroupId id)) ++ orgNamed
  if allNamed.isEmpty then none
  else
    some (allNamed.dedup.mergeSort fun first second => decide (first ≤ second),
      ⟨contributing, !orgNamed.isEmpty⟩)

/-- Every field, resolved along the chain. -/
def resolvedFields : ResolvedPolicy :=
  -- Each field looks up the chain on its own.
  let epss := pick chain byGroupId orgRow fun row => row.epssThreshold
  let reachable := pick chain byGroupId orgRow fun row => row.reachableCriticalOnly
  let malicious := pick chain byGroupId orgRow fun row => row.maliciousBlocks
  let approvals := unionApprovalStatuses chain byGroupId orgRow
  { epssThreshold := epss.map (·.1)
    reachableCriticalOnly := reachable.map (·.1)
    maliciousBlocks := malicious.map (·.1)
    approvalRequiredStatuses := approvals.map (·.1)
    sources :=
      [("epss_threshold", epss.map (·.2)), ("reachable_critical_only", reachable.map (·.2)),
        ("malicious_blocks", malicious.map (·.2)),
        ("approval_required_statuses", approvals.map (·.2))].filterMap fun entry =>
          entry.2.map fun source => (entry.1, source)
    chain := chain }

end Fields

namespace GatePolicyTables

variable (tables : GatePolicyTables)

/-- The group that owns a project, as the join of the two tables gives it. -/
def groupForProject (project : ProjectId) : Option Group :=
  (tables.projects.find? project).bind fun row => tables.groups.find? row.teamId

/-- The rows of the chain and the default row of the organisation. -/
def candidateRows (group : Group) : List SavedGatePolicy :=
  tables.policies.rows.filter fun row =>
    row.organizationId == group.organizationId && row.teamId.all fun id => group.chain.contains id

/-- The policy that applies to a group. -/
def resolveForGroup (group : Group) : ResolvedPolicy :=
  let rows := tables.candidateRows group
  -- Without a row the resolution is empty but for the chain.
  if rows.isEmpty then ⟨none, none, none, none, [], group.chain⟩
  else
    let byGroupId := fun id => rows.find? fun row => row.teamId == some id
    let orgRow := rows.find? fun row => row.teamId == none
    resolvedFields group.chain byGroupId orgRow

/-- The policy that applies to a project; without a group nothing is decided. -/
def resolveForProject (project : ProjectId) : ResolvedPolicy :=
  match tables.groupForProject project with
  | none => ⟨none, none, none, none, [], []⟩
  | some group => tables.resolveForGroup group

end GatePolicyTables

end Trusca
