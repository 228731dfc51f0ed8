import Trusca.License.Policy
import Trusca.Store.Table

/-! The table of licence policies, and the calls that write it one after another. -/

namespace Trusca

open Store

section Table

/-- What a policy applies to: a team of an organisation, or the whole organisation. -/
abbrev PolicyScope := OrganizationId × Option GroupId

/-- The table of licence policies. -/
abbrev PolicyTable := Table LicensePolicy.scope

/-- A new default row of an organisation, with the defaults of the table. -/
def LicensePolicy.createdDefault (organization : OrganizationId) (clock : PolicyClock) :
    LicensePolicy where
  organizationId := organization
  -- The default of the organisation belongs to no team.
  teamId := none
  name := none
  categoryOverrides := .empty
  licenseExceptions := []
  maliciousExceptions := []
  unknownLicenseCategory := .conditional
  compoundOperatorStrategy := .default
  enabled := true
  updatedAt := clock.updated

end Table

section Calls

/-- Who calls on behalf of a whole organisation. -/
structure DefaultPolicyCaller where
  directory : Directory
  actor : CurrentUser
  organization : OrganizationId

/-- A call that writes the table. -/
inductive PolicyAction where
  | upsertTeamPolicy (caller : PolicyCaller) (payload : LicensePolicyUpsert)
  | upsertOrgPolicy (caller : DefaultPolicyCaller) (payload : LicensePolicyUpsert)
  | addLicenseException (caller : PolicyCaller) (waiver : LicenseException)
  | removeLicenseException (caller : PolicyCaller) (spdxId : String) (componentPurl : Option String)
  | deleteTeamPolicy (caller : PolicyCaller)

/-- A call with the caps in force and the readings of the clock. -/
structure PolicyRequest where
  action : PolicyAction
  caps : WaiverCaps
  clock : PolicyClock

/-- The scope a caller writes to. -/
def PolicyCaller.scope (caller : PolicyCaller) : PolicyScope := (caller.organization, some caller.team)

/-- Only a super admin may write the default of an organisation. -/
def assertMayWriteDefault (caller : DefaultPolicyCaller) : Except LicensePolicyError Unit :=
  if !superAdminReaches caller.directory caller.actor none then .error .forbidden else .ok ()

/-- Insert a row; the scope must be free. -/
def insertPolicy (policies : PolicyTable) (row : LicensePolicy) : Except LicensePolicyError PolicyTable :=
  match policies.insert row with
  | some grown => .ok grown
  | none => .error .conflict

variable (policies : PolicyTable) (caps : WaiverCaps) (clock : PolicyClock)

/-- Create or replace the policy of a team. -/
def upsertTeamPolicy (caller : PolicyCaller) (payload : LicensePolicyUpsert) :
    Except LicensePolicyError PolicyTable := do
  assertMayWrite caller
  assertUpsertValid payload caps clock
  -- A first write makes the row, and then both write the same columns.
  match policies.find? caller.scope with
  | none => insertPolicy policies (applyUpsert (.created caller clock) payload clock)
  | some row => return policies.put (applyUpsert row payload clock)

/-- Create or replace the default policy of an organisation. -/
def upsertOrgPolicy (caller : DefaultPolicyCaller) (payload : LicensePolicyUpsert) :
    Except LicensePolicyError PolicyTable := do
  assertMayWriteDefault caller
  assertUpsertValid payload caps clock
  -- As for a team, under the scope that has none.
  match policies.find? (caller.organization, none) with
  | none => insertPolicy policies (applyUpsert (.createdDefault caller.organization clock) payload clock)
  | some row => return policies.put (applyUpsert row payload clock)

/-- Add a waiver to the policy of a team, which is created with the defaults if there is none. -/
def addLicenseException (caller : PolicyCaller) (waiver : LicenseException) :
    Except LicensePolicyError PolicyTable := do
  assertMayWrite caller
  match policies.find? caller.scope with
  | none =>
      -- Without a row the waiver is checked against the catalogue and the default posture.
      enforceForbiddenTtl [waiver] .empty .conditional caps.maxWaiveDays clock.forbiddenTtl
      insertPolicy policies { LicensePolicy.created caller clock with licenseExceptions := [waiver] }
  | some row => return policies.put (← addException row waiver caps clock)

/-- Remove a waiver from the policy of a team. -/
def removeLicenseException (caller : PolicyCaller) (spdxId : String) (componentPurl : Option String) :
    Except LicensePolicyError PolicyTable := do
  assertMayWrite caller
  -- Nothing to remove it from is an error, unlike an exception that is not there.
  match policies.find? caller.scope with
  | none => throw .notFound
  | some row => return policies.put (removeException row spdxId componentPurl clock)

/-- Delete the policy of a team. -/
def deleteTeamPolicy (caller : PolicyCaller) : Except LicensePolicyError PolicyTable := do
  assertMayWrite caller
  match policies.find? caller.scope with
  | none => throw .notFound
  | some row => return policies.filter fun other => other.scope ≠ row.scope

/-- What a call makes of the table. -/
def PolicyRequest.serve (request : PolicyRequest) : Except LicensePolicyError PolicyTable :=
  match request.action with
  | .upsertTeamPolicy caller payload =>
      upsertTeamPolicy policies request.caps request.clock caller payload
  | .upsertOrgPolicy caller payload =>
      upsertOrgPolicy policies request.caps request.clock caller payload
  | .addLicenseException caller waiver =>
      addLicenseException policies request.caps request.clock caller waiver
  | .removeLicenseException caller spdxId componentPurl =>
      removeLicenseException policies request.clock caller spdxId componentPurl
  | .deleteTeamPolicy caller => deleteTeamPolicy policies caller

end Calls

section Runs

/-- The table, and the calls that were carried out so far, from the last to the first. -/
structure PolicyHistory where
  policies : PolicyTable
  served : List PolicyRequest

/-- Before the first call there are no rows. -/
def PolicyHistory.initial : PolicyHistory := ⟨⟨[], List.nodup_nil⟩, []⟩

/-- One call; a refused one changes nothing. -/
def PolicyHistory.step (history : PolicyHistory) (request : PolicyRequest) : PolicyHistory :=
  match request.serve history.policies with
  | .ok next => ⟨next, request :: history.served⟩
  | .error _ => history

/-- Calls one after another. -/
def PolicyHistory.after (requests : List PolicyRequest) : PolicyHistory :=
  requests.foldl PolicyHistory.step .initial

/-- Whether a call writes a waiver to a scope. -/
def PolicyRequest.writes (request : PolicyRequest) (scope : PolicyScope) (waiver : LicenseException) :
    Bool :=
  -- A removal and a deletion write no waiver.
  match request.action with
  | .upsertTeamPolicy caller payload =>
      caller.scope == scope && payload.licenseExceptions.contains waiver
  | .upsertOrgPolicy caller payload =>
      (caller.organization, none) == scope && payload.licenseExceptions.contains waiver
  | .addLicenseException caller added => caller.scope == scope && added == waiver
  | .removeLicenseException .. | .deleteTeamPolicy .. => false

/-- The last call that wrote a waiver to a scope. -/
def PolicyHistory.lastWrite (history : PolicyHistory) (scope : PolicyScope)
    (waiver : LicenseException) : Option PolicyRequest :=
  history.served.find? fun request => request.writes scope waiver

end Runs

end Trusca
