import Trusca.Authz.Access
import Trusca.Data.Dict
import Trusca.License.Expression

/-! Licence policies: the row, the category it gives a licence, and the three writers of it. -/

namespace Trusca

abbrev OrganizationId := Nat

/-- A date and time, in microseconds; one without an offset is read as UTC. -/
structure Expiry where
  clock : Time
  offset : Option Int
  deriving Repr, DecidableEq

/-- The point in time an expiry means. -/
def Expiry.instant (expiry : Expiry) : Time := expiry.clock - expiry.offset.getD 0

/-- A waiver that allows a licence, everywhere or in one component. -/
structure LicenseException where
  spdxId : String
  reason : String
  expiresAt : Option Expiry
  componentPurl : Option String
  deriving Repr, DecidableEq

/-- A temporary waiver for a package that is flagged as malicious. -/
structure MaliciousException where
  componentPurl : String
  reason : String
  expiresAt : Expiry
  deriving Repr, DecidableEq

/-- One row of the licence policies table, less the columns no modelled function touches. -/
structure LicensePolicy where
  organizationId : OrganizationId
  /-- Absent for the default of the organisation. -/
  teamId : Option GroupId
  name : Option String
  categoryOverrides : Dict PolicyCategory
  licenseExceptions : List LicenseException
  maliciousExceptions : List MaliciousException
  unknownLicenseCategory : PolicyCategory
  compoundOperatorStrategy : StrategyMap
  enabled : Bool
  updatedAt : Time
  deriving DecidableEq

/-- The scope of a licence policy, unique in the table. -/
def LicensePolicy.scope (policy : LicensePolicy) : OrganizationId × Option GroupId :=
  (policy.organizationId, policy.teamId)

section Category

/-- Whether a waiver has lapsed. -/
def isExpired (expiresAt : Expiry) (now : Time) : Bool := expiresAt.instant < now

/-- Whether a waiver covers a licence in a component, now. An empty purl scopes nothing. -/
def LicenseException.covers (waiver : LicenseException) (spdxId : String)
    (componentPurl : Option String) (now : Time) : Bool :=
  -- The licence, the component if the waiver names one, and a date that has not passed.
  waiver.spdxId == spdxId &&
    (match waiver.componentPurl with
      | none => true
      | some purl => purl == "" || componentPurl == some purl) &&
    !waiver.expiresAt.any fun expiresAt => isExpired expiresAt now

/-- The category of a single licence id under a policy: a waiver, an override, the catalogue, and
last the posture for unknown licences. -/
def effectiveCategory (spdxId : String) (policy : Option LicensePolicy)
    (staticDefault : LicenseCategory) (componentPurl : Option String) (now : Time) :
    LicenseCategory :=
  match policy with
  | none => staticDefault
  | some policy =>
      if !policy.enabled then staticDefault
      -- A waiver wins over an override, and an override over the catalogue.
      else if policy.licenseExceptions.any fun waiver => waiver.covers spdxId componentPurl now then
        .allowed
      else
        match policy.categoryOverrides.get? spdxId with
        | some category => category.toCategory
        | none =>
            if staticDefault ≠ .unknown then staticDefault
            else policy.unknownLicenseCategory.toCategory

/-- The category of a licence id when no waiver is looked at. -/
def baseCategory (spdxId : String) (overrides : Dict PolicyCategory) (posture : PolicyCategory) :
    LicenseCategory :=
  -- The team's own table, then the static catalogue, then the posture for the rest.
  match overrides.get? spdxId with
  | some category => category.toCategory
  | none =>
      if staticDefaultFor spdxId ≠ .unknown then staticDefaultFor spdxId else posture.toCategory

end Category

section Writers

/-- The errors of the licence policy service. -/
inductive LicensePolicyError where
  | notFound
  | forbidden
  | conflict
  | validation (message : String)
  | tooManyExceptions
  /-- The request ended early: its connection or its process was lost. -/
  | aborted
  deriving Repr, DecidableEq

/-- The caps on the lifetime of a waiver, in days, as the environment sets them. -/
structure WaiverCaps where
  maxWaiveDays : Nat
  maxMaliciousWaiveDays : Nat
  deriving Repr, DecidableEq

/-- A span of days, in microseconds. -/
def days (count : Nat) : Time := count * 86400000000

/-- The most waivers a policy holds. -/
def maxExceptions : Nat := 2000

/-- A waiver on a forbidden licence needs an expiry within the cap. -/
def enforceForbiddenTtlOn (overrides : Dict PolicyCategory) (posture : PolicyCategory)
    (maxDays : Nat) (now : Time) (waiver : LicenseException) : Except LicensePolicyError Unit :=
  -- Only a licence that the policy forbids needs an end.
  if baseCategory waiver.spdxId overrides posture ≠ .forbidden then .ok ()
  else
    match waiver.expiresAt with
    | none =>
        .error (.validation s!"a waiver for the forbidden license '{waiver.spdxId}' must set an expiry of at most {maxDays} days")
    -- The bound itself is still allowed.
    | some expiresAt =>
        if now + days maxDays < expiresAt.instant then
          .error (.validation s!"the waiver expiry for the forbidden license '{waiver.spdxId}' exceeds the maximum of {maxDays} days")
        else .ok ()

/-- The waivers are checked one after the other. -/
def enforceForbiddenTtl (waivers : List LicenseException) (overrides : Dict PolicyCategory)
    (posture : PolicyCategory) (maxDays : Nat) (now : Time) : Except LicensePolicyError Unit :=
  waivers.forM (enforceForbiddenTtlOn overrides posture maxDays now)

/-- A waiver for a malicious package names a time zone and stays within the cap. -/
def enforceMaliciousTtlOn (maxDays : Nat) (now : Time) (waiver : MaliciousException) :
    Except LicensePolicyError Unit :=
  -- A date without an offset cannot be compared with the clock, so it is asked for.
  if waiver.expiresAt.offset.isNone then
    .error (.validation s!"the waiver for '{waiver.componentPurl}' must give expires_at with a timezone (e.g. 2026-08-20T00:00:00Z)")
  else if now + days maxDays < waiver.expiresAt.instant then
    .error (.validation s!"the waiver for '{waiver.componentPurl}' exceeds the maximum of {maxDays} days")
  else .ok ()

/-- The waivers are checked one after the other. -/
def enforceMaliciousTtl (waivers : List MaliciousException) (maxDays : Nat) (now : Time) :
    Except LicensePolicyError Unit :=
  waivers.forM (enforceMaliciousTtlOn maxDays now)

/-- The waivers that have not lapsed. -/
def pruneExpiredWaivers (waivers : List MaliciousException) (now : Time) :
    List MaliciousException :=
  waivers.filter fun waiver => now < waiver.expiresAt.instant

/-- The body of a PUT, as its schema validates it. -/
structure LicensePolicyUpsert where
  name : Option String
  categoryOverrides : Dict PolicyCategory
  licenseExceptions : List LicenseException
  maliciousExceptions : List MaliciousException
  unknownLicenseCategory : PolicyCategory
  compoundOperatorStrategy : StrategyMap
  enabled : Bool

/-- The readings of the clock one call takes, in their order. -/
structure PolicyClock where
  forbiddenTtl : Time
  maliciousTtl : Time
  prune : Time
  updated : Time

/-- Who calls, and on which team of which organisation. -/
structure PolicyCaller where
  directory : Directory
  actor : CurrentUser
  team : GroupId
  organization : OrganizationId

/-- Whether the actor may write the policy of the team. -/
def canAdminTeam (caller : PolicyCaller) : Bool :=
  superAdminReaches caller.directory caller.actor (some caller.team) ||
    caller.actor.teamRoles caller.team == some .groupAdmin

/-- The team must exist and the actor administer it. -/
def assertMayWrite (caller : PolicyCaller) : Except LicensePolicyError Unit :=
  -- A team that does not exist is reported before the role is looked at.
  if (caller.directory.path caller.team).isNone then .error .notFound
  else if !canAdminTeam caller then .error .forbidden
  else .ok ()

/-- The guards of a PUT: they look at the payload alone. -/
def assertUpsertValid (payload : LicensePolicyUpsert) (caps : WaiverCaps) (clock : PolicyClock) :
    Except LicensePolicyError Unit := do
  enforceForbiddenTtl payload.licenseExceptions payload.categoryOverrides
    payload.unknownLicenseCategory caps.maxWaiveDays clock.forbiddenTtl
  enforceMaliciousTtl payload.maliciousExceptions caps.maxMaliciousWaiveDays clock.maliciousTtl

/-- Copy the payload onto a row. -/
def applyUpsert (row : LicensePolicy) (payload : LicensePolicyUpsert) (clock : PolicyClock) :
    LicensePolicy :=
  -- Everything that the payload carries is replaced, and expired waivers of packages go.
  { row with
    name := payload.name
    categoryOverrides := payload.categoryOverrides
    licenseExceptions := payload.licenseExceptions
    maliciousExceptions := pruneExpiredWaivers payload.maliciousExceptions clock.prune
    unknownLicenseCategory := payload.unknownLicenseCategory
    compoundOperatorStrategy := payload.compoundOperatorStrategy
    enabled := payload.enabled
    updatedAt := clock.updated }

/-- A new row of the team, with the defaults of the table. -/
def LicensePolicy.created (caller : PolicyCaller) (clock : PolicyClock) : LicensePolicy where
  -- The row of a first write: no overrides, no waivers, and the cautious posture.
  organizationId := caller.organization
  teamId := some caller.team
  name := none
  categoryOverrides := .empty
  licenseExceptions := []
  maliciousExceptions := []
  unknownLicenseCategory := .conditional
  compoundOperatorStrategy := .default
  enabled := true
  updatedAt := clock.updated

/-- The waivers without those for a licence in a component. -/
def withoutException (waivers : List LicenseException) (spdxId : String)
    (componentPurl : Option String) : List LicenseException :=
  waivers.filter fun waiver => !(waiver.spdxId == spdxId && waiver.componentPurl == componentPurl)

/-- What adding a waiver makes of the row: the waiver is checked against the row's own overrides
and posture, and replaces the one it repeats. -/
def addException (row : LicensePolicy) (waiver : LicenseException) (caps : WaiverCaps)
    (clock : PolicyClock) : Except LicensePolicyError LicensePolicy := do
  enforceForbiddenTtl [waiver] row.categoryOverrides row.unknownLicenseCategory caps.maxWaiveDays
    clock.forbiddenTtl
  -- The cap counts what the row would hold afterwards.
  let waivers := withoutException row.licenseExceptions waiver.spdxId waiver.componentPurl ++ [waiver]
  if maxExceptions < waivers.length then
    throw .tooManyExceptions
  return { row with licenseExceptions := waivers, updatedAt := clock.updated }

/-- What removing a waiver makes of the row. -/
def removeException (row : LicensePolicy) (spdxId : String) (componentPurl : Option String)
    (clock : PolicyClock) : LicensePolicy :=
  { row with
    licenseExceptions := withoutException row.licenseExceptions spdxId componentPurl
    updatedAt := clock.updated }

/-- A write to a team's policy row. -/
inductive PolicyWrite where
  | upsert (payload : LicensePolicyUpsert)
  | add (waiver : LicenseException)
  | remove (spdxId : String) (componentPurl : Option String)

/-- A call of one of the three writers. -/
structure PolicyCall where
  caller : PolicyCaller
  write : PolicyWrite
  caps : WaiverCaps
  clock : PolicyClock

/-- What a call makes of the row when nothing runs beside it. -/
def PolicyCall.serve (call : PolicyCall) (row : LicensePolicy) :
    Except LicensePolicyError LicensePolicy := do
  -- The role is checked before the payload is looked at.
  assertMayWrite call.caller
  match call.write with
  | .upsert payload =>
      assertUpsertValid payload call.caps call.clock
      return applyUpsert row payload call.clock
  | .add waiver => addException row waiver call.caps call.clock
  | .remove spdxId componentPurl => return removeException row spdxId componentPurl call.clock

end Writers

end Trusca
