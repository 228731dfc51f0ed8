import Trusca.Data.Outcome
import Trusca.License.PolicyStore
import Trusca.Proofs.License.PolicyRace

/-! Every stored waiver of a licence that its own policy forbids expires within the cap, counted from when
it was last written. -/

namespace Trusca

open Store

section Statements

/-- The row forbids the licence of a waiver, when no waiver is looked at. -/
def LicensePolicy.forbids (row : LicensePolicy) (waiver : LicenseException) : Prop :=
  baseCategory waiver.spdxId row.categoryOverrides row.unknownLicenseCategory = .forbidden

/-- A waiver expires within the cap that was in force, counted from when a call checked it. -/
def PolicyRequest.Caps (request : PolicyRequest) (waiver : LicenseException) : Prop :=
  ∃ expiry, waiver.expiresAt = some expiry ∧
    expiry.instant ≤ request.clock.forbiddenTtl + days request.caps.maxWaiveDays

/-- Every waiver of every row was written by some call, and the last one of them capped it if the row now
forbids its licence. -/
def PolicyHistory.Capped (history : PolicyHistory) : Prop :=
  ∀ row ∈ history.policies.rows, ∀ waiver ∈ row.licenseExceptions,
    ∃ request, history.lastWrite row.scope waiver = some request ∧
      (row.forbids waiver → request.Caps waiver)

/-- A waiver that a call found in a row of the same scope, which judged licences alike. -/
def Carried (policies : PolicyTable) (row : LicensePolicy) (waiver : LicenseException) : Prop :=
  ∃ old ∈ policies.rows, old.scope = row.scope ∧ old.categoryOverrides = row.categoryOverrides ∧
    old.unknownLicenseCategory = row.unknownLicenseCategory ∧ waiver ∈ old.licenseExceptions

/-- Each waiver that a call leaves is written by it, and within the cap if the row forbids its licence, or
was there before in a row that judged it alike. -/
def AccountsFor (policies next : PolicyTable) (request : PolicyRequest) : Prop :=
  ∀ row ∈ next.rows, ∀ waiver ∈ row.licenseExceptions,
    request.writes row.scope waiver ∧ (row.forbids waiver → request.Caps waiver) ∨
      request.writes row.scope waiver = false ∧ Carried policies row waiver

end Statements

section Checks

variable {overrides : Dict PolicyCategory} {posture : PolicyCategory} {maxDays : Nat} {now : Time}

/-- A waiver that passes the check expires within the cap, if its licence is forbidden. -/
theorem enforceForbiddenTtlOn_ok {waiver : LicenseException}
    (passed : enforceForbiddenTtlOn overrides posture maxDays now waiver = .ok ())
    (forbidden : baseCategory waiver.spdxId overrides posture = .forbidden) :
    ∃ expiry, waiver.expiresAt = some expiry ∧ expiry.instant ≤ now + days maxDays := by
  unfold enforceForbiddenTtlOn at passed
  rw [if_neg (not_not_intro forbidden)] at passed
  -- A waiver without an expiry is refused.
  cases expires : waiver.expiresAt with
  | none =>
    rw [expires] at passed
    cases passed
  | some expiry =>
    rw [expires] at passed
    refine ⟨expiry, rfl, ?_⟩
    -- And so is one that expires too late.
    by_contra late
    simp [Int.not_le.mp late] at passed

/-- Waivers that pass have an expiry within the cap wherever they waive a forbidden licence. -/
theorem enforceForbiddenTtl_ok {waivers : List LicenseException}
    (passed : enforceForbiddenTtl waivers overrides posture maxDays now = .ok ()) :
    ∀ waiver ∈ waivers, baseCategory waiver.spdxId overrides posture = .forbidden →
      ∃ expiry, waiver.expiresAt = some expiry ∧ expiry.instant ≤ now + days maxDays :=
  fun waiver listed => enforceForbiddenTtlOn_ok (forM_ok.mp passed waiver listed)

end Checks

section Tables

variable {policies : PolicyTable} {request : PolicyRequest}

/-- A row of a scope to which nothing is written keeps its waivers. -/
theorem carried_self {row : LicensePolicy} (listed : row ∈ policies.rows) {waiver : LicenseException}
    (member : waiver ∈ row.licenseExceptions) : Carried policies row waiver :=
  ⟨row, listed, rfl, rfl, rfl, member⟩

/-- The rows after an update of one scope are the new row and the rows of other scopes. -/
theorem mem_put {changed row : LicensePolicy} (listed : row ∈ (policies.put changed).rows) :
    row = changed ∨ row ∈ policies.rows ∧ row.scope ≠ changed.scope := by
  obtain ⟨old, member, rfl⟩ := List.mem_map.mp listed
  split_ifs with same
  · exact .inl rfl
  · exact .inr ⟨member, same⟩

/-- A call that writes one scope accounts for all waivers when it does for those of that scope. -/
theorem AccountsFor.of_put {changed : LicensePolicy}
    (elsewhere : ∀ scope waiver, scope ≠ changed.scope → request.writes scope waiver = false)
    (here : ∀ waiver ∈ changed.licenseExceptions,
      request.writes changed.scope waiver ∧ (changed.forbids waiver → request.Caps waiver) ∨
        request.writes changed.scope waiver = false ∧ Carried policies changed waiver) :
    AccountsFor policies (policies.put changed) request := by
  intro row listed waiver member
  obtain rfl | ⟨kept, other⟩ := mem_put listed
  · exact here waiver member
  · exact .inr ⟨elsewhere _ _ other, carried_self kept member⟩

/-- A request that only inserts one row accounts for the table when it writes what is in the row. -/
theorem AccountsFor.of_insert {added : LicensePolicy} {grown : PolicyTable}
    (inserted : insertPolicy policies added = .ok grown)
    (elsewhere : ∀ scope waiver, scope ≠ added.scope → request.writes scope waiver = false)
    (here : ∀ waiver ∈ added.licenseExceptions,
      request.writes added.scope waiver ∧ (added.forbids waiver → request.Caps waiver)) :
    AccountsFor policies grown request := by
  unfold insertPolicy at inserted
  -- The unique scope lets the row in only where there is none.
  cases taken : policies.insert added with
  | none =>
    rw [taken] at inserted
    cases inserted
  | some table =>
    rw [taken] at inserted
    cases inserted
    intro row listed waiver member
    rw [Table.insert_rows taken] at listed
    -- An old row is carried over, since its scope is not the new one's.
    obtain kept | new := List.mem_append.mp listed
    · have other : row.scope ≠ added.scope := by
        intro same
        have free := Table.find?_of_insert taken
        rw [← same, Table.find?_of_mem kept] at free
        cases free
      exact .inr ⟨elsewhere _ _ other, carried_self kept member⟩
    · rw [List.mem_singleton] at new
      subst new
      exact .inl (here waiver member)

end Tables

section Calls

variable {policies next : PolicyTable} {caps : WaiverCaps} {clock : PolicyClock}

/-- The check of a PUT caps the waivers of its payload. -/
theorem assertUpsertValid_ok {payload : LicensePolicyUpsert}
    (valid : assertUpsertValid payload caps clock = .ok ()) :
    ∀ waiver ∈ payload.licenseExceptions,
      baseCategory waiver.spdxId payload.categoryOverrides payload.unknownLicenseCategory = .forbidden →
        ∃ expiry, waiver.expiresAt = some expiry ∧
          expiry.instant ≤ clock.forbiddenTtl + days caps.maxWaiveDays := by
  obtain ⟨done, passed, -⟩ := bind_ok.mp valid
  exact enforceForbiddenTtl_ok passed

/-- A PUT writes its payload to the row of its scope, whether there was one or not. -/
theorem AccountsFor.of_upsert {scope : PolicyScope} {fresh : LicensePolicy} {payload : LicensePolicyUpsert}
    {request : PolicyRequest} (own : fresh.scope = scope)
    (writes : ∀ other waiver, request.writes other waiver =
      (scope == other && payload.licenseExceptions.contains waiver))
    (valid : assertUpsertValid payload request.caps request.clock = .ok ())
    (written : (match policies.find? scope with
      | none => insertPolicy policies (applyUpsert fresh payload request.clock)
      | some row => .ok (policies.put (applyUpsert row payload request.clock))) = .ok next) :
    AccountsFor policies next request := by
  -- Only the call's own scope is written, and there every waiver of the payload.
  have elsewhere : ∀ other waiver, other ≠ scope → request.writes other waiver = false := by
    intro other waiver apart
    simp [writes, Ne.symm apart]
  have here : ∀ waiver ∈ payload.licenseExceptions, request.writes scope waiver := by
    intro waiver member
    simp [writes, member]
  have capped := assertUpsertValid_ok valid
  -- The row is made from the payload, or the one there takes it.
  cases found : policies.find? scope with
  | none =>
    rw [found] at written
    subst own
    exact .of_insert written elsewhere fun waiver member => ⟨here waiver member, capped waiver member⟩
  | some row =>
    rw [found] at written
    cases written
    -- The row keeps its scope through the upsert.
    have place : row.scope = scope := Table.key_of_find? found
    have same : (applyUpsert row payload request.clock).scope = scope := place
    refine .of_put (by rwa [same]) fun waiver member => .inl ?_
    rw [same]
    exact ⟨here waiver member, capped waiver member⟩

/-- An upsert by a team accounts for the table it leaves. -/
theorem upsertTeamPolicy_accounted {caller : PolicyCaller} {payload : LicensePolicyUpsert}
    (served : upsertTeamPolicy policies caps clock caller payload = .ok next) :
    AccountsFor policies next ⟨.upsertTeamPolicy caller payload, caps, clock⟩ := by
  obtain ⟨allowed, -, rest⟩ := bind_ok.mp served
  obtain ⟨checked, valid, written⟩ := bind_ok.mp rest
  have own : (LicensePolicy.created caller clock).scope = caller.scope := rfl
  refine .of_upsert own (fun _ _ => rfl) valid ?_
  rw [← written]
  cases policies.find? caller.scope <;> rfl

/-- An upsert by the organisation accounts for the table it leaves. -/
theorem upsertOrgPolicy_accounted {caller : DefaultPolicyCaller} {payload : LicensePolicyUpsert}
    (served : upsertOrgPolicy policies caps clock caller payload = .ok next) :
    AccountsFor policies next ⟨.upsertOrgPolicy caller payload, caps, clock⟩ := by
  obtain ⟨allowed, -, rest⟩ := bind_ok.mp served
  obtain ⟨checked, valid, written⟩ := bind_ok.mp rest
  have own : (LicensePolicy.createdDefault caller.organization clock).scope = (caller.organization, none) :=
    rfl
  refine .of_upsert own (fun _ _ => rfl) valid ?_
  rw [← written]
  cases policies.find? (caller.organization, none) <;> rfl

/-- A waiver that is added passed the check against its row, and is the last one there. -/
theorem addException_ok {row changed : LicensePolicy} {waiver : LicenseException}
    (added : addException row waiver caps clock = .ok changed) :
    enforceForbiddenTtl [waiver] row.categoryOverrides row.unknownLicenseCategory caps.maxWaiveDays
        clock.forbiddenTtl = .ok () ∧
      changed =
        { row with
          licenseExceptions :=
            withoutException row.licenseExceptions waiver.spdxId waiver.componentPurl ++ [waiver]
          updatedAt := clock.updated } := by
  obtain ⟨checked, valid, rest⟩ := bind_ok.mp added
  refine ⟨valid, ?_⟩
  dsimp only at rest
  -- The waiver is there already, or the row is full: then nothing is changed.
  split at rest
  · cases rest
  · cases rest
    rfl

/-- Adding a waiver checks it against the row it goes into; the others stay as they are. -/
theorem addLicenseException_accounted {caller : PolicyCaller} {waiver : LicenseException}
    (served : addLicenseException policies caps clock caller waiver = .ok next) :
    AccountsFor policies next ⟨.addLicenseException caller waiver, caps, clock⟩ := by
  obtain ⟨allowed, -, written⟩ := bind_ok.mp served
  -- The call writes the caller's scope and no other.
  have elsewhere : ∀ scope other, scope ≠ caller.scope →
      PolicyRequest.writes ⟨.addLicenseException caller waiver, caps, clock⟩ scope other = false := by
    intro scope other apart
    simp [PolicyRequest.writes, Ne.symm apart]
  have here : PolicyRequest.writes ⟨.addLicenseException caller waiver, caps, clock⟩ caller.scope waiver := by
    simp [PolicyRequest.writes]
  -- Without a row of its own the caller gets one with this waiver alone.
  cases found : policies.find? caller.scope with
  | none =>
    rw [found] at written
    obtain ⟨checked, valid, inserted⟩ := bind_ok.mp written
    refine .of_insert inserted elsewhere fun other member => ?_
    obtain rfl := List.mem_singleton.mp member
    exact ⟨here, enforceForbiddenTtl_ok valid other (List.mem_singleton.mpr rfl)⟩
  | some row =>
    rw [found] at written
    obtain ⟨changed, added, put⟩ := bind_ok.mp written
    cases put
    obtain ⟨valid, rfl⟩ := addException_ok added
    -- With one, the old waivers but for the replaced one are kept, and the new one goes last.
    have place : row.scope = caller.scope := Table.key_of_find? found
    have same : LicensePolicy.scope
        { row with
          licenseExceptions :=
            withoutException row.licenseExceptions waiver.spdxId waiver.componentPurl ++ [waiver]
          updatedAt := clock.updated } = caller.scope := place
    refine .of_put (by rwa [same]) fun other member => ?_
    rw [same]
    -- A kept waiver is carried over from the row; the last one is the call's own.
    by_cases new : other = waiver
    · subst new
      exact .inl ⟨here, enforceForbiddenTtl_ok valid other (List.mem_singleton.mpr rfl)⟩
    · obtain kept | last := List.mem_append.mp member
      · refine .inr ⟨by simp [PolicyRequest.writes, Ne.symm new], ?_⟩
        exact ⟨row, Table.mem_of_find? found, rfl, rfl, rfl, List.mem_of_mem_filter kept⟩
      · exact absurd (List.mem_singleton.mp last) new

/-- Removing a waiver leaves the others as they are. -/
theorem removeLicenseException_accounted {caller : PolicyCaller} {spdxId : String}
    {componentPurl : Option String}
    (served : removeLicenseException policies clock caller spdxId componentPurl = .ok next) :
    AccountsFor policies next ⟨.removeLicenseException caller spdxId componentPurl, caps, clock⟩ := by
  obtain ⟨allowed, -, written⟩ := bind_ok.mp served
  -- Without a row there is nothing to remove the waiver from.
  cases found : policies.find? caller.scope with
  | none =>
    rw [found] at written
    cases written
  | some row =>
    rw [found] at written
    cases written
    -- The waivers that are left were in the row before.
    refine .of_put (fun _ _ _ => rfl) fun waiver member => .inr ⟨rfl, ?_⟩
    exact ⟨row, Table.mem_of_find? found, rfl, rfl, rfl, List.mem_of_mem_filter member⟩

/-- A deletion by a team accounts for the table it leaves. -/
theorem deleteTeamPolicy_accounted {caller : PolicyCaller}
    (served : deleteTeamPolicy policies caller = .ok next) :
    AccountsFor policies next ⟨.deleteTeamPolicy caller, caps, clock⟩ := by
  obtain ⟨allowed, -, written⟩ := bind_ok.mp served
  -- Only the row of the caller's scope goes.
  cases found : policies.find? caller.scope with
  | none =>
    rw [found] at written
    cases written
  | some row =>
    rw [found] at written
    cases written
    intro other listed waiver member
    exact .inr ⟨rfl, carried_self (List.mem_of_mem_filter listed) member⟩

/-- Whatever a call leaves is accounted for. -/
theorem PolicyRequest.serve_accounted {request : PolicyRequest}
    (served : request.serve policies = .ok next) : AccountsFor policies next request := by
  obtain ⟨action, caps, clock⟩ := request
  cases action with
  | upsertTeamPolicy caller payload => exact upsertTeamPolicy_accounted served
  | upsertOrgPolicy caller payload => exact upsertOrgPolicy_accounted served
  | addLicenseException caller waiver => exact addLicenseException_accounted served
  | removeLicenseException caller spdxId componentPurl => exact removeLicenseException_accounted served
  | deleteTeamPolicy caller => exact deleteTeamPolicy_accounted served

end Calls

section Runs

/-- A call keeps every waiver capped. -/
theorem PolicyHistory.Capped.step {history : PolicyHistory} (capped : history.Capped)
    (request : PolicyRequest) : (history.step request).Capped := by
  unfold PolicyHistory.step
  cases served : request.serve history.policies with
  | error reason => exact capped
  | ok next =>
    intro row listed waiver member
    unfold PolicyHistory.lastWrite
    obtain ⟨written, bound⟩ | ⟨untouched, carried⟩ :=
      request.serve_accounted served row listed waiver member
    · -- The call itself is the last that wrote the waiver.
      exact ⟨request, List.find?_cons_of_pos written, bound⟩
    · obtain ⟨old, before, scope, overrides, posture, kept⟩ := carried
      obtain ⟨last, found, bound⟩ := capped old before waiver kept
      refine ⟨last, ?_, ?_⟩
      · rw [List.find?_cons_of_neg (by simp [untouched]), ← scope]
        exact found
      · intro forbidden
        refine bound ?_
        unfold LicensePolicy.forbids at forbidden ⊢
        rwa [overrides, posture]

/-- After any calls, a stored waiver whose licence its own row forbids expires no later than the cap after
its last write. -/
theorem PolicyHistory.after_capped (requests : List PolicyRequest) :
    ∀ row ∈ (PolicyHistory.after requests).policies.rows, ∀ waiver ∈ row.licenseExceptions,
      baseCategory waiver.spdxId row.categoryOverrides row.unknownLicenseCategory = .forbidden →
        ∃ request expiry, (PolicyHistory.after requests).lastWrite row.scope waiver = some request ∧
          waiver.expiresAt = some expiry ∧
          expiry.instant ≤ request.clock.forbiddenTtl + days request.caps.maxWaiveDays := by
  have capped : (PolicyHistory.after requests).Capped := by
    -- Request by request, from the empty table.
    unfold PolicyHistory.after
    have start : PolicyHistory.initial.Capped := fun row listed => by cases listed
    generalize PolicyHistory.initial = history at start
    induction requests generalizing history with
    | nil => exact start
    | cons request rest ih => exact ih _ (start.step request)
  intro row listed waiver member forbidden
  -- The cap is one of the request that wrote the waiver last.
  obtain ⟨request, last, bound⟩ := capped row listed waiver member
  obtain ⟨expiry, expires, within⟩ := bound forbidden
  exact ⟨request, expiry, last, expires, within⟩

end Runs

/-- A waiver that expires ninety days after the start. -/
def waiverOfMit : LicenseException := ⟨"MIT", "cleared", some ⟨days 90, some 0⟩, none⟩

/-- The one override is sorted. -/
theorem forbiddenMit_sorted : [("MIT", PolicyCategory.forbidden)].Pairwise
    fun first second => first.1 < second.1 := List.pairwise_singleton _ _

/-- The team forbids a licence and then waives it. -/
def forbidAndWaive : List PolicyRequest :=
  [{ action := .upsertTeamPolicy policyAdmin
       { name := none, categoryOverrides := ⟨[("MIT", .forbidden)], forbiddenMit_sorted⟩
         licenseExceptions := [], maliciousExceptions := [], unknownLicenseCategory := .conditional
         compoundOperatorStrategy := .default, enabled := true }
     caps := ⟨90, 30⟩, clock := ⟨1, 1, 1, 1⟩ },
   { action := .addLicenseException policyAdmin waiverOfMit, caps := ⟨90, 30⟩, clock := ⟨2, 2, 2, 2⟩ }]

/-- The waiver of a licence that is forbidden first has an expiry within the cap of its request. -/
theorem PolicyHistory.after_capped_waived :
    ∃ row ∈ (PolicyHistory.after forbidAndWaive).policies.rows, ∃ request expiry,
      (PolicyHistory.after forbidAndWaive).lastWrite row.scope waiverOfMit = some request ∧
        waiverOfMit.expiresAt = some expiry ∧
        expiry.instant ≤ request.clock.forbiddenTtl + days request.caps.maxWaiveDays := by
  have stored : ∃ row ∈ (PolicyHistory.after forbidAndWaive).policies.rows,
      waiverOfMit ∈ row.licenseExceptions ∧
        baseCategory "MIT" row.categoryOverrides row.unknownLicenseCategory = .forbidden := by
    decide
  obtain ⟨row, listed, member, forbidden⟩ := stored
  exact ⟨row, listed, PolicyHistory.after_capped forbidAndWaive row listed waiverOfMit member forbidden⟩


end Trusca
