import Mathlib.Data.List.Nodup
import Trusca.License.Classify

/-! The worst verdict of every component: a component is forbidden exactly when one of its licence
expressions is. -/

namespace Trusca

/-- Some component has a forbidden verdict. -/
def AnyForbidden (verdicts : List (ComponentVersionId × ComponentPolicyVerdict)) : Prop :=
  ∃ entry ∈ verdicts, entry.2.category = .forbidden

/-- The verdict that is looked up is one of the entries. -/
theorem mem_of_lookup {verdicts : List (ComponentVersionId × ComponentPolicyVerdict)}
    {component : ComponentVersionId} {verdict : ComponentPolicyVerdict}
    (found : verdicts.lookup component = some verdict) : (component, verdict) ∈ verdicts := by
  -- The entries before the one found belong to other components.
  obtain ⟨before, after, split, _⟩ := List.lookup_eq_some_iff.mp found
  simp [split]

/-- A component without a verdict has no entry. -/
theorem not_mem_of_lookup {verdicts : List (ComponentVersionId × ComponentPolicyVerdict)}
    {component : ComponentVersionId} (missing : verdicts.lookup component = none) :
    component ∉ verdicts.map Prod.fst := by
  intro member
  obtain ⟨entry, listed, named⟩ := List.mem_map.mp member
  rw [List.lookup_eq_none_iff] at missing
  exact absurd named.symm (by simpa using missing entry listed)

/-- Replacing the verdict of a component keeps the components. -/
theorem map_fst_replace (verdicts : List (ComponentVersionId × ComponentPolicyVerdict))
    (component : ComponentVersionId) (verdict : ComponentPolicyVerdict) :
    (verdicts.map fun entry => if entry.1 = component then (component, verdict) else entry).map
      Prod.fst = verdicts.map Prod.fst := by
  rw [List.map_map]
  refine List.map_congr_left fun entry _ => ?_
  simp only [Function.comp_apply]
  split
  · rename_i same
    exact same.symm
  · rfl

/-- Every component keeps one verdict. -/
theorem recordVerdict_nodup {verdicts : List (ComponentVersionId × ComponentPolicyVerdict)}
    (distinct : (verdicts.map Prod.fst).Nodup) (component : ComponentVersionId)
    (verdict : ComponentPolicyVerdict) :
    ((recordVerdict verdicts component verdict).map Prod.fst).Nodup := by
  unfold recordVerdict
  cases found : verdicts.lookup component with
  | none =>
    -- A new component is added at the end.
    rw [List.map_append, List.nodup_append]
    refine ⟨distinct, by simp, ?_⟩
    intro first before second last same
    have own : second = component := by simpa using last
    exact not_mem_of_lookup found (own ▸ same ▸ before)
  | some prior =>
    dsimp only
    split
    · rw [map_fst_replace]
      exact distinct
    · exact distinct

/-- No verdict is worse than a forbidden one. -/
theorem verdictRank_le (category : LicenseCategory) :
    category.verdictRank ≤ LicenseCategory.forbidden.verdictRank := by
  cases category <;> decide

/-- Recording a verdict adds a forbidden one exactly when it is forbidden itself. -/
theorem recordVerdict_forbidden_iff
    {verdicts : List (ComponentVersionId × ComponentPolicyVerdict)}
    (distinct : (verdicts.map Prod.fst).Nodup) (component : ComponentVersionId)
    (verdict : ComponentPolicyVerdict) :
    AnyForbidden (recordVerdict verdicts component verdict) ↔
      AnyForbidden verdicts ∨ verdict.category = .forbidden := by
  unfold recordVerdict AnyForbidden
  cases found : verdicts.lookup component with
  -- A first verdict is added as it is.
  | none => simp [or_and_right, exists_or]
  | some prior =>
    have held := mem_of_lookup found
    dsimp only
    by_cases worse : prior.category.verdictRank < verdict.category.verdictRank
    · rw [if_pos worse]
      constructor
      · -- A forbidden entry afterwards is the new one or an old one.
        rintro ⟨entry, member, forbidden⟩
        obtain ⟨old, listed, replaced⟩ := List.mem_map.mp member
        split at replaced
        · subst replaced
          exact .inr forbidden
        · subst replaced
          exact .inl ⟨old, listed, forbidden⟩
      · rintro (⟨entry, listed, forbidden⟩ | forbidden)
        · -- A forbidden entry is not the one replaced, since nothing is worse than it.
          have kept : entry.1 ≠ component := by
            intro named
            have same := List.inj_on_of_nodup_map distinct listed held named
            have stated : prior.category = .forbidden := by
              rw [same] at forbidden
              exact forbidden
            have bound := verdictRank_le verdict.category
            rw [stated] at worse
            omega
          exact ⟨entry, List.mem_map.mpr ⟨entry, listed, if_neg kept⟩, forbidden⟩
        · refine ⟨(component, verdict), ?_, forbidden⟩
          exact List.mem_map.mpr ⟨(component, prior), held, if_pos rfl⟩
    · rw [if_neg worse]
      constructor
      · exact .inl
      · rintro (before | forbidden)
        · exact before
        · -- The verdict was no worse than the prior one, so the prior one is forbidden too.
          refine ⟨(component, prior), held, ?_⟩
          rw [forbidden] at worse
          cases category : prior.category <;> rw [category] at worse <;>
            first
              | rfl
              | exact absurd (by decide) worse

/-- A component is forbidden exactly when one of the licence expressions is. -/
theorem categorizeLicenseRows_forbidden_iff (rows : List LicenseRow) (policy : LicensePolicy)
    (now : Time) :
    AnyForbidden (categorizeLicenseRows rows policy now) ↔
      ∃ row ∈ rows, policyCategoryOf policy row.spdxId row.purl now = .forbidden := by
  -- The induction carries the verdicts found so far, one for each component.
  have run : ∀ (rows : List LicenseRow)
      (verdicts : List (ComponentVersionId × ComponentPolicyVerdict)),
      (verdicts.map Prod.fst).Nodup →
      (AnyForbidden (rows.foldl (fun verdicts row =>
        recordVerdict verdicts row.componentVersionId
          ⟨policyCategoryOf policy row.spdxId row.purl now, row.spdxId⟩) verdicts) ↔
        AnyForbidden verdicts ∨
          ∃ row ∈ rows, policyCategoryOf policy row.spdxId row.purl now = .forbidden) := by
    intro rows
    induction rows with
    | nil => simp
    | cons row rest ih =>
      intro verdicts distinct
      rw [List.foldl_cons, ih _ (recordVerdict_nodup distinct _ _),
        recordVerdict_forbidden_iff distinct]
      simp [or_assoc]
  have whole := run rows [] (by simp)
  rw [show AnyForbidden [] ↔ False by simp [AnyForbidden], false_or] at whole
  exact whole

end Trusca
