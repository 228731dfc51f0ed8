import Mathlib.Tactic
import Trusca.Sbom.CycloneDx

/-! The annotated export only adds its marks exactly when it marks no component that carries another
property, and the filtered export only removes. -/

namespace Trusca

/-- Whether a name is that of a mark of a policy profile. -/
def isPolicyName (name : String) : Bool := "trusca:policy:".toList.isPrefixOf name.toList

/-- Whether a property is a mark of a policy profile. -/
def CdxProperty.isPolicy (property : CdxProperty) : Bool := isPolicyName property.name

/-- A document without the marks of a policy profile. -/
def CdxDoc.withoutPolicy (doc : CdxDoc) : CdxDoc :=
  let unmarked (properties : List CdxProperty) := properties.filter fun property => !property.isPolicy
  { doc with
    metadata := { doc.metadata with properties := unmarked doc.metadata.properties }
    components := doc.components.map fun component =>
      { component with properties := unmarked component.properties } }

/-- The references that a document makes outside its list of components. -/
def CdxDoc.references (doc : CdxDoc) : List String :=
  (doc.dependencies.getD []).flatMap (fun entry => entry.ref :: entry.dependsOn) ++
    (doc.compositions.getD []).flatMap
      (fun composition => composition.assemblies.getD [] ++ composition.dependencies.getD []) ++
    doc.vulnerabilities.flatMap CdxVulnerability.affects

/-- The filtered export is the default one without its forbidden components: with their order and fields,
no reference to a component that is gone, and their number. -/
structure FilteredExactly (env : SbomEnvironment) (input : SbomInput)
    (verdicts : CvRef → Option ComponentPolicyVerdict) : Prop where
  components : (exportCyclonedx env input verdicts (some .filtered)).components =
    (exportCyclonedx env input verdicts none).components.filter
      fun component => !isForbidden verdicts component.bomRef
  references : ∀ ref ∈ (exportCyclonedx env input verdicts (some .filtered)).references,
    ref = input.project.ref ∨
      ref ∈ (exportCyclonedx env input verdicts (some .filtered)).components.map CdxComponent.bomRef
  excluded : (exportCyclonedx env input verdicts (some .filtered)).metadata.properties.filter
      (fun property => property.name == propExcluded) =
    [⟨propExcluded, toString
      ((exportCyclonedx env input verdicts none).components.length -
        (exportCyclonedx env input verdicts (some .filtered)).components.length)⟩]

section Marks

/-- The names of the marks are policy names, and no other name of an export is one. -/
theorem isPolicyName_names :
    (∀ name ∈ [propProfile, propExcluded, propCategory, propSpdx], isPolicyName name = true) ∧
      ∀ name ∈ [evidenceGradeProperty, undeclaredFieldsProperty, basisProperty],
        isPolicyName name = false := by
  decide +kernel

/-- The name of the profile property is a policy name. -/
theorem isPolicyName_profile : isPolicyName propProfile = true :=
  isPolicyName_names.1 _ (by simp)

/-- The name of the exclusion property is a policy name. -/
theorem isPolicyName_excluded : isPolicyName propExcluded = true :=
  isPolicyName_names.1 _ (by simp)

/-- The name of the category property is a policy name. -/
theorem isPolicyName_category : isPolicyName propCategory = true :=
  isPolicyName_names.1 _ (by simp)

/-- The name of the licence property is a policy name. -/
theorem isPolicyName_spdx : isPolicyName propSpdx = true :=
  isPolicyName_names.1 _ (by simp)

/-- The name of the evidence grade is not a policy name. -/
theorem isPolicyName_evidenceGrade : isPolicyName evidenceGradeProperty = false :=
  isPolicyName_names.2 _ (by simp)

/-- The name of the undeclared fields is not a policy name. -/
theorem isPolicyName_undeclaredFields : isPolicyName undeclaredFieldsProperty = false :=
  isPolicyName_names.2 _ (by simp)

/-- The name of the basis is not a policy name. -/
theorem isPolicyName_basis : isPolicyName basisProperty = false :=
  isPolicyName_names.2 _ (by simp)

/-- Nothing but marks is added to a component. -/
theorem policyProperties_isPolicy (verdict : ComponentPolicyVerdict) :
    (cyclonedxPolicyProperties verdict).filter (fun property => !property.isPolicy) = [] := by
  unfold cyclonedxPolicyProperties
  cases nonEmpty verdict.spdxId with
  | none => simp [CdxProperty.isPolicy, isPolicyName_category]
  | some spdxId => simp [CdxProperty.isPolicy, isPolicyName_category, isPolicyName_spdx]

end Marks

section Annotated

variable {env : SbomEnvironment} {input : SbomInput} {row : SbomRow}
  {licensesByCv : CvRef → ObservationKind → List LicenseEntry}
  {annotations : CvRef → Option ComponentPolicyVerdict}

/-- A component without its marks is the plain one exactly when it is not marked, or has no property of
its own to lose. -/
theorem component_withoutPolicy_iff :
    ({ cyclonedxComponent licensesByCv annotations row with
        properties := (cyclonedxComponent licensesByCv annotations row).properties.filter
          fun property => !property.isPolicy } : CdxComponent) =
        cyclonedxComponent licensesByCv (fun _ => none) row ↔
      (xmlSafe row.version = unestablishedVersion → annotations row.componentVersionId = none) := by
  unfold cyclonedxComponent
  -- The evidence grade is the one property that a policy name cannot be told from.
  by_cases graded : xmlSafe row.version = unestablishedVersion
  · cases marked : annotations row.componentVersionId with
    | none => simp [graded, CdxProperty.isPolicy, isPolicyName_evidenceGrade]
    | some verdict => simp [graded, policyProperties_isPolicy]
  · -- Without a grade there are only the policy's own properties.
    cases marked : annotations row.componentVersionId with
    | none => simp [graded]
    | some verdict => simp [graded, policyProperties_isPolicy]

/-- The annotated document without its marks is the default one exactly when no marked component has a
version that was not established. -/
theorem annotated_withoutPolicy_iff {profile : String} :
    (buildCyclonedxDoc env input (some ⟨profile, annotations, 0⟩)).withoutPolicy =
        buildCyclonedxDoc env input none ↔
      ∀ row ∈ input.rows, xmlSafe row.version = unestablishedVersion →
        annotations row.componentVersionId = none := by
  -- The components agree just when no unestablished row is annotated.
  have components : (buildCyclonedxDoc env input (some ⟨profile, annotations, 0⟩)).withoutPolicy.components =
      (buildCyclonedxDoc env input none).components ↔
      ∀ row ∈ input.rows, xmlSafe row.version = unestablishedVersion →
        annotations row.componentVersionId = none := by
    simp only [buildCyclonedxDoc, CdxDoc.withoutPolicy, cyclonedxComponents, Option.map_some,
      Option.getD_some, Option.map_none, Option.getD_none, List.map_map, List.map_inj_left,
      Function.comp_apply, component_withoutPolicy_iff]
  rw [← components]
  constructor
  · -- Equal documents have equal components.
    intro same
    rw [same]
  · intro same
    -- Everything but the components and the properties of the document does not depend on the profile.
    have metadata : (buildCyclonedxDoc env input (some ⟨profile, annotations, 0⟩)).withoutPolicy.metadata =
        (buildCyclonedxDoc env input none).metadata := by
      simp only [buildCyclonedxDoc, CdxDoc.withoutPolicy, Option.map_some, Option.getD_some,
        Option.map_none, Option.getD_none, CdxMetadata.mk.injEq, true_and, List.filter_cons,
        CdxProperty.isPolicy, isPolicyName_undeclaredFields, isPolicyName_profile, isPolicyName_excluded,
        List.nil_append, List.cons_append, Bool.not_true, Bool.not_false, if_true, Bool.false_eq_true,
        if_false]
      split <;> simp [isPolicyName_basis]
    have rest : (buildCyclonedxDoc env input (some ⟨profile, annotations, 0⟩)).withoutPolicy =
        { buildCyclonedxDoc env input none with
          metadata :=
            (buildCyclonedxDoc env input (some ⟨profile, annotations, 0⟩)).withoutPolicy.metadata
          components :=
            (buildCyclonedxDoc env input (some ⟨profile, annotations, 0⟩)).withoutPolicy.components } :=
      rfl
    rw [rest, metadata, same]

end Annotated

section Filtered

variable {env : SbomEnvironment} {input : SbomInput} {profile : ProfileMarker}

/-- A component's reference names its row. -/
theorem bomRef_cyclonedxComponent (licensesByCv : CvRef → ObservationKind → List LicenseEntry)
    (annotations : CvRef → Option ComponentPolicyVerdict) (row : SbomRow) :
    (cyclonedxComponent licensesByCv annotations row).bomRef = row.componentVersionId := by
  unfold cyclonedxComponent
  dsimp only
  split
  · rfl
  · rfl

/-- The references of the components are those of the rows. -/
theorem bomRefs_build (profile : Option ProfileMarker) :
    (buildCyclonedxDoc env input profile).components.map CdxComponent.bomRef =
      input.rows.map SbomRow.componentVersionId := by
  simp only [buildCyclonedxDoc, cyclonedxComponents, List.map_map, List.map_inj_left,
    Function.comp_apply, bomRef_cyclonedxComponent, implies_true]

/-- Sorting texts loses none of them. -/
theorem mem_sortTexts {texts : List String} {text : String} :
    text ∈ sortTexts texts ↔ text ∈ texts := List.mem_insertionSort _

/-- The graph names the project and components of the rows only. -/
theorem mem_cyclonedxDependencies {projectRef : String} {rows : List SbomRow}
    {edges : List (CvRef × CvRef)} {entry : CdxDependency} {ref : String}
    (listed : entry ∈ cyclonedxDependencies projectRef rows edges)
    (named : ref ∈ entry.ref :: entry.dependsOn) :
    ref = projectRef ∨ ref ∈ rows.map SbomRow.componentVersionId := by
  unfold cyclonedxDependencies at listed
  -- The project's own entry names the direct components.
  rcases List.mem_cons.mp listed with rfl | component
  · rcases List.mem_cons.mp named with rfl | direct
    · exact .inl rfl
    · rw [mem_sortTexts, List.mem_map] at direct
      obtain ⟨row, member, rfl⟩ := direct
      exact .inr (List.mem_map_of_mem (List.mem_filter.mp member).1)
  · -- A component's entry names itself and those of its children that are rows.
    obtain ⟨own, member, rfl⟩ := List.mem_map.mp component
    rcases List.mem_cons.mp named with rfl | child
    · exact .inr member
    · rw [mem_sortTexts, List.mem_dedup, List.mem_map] at child
      obtain ⟨⟨parent, other⟩, edge, rfl⟩ := child
      have known := (List.mem_filter.mp edge).2
      simp only [Bool.and_eq_true, List.contains_iff_mem] at known
      exact .inr known.1.2

/-- The completeness statements name the project and components of the rows only. -/
theorem mem_cyclonedxCompositions {projectRef : String} {rows : List SbomRow}
    {completeness : Completeness} {composition : CdxComposition} {ref : String}
    (listed : composition ∈ cyclonedxCompositions projectRef rows completeness)
    (named : ref ∈ composition.assemblies.getD [] ++ composition.dependencies.getD []) :
    ref = projectRef ∨ ref ∈ rows.map SbomRow.componentVersionId := by
  simp only [cyclonedxCompositions, List.mem_cons, List.not_mem_nil, or_false] at listed
  rcases listed with rfl | rfl
  · exact .inr (by simpa using named)
  · simpa using named

/-- A document whose vulnerabilities are of listed components names nothing else. -/
theorem references_build
    (affected : ∀ finding ∈ input.vulnRows,
      finding.componentVersionId ∈ input.rows.map SbomRow.componentVersionId)
    {ref : String} (named : ref ∈ (buildCyclonedxDoc env input (some profile)).references) :
    ref = input.project.ref ∨
      ref ∈ (buildCyclonedxDoc env input (some profile)).components.map CdxComponent.bomRef := by
  rw [bomRefs_build]
  simp only [CdxDoc.references, List.mem_append, List.mem_flatMap] at named
  -- References come from the dependencies, the compositions and the vulnerabilities.
  rcases named with (⟨entry, listed, named⟩ | ⟨composition, listed, named⟩) | ⟨finding, listed, named⟩
  · simp only [buildCyclonedxDoc] at listed
    cases scan : input.scan with
    | none => simp [scan] at listed
    | some found =>
      rw [scan] at listed
      exact mem_cyclonedxDependencies listed named
  · -- The compositions name what the completeness lists, which is among the components.
    simp only [buildCyclonedxDoc] at listed
    generalize input.scan.bind _ = completeness at listed
    cases completeness with
    | none => simp at listed
    | some found => exact mem_cyclonedxCompositions listed (List.mem_append.mpr named)
  · -- A vulnerability names the component it affects.
    simp only [buildCyclonedxDoc, cyclonedxVulnerabilities, List.mem_map] at listed
    obtain ⟨source, member, rfl⟩ := listed
    rw [List.mem_singleton.mp named]
    exact .inr (affected source member)

/-- The document of a profile states its number of excluded components once. -/
theorem excluded_build :
    (buildCyclonedxDoc env input (some profile)).metadata.properties.filter
        (fun property => property.name == propExcluded) =
      [⟨propExcluded, toString profile.excludedCount⟩] := by
  have undeclared : (undeclaredFieldsProperty == propExcluded) = false := by decide +kernel
  have marker : (propProfile == propExcluded) = false := by decide +kernel
  have basis : (basisProperty == propExcluded) = false := by decide +kernel
  simp only [buildCyclonedxDoc, List.cons_append, List.nil_append, List.filter_cons, undeclared, marker,
    beq_self_eq_true, if_true, Bool.false_eq_true, if_false]
  split <;> simp [basis]

end Filtered

/-- The filtered export only removes. -/
theorem filteredExactly (env : SbomEnvironment) (input : SbomInput)
    (verdicts : CvRef → Option ComponentPolicyVerdict) : FilteredExactly env input verdicts := by
  -- The filtered document has the components that are not forbidden, in the same order.
  have components : (exportCyclonedx env input verdicts (some .filtered)).components =
      (exportCyclonedx env input verdicts none).components.filter
        fun component => !isForbidden verdicts component.bomRef := by
    simp only [exportCyclonedx, buildCyclonedxDoc, cyclonedxComponents, Option.map_some,
      Option.getD_some, Option.map_none, Option.getD_none, List.filter_map, Function.comp_def,
      bomRef_cyclonedxComponent]
  refine ⟨components, ?_, ?_⟩
  · -- The findings were filtered with the rows, so what they name is still there.
    intro ref named
    refine references_build ?_ named
    intro finding kept
    simpa using (List.mem_filter.mp kept).2
  · -- As many are missing as the summary says are excluded.
    have count : (exportCyclonedx env input verdicts none).components.length -
        (exportCyclonedx env input verdicts (some .filtered)).components.length =
        (input.rows.filter fun row => isForbidden verdicts row.componentVersionId).length := by
      simp only [exportCyclonedx, buildCyclonedxDoc, cyclonedxComponents, List.length_map]
      have parts := List.length_eq_length_filter_add (l := input.rows)
        (fun row => isForbidden verdicts row.componentVersionId)
      omega
    rw [count]
    exact excluded_build

/-- The annotated export without its marks is the default one, and the filtered export is the default one
without its forbidden components, exactly when no component that is marked has a version the scan could
not establish. -/
theorem export_profiles_exact (env : SbomEnvironment) (input : SbomInput)
    (verdicts : CvRef → Option ComponentPolicyVerdict) :
    ((exportCyclonedx env input verdicts (some .annotated)).withoutPolicy =
          exportCyclonedx env input verdicts none ∧
        FilteredExactly env input verdicts) ↔
      ∀ row ∈ input.rows, xmlSafe row.version = unestablishedVersion →
        ∀ verdict ∈ verdicts row.componentVersionId, verdict.category ∉ annotateCategories := by
  rw [and_iff_left (filteredExactly env input verdicts)]
  refine (annotated_withoutPolicy_iff).trans ?_
  refine forall₂_congr fun row _ => imp_congr_right fun _ => ?_
  cases verdicts row.componentVersionId with
  | none => simp
  | some verdict => simp [Option.filter]

/-- A scan of one component whose version it could not establish. -/
def vendoredInput : SbomInput where
  project := ⟨"p", "demo"⟩
  scan := some ⟨"s", .source, [("stage_timings", .obj [])]⟩
  rows := [⟨"c", "zlib", "unknown", none, none, none, true⟩]
  licensesByCv := fun _ _ => []
  vulnRows := []
  timestamp := "1970-01-01T00:00:00.000Z"
  edges := []
  unscanned := nofun

/-- Marking the component replaces the property that says so. -/
theorem export_profiles_lose_grade :
    (exportCyclonedx ⟨"1", none, id⟩ vendoredInput (fun _ => some ⟨.forbidden, none⟩) none).components.map
        CdxComponent.properties = [[⟨evidenceGradeProperty, "version-unestablished"⟩]] ∧
      (exportCyclonedx ⟨"1", none, id⟩ vendoredInput (fun _ => some ⟨.forbidden, none⟩)
        (some .annotated)).withoutPolicy.components.map CdxComponent.properties = [[]] ∧
      (exportCyclonedx ⟨"1", none, id⟩ vendoredInput (fun _ => some ⟨.forbidden, none⟩)
        (some .annotated)).withoutPolicy ≠
        exportCyclonedx ⟨"1", none, id⟩ vendoredInput (fun _ => some ⟨.forbidden, none⟩) none := by
  -- The plain document grades the component, the marked one loses the grade with its mark.
  have plain : (exportCyclonedx ⟨"1", none, id⟩ vendoredInput (fun _ => some ⟨.forbidden, none⟩)
      none).components.map CdxComponent.properties =
      [[⟨evidenceGradeProperty, "version-unestablished"⟩]] := by decide +kernel
  have marked : (exportCyclonedx ⟨"1", none, id⟩ vendoredInput (fun _ => some ⟨.forbidden, none⟩)
      (some .annotated)).withoutPolicy.components.map CdxComponent.properties = [[]] := by
    decide +kernel
  refine ⟨plain, marked, ?_⟩
  intro same
  rw [same, plain] at marked
  cases marked

end Trusca
