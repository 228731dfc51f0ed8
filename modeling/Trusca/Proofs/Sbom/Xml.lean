import Mathlib.Tactic
import Trusca.Sbom.CycloneDxXml
import Trusca.Proofs.Sbom.Profile

/-! The XML form of an export is well formed and carries what the JSON form carries exactly when every
version is established and every text that is placed is one that XML admits. -/

namespace Trusca

open XmlNode

section Reading

/-- A property is read back from its element. -/
theorem readProperty_toXml (property : CdxProperty) : readProperty property.toXml = some property := rfl

/-- A licence is read back from its element. -/
theorem readLicense_toXml (license : CdxLicense) : readLicense license.toXml = some license := by
  cases license <;> rfl

/-- A reference is read back from its element. -/
theorem readRef_refElement (tag : CdxName) (ref : String) : readRef (refElement tag ref) = some ref := rfl

/-- The items of a list are read back, whether or not it is written. -/
theorem children_unlessEmpty {node : CdxNode} {tag : CdxName} {items : List CdxNode}
    (found : node.child? tag = if items ≠ [] then some (branch tag items) else none) :
    ((node.child? tag).map children).getD [] = items := by
  rw [found]
  cases items with
  | nil => rfl
  | cons item rest => rfl

/-- A component is read back with the version it was written with. -/
theorem readComponent_toXmlWith (comp : CdxComponent) (version : String) :
    readComponent (comp.toXmlWith version) = some { comp with version := some version } := by
  -- The two lists, which are written only where they have members.
  have licenses : (comp.toXmlWith version).readChildren .licenses readLicense = some comp.licenses := by
    have found : (comp.toXmlWith version).child? .licenses =
        if comp.licenses.map CdxLicense.toXml ≠ [] then
          some (branch .licenses (comp.licenses.map CdxLicense.toXml)) else none := by
      simp [child?, CdxComponent.toXmlWith, children]
    rw [readChildren, children_unlessEmpty found]
    exact mapM_map_read fun license _ => readLicense_toXml license
  have properties :
      (comp.toXmlWith version).readChildren .properties readProperty = some comp.properties := by
    have found : (comp.toXmlWith version).child? .properties =
        if comp.properties.map CdxProperty.toXml ≠ [] then
          some (branch .properties (comp.properties.map CdxProperty.toXml)) else none := by
      simp [child?, CdxComponent.toXmlWith, children]
    rw [readChildren, children_unlessEmpty found]
    exact mapM_map_read fun property _ => readProperty_toXml property
  -- The attributes and the texts, each found under its own tag.
  have type : (comp.toXmlWith version).attribute? .type = some comp.type := rfl
  have bomRef : (comp.toXmlWith version).attribute? .bomRef = some comp.bomRef := rfl
  have name : (comp.toXmlWith version).childText? .name = some comp.name := by
    simp [childText?, child?, CdxComponent.toXmlWith, children]
  have group : (comp.toXmlWith version).childText? .group = comp.group := by
    cases given : comp.group <;> simp [childText?, child?, CdxComponent.toXmlWith, children, given]
  have text : (comp.toXmlWith version).childText? .version = some version := by
    simp [childText?, child?, CdxComponent.toXmlWith, children]
  have description : (comp.toXmlWith version).childText? .description = comp.description := by
    cases given : comp.description <;>
      simp [childText?, child?, CdxComponent.toXmlWith, children, given]
  have purl : (comp.toXmlWith version).childText? .purl = comp.purl := by
    cases given : comp.purl <;> simp [childText?, child?, CdxComponent.toXmlWith, children, given]
  -- The reader puts the component together from these.
  simp only [readComponent, type, bomRef, name, licenses, properties, group, text, description, purl,
    Option.bind_eq_bind, Option.bind_some, Option.pure_def]

/-- A dependency is read back from its element. -/
theorem readDependency_toXml (entry : CdxDependency) : readDependency entry.toXml = some entry := by
  have ref : readRef entry.toXml = some entry.ref := rfl
  have dependsOn : entry.toXml.children.mapM readRef = some entry.dependsOn :=
    mapM_map_read fun ref _ => readRef_refElement .dependency ref
  simp only [readDependency, ref, dependsOn, Option.bind_eq_bind, Option.bind_some, Option.pure_def]

/-- A list that may be absent is read back. -/
theorem readSection_of_child {α : Type} {node : CdxNode} {tag : CdxName} {items : Option (List α)}
    {write : α → CdxNode} {read : CdxNode → Option α} (inverse : ∀ item, read (write item) = some item)
    (found : node.child? tag = items.map fun items => branch tag (items.map write)) :
    readSection node tag read = some items := by
  unfold readSection
  rw [found]
  cases items with
  | none => rfl
  | some items =>
    simp only [Option.map_some, children_branch, mapM_map_read fun item _ => inverse item]

/-- A composition is read back from its element. -/
theorem readComposition_toXml (composition : CdxComposition) :
    readComposition composition.toXml = some composition := by
  have aggregate : composition.toXml.childText? .aggregate = some composition.aggregate := rfl
  have assemblies : readSection composition.toXml .assemblies readRef = some composition.assemblies := by
    refine readSection_of_child (readRef_refElement .assembly) ?_
    -- Either section is written only if it is given, and neither is mistaken for the other.
    cases first : composition.assemblies <;> cases second : composition.dependencies <;>
      simp [child?, CdxComposition.toXml, children, branch, leaf, first, second, tag]
  have dependencies :
      readSection composition.toXml .dependencies readRef = some composition.dependencies := by
    refine readSection_of_child (readRef_refElement .dependency) ?_
    cases first : composition.assemblies <;> cases second : composition.dependencies <;>
      simp [child?, CdxComposition.toXml, children, branch, leaf, first, second, tag]
  simp only [readComposition, aggregate, assemblies, dependencies, Option.bind_eq_bind,
    Option.bind_some, Option.pure_def]

/-- A vulnerability is read back from its element. -/
theorem readVulnerability_toXml (vuln : CdxVulnerability) : readVulnerability vuln.toXml = some vuln := by
  -- Each part of the element, found under its own tag.
  have id : vuln.toXml.childText? .id = some vuln.id := rfl
  have source : vuln.toXml.child? .source = some (branch .source [leaf .name vuln.sourceName]) := rfl
  have sourceName : (branch CdxName.source [leaf .name vuln.sourceName]).childText? .name =
      some vuln.sourceName := rfl
  have analysis : vuln.toXml.child? .analysis =
      some (branch .analysis (leaf .state vuln.state :: optional .detail vuln.detail)) := rfl
  have state : (branch CdxName.analysis
      (leaf .state vuln.state :: optional .detail vuln.detail)).childText? .state =
      some vuln.state := rfl
  have detail : (branch CdxName.analysis
      (leaf .state vuln.state :: optional .detail vuln.detail)).childText? .detail = vuln.detail := by
    cases given : vuln.detail <;> rfl
  have affects : (vuln.toXml.readChildren .affects fun target => target.childText? .ref) =
      some vuln.affects :=
    mapM_map_read fun ref _ => rfl
  -- The reader puts the vulnerability together from these.
  simp only [readVulnerability, id, source, sourceName, analysis, state, detail, affects,
    Option.bind_eq_bind, Option.bind_some, Option.pure_def]

/-- The elements of what both forms carry. -/
def CdxBody.sections (body : CdxBody) : List CdxNode :=
  branch .components (body.components.map fun comp => comp.toXmlWith (comp.version.getD "")) ::
    ((body.dependencies.map fun entries =>
        branch .dependencies (entries.map CdxDependency.toXml)).toList ++
      (body.compositions.map fun entries =>
        branch .compositions (entries.map CdxComposition.toXml)).toList ++
      [branch .vulnerabilities (body.vulnerabilities.map CdxVulnerability.toXml)])

/-- The dependencies are found among the sections when there are any. -/
theorem findTag_dependencies (body : CdxBody) : findTag .dependencies body.sections =
    body.dependencies.map fun entries => branch .dependencies (entries.map CdxDependency.toXml) := by
  cases first : body.dependencies <;> cases second : body.compositions <;>
    simp [CdxBody.sections, first, second]

/-- The compositions are found among the sections when there are any. -/
theorem findTag_compositions (body : CdxBody) : findTag .compositions body.sections =
    body.compositions.map fun entries => branch .compositions (entries.map CdxComposition.toXml) := by
  cases first : body.dependencies <;> cases second : body.compositions <;>
    simp [CdxBody.sections, first, second]

/-- The vulnerabilities are always found among the sections. -/
theorem findTag_vulnerabilities (body : CdxBody) : findTag .vulnerabilities body.sections =
    some (branch .vulnerabilities (body.vulnerabilities.map CdxVulnerability.toXml)) := by
  cases first : body.dependencies <;> cases second : body.compositions <;>
    simp [CdxBody.sections, first, second]

/-- What was written with a version for every component is read back. -/
theorem readCyclonedxXml_sections {body : CdxBody} {pairs : List (CdxName × String)} {head : CdxNode}
    (metadata : head.tag = .metadata) (versioned : ∀ comp ∈ body.components, comp.version ≠ none) :
    readCyclonedxXml (.element .bom pairs "" (head :: body.sections)) = some body := by
  -- The head is not one of the sections the reader asks for.
  have skipped (tag : CdxName) (other : tag ≠ .metadata) :
      (XmlNode.element CdxName.bom pairs "" (head :: body.sections)).child? tag =
        findTag tag body.sections := by
    simp [child?, children, metadata, other.symm]
  -- The four sections, each read back from its own element.
  have components : (XmlNode.element CdxName.bom pairs "" (head :: body.sections)).readChildren
      .components readComponent = some body.components := by
    rw [readChildren, skipped .components (by decide)]
    refine mapM_map_read fun comp within => ?_
    rw [readComponent_toXmlWith]
    -- The version was written, since every component has one.
    cases given : comp.version with
    | none => exact absurd given (versioned comp within)
    | some version => rw [Option.getD_some, ← given]
  have dependencies : readSection (XmlNode.element CdxName.bom pairs "" (head :: body.sections))
      .dependencies readDependency = some body.dependencies := by
    refine readSection_of_child readDependency_toXml ?_
    rw [skipped .dependencies (by decide), findTag_dependencies]
  have compositions : readSection (XmlNode.element CdxName.bom pairs "" (head :: body.sections))
      .compositions readComposition = some body.compositions := by
    refine readSection_of_child readComposition_toXml ?_
    rw [skipped .compositions (by decide), findTag_compositions]
  have vulnerabilities : (XmlNode.element CdxName.bom pairs "" (head :: body.sections)).readChildren
      .vulnerabilities readVulnerability = some body.vulnerabilities := by
    rw [readChildren, skipped .vulnerabilities (by decide), findTag_vulnerabilities]
    exact mapM_map_read fun vuln _ => readVulnerability_toXml vuln
  simp only [readCyclonedxXml, components, dependencies, compositions, vulnerabilities,
    Option.bind_eq_bind, Option.bind_some, Option.pure_def]

end Reading

section LineEnds

/-- A property is normalised in its texts. -/
theorem normalised_property (property : CdxProperty) :
    property.toXml.normalised = property.normalised.toXml := by
  simp [CdxProperty.toXml, CdxProperty.normalised]

/-- A licence is normalised in its text. -/
theorem normalised_license (license : CdxLicense) :
    license.toXml.normalised = license.normalised.toXml := by
  cases license <;> simp [CdxLicense.toXml, CdxLicense.normalised]

/-- An element that holds a reference alone has no text to normalise. -/
theorem normalised_refElement (tag : CdxName) (ref : String) :
    (refElement tag ref).normalised = refElement tag ref := by
  simp [refElement, normalizeLineEnds_empty]

/-- A component is normalised in its texts. -/
theorem normalised_component (comp : CdxComponent) (version : String) :
    (comp.toXmlWith version).normalised = comp.normalised.toXmlWith (normalizeLineEnds version) := by
  simp [CdxComponent.toXmlWith, CdxComponent.normalised, Function.comp_def, normalised_property,
    normalised_license, normalizeLineEnds_empty]

/-- A dependency has no text to normalise. -/
theorem normalised_dependency (entry : CdxDependency) : entry.toXml.normalised = entry.toXml := by
  simp [CdxDependency.toXml, Function.comp_def, normalised_refElement, normalizeLineEnds_empty]

/-- A composition is normalised in its aggregate. -/
theorem normalised_composition (composition : CdxComposition) :
    composition.toXml.normalised = composition.normalised.toXml := by
  cases first : composition.assemblies <;> cases second : composition.dependencies <;>
    simp [CdxComposition.toXml, CdxComposition.normalised, first, second, Function.comp_def,
      normalised_refElement]

/-- A vulnerability is normalised in its texts. -/
theorem normalised_vulnerability (vuln : CdxVulnerability) :
    vuln.toXml.normalised = vuln.normalised.toXml := by
  simp [CdxVulnerability.toXml, CdxVulnerability.normalised, Function.comp_def]

/-- The sections are normalised in the texts of the body. -/
theorem map_normalised_sections (body : CdxBody) :
    body.sections.map normalised = body.normalised.sections := by
  have components (comp : CdxComponent) : (comp.toXmlWith (comp.version.getD "")).normalised =
      comp.normalised.toXmlWith (comp.normalised.version.getD "") := by
    rw [normalised_component]
    cases given : comp.version <;> simp [CdxComponent.normalised, given, normalizeLineEnds_empty]
  cases first : body.dependencies <;> cases second : body.compositions <;>
    simp [CdxBody.sections, CdxBody.normalised, first, second, Function.comp_def, components,
      normalised_dependency, normalised_composition, normalised_vulnerability]

end LineEnds

section Written

/-- The root of a document whose components are written. -/
def CdxDoc.root (doc : CdxDoc) : CdxNode :=
  .element .bom [(.version, toString doc.version), (.serialNumber, doc.serialNumber)] ""
    (doc.metadata.toXml :: doc.body.sections)

/-- Writing succeeds exactly when every component has a version. -/
theorem serialize_eq_some_iff {doc : CdxDoc} {root : CdxNode} :
    serializeCyclonedxXml doc = some root ↔
      (∀ comp ∈ doc.components, comp.version ≠ none) ∧ root = doc.root := by
  -- A component without a version refuses the whole list.
  have components (comps : List CdxComponent) : comps.mapM CdxComponent.toXml =
      if ∀ comp ∈ comps, comp.version ≠ none then
        some (comps.map fun comp => comp.toXmlWith (comp.version.getD "")) else none := by
    induction comps with
    | nil => rfl
    | cons comp rest ih =>
      rw [List.mapM_cons, ih]
      cases given : comp.version with
      | none => simp [CdxComponent.toXml, given]
      | some version =>
        by_cases all : ∀ comp ∈ rest, comp.version ≠ none
        · rw [if_pos all, if_pos (by simpa [given] using all)]
          simp [CdxComponent.toXml, given]
        · rw [if_neg all, if_neg (by simpa [given] using all)]
          simp [CdxComponent.toXml, given]
  unfold serializeCyclonedxXml
  rw [components]
  -- With versions everywhere the document is the root; otherwise nothing is written.
  by_cases all : ∀ comp ∈ doc.components, comp.version ≠ none
  · rw [if_pos all, Option.map_some, Option.some_inj]
    constructor
    · intro same
      refine ⟨all, same.symm.trans ?_⟩
      simp [CdxDoc.toXmlWith, CdxDoc.root, CdxBody.sections, CdxDoc.body]
    · rintro ⟨-, rfl⟩
      simp [CdxDoc.toXmlWith, CdxDoc.root, CdxBody.sections, CdxDoc.body]
  · rw [if_neg all]
    simp only [Option.map_none, reduceCtorEq, false_iff, not_and]
    intro given
    exact absurd given all

/-- What is written is read back up to line ends. -/
theorem read_serialize {doc : CdxDoc} {root : CdxNode} (written : serializeCyclonedxXml doc = some root) :
    readCyclonedxXml root.normalised = some doc.body.normalised := by
  obtain ⟨versioned, rfl⟩ := serialize_eq_some_iff.mp written
  rw [CdxDoc.root, normalised_element, List.map_cons, map_normalised_sections, normalizeLineEnds_empty]
  refine readCyclonedxXml_sections ?_ ?_
  · simp [CdxMetadata.toXml]
  · intro comp listed
    obtain ⟨source, member, rfl⟩ := List.mem_map.mp listed
    simpa [CdxComponent.normalised] using versioned source member

end Written

section Admitted

/-- A character that the exporter leaves in a cleaned text and XML does not admit. -/
def isNoncharacter (character : Char) : Bool := character.toNat == 0xFFFE || character.toNat == 0xFFFF

/-- Whether a text has such a character. -/
def hasNoncharacter (text : String) : Bool := text.toList.any isNoncharacter

/-- XML admits what is neither dropped in cleaning nor one of the two. -/
theorem isXmlChar_iff (character : Char) :
    isXmlChar character ↔ ¬ xmlIllegal character ∧ ¬ isNoncharacter character := by
  have scalar := character.valid
  simp only [UInt32.isValidChar, Nat.isValidChar] at scalar
  have code : character.val.toNat = character.toNat := rfl
  simp only [isXmlChar, xmlIllegal, isNoncharacter, Bool.or_eq_true, Bool.and_eq_true, beq_iff_eq,
    decide_eq_true_eq]
  omega

/-- A noncharacter is not filtered out. -/
theorem not_xmlIllegal_of_noncharacter {character : Char} (non : isNoncharacter character) :
    ¬ xmlIllegal character := by
  simp only [xmlIllegal, isNoncharacter, Bool.or_eq_true, Bool.and_eq_true, beq_iff_eq,
    decide_eq_true_eq] at non ⊢
  omega

/-- A filtered text may stand in a document when it has no noncharacter. -/
theorem isXmlText_xmlSafe (text : String) : isXmlText (xmlSafe text) ↔ ¬ hasNoncharacter text := by
  simp only [isXmlText, xmlSafe, String.toList_ofList, List.all_filter, List.all_eq_true, hasNoncharacter,
    List.any_eq_true, not_exists, not_and]
  refine forall₂_congr fun character _ => ?_
  have admitted := isXmlChar_iff character
  have apart : isNoncharacter character → ¬ xmlIllegal character := not_xmlIllegal_of_noncharacter
  cases illegal : xmlIllegal character <;> cases other : isNoncharacter character <;>
    simp_all

/-- Two texts may stand in a document together when each may. -/
theorem isXmlText_append (first second : String) :
    isXmlText (first ++ second) ↔ isXmlText first ∧ isXmlText second := by
  simp [isXmlText]

/-- A number may stand in a document. -/
theorem isXmlText_repr (count : Nat) : isXmlText count.repr := by
  simp only [isXmlText, List.all_eq_true]
  intro digit written
  -- A number is written in figures.
  have decimal : digit ∈ Nat.toDigits 10 count := by simpa using written
  have range := Nat.isDigit_of_mem_toDigits (by decide) (by decide) decimal
  simp only [Char.isDigit, Bool.and_eq_true, decide_eq_true_eq] at range
  have low : (48 : Nat) ≤ digit.toNat := range.1
  have high : digit.toNat ≤ (57 : Nat) := range.2
  simp only [isXmlChar, Bool.or_eq_true, Bool.and_eq_true, beq_iff_eq, decide_eq_true_eq]
  omega

/-- Leaving out the empty text changes nothing about what may stand in a document. -/
theorem isXmlText_nonEmpty (text : Option String) :
    (∀ value ∈ nonEmpty text, isXmlText value) ↔ ∀ value ∈ text, isXmlText value := by
  cases text with
  | none => simp [nonEmpty]
  | some value =>
    by_cases blank : value = ""
    · subst blank
      simp [nonEmpty, isXmlText_empty]
    · simp [nonEmpty, Option.filter, blank]

/-- A filtered text that may be there may stand in a document when it has no noncharacter. -/
theorem isXmlText_map_xmlSafe (text : Option String) :
    (∀ value ∈ (nonEmpty text).map xmlSafe, isXmlText value) ↔ ∀ value ∈ text, ¬ hasNoncharacter value := by
  cases text with
  | none => simp [nonEmpty]
  | some value =>
    by_cases blank : value = ""
    · subst blank
      simp [nonEmpty, hasNoncharacter]
    · simp [nonEmpty, Option.filter, blank, isXmlText_xmlSafe]

end Admitted

section WellFormed

open CdxName (isXmlName_word)

/-- A property is well formed when its texts may stand in a document. -/
theorem wellFormed_property (property : CdxProperty) : property.toXml.wellFormed CdxName.word ↔
    isXmlText property.name ∧ isXmlText property.value := by
  simp [CdxProperty.toXml, wellFormed_element isXmlName_word]

/-- A licence is well formed when its text may stand in a document. -/
theorem wellFormed_license (license : CdxLicense) : license.toXml.wellFormed CdxName.word ↔
    isXmlText (match license with | .id text => text | .name text => text) := by
  cases license <;> simp [CdxLicense.toXml, wellFormed_branch isXmlName_word, wellFormed_leaf isXmlName_word]

/-- A reference is well formed when it may stand in a document. -/
theorem wellFormed_refElement (tag : CdxName) (ref : String) :
    (refElement tag ref).wellFormed CdxName.word ↔ isXmlText ref := by
  simp [refElement, wellFormed_element isXmlName_word, isXmlText_empty]

/-- A component is well formed when its texts may stand in a document. -/
theorem wellFormed_component (comp : CdxComponent) (version : String) :
    (comp.toXmlWith version).wellFormed CdxName.word ↔
      isXmlText comp.type ∧ isXmlText comp.bomRef ∧ (∀ text ∈ comp.group, isXmlText text) ∧
        isXmlText comp.name ∧ isXmlText version ∧ (∀ text ∈ comp.description, isXmlText text) ∧
        (∀ license ∈ comp.licenses, license.toXml.wellFormed CdxName.word) ∧
        (∀ text ∈ comp.purl, isXmlText text) ∧
        ∀ property ∈ comp.properties, isXmlText property.name ∧ isXmlText property.value := by
  simp only [CdxComponent.toXmlWith, wellFormed_element isXmlName_word, List.forall_mem_append,
    wellFormed_optional isXmlName_word, wellFormed_unlessEmpty isXmlName_word, List.forall_mem_cons, List.forall_mem_map,
    wellFormed_leaf isXmlName_word, wellFormed_property, isXmlText_empty]
  simp [and_assoc]

/-- A dependency is well formed when its references may stand in a document. -/
theorem wellFormed_dependency (entry : CdxDependency) : entry.toXml.wellFormed CdxName.word ↔
    ∀ ref ∈ entry.ref :: entry.dependsOn, isXmlText ref := by
  simp [CdxDependency.toXml, wellFormed_element isXmlName_word, wellFormed_refElement, isXmlText_empty]

/-- A composition is well formed when its texts may stand in a document. -/
theorem wellFormed_composition (composition : CdxComposition) :
    composition.toXml.wellFormed CdxName.word ↔
      isXmlText composition.aggregate ∧
        ∀ ref ∈ composition.assemblies.getD [] ++ composition.dependencies.getD [], isXmlText ref := by
  cases first : composition.assemblies <;> cases second : composition.dependencies <;>
    simp [CdxComposition.toXml, first, second, wellFormed_branch isXmlName_word, wellFormed_leaf isXmlName_word,
      wellFormed_refElement, or_imp, forall_and]

/-- A vulnerability is well formed when its texts may stand in a document. -/
theorem wellFormed_vulnerability (vuln : CdxVulnerability) : vuln.toXml.wellFormed CdxName.word ↔
    isXmlText vuln.id ∧ isXmlText vuln.sourceName ∧ isXmlText vuln.state ∧
      (∀ text ∈ vuln.detail, isXmlText text) ∧ ∀ ref ∈ vuln.affects, isXmlText ref := by
  simp only [CdxVulnerability.toXml, wellFormed_branch isXmlName_word, List.forall_mem_cons,
    wellFormed_leaf isXmlName_word, wellFormed_optional isXmlName_word, List.forall_mem_map]
  simp [and_assoc]

/-- The metadata is well formed when its texts may stand in a document. -/
theorem wellFormed_metadata (metadata : CdxMetadata) : metadata.toXml.wellFormed CdxName.word ↔
    (isXmlText metadata.timestamp ∧ isXmlText metadata.toolVendor ∧ isXmlText metadata.toolName ∧
      isXmlText metadata.toolVersion ∧ isXmlText metadata.component.type ∧
      isXmlText metadata.component.bomRef ∧ isXmlText metadata.component.name ∧
      isXmlText metadata.component.version) ∧
      ∀ property ∈ metadata.properties, isXmlText property.name ∧ isXmlText property.value := by
  simp only [CdxMetadata.toXml, wellFormed_branch isXmlName_word, wellFormed_element isXmlName_word,
    List.forall_mem_append, List.forall_mem_cons, wellFormed_leaf isXmlName_word, wellFormed_unlessEmpty isXmlName_word,
    List.forall_mem_map, wellFormed_property, isXmlText_empty]
  simp [and_assoc]

/-- The written document is well formed exactly when its head and all that it lists are. -/
theorem wellFormed_root (doc : CdxDoc) : doc.root.wellFormed CdxName.word ↔
    isXmlText (toString doc.version) ∧ isXmlText doc.serialNumber ∧
      doc.metadata.toXml.wellFormed CdxName.word ∧
      (∀ comp ∈ doc.components, (comp.toXmlWith (comp.version.getD "")).wellFormed CdxName.word) ∧
      (∀ entry ∈ doc.dependencies.getD [], entry.toXml.wellFormed CdxName.word) ∧
      (∀ composition ∈ doc.compositions.getD [], composition.toXml.wellFormed CdxName.word) ∧
      ∀ vuln ∈ doc.vulnerabilities, vuln.toXml.wellFormed CdxName.word := by
  cases first : doc.dependencies <;> cases second : doc.compositions <;>
    simp [CdxDoc.root, wellFormed_element isXmlName_word, CdxBody.sections, CdxDoc.body, first, second,
      wellFormed_branch isXmlName_word, isXmlText_empty, and_assoc]

end WellFormed

section Content

/-- The components that an export lists. -/
def exportedRows (input : SbomInput) (verdicts : CvRef → Option ComponentPolicyVerdict) :
    Option SbomProfile → List SbomRow
  | some .filtered => input.rows.filter fun row => !isForbidden verdicts row.componentVersionId
  | _ => input.rows

/-- The findings that an export lists. -/
def exportedFindings (input : SbomInput) (verdicts : CvRef → Option ComponentPolicyVerdict) :
    Option SbomProfile → List SbomFinding
  | some .filtered => input.vulnRows.filter fun finding =>
      ((exportedRows input verdicts (some .filtered)).map SbomRow.componentVersionId).contains
        finding.componentVersionId
  | _ => input.vulnRows

/-- The verdicts that an export marks. -/
def exportedMarks (verdicts : CvRef → Option ComponentPolicyVerdict) :
    Option SbomProfile → CvRef → Option ComponentPolicyVerdict
  | some .annotated => fun ref => (verdicts ref).filter fun verdict =>
      annotateCategories.contains verdict.category
  | _ => fun _ => none

/-- The texts of a component that are cleaned of control characters. -/
def cleanedTexts (licensesByCv : CvRef → ObservationKind → List LicenseEntry)
    (marks : CvRef → Option ComponentPolicyVerdict) (row : SbomRow) : List String :=
  [row.name, row.version] ++ row.packageNamespace.toList ++ row.description.toList ++
    (preferredLicenses (licensesByCv row.componentVersionId)).map
      (fun entry => (nonEmpty entry.spdxId).getD entry.name) ++
    ((marks row.componentVersionId).bind ComponentPolicyVerdict.spdxId).toList

/-- The texts of a component that are placed as they are. -/
def SbomRow.placedTexts (row : SbomRow) : List String := row.componentVersionId :: row.purl.toList

/-- The texts of a finding, which are placed as they are. -/
def SbomFinding.placedTexts (finding : SbomFinding) : List String :=
  [finding.cveId, finding.source, finding.componentVersionId] ++ finding.justification.toList

/-- The texts of the head, which are placed as they are. -/
def headTexts (env : SbomEnvironment) (input : SbomInput) : List String :=
  [env.uuid5 ((input.scan.map SbomScan.id).getD input.project.ref), input.timestamp, env.toolVersion,
    input.project.id, input.project.name, topComponentVersion input.scan]

/-- What XML needs of the content of a scan. -/
structure XmlAdmits (env : SbomEnvironment) (input : SbomInput)
    (verdicts : CvRef → Option ComponentPolicyVerdict) (profile : Option SbomProfile) : Prop where
  /-- No component is listed whose version the scan could not establish. -/
  versions : ∀ row ∈ exportedRows input verdicts profile, xmlSafe row.version ≠ unestablishedVersion
  /-- No text that is cleaned has one of the characters that cleaning leaves. -/
  cleaned : ∀ row ∈ exportedRows input verdicts profile,
    ∀ text ∈ cleanedTexts input.licensesByCv (exportedMarks verdicts profile) row,
      ¬ hasNoncharacter text
  /-- Every other text is one that XML admits. -/
  rows : ∀ row ∈ exportedRows input verdicts profile, ∀ text ∈ row.placedTexts, isXmlText text
  findings : ∀ finding ∈ exportedFindings input verdicts profile,
    ∀ text ∈ finding.placedTexts, isXmlText text
  head : ∀ text ∈ headTexts env input, isXmlText text

end Content

section Built

variable {env : SbomEnvironment} {input : SbomInput}

/-- The texts that every export writes of its own. -/
def ownTexts : List String :=
  ["library", "application", "TrustedOSS", "TRUSCA", "project:", "urn:uuid:", propProfile, propExcluded,
    propCategory, propSpdx, undeclaredFieldsProperty, undeclaredFieldsValue, basisProperty]

/-- An ASCII text is admitted when its bytes are. -/
theorem isXmlText_ascii {text : String} (ascii : isAsciiText text)
    (admitted : (asciiLetters text).all isXmlChar) : isXmlText text := by
  rw [isXmlText, toList_ascii ascii]
  exact admitted

/-- What the export writes of its own is admitted. -/
theorem isXmlText_own : ∀ text ∈ ownTexts, isXmlText text := by
  have spelled : ∀ text ∈ ownTexts, isAsciiText text ∧ (asciiLetters text).all isXmlChar := by
    decide +kernel
  exact fun text member => isXmlText_ascii (spelled text member).1 (spelled text member).2

/-- The words that stand for categories, states, verdicts and profiles are admitted. -/
theorem isXmlText_words : (∀ category : LicenseCategory, isXmlText category.word) ∧
    (∀ status, isXmlText (cyclonedxStateMap status)) ∧
    (∀ verdict : CompletenessVerdict, isXmlText verdict.word) ∧
    ∀ profile : SbomProfile, isXmlText profile.word := by
  refine ⟨?_, ?_, ?_, ?_⟩
  · intro category
    cases category <;> decide +kernel
  · intro status
    cases status <;> decide +kernel
  · intro verdict
    cases verdict <;> decide +kernel
  · intro profile
    cases profile <;> decide +kernel

/-- The licences of a component are admitted when the texts that they are written from are. -/
theorem wellFormed_built_licenses (entries : List LicenseEntry) :
    (∀ license ∈ cyclonedxLicenseEntries entries, license.toXml.wellFormed CdxName.word) ↔
      ∀ entry ∈ entries, ¬ hasNoncharacter ((nonEmpty entry.spdxId).getD entry.name) := by
  simp only [cyclonedxLicenseEntries, List.forall_mem_map]
  refine forall₂_congr fun entry _ => ?_
  cases given : nonEmpty entry.spdxId with
  | none => simp only [wellFormed_license, Option.getD_none, isXmlText_xmlSafe]
  | some spdxId => simp only [wellFormed_license, Option.getD_some, isXmlText_xmlSafe]

/-- The marks of a component are admitted when the licence that they name is. -/
theorem admitted_policyProperties (verdict : ComponentPolicyVerdict) :
    (∀ property ∈ cyclonedxPolicyProperties verdict,
        isXmlText property.name ∧ isXmlText property.value) ↔
      ∀ text ∈ verdict.spdxId, ¬ hasNoncharacter text := by
  have category : isXmlText propCategory := isXmlText_own _ (by simp [ownTexts])
  have spdx : isXmlText propSpdx := isXmlText_own _ (by simp [ownTexts])
  have word : isXmlText verdict.category.word := isXmlText_words.1 _
  -- Each of the three words is an XML text, so only the SPDX id is asked for.
  rw [← isXmlText_map_xmlSafe]
  unfold cyclonedxPolicyProperties
  cases nonEmpty verdict.spdxId with
  | none => simp [category, word]
  | some spdxId => simp [category, spdx, word]

/-- A component with an established version is admitted when its texts are. -/
theorem wellFormed_built_component {licensesByCv : CvRef → ObservationKind → List LicenseEntry}
    {annotations : CvRef → Option ComponentPolicyVerdict} {row : SbomRow}
    (established : xmlSafe row.version ≠ unestablishedVersion) :
    ((cyclonedxComponent licensesByCv annotations row).toXmlWith
        ((cyclonedxComponent licensesByCv annotations row).version.getD "")).wellFormed CdxName.word ↔
      (∀ text ∈ cleanedTexts licensesByCv annotations row, ¬ hasNoncharacter text) ∧
        ∀ text ∈ row.placedTexts, isXmlText text := by
  -- The type and the marker's words are the source's own, so they are XML texts.
  have library : isXmlText "library" := isXmlText_own _ (by simp [ownTexts])
  rw [wellFormed_component]
  simp only [cleanedTexts, SbomRow.placedTexts, List.forall_mem_append, List.forall_mem_cons,
    List.forall_mem_map, Option.mem_toList]
  -- The marker adds the properties of the verdict, and nothing else changes.
  cases marked : annotations row.componentVersionId with
  | none =>
    simp only [cyclonedxComponent, marked, established, if_false, Option.getD_some, library,
      isXmlText_map_xmlSafe, isXmlText_xmlSafe, isXmlText_nonEmpty, wellFormed_built_licenses]
    -- The two sides list the same conditions in another order.
    simp
    constructor
    · rintro ⟨ref, group, name, version, description, licenses, purl⟩
      exact ⟨⟨⟨⟨⟨name, version⟩, group⟩, description⟩, licenses⟩, ref, purl⟩
    · rintro ⟨⟨⟨⟨⟨name, version⟩, group⟩, description⟩, licenses⟩, ref, purl⟩
      exact ⟨ref, group, name, version, description, licenses, purl⟩
  | some verdict =>
    simp only [cyclonedxComponent, marked, established, if_false, Option.getD_some, library,
      isXmlText_map_xmlSafe, isXmlText_xmlSafe, isXmlText_nonEmpty, wellFormed_built_licenses,
      admitted_policyProperties]
    -- The same conditions once more, with the mark behind them.
    simp
    constructor
    · rintro ⟨ref, group, name, version, description, licenses, purl, mark⟩
      exact ⟨⟨⟨⟨⟨⟨name, version⟩, group⟩, description⟩, licenses⟩, mark⟩, ref, purl⟩
    · rintro ⟨⟨⟨⟨⟨⟨name, version⟩, group⟩, description⟩, licenses⟩, mark⟩, ref, purl⟩
      exact ⟨ref, group, name, version, description, licenses, purl, mark⟩

/-- A component has a version exactly when the scan established one. -/
theorem version_cyclonedxComponent {licensesByCv : CvRef → ObservationKind → List LicenseEntry}
    {annotations : CvRef → Option ComponentPolicyVerdict} {row : SbomRow} :
    (cyclonedxComponent licensesByCv annotations row).version ≠ none ↔
      xmlSafe row.version ≠ unestablishedVersion := by
  cases marked : annotations row.componentVersionId <;>
    by_cases graded : xmlSafe row.version = unestablishedVersion <;>
    simp [cyclonedxComponent, marked, graded]

/-- The reason for a verdict on completeness is always admitted. -/
theorem isXmlText_basis (scanKind : Option ScanKind) (metadata : ScanMetadata)
    (componentCount edgeCount excludedCount : Nat) :
    isXmlText (assess scanKind metadata componentCount edgeCount excludedCount).basis := by
  -- The stages are ASCII words, and so is the basis made of one.
  have degraded : ∀ stage ∈ inventoryStages, isXmlText ("stage_degraded:" ++ stage) := by
    have spelled : ∀ stage ∈ inventoryStages, isAsciiText ("stage_degraded:" ++ stage) ∧
        (asciiLetters ("stage_degraded:" ++ stage)).all isXmlChar := by decide +kernel
    exact fun stage member => isXmlText_ascii (spelled stage member).1 (spelled stage member).2
  -- Every branch of the verdict names a fixed basis, or a degraded stage.
  have basis : isXmlText (inventoryVerdict scanKind metadata excludedCount).2 := by
    unfold inventoryVerdict
    dsimp only
    split_ifs
    any_goals decide +kernel
    split
    · rename_i stage found
      exact degraded stage (List.mem_of_find?_eq_some found)
    · decide +kernel
  unfold assess
  dsimp only
  -- The assessment takes the verdict's basis, or the one for a scan without edges.
  split_ifs
  · exact basis
  · decide +kernel
  · exact basis

/-- The properties of the head are always admitted. -/
theorem admitted_properties {marker : Option ProfileMarker}
    (marked : ∀ profile ∈ marker, isXmlText profile.profile) :
    ∀ property ∈ (buildCyclonedxDoc env input marker).metadata.properties,
      isXmlText property.name ∧ isXmlText property.value := by
  -- The names of the properties and the fixed values are the source's own.
  have undeclared : isXmlText undeclaredFieldsProperty ∧ isXmlText undeclaredFieldsValue :=
    ⟨isXmlText_own _ (by simp [ownTexts]), isXmlText_own _ (by simp [ownTexts])⟩
  have names : isXmlText propProfile ∧ isXmlText propExcluded ∧ isXmlText basisProperty :=
    ⟨isXmlText_own _ (by simp [ownTexts]), isXmlText_own _ (by simp [ownTexts]),
      isXmlText_own _ (by simp [ownTexts])⟩
  simp only [buildCyclonedxDoc, List.forall_mem_cons, List.forall_mem_append]
  refine ⟨undeclared, ?_, ?_⟩
  · -- The profile's properties, where there is a profile.
    cases marker with
    | none => simp
    | some profile => simp [names, marked profile rfl, isXmlText_repr]
  · -- The completeness properties, where there is a scan with rows.
    cases input.scan with
    | none => simp
    | some scan =>
      by_cases empty : input.rows.isEmpty
      · simp [empty]
      · simp [empty, names, isXmlText_basis]

/-- The head is admitted when the texts that it takes from the scan are. -/
theorem wellFormed_built_metadata {marker : Option ProfileMarker}
    (marked : ∀ profile ∈ marker, isXmlText profile.profile) :
    (buildCyclonedxDoc env input marker).metadata.toXml.wellFormed CdxName.word ↔
      isXmlText input.timestamp ∧ isXmlText env.toolVersion ∧ isXmlText input.project.id ∧
        isXmlText input.project.name ∧ isXmlText (topComponentVersion input.scan) := by
  -- The fixed words of the metadata are XML texts.
  have vendor : isXmlText "TrustedOSS" := isXmlText_own _ (by simp [ownTexts])
  have tool : isXmlText "TRUSCA" := isXmlText_own _ (by simp [ownTexts])
  have application : isXmlText "application" := isXmlText_own _ (by simp [ownTexts])
  -- And the project's reference is one as far as its id is.
  have ref : isXmlText input.project.ref ↔ isXmlText input.project.id := by
    have lead : isXmlText "project:" := isXmlText_own _ (by simp [ownTexts])
    rw [SbomProject.ref, isXmlText_append, and_iff_right lead]
  have properties : ∀ property ∈ (buildCyclonedxDoc env input marker).metadata.properties,
      isXmlText property.name ∧ isXmlText property.value :=
    admitted_properties marked
  rw [wellFormed_metadata, and_iff_left properties]
  simp only [buildCyclonedxDoc, vendor, tool, application, ref, true_and]

/-- The vulnerabilities are admitted when the texts of the findings are. -/
theorem wellFormed_built_vulnerabilities (findings : List SbomFinding) :
    (∀ vuln ∈ cyclonedxVulnerabilities findings, vuln.toXml.wellFormed CdxName.word) ↔
      ∀ finding ∈ findings, ∀ text ∈ finding.placedTexts, isXmlText text := by
  -- The state is a fixed word.
  have state (status : FindingStatus) : isXmlText (cyclonedxStateMap status) :=
    isXmlText_words.2.1 status
  simp only [cyclonedxVulnerabilities, List.forall_mem_map]
  refine forall₂_congr fun finding _ => ?_
  rw [wellFormed_vulnerability]
  simp only [state, isXmlText_nonEmpty, SbomFinding.placedTexts, List.forall_mem_append,
    List.forall_mem_cons, Option.mem_toList]
  -- The other texts are those of the finding, in another order.
  simp
  constructor
  · rintro ⟨id, source, detail, ref⟩
    exact ⟨⟨id, source, ref⟩, detail⟩
  · rintro ⟨⟨id, source, ref⟩, detail⟩
    exact ⟨id, source, detail, ref⟩

/-- The graph and the completeness statements name the project and the listed components only. -/
theorem wellFormed_built_graph {marker : Option ProfileMarker} (project : isXmlText input.project.id)
    (rows : ∀ row ∈ input.rows, isXmlText row.componentVersionId) :
    (∀ entry ∈ (buildCyclonedxDoc env input marker).dependencies.getD [],
        entry.toXml.wellFormed CdxName.word) ∧
      ∀ composition ∈ (buildCyclonedxDoc env input marker).compositions.getD [],
        composition.toXml.wellFormed CdxName.word := by
  -- A reference is the project's, with its own mark in front, or a row's.
  have reference {ref : String}
      (known : ref = input.project.ref ∨ ref ∈ input.rows.map SbomRow.componentVersionId) :
      isXmlText ref := by
    rcases known with rfl | listed
    · exact (isXmlText_append _ _).mpr ⟨isXmlText_own _ (by simp [ownTexts]), project⟩
    · obtain ⟨row, member, rfl⟩ := List.mem_map.mp listed
      exact rows row member
  constructor
  · -- The dependencies name only such references.
    intro entry listed
    rw [wellFormed_dependency]
    intro ref named
    simp only [buildCyclonedxDoc] at listed
    cases scan : input.scan with
    | none => simp [scan] at listed
    | some found =>
      rw [scan] at listed
      exact reference (mem_cyclonedxDependencies listed named)
  · -- A composition has a word for its aggregate and references like these.
    intro composition listed
    simp only [buildCyclonedxDoc] at listed
    generalize input.scan.bind _ = completeness at listed
    cases completeness with
    | none => simp at listed
    | some found =>
      rw [wellFormed_composition]
      refine ⟨?_, fun ref named => reference (mem_cyclonedxCompositions listed named)⟩
      have word (verdict : CompletenessVerdict) : isXmlText verdict.word :=
        isXmlText_words.2.2.1 verdict
      simp only [Option.map_some, Option.getD_some, cyclonedxCompositions, List.mem_cons,
        List.not_mem_nil, or_false] at listed
      rcases listed with rfl | rfl
      · exact word _
      · exact word _

/-- The components are admitted when their texts are, once every version is established. -/
theorem wellFormed_built_components {marker : Option ProfileMarker}
    (established : ∀ row ∈ input.rows, xmlSafe row.version ≠ unestablishedVersion) :
    (∀ comp ∈ (buildCyclonedxDoc env input marker).components,
        (comp.toXmlWith (comp.version.getD "")).wellFormed CdxName.word) ↔
      ∀ row ∈ input.rows, (∀ text ∈ cleanedTexts input.licensesByCv
          ((marker.map ProfileMarker.annotations).getD fun _ => none) row, ¬ hasNoncharacter text) ∧
        ∀ text ∈ row.placedTexts, isXmlText text := by
  simp only [buildCyclonedxDoc, cyclonedxComponents, List.forall_mem_map]
  exact forall₂_congr fun row member => wellFormed_built_component (established row member)

/-- The root is admitted when the texts of the components, of the findings and of the head are. -/
theorem wellFormed_built_root {marker : Option ProfileMarker}
    (marked : ∀ profile ∈ marker, isXmlText profile.profile)
    (established : ∀ row ∈ input.rows, xmlSafe row.version ≠ unestablishedVersion) :
    (buildCyclonedxDoc env input marker).root.wellFormed CdxName.word ↔
      (∀ row ∈ input.rows, (∀ text ∈ cleanedTexts input.licensesByCv
            ((marker.map ProfileMarker.annotations).getD fun _ => none) row, ¬ hasNoncharacter text) ∧
          ∀ text ∈ row.placedTexts, isXmlText text) ∧
        (∀ finding ∈ input.vulnRows, ∀ text ∈ finding.placedTexts, isXmlText text) ∧
        ∀ text ∈ headTexts env input, isXmlText text := by
  have serial : isXmlText (buildCyclonedxDoc env input marker).serialNumber ↔
      isXmlText (env.uuid5 ((input.scan.map SbomScan.id).getD input.project.ref)) := by
    have lead : isXmlText "urn:uuid:" := isXmlText_own _ (by simp [ownTexts])
    simp only [buildCyclonedxDoc, isXmlText_append, lead, true_and]
  have one : isXmlText (toString (buildCyclonedxDoc env input marker).version) := isXmlText_repr 1
  have vulnerabilities : (∀ vuln ∈ (buildCyclonedxDoc env input marker).vulnerabilities,
      vuln.toXml.wellFormed CdxName.word) ↔
      ∀ finding ∈ input.vulnRows, ∀ text ∈ finding.placedTexts, isXmlText text :=
    wellFormed_built_vulnerabilities input.vulnRows
  rw [wellFormed_root, serial, wellFormed_built_metadata marked, wellFormed_built_components established,
    vulnerabilities]
  simp only [headTexts, List.forall_mem_cons, List.not_mem_nil, false_implies, implies_true, and_true]
  constructor
  · rintro ⟨-, serial, head, rows, -, -, findings⟩
    exact ⟨rows, findings, serial, head⟩
  · rintro ⟨rows, findings, serial, head⟩
    -- The references of the graph are admitted with the project and the components.
    obtain ⟨dependencies, compositions⟩ := @wellFormed_built_graph env input marker head.2.2.1
      fun row member => (rows row member).2 row.componentVersionId List.mem_cons_self
    exact ⟨one, serial, head, rows, dependencies, compositions, findings⟩

/-- A document that is built from a scan has a faithful XML form exactly when every version is
established and every text is admitted. -/
theorem build_xml_iff {marker : Option ProfileMarker}
    (marked : ∀ profile ∈ marker, isXmlText profile.profile) :
    (∃ root, serializeCyclonedxXml (buildCyclonedxDoc env input marker) = some root ∧
        root.wellFormed CdxName.word ∧
        readCyclonedxXml root.normalised = some (buildCyclonedxDoc env input marker).body.normalised) ↔
      (∀ row ∈ input.rows, xmlSafe row.version ≠ unestablishedVersion) ∧
        (∀ row ∈ input.rows, (∀ text ∈ cleanedTexts input.licensesByCv
            ((marker.map ProfileMarker.annotations).getD fun _ => none) row, ¬ hasNoncharacter text) ∧
          ∀ text ∈ row.placedTexts, isXmlText text) ∧
        (∀ finding ∈ input.vulnRows, ∀ text ∈ finding.placedTexts, isXmlText text) ∧
        ∀ text ∈ headTexts env input, isXmlText text := by
  -- A component has a version exactly if its row's was established.
  have versions : (∀ comp ∈ (buildCyclonedxDoc env input marker).components, comp.version ≠ none) ↔
      ∀ row ∈ input.rows, xmlSafe row.version ≠ unestablishedVersion := by
    simp only [buildCyclonedxDoc, cyclonedxComponents, List.forall_mem_map, version_cyclonedxComponent]
  constructor
  · -- Written, so the versions are there; well formed, so the texts are.
    rintro ⟨root, written, formed, -⟩
    obtain ⟨versioned, rfl⟩ := serialize_eq_some_iff.mp written
    have established := versions.mp versioned
    exact ⟨established, (wellFormed_built_root marked established).mp formed⟩
  · -- And with both it is written and read back.
    rintro ⟨established, texts⟩
    have written := serialize_eq_some_iff.mpr ⟨versions.mpr established, rfl⟩
    exact ⟨_, written, (wellFormed_built_root marked established).mpr texts, read_serialize written⟩

end Built

/-- The XML form of an export is written, well formed and read back as what the JSON form carries exactly
when every version is established and every text is one that XML admits where it is placed. -/
theorem cyclonedx_xml_agrees (env : SbomEnvironment) (input : SbomInput)
    (verdicts : CvRef → Option ComponentPolicyVerdict) (profile : Option SbomProfile) :
    (∃ root, serializeCyclonedxXml (exportCyclonedx env input verdicts profile) = some root ∧
        root.wellFormed CdxName.word ∧
        readCyclonedxXml root.normalised =
          some (exportCyclonedx env input verdicts profile).body.normalised) ↔
      XmlAdmits env input verdicts profile := by
  -- The condition, grouped as the parts of the document are.
  have regroup : XmlAdmits env input verdicts profile ↔
      (∀ row ∈ exportedRows input verdicts profile, xmlSafe row.version ≠ unestablishedVersion) ∧
        (∀ row ∈ exportedRows input verdicts profile,
          (∀ text ∈ cleanedTexts input.licensesByCv (exportedMarks verdicts profile) row,
            ¬ hasNoncharacter text) ∧
          ∀ text ∈ row.placedTexts, isXmlText text) ∧
        (∀ finding ∈ exportedFindings input verdicts profile,
          ∀ text ∈ finding.placedTexts, isXmlText text) ∧
        ∀ text ∈ headTexts env input, isXmlText text := by
    constructor
    · rintro ⟨versions, cleaned, rows, findings, head⟩
      exact ⟨versions, fun row member => ⟨cleaned row member, rows row member⟩, findings, head⟩
    · rintro ⟨versions, texts, findings, head⟩
      exact ⟨versions, fun row member => (texts row member).1, fun row member => (texts row member).2,
        findings, head⟩
  -- The profile's own word is an XML text.
  have word (profile : SbomProfile) : isXmlText profile.word := isXmlText_words.2.2.2 profile
  rw [regroup]
  -- Each profile builds its document, with the marker of its own.
  cases profile with
  | none => exact build_xml_iff (by simp)
  | some profile =>
    cases profile with
    | annotated =>
      refine build_xml_iff ?_
      rintro _ ⟨⟩
      exact word .annotated
    | filtered =>
      refine build_xml_iff ?_
      rintro _ ⟨⟩
      exact word .filtered

/-- A scan whose analyst pasted a vertical tab into the justification of a finding. -/
def pastedInput : SbomInput where
  project := ⟨"p", "demo"⟩
  scan := some ⟨"s", .source, [("stage_timings", .obj [])]⟩
  rows := [⟨"c", "zlib", "1.3", none, none, none, true⟩]
  licensesByCv := fun _ _ => []
  vulnRows := [⟨"CVE-2026-0001", "NVD", .notAffected, some "not\x0breached", "c"⟩]
  timestamp := "1970-01-01T00:00:00.000Z"
  edges := []
  unscanned := nofun

/-- A version that was not established leaves no XML form, and a justification is placed uncleaned. -/
theorem cyclonedx_xml_differs :
    (serializeCyclonedxXml
        (exportCyclonedx ⟨"1", none, id⟩ vendoredInput (fun _ => none) none)).isNone ∧
      (serializeCyclonedxXml
        (exportCyclonedx ⟨"1", none, id⟩ pastedInput (fun _ => none) none)).map
          (XmlNode.wellFormed CdxName.word) = some false := by
  decide +kernel

end Trusca
