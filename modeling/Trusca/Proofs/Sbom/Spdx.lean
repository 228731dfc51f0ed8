import Mathlib.Data.List.ReduceOption
import Mathlib.Tactic
import Trusca.Proofs.Sbom.SpdxLines
import Trusca.Proofs.Sbom.Xml

/-! Both forms of an SPDX document are read alike exactly when its fields survive the lines they are
written on, as long as no line of a free text is read as a tag. -/

namespace Trusca

section View

variable (isWordChar : Char → Bool)

/-- What the two forms are compared on: a component without its hashes. -/
def IngestComponent.core (component : IngestComponent) : IngestComponent := { component with hashes := [] }

/-- A package without its checksum. -/
def TvPackage.core (pkg : TvPackage) : TvPackage := { pkg with checksum := none }

/-- What is compared of how far a document is read. -/
structure TvView where
  components : List IngestComponent
  relationships : List Json
  current : Option TvPackage

/-- The compared part of a state. -/
def TvState.view (state : TvState) : TvView :=
  ⟨state.components.map IngestComponent.core, state.relationships, state.current.map TvPackage.core⟩

/-- The component of a package, as far as it is compared. -/
def TvPackage.coreComponent (pkg : TvPackage) : Option IngestComponent :=
  (pkg.component isWordChar).map IngestComponent.core

/-- The components of a view, with that of the package that is being read. -/
def TvView.flushed (view : TvView) : List IngestComponent :=
  view.components ++ (view.current.bind (TvPackage.coreComponent isWordChar)).toList

/-- The tags whose every line is read. -/
def alwaysRead : List String :=
  ["PackageName", "SPDXID", "PackageVersion", "PackageLicenseConcluded", "PackageLicenseDeclared"]

/-- A line that adds nothing to the package being read, and no dependency; a package that is given its URL
already takes no other one. -/
def isFree (given : Bool) (pair : String × String) : Bool :=
  !alwaysRead.contains pair.1 && (given || !(pair.1 == "ExternalRef" && (tvPurl pair.2).isSome)) &&
    !(pair.1 == "Relationship" && (tvDependsOn pair.2).isSome)

/-- Whether the package being read has its URL, when it is said to be given. -/
def TvView.HasPurl (given : Bool) (view : TvView) : Prop :=
  given = true → ∀ pkg ∈ view.current, pkg.purl.isSome

/-- A line that starts no package, and adds no dependency. -/
def isFreeHead (pair : String × String) : Bool :=
  pair.1 != "PackageName" && !(pair.1 == "Relationship" && (tvDependsOn pair.2).isSome)

/-- The tags of a package that are read. -/
def packageTags : List String :=
  ["SPDXID", "PackageVersion", "PackageLicenseConcluded", "PackageLicenseDeclared", "ExternalRef"]

variable {isWordChar} {state : TvState} {given : Bool}

/-- Every view may have no purl. -/
theorem TvView.hasPurl_false (view : TvView) : view.HasPurl false := by
  intro absurd_given
  cases absurd_given

/-- The core component of a package is that of its core. -/
theorem coreComponent_core (pkg : TvPackage) :
    pkg.core.coreComponent isWordChar = pkg.coreComponent isWordChar := by
  by_cases unnamed : pkg.name = "" <;>
    simp [TvPackage.coreComponent, TvPackage.component, TvPackage.core, IngestComponent.core, unnamed]

/-- Flushing a view is flushing the state and taking the cores. -/
theorem flushed_view : state.view.flushed isWordChar = (state.flushed isWordChar).map IngestComponent.core := by
  cases held : state.current with
  | none => simp [TvView.flushed, TvState.view, TvState.flushed, held]
  | some pkg =>
    simp only [TvView.flushed, TvState.view, TvState.flushed, held, Option.map_some, Option.bind_some,
      coreComponent_core, List.map_append]
    cases component : pkg.component isWordChar <;> simp [TvPackage.coreComponent, component]

/-- A new package ends the one that is being read. -/
theorem view_step_packageName (name : String) :
    (state.step isWordChar ("PackageName", name)).view =
      ⟨state.view.flushed isWordChar, state.view.relationships, some { name }⟩ := by
  simp [TvState.step, TvState.view, TvPackage.core, ← flushed_view]

/-- A relationship is added when it is a dependency. -/
theorem view_step_relationship (value : String) :
    (state.step isWordChar ("Relationship", value)).view =
      { state.view with
        relationships := state.view.relationships ++ (tvDependsOn value).toList } := by
  simp [TvState.step, TvState.view]

/-- A tag of a package is read into the package. -/
theorem view_step_package {tag value : String} (read : tag ∈ packageTags) :
    (state.step isWordChar (tag, value)).view =
      { state.view with current := state.view.current.map fun pkg => pkg.read tag value } := by
  -- The five tags are none of the four that the document itself uses.
  have other : tag ≠ "Created" ∧ tag ≠ "DocumentName" ∧ tag ≠ "PackageName" ∧ tag ≠ "Relationship" := by
    refine ⟨?_, ?_, ?_, ?_⟩ <;> rintro rfl <;> revert read <;> decide
  have core (pkg : TvPackage) : (pkg.read tag value).core = pkg.core.read tag value := by
    simp only [packageTags, List.mem_cons, List.not_mem_nil, or_false] at read
    rcases read with rfl | rfl | rfl | rfl | rfl <;> rfl
  -- So they only change the package that is open.
  simp only [TvState.step, other.1, other.2.1, other.2.2.1, other.2.2.2, false_and, if_false, TvState.view,
    Option.map_map, TvView.mk.injEq, true_and]
  cases state.current <;> simp [core]

/-- A free line changes nothing that is compared. -/
theorem view_step_free {pair : String × String} (free : isFree given pair) (has : state.view.HasPurl given) :
    (state.step isWordChar pair).view = state.view := by
  obtain ⟨tag, value⟩ := pair
  simp only [isFree, alwaysRead, Bool.and_eq_true, Bool.or_eq_true, Bool.not_eq_true', List.contains_eq_mem,
    decide_eq_false_iff_not, List.mem_cons, List.not_mem_nil, or_false, not_or, Bool.and_eq_false_iff,
    beq_eq_false_iff_ne, Option.isSome_eq_false_iff, Option.isNone_iff_eq_none] at free
  obtain ⟨⟨⟨named, spdxId, version, concluded, declared⟩, reference⟩, related⟩ := free
  -- A package that takes the line keeps what is compared of it.
  have core (pkg : TvPackage) (read : state.current = some pkg) : (pkg.read tag value).core = pkg.core := by
    unfold TvPackage.read
    rw [if_neg spdxId, if_neg version, if_neg concluded, if_neg declared]
    split_ifs with checksum purl
    · rfl
    · -- Either the package has its URL already, or the line gives none.
      have kept : pkg.purl.or (tvPurl value) = pkg.purl := by
        rcases reference with given | reference
        · have holds : pkg.core.purl.isSome := has given pkg.core (by simp [TvState.view, read])
          obtain ⟨url, same⟩ := Option.isSome_iff_exists.mp holds
          have url : pkg.purl = some url := same
          rw [url, Option.some_or]
        · have absent : tvPurl value = none := reference.resolve_left (· purl)
          rw [absent, Option.or_none]
      simp [TvPackage.core, kept]
    · rfl
  simp only [TvState.step]
  rw [if_neg named]
  -- The timestamp and the name are no fields that are compared.
  split_ifs with created title relationship
  · rfl
  · rfl
  · -- No relationship, and last the line within a package, or before any.
    have absent : tvDependsOn value = none := related.resolve_left (· relationship)
    simp [TvState.view, absent]
  · cases held : state.current with
    | none => simp [TvState.view, held]
    | some pkg => simp [TvState.view, held, core pkg held]

/-- Before the first package, a line changes nothing when it starts none and adds no dependency. -/
theorem view_step_head {pair : String × String} (free : isFreeHead pair) (before : state.current = none) :
    (state.step isWordChar pair).view = state.view ∧ (state.step isWordChar pair).current = none := by
  obtain ⟨tag, value⟩ := pair
  simp only [isFreeHead, Bool.and_eq_true, bne_iff_ne, Bool.not_eq_true', Bool.and_eq_false_iff,
    beq_eq_false_iff_ne, Option.isSome_eq_false_iff, Option.isNone_iff_eq_none] at free
  obtain ⟨named, related⟩ := free
  simp only [TvState.step]
  rw [if_neg named]
  -- The head's own tags leave the packages alone.
  split_ifs with created title relationship
  · exact ⟨rfl, before⟩
  · exact ⟨rfl, before⟩
  · -- A relationship among them depends on nothing, so it adds none.
    have absent : tvDependsOn value = none := related.resolve_left (· relationship)
    exact ⟨by simp [TvState.view, absent], before⟩
  · simp [TvState.view, before]

end View

section Lines

variable {isWordChar : Char → Bool} {state : TvState} {given : Bool}

/-- The reading of some lines. -/
def TvState.readLines (isWordChar : Char → Bool) (state : TvState) (lines : List String) : TvState :=
  (lines.flatMap linePairs).foldl (TvState.step isWordChar) state

/-- Reading two lists of lines is reading one behind the other. -/
theorem readLines_append (first second : List String) :
    state.readLines isWordChar (first ++ second) =
      (state.readLines isWordChar first).readLines isWordChar second := by
  simp [TvState.readLines, List.flatMap_append, List.foldl_append]

/-- Reading a line is stepping through its pairs, then through the rest. -/
theorem readLines_cons (line : String) (rest : List String) :
    state.readLines isWordChar (line :: rest) =
      ((linePairs line).foldl (TvState.step isWordChar) state).readLines isWordChar rest := by
  simp [TvState.readLines, List.flatMap_cons, List.foldl_append]

/-- Free lines change nothing that is compared. -/
theorem view_foldl_free {pairs : List (String × String)} (free : pairs.all (isFree given))
    (has : state.view.HasPurl given) :
    (pairs.foldl (TvState.step isWordChar) state).view = state.view := by
  induction pairs generalizing state with
  | nil => rfl
  | cons pair rest ih =>
    simp only [List.all_cons, Bool.and_eq_true] at free
    have same : (state.step isWordChar pair).view = state.view := view_step_free free.1 has
    rw [List.foldl_cons, ih free.2 (same ▸ has), same]

/-- Lines that are free altogether change nothing that is compared. -/
theorem view_readLines_free {lines : List String}
    (free : ∀ line ∈ lines, (linePairs line).all (isFree given)) (has : state.view.HasPurl given) :
    (state.readLines isWordChar lines).view = state.view := by
  unfold TvState.readLines
  refine view_foldl_free ?_ has
  simpa only [List.all_flatMap, List.all_eq_true] using free

/-- Pairs that are free before any package leave the view as it is. -/
theorem view_foldl_head {pairs : List (String × String)} (free : pairs.all isFreeHead)
    (before : state.current = none) :
    (pairs.foldl (TvState.step isWordChar) state).view = state.view ∧
      (pairs.foldl (TvState.step isWordChar) state).current = none := by
  induction pairs generalizing state with
  | nil => exact ⟨rfl, before⟩
  | cons pair rest ih =>
    simp only [List.all_cons, Bool.and_eq_true] at free
    obtain ⟨same, still⟩ := @view_step_head isWordChar state pair free.1 before
    obtain ⟨rest, last⟩ := ih free.2 still
    exact ⟨rest.trans same, last⟩

/-- The tags that are written in lines of their own are tags. -/
theorem isTag_written : ∀ tag ∈ "PackageName" :: "Relationship" :: packageTags, isTag tag := by
  decide +kernel

/-- A line of a package is read into the package, when what follows its first line is free. -/
theorem view_packageLine {tag value : String} (read : tag ∈ packageTags)
    (free : (laterPairs value).all (isFree given))
    (has : given = true → ∀ pkg ∈ state.view.current, (pkg.read tag (readBack value)).purl.isSome) :
    ((linePairs (tagLine tag value)).foldl (TvState.step isWordChar) state).view =
      { state.view with current := state.view.current.map fun pkg => pkg.read tag (readBack value) } := by
  have plain : isTag tag := isTag_written tag (List.mem_cons_of_mem _ (List.mem_cons_of_mem _ read))
  have stepped : (state.step isWordChar (tag, readBack value)).view =
      { state.view with current := state.view.current.map fun pkg => pkg.read tag (readBack value) } :=
    view_step_package read
  -- The package has its purl from here on, if it is said to have one.
  have next : (state.step isWordChar (tag, readBack value)).view.HasPurl given := by
    rw [stepped]
    intro said pkg member
    obtain ⟨before, here, rfl⟩ := Option.map_eq_some_iff.mp member
    exact has said before here
  -- The rest of the value's lines are free, so they change nothing more.
  rw [linePairs_tagLine plain, List.foldl_cons]
  exact (view_foldl_free free next).trans stepped

end Lines

section Supplied

variable {isWordChar : Char → Bool} {state : TvState} {given : Bool}

/-- The value of a relationship on its line. -/
def SuppliedRelationship.value (rel : SuppliedRelationship) : String :=
  rel.element ++ " " ++ rel.type ++ " " ++ rel.related

/-- What a field leaves in the package that is being read. -/
def SuppliedField.apply (pkg : TvPackage) : SuppliedField → TvPackage
  | .spdxId text => { pkg with spdxId := some (readBack text) }
  | .version text => { pkg with version := some (readBack text) }
  | .licenseConcluded text => { pkg with licenseConcluded := some (readBack text) }
  | .licenseDeclared text => { pkg with licenseDeclared := some (readBack text) }
  | .externalRef ref => { pkg with purl := pkg.purl.or (tvPurl (readBack ref.value)) }
  | .other _ _ => pkg

/-- Whether a field gives the package URL on its line. -/
def SuppliedField.gives : SuppliedField → Bool
  | .externalRef ref => (tvPurl (readBack ref.value)).isSome
  | _ => false

/-- Whether the lines of a field hold nothing that is read but the field itself. -/
def SuppliedField.free (given : Bool) : SuppliedField → Bool
  | .spdxId text => (laterPairs text).all (isFree given)
  | .version text => (laterPairs text).all (isFree given)
  | .licenseConcluded text => (laterPairs text).all (isFree given)
  | .licenseDeclared text => (laterPairs text).all (isFree given)
  | .externalRef ref => (laterPairs ref.value).all (isFree given)
  | .other tag value => (linePairs (tagLine tag value)).all (isFree given)

/-- Whether the lines of some fields hold nothing that is read but these fields. -/
def fieldsFree : Bool → List SuppliedField → Bool
  | _, [] => true
  | given, field :: rest => field.free (given || field.gives) && fieldsFree (given || field.gives) rest

/-- Whether the lines of a package hold nothing that is read but its own fields. -/
def SuppliedPackage.free (pkg : SuppliedPackage) : Bool :=
  (laterPairs pkg.name).all (isFree false) && fieldsFree false pkg.fields &&
    pkg.files.all fun file => file.all fun (tag, value) =>
      (linePairs (tagLine tag value)).all (isFree (pkg.fields.any SuppliedField.gives))

/-- The package as it is read from its lines. -/
def SuppliedPackage.read (pkg : SuppliedPackage) : TvPackage :=
  pkg.fields.foldl SuppliedField.apply { name := readBack pkg.name }

/-- A field leaves the package its URL, or gives it one. -/
theorem SuppliedField.hasPurl_apply {pkg : TvPackage} {field : SuppliedField}
    (has : given = true → pkg.purl.isSome) (said : (given || field.gives) = true) :
    (field.apply pkg).purl.isSome := by
  cases field with
  | externalRef ref =>
    simp only [SuppliedField.apply, Option.isSome_or, Bool.or_eq_true] at said ⊢
    exact said.imp_left has
  | _ =>
    simp only [SuppliedField.gives, Bool.or_false] at said
    exact has said

/-- A field is read into the package from its line. -/
theorem view_field {field : SuppliedField} (free : field.free (given || field.gives))
    (has : state.view.HasPurl given) :
    ((linePairs field.toLine).foldl (TvState.step isWordChar) state).view =
      { state.view with current := state.view.current.map fun pkg => field.apply pkg } := by
  -- After the field a purl is given, if the field or one before it gives it.
  have kept : (given || field.gives) = true → ∀ pkg ∈ state.view.current, (field.apply pkg).purl.isSome :=
    fun said pkg member => SuppliedField.hasPurl_apply (fun given => has given pkg member) said
  cases field with
  | spdxId text => exact view_packageLine (by decide) free kept
  | version text => exact view_packageLine (by decide) free kept
  | licenseConcluded text => exact view_packageLine (by decide) free kept
  | licenseDeclared text => exact view_packageLine (by decide) free kept
  | externalRef ref => exact view_packageLine (by decide) free kept
  -- Any other tag is free and read by nobody.
  | other tag value =>
    refine (view_foldl_free free kept).trans ?_
    simp [SuppliedField.apply]

/-- The fields of a package are read into it one after the other. -/
theorem view_fields {fields : List SuppliedField} (free : fieldsFree given fields)
    (has : state.view.HasPurl given) :
    (state.readLines isWordChar (fields.map SuppliedField.toLine)).view =
        { state.view with
          current := state.view.current.map fun pkg => fields.foldl SuppliedField.apply pkg } ∧
      (state.readLines isWordChar (fields.map SuppliedField.toLine)).view.HasPurl
        (given || fields.any SuppliedField.gives) := by
  induction fields generalizing state given with
  | nil => simpa [TvState.readLines] using has
  | cons field rest ih =>
    simp only [fieldsFree, Bool.and_eq_true] at free
    have line : ((linePairs field.toLine).foldl (TvState.step isWordChar) state).view =
        { state.view with current := state.view.current.map fun pkg => field.apply pkg } :=
      view_field free.1 has
    -- The rest is read from where this field has left the package.
    have next : ((linePairs field.toLine).foldl (TvState.step isWordChar) state).view.HasPurl
        (given || field.gives) := by
      rw [line]
      intro said pkg member
      obtain ⟨before, here, rfl⟩ := Option.map_eq_some_iff.mp member
      exact SuppliedField.hasPurl_apply (fun given => has given before here) said
    obtain ⟨rest_view, rest_has⟩ := ih free.2 next
    rw [List.map_cons, readLines_cons]
    refine ⟨rest_view.trans ?_, ?_⟩
    · rw [line]
      simp only [Option.map_map, List.foldl_cons]
      rfl
    · rwa [List.any_cons, ← Bool.or_assoc]

/-- A package ends the one before it, and is then being read. -/
theorem view_package {pkg : SuppliedPackage} (free : pkg.free) :
    (state.readLines isWordChar pkg.toLines).view =
      ⟨state.view.flushed isWordChar, state.view.relationships, some pkg.read⟩ := by
  simp only [SuppliedPackage.free, Bool.and_eq_true, List.all_eq_true] at free
  obtain ⟨⟨name, fields⟩, files⟩ := free
  have blank (given : Bool) : (linePairs "").all (isFree given) := by
    cases given <;> decide +kernel
  have filesFree : ∀ line ∈ pkg.files.flatMap (fun file => "" :: file.map fun (tag, value) =>
      tagLine tag value), (linePairs line).all (isFree (pkg.fields.any SuppliedField.gives)) := by
    intro line within
    obtain ⟨file, member, written⟩ := List.mem_flatMap.mp within
    rcases List.mem_cons.mp written with rfl | field
    · exact blank _
    · obtain ⟨⟨tag, value⟩, listed, rfl⟩ := List.mem_map.mp field
      exact List.all_eq_true.mpr (files file member (tag, value) listed)
  rw [SuppliedPackage.toLines, List.cons_append, List.cons_append, readLines_cons, readLines_cons,
    readLines_append]
  -- The line of the name starts the package, its fields are read into it, and its files add nothing.
  obtain ⟨read, has⟩ := @view_fields isWordChar
    ((linePairs (tagLine "PackageName" pkg.name)).foldl (TvState.step isWordChar)
      ((linePairs "").foldl (TvState.step isWordChar) state)) false pkg.fields fields (TvView.hasPurl_false _)
  rw [Bool.false_or] at has
  rw [view_readLines_free filesFree has, read, linePairs_tagLine (isTag_written _ (by simp)), List.foldl_cons,
    view_foldl_free (List.all_eq_true.mpr name) (TvView.hasPurl_false _), view_step_packageName,
    view_foldl_free (blank false) (TvView.hasPurl_false _)]
  rfl

/-- Every package of the document adds its component. -/
theorem view_packages {packages : List SuppliedPackage} (free : ∀ pkg ∈ packages, pkg.free) :
    (state.readLines isWordChar (packages.flatMap SuppliedPackage.toLines)).view.flushed isWordChar =
        state.view.flushed isWordChar ++
          packages.filterMap (fun pkg => pkg.read.coreComponent isWordChar) ∧
      (state.readLines isWordChar (packages.flatMap SuppliedPackage.toLines)).view.relationships =
        state.view.relationships := by
  induction packages generalizing state with
  | nil => simp [TvState.readLines]
  | cons pkg rest ih =>
    rw [List.flatMap_cons, readLines_append]
    obtain ⟨components, relationships⟩ := @ih (state.readLines isWordChar pkg.toLines)
      fun other within => free other (List.mem_cons_of_mem pkg within)
    rw [view_package (free pkg List.mem_cons_self)] at components relationships
    -- The package is flushed by the next one, or at the end.
    refine ⟨components.trans ?_, relationships⟩
    cases read : pkg.read.coreComponent isWordChar <;>
      simp [TvView.flushed, read]

/-- A relationship adds a dependency or nothing, when what follows its first line is free. -/
theorem view_relationships {relationships : List SuppliedRelationship}
    (free : ∀ rel ∈ relationships, (laterPairs rel.value).all (isFree false)) :
    (state.readLines isWordChar (relationships.map SuppliedRelationship.toLine)).view =
      { state.view with
        relationships := state.view.relationships ++
          relationships.filterMap fun rel => tvDependsOn (readBack rel.value) } := by
  induction relationships generalizing state with
  | nil => simp [TvState.readLines]
  | cons rel rest ih =>
    -- A relationship is one line, and it leaves the packages as they are.
    have line : ((linePairs rel.toLine).foldl (TvState.step isWordChar) state).view =
        { state.view with
          relationships := state.view.relationships ++ (tvDependsOn (readBack rel.value)).toList } := by
      have written : rel.toLine = tagLine "Relationship" rel.value := rfl
      rw [written, linePairs_tagLine (isTag_written _ (by simp)), List.foldl_cons,
        view_foldl_free (free rel List.mem_cons_self) (TvView.hasPurl_false _), view_step_relationship]
      rfl
    rw [List.map_cons, readLines_cons, ih fun other within => free other (List.mem_cons_of_mem rel within),
      line]
    cases read : tvDependsOn (readBack rel.value) <;> simp [read]

/-- The reading of a text that is written line by line. -/
theorem spdxTvToCdx_eq_readLines (lines : List String) :
    spdxTvToCdx isWordChar (writeLines lines) =
      let state := TvState.readLines isWordChar ⟨[], [], none, none, none⟩ lines
      { timestamp := state.timestamp
        componentName := state.componentName
        components := state.flushed isWordChar
        dependencies := spdxRelationshipsToDependencies state.relationships } := by
  have pairs : (splitlines (writeLines lines).toList).map tagValue = lines.flatMap linePairs := by
    have broken := splitlines_flatMap (lines.map String.toList)
    simp only [List.flatMap_map] at broken
    rw [writeLines, String.toList_ofList, broken, List.map_flatMap]
    rfl
  rw [spdxTvToCdx, pairs]
  rfl

/-- What is read of a text of tags and values whose free lines add nothing. -/
theorem spdxTvToCdx_writeLines {head : List String} {packages : List SuppliedPackage}
    {relationships : List SuppliedRelationship}
    (headFree : ∀ line ∈ head, (linePairs line).all isFreeHead) (free : ∀ pkg ∈ packages, pkg.free)
    (related : ∀ rel ∈ relationships, (laterPairs rel.value).all (isFree false)) :
    (spdxTvToCdx isWordChar (writeLines (head ++ packages.flatMap SuppliedPackage.toLines ++
        relationships.map SuppliedRelationship.toLine))).components.map IngestComponent.core =
        packages.filterMap (fun pkg => pkg.read.coreComponent isWordChar) ∧
      (spdxTvToCdx isWordChar (writeLines (head ++ packages.flatMap SuppliedPackage.toLines ++
        relationships.map SuppliedRelationship.toLine))).dependencies =
        spdxRelationshipsToDependencies
          (relationships.filterMap fun rel => tvDependsOn (readBack rel.value)) := by
  -- The head leaves no package and no relationship behind.
  have headRead : (TvState.readLines isWordChar ⟨[], [], none, none, none⟩ head).view =
      ⟨[], [], none⟩ :=
    (view_foldl_head (by simpa only [List.all_flatMap, List.all_eq_true] using headFree) rfl).1
  -- The packages come next, and then the relationships, on the state before them.
  obtain ⟨components, before⟩ := @view_packages isWordChar
    (TvState.readLines isWordChar ⟨[], [], none, none, none⟩ head) packages free
  have final := @view_relationships isWordChar
    ((TvState.readLines isWordChar ⟨[], [], none, none, none⟩ head).readLines isWordChar
      (packages.flatMap SuppliedPackage.toLines)) relationships related
  rw [← readLines_append, ← readLines_append, ← List.append_assoc] at final
  rw [spdxTvToCdx_eq_readLines]
  constructor
  · -- The last package is flushed at the end of the text.
    refine flushed_view.symm.trans ?_
    rw [final]
    refine components.trans ?_
    rw [headRead]
    rfl
  · -- And the dependencies come from the relationships alone.
    refine congrArg spdxRelationshipsToDependencies ?_
    refine (congrArg TvView.relationships final).trans ?_
    rw [before, headRead]
    rfl

end Supplied

section Package

variable {isWordChar : Char → Bool}

/-- The last value that a field is given, as a text. -/
def SuppliedPackage.lastText (pkg : SuppliedPackage) (select : SuppliedField → Option String) :
    Option String :=
  (pkg.fields.filterMap select).getLast?

/-- The external references of a package. -/
def SuppliedPackage.refs (pkg : SuppliedPackage) : List SpdxExternalRef :=
  pkg.fields.filterMap SuppliedField.externalRef?

/-- A field that is set by its own lines only holds the last of them. -/
theorem foldl_apply_last {get : TvPackage → Option String} {select : SuppliedField → Option String}
    (step : ∀ pkg field, get (SuppliedField.apply pkg field) = ((select field).map readBack).or (get pkg))
    (fields : List SuppliedField) (pkg : TvPackage) :
    get (fields.foldl SuppliedField.apply pkg) =
      ((fields.filterMap select).getLast?.map readBack).or (get pkg) := by
  induction fields generalizing pkg with
  | nil => simp
  | cons field rest ih =>
    rw [List.foldl_cons, ih, step]
    -- The last field of the kind wins, or the one from before.
    cases chosen : select field with
    | none => simp [chosen]
    | some text =>
      rw [List.filterMap_cons_some chosen, List.getLast?_cons]
      cases last : (rest.filterMap select).getLast? <;> simp

/-- The package URL is the first that a reference gives. -/
theorem foldl_apply_purl (fields : List SuppliedField) (pkg : TvPackage) :
    (fields.foldl SuppliedField.apply pkg).purl =
      pkg.purl.or ((fields.filterMap SuppliedField.externalRef?).findSome?
        fun ref => tvPurl (readBack ref.value)) := by
  induction fields generalizing pkg with
  | nil => simp
  | cons field rest ih =>
    rw [List.foldl_cons, ih]
    cases field with
    | externalRef ref =>
      -- The first purl that is found stays.
      cases given : pkg.purl <;> cases found : tvPurl (readBack ref.value) <;>
        simp [SuppliedField.apply, SuppliedField.externalRef?, given, found]
    | _ => rfl

/-- The supplied fields leave the name of a package. -/
theorem foldl_apply_name (fields : List SuppliedField) (pkg : TvPackage) :
    (fields.foldl SuppliedField.apply pkg).name = pkg.name := by
  induction fields generalizing pkg with
  | nil => rfl
  | cons field rest ih =>
    rw [List.foldl_cons, ih]
    cases field <;> rfl

/-- A package URL that is read is not empty. -/
theorem tvPurl_ne_empty (value : String) : tvPurl value ≠ some "" := by
  -- A word behind the mark is never empty.
  have word (text : List Char) : wordAfterPurl text ≠ some "" := by
    intro found
    simp only [wordAfterPurl, Option.bind_eq_bind, Option.bind_eq_some_iff] at found
    obtain ⟨_, _, rest, _, found⟩ := found
    split at found
    · cases found
    · rename_i nonempty
      rw [Option.some_inj, ← String.toList_inj, String.toList_ofList] at found
      exact nonempty (by simp [found])
  intro found
  unfold tvPurl at found
  -- The managed form, or else the plain one: both end in such a word.
  rcases Option.or_eq_some_iff.mp found with managed | ⟨-, plain⟩
  · simp only [Option.bind_eq_bind, Option.bind_eq_some_iff] at managed
    obtain ⟨_, _, rest, _, found⟩ := managed
    exact word rest found
  · exact word _ plain

/-- The first purl that is named is never the empty text. -/
theorem filled_findSome_tvPurl (refs : List SpdxExternalRef) :
    filled (refs.findSome? fun ref => tvPurl (readBack ref.value)) =
      refs.findSome? fun ref => tvPurl (readBack ref.value) := by
  cases found : refs.findSome? fun ref => tvPurl (readBack ref.value) with
  | none => rfl
  | some purl =>
    obtain ⟨ref, -, read⟩ := List.exists_of_findSome?_eq_some found
    -- A purl that was found is not empty.
    have nonempty : purl ≠ "" := by
      rintro rfl
      exact tvPurl_ne_empty _ read
    simp [filled, Option.filter, nonempty]

/-- The component of a package as it is read from its lines. -/
theorem coreComponent_read (pkg : SuppliedPackage) : pkg.read.coreComponent isWordChar =
    if readBack pkg.name = "" then none
    else some
      { name := readBack pkg.name
        version := .str (((pkg.lastText SuppliedField.version?).map readBack).getD "")
        bomRef := filled ((pkg.lastText SuppliedField.spdxId?).map readBack)
        purl := pkg.refs.findSome? fun ref => tvPurl (readBack ref.value)
        licenses := licenseEntries isWordChar
          [(pkg.lastText SuppliedField.licenseConcluded?).map readBack,
            (pkg.lastText SuppliedField.licenseDeclared?).map readBack]
        hashes := [] } := by
  -- Each field is the last one of its kind, which folding the lines keeps.
  have spdxId := @foldl_apply_last TvPackage.spdxId SuppliedField.spdxId?
    (by intro pkg field; cases field <;> rfl) pkg.fields { name := readBack pkg.name }
  have version := @foldl_apply_last TvPackage.version SuppliedField.version?
    (by intro pkg field; cases field <;> rfl) pkg.fields { name := readBack pkg.name }
  have concluded := @foldl_apply_last TvPackage.licenseConcluded SuppliedField.licenseConcluded?
    (by intro pkg field; cases field <;> rfl) pkg.fields { name := readBack pkg.name }
  have declared := @foldl_apply_last TvPackage.licenseDeclared SuppliedField.licenseDeclared?
    (by intro pkg field; cases field <;> rfl) pkg.fields { name := readBack pkg.name }
  -- The purl is the first one the references give, and the name is never written again.
  have purl := foldl_apply_purl pkg.fields { name := readBack pkg.name }
  have name := foldl_apply_name pkg.fields { name := readBack pkg.name }
  simp only [Option.or_none, Option.none_or] at spdxId version concluded declared purl
  unfold TvPackage.coreComponent TvPackage.component SuppliedPackage.read
  rw [name, spdxId, version, concluded, declared, purl, filled_findSome_tvPurl]
  -- A package whose name reads as empty is no component.
  by_cases unnamed : readBack pkg.name = "" <;>
    simp [unnamed, IngestComponent.core, SuppliedPackage.lastText, SuppliedPackage.refs]

end Package

section JsonRead

variable {isWordChar : Char → Bool}

/-- An object without fields has no value under any key. -/
theorem get?_nil (key : String) : Json.get? (.obj []) key = none := rfl

/-- A value is that of the first field under its key, or else one of the rest. -/
theorem get?_cons (key other : String) (value : Json) (rest : List (String × Json)) :
    Json.get? (.obj ((key, value) :: rest)) other =
      if key = other then some value else Json.get? (.obj rest) other := by
  by_cases same : key = other <;> simp [Json.get?, same]

/-- A value is that of the first fields, or else of the second. -/
theorem get?_append (first second : List (String × Json)) (key : String) :
    Json.get? (.obj (first ++ second)) key =
      (Json.get? (.obj first) key).or (Json.get? (.obj second) key) := by
  simp [Json.get?, List.find?_append, Option.map_or]

/-- An optional field has its value under its own key. -/
theorem get?_optionalField (key other : String) (value : Option Json) :
    Json.get? (.obj (optionalField key value)) other = if key = other then value else none := by
  cases value with
  | none => simp [optionalField, get?_nil]
  | some value => by_cases same : key = other <;> simp [optionalField, get?_cons, get?_nil, same]

/-- A list field is there under its own key when it has items. -/
theorem get?_listField (key other : String) (items : List Json) :
    Json.get? (.obj (listField key items)) other =
      if key = other ∧ items ≠ [] then some (.arr items) else none := by
  cases items with
  | nil => simp [listField, get?_nil]
  | cons item rest => by_cases same : key = other <;> simp [listField, get?_cons, get?_nil, same]

/-- A list is read as its items. -/
theorem orEmptyList_arr (items : List Json) : orEmptyList (some (.arr items)) = some items := by
  cases items with
  | nil => rfl
  | cons item rest => rfl

/-- What a version of a package in JSON stands for. -/
theorem json_version (text : Option String) :
    (if truthy (text.map Json.str) then (text.map Json.str).getD .null else .str "") =
      .str (text.getD "") := by
  cases text with
  | none => rfl
  | some text => by_cases blank : text = "" <;> simp [truthy, blank]

/-- A text that may be there is read back as it is. -/
theorem bind_asText (text : Option String) : (text.map Json.str).bind Json.asText = text := by
  cases text <;> rfl

/-- The component that a package states. -/
def SuppliedPackage.stated (isWordChar : Char → Bool) (pkg : SuppliedPackage) : Option IngestComponent :=
  if pkg.name = "" then none
  else some
    { name := pkg.name
      version := .str ((pkg.lastText SuppliedField.version?).getD "")
      bomRef := filled (pkg.lastText SuppliedField.spdxId?)
      purl := pkg.refs.findSome? fun ref => jsonPurl ref.toJson
      licenses := licenseEntries isWordChar
        [pkg.lastText SuppliedField.licenseConcluded?, pkg.lastText SuppliedField.licenseDeclared?]
      hashes := [] }

/-- A package is read from JSON as what it states. -/
theorem jsonComponent_toJson (pkg : SuppliedPackage) :
    jsonComponent isWordChar pkg.toJson = some (pkg.stated isWordChar) := by
  -- Each field of the object, looked up under its own name.
  have name : pkg.toJson.get? "name" = some (.str pkg.name) := rfl
  have spdxId : pkg.toJson.get? "SPDXID" = (pkg.lastText SuppliedField.spdxId?).map .str := by
    simp [SuppliedPackage.toJson, get?_cons, get?_append, get?_optionalField, get?_nil,
      SuppliedPackage.last, SuppliedPackage.lastText]
  have version : pkg.toJson.get? "versionInfo" = (pkg.lastText SuppliedField.version?).map .str := by
    simp [SuppliedPackage.toJson, get?_cons, get?_append, get?_optionalField, get?_nil,
      SuppliedPackage.last, SuppliedPackage.lastText]
  have concluded : pkg.toJson.get? "licenseConcluded" =
      (pkg.lastText SuppliedField.licenseConcluded?).map .str := by
    simp [SuppliedPackage.toJson, get?_cons, get?_append, get?_optionalField, get?_nil,
      SuppliedPackage.last, SuppliedPackage.lastText]
  have declared : pkg.toJson.get? "licenseDeclared" =
      (pkg.lastText SuppliedField.licenseDeclared?).map .str := by
    simp [SuppliedPackage.toJson, get?_cons, get?_append, get?_optionalField, get?_nil,
      SuppliedPackage.last, SuppliedPackage.lastText]
  have refs : pkg.toJson.get? "externalRefs" = some (.arr (pkg.refs.map SpdxExternalRef.toJson)) := by
    simp [SuppliedPackage.toJson, get?_cons, get?_append, get?_optionalField, SuppliedPackage.refs]
  have checksums : pkg.toJson.get? "checksums" = none := by
    simp [SuppliedPackage.toJson, get?_cons, get?_append, get?_optionalField, get?_nil]
  unfold jsonComponent SuppliedPackage.stated
  -- The reader puts them together as the package states them.
  rw [name, spdxId, version, concluded, declared, refs, checksums, orEmptyList_arr, json_version,
    bind_asText, bind_asText, bind_asText]
  -- A package without a name states nothing.
  by_cases unnamed : pkg.name = ""
  · simp [unnamed, Json.asText, Option.filter]
  · simp [unnamed, Json.asText, Option.filter, filled, List.findSome?_map, Function.comp_def]

/-- What is read of a document in JSON whose packages are objects. -/
theorem spdxJsonToCdx_packages {α : Type} {doc : Json} {packages : List α} {write : α → Json}
    {stated : α → Option IngestComponent} {relationships : List Json} {creation : List (String × Json)}
    (listed : doc.get? "packages" = some (.arr (packages.map write)))
    (objects : ∀ pkg, (write pkg).isObject)
    (read : ∀ pkg, jsonComponent isWordChar (write pkg) = some (stated pkg))
    (related : orEmptyList (doc.get? "relationships") = some relationships)
    (created : doc.get? "creationInfo" = some (.obj creation)) :
    ∃ found, spdxJsonToCdx isWordChar doc = some found ∧
      found.components = packages.filterMap stated ∧
      found.dependencies = spdxRelationshipsToDependencies relationships := by
  -- Every package is an object that reads, so none is lost on the way.
  have components (packages : List α) :
      ((packages.map write).filter Json.isObject).mapM (jsonComponent isWordChar) =
        some (packages.map stated) := by
    induction packages with
    | nil => rfl
    | cons pkg rest ih => simp [objects pkg, read pkg, ih]
  have reduced (packages : List α) :
      (packages.map stated).reduceOption = packages.filterMap stated := by
    simp [List.reduceOption, List.filterMap_map]
  unfold spdxJsonToCdx
  rw [listed, orEmptyList_arr, related, created]
  simp only [Option.bind_eq_bind, Option.bind_some, components, reduced]
  -- Without creation data the reader says nothing of the creation, and no component needs it.
  cases creation with
  | nil => exact ⟨_, rfl, rfl, rfl⟩
  | cons field rest => exact ⟨_, rfl, rfl, rfl⟩

end JsonRead

section Relationships

/-- Whether the parts of a relationship are words. -/
def SuppliedRelationship.words (rel : SuppliedRelationship) : Bool :=
  isToken rel.element && isToken rel.type && isToken rel.related

variable {rel : SuppliedRelationship}

/-- A relationship of three words stands on one line. -/
theorem isOneLine_relationship (words : rel.words) : isOneLine rel.value.toList := by
  simp only [SuppliedRelationship.words, Bool.and_eq_true] at words
  exact isOneLine_three words.1.1 words.1.2 words.2

/-- A relationship of three words is read back as it is. -/
theorem readBack_relationship (words : rel.words) : readBack rel.value = rel.value := by
  rw [readBack_oneLine (isOneLine_relationship words)]
  simp only [SuppliedRelationship.words, Bool.and_eq_true] at words
  exact strip_three words.1.1 words.2

/-- A relationship of three words brings in no other pairs. -/
theorem laterPairs_relationship (words : rel.words) : laterPairs rel.value = [] := by
  rw [laterPairs, splitlines_oneLine (isOneLine_relationship words)]
  rfl

/-- A relationship states the same dependency on its line and in JSON. -/
theorem dependsOnEnds_relationship (words : rel.words) :
    (tvDependsOn (readBack rel.value)).bind dependsOnEnds = dependsOnEnds rel.toJson := by
  rw [readBack_relationship words]
  simp only [SuppliedRelationship.words, Bool.and_eq_true] at words
  unfold tvDependsOn SuppliedRelationship.value
  rw [splitWords_three words.1.1 words.1.2 words.2]
  by_cases depends : rel.type = "DEPENDS_ON" <;>
    simp [depends, dependsOnEnds, SuppliedRelationship.toJson, get?_cons, Json.asText]

/-- Both forms state the same dependencies. -/
theorem dependencies_relationships {relationships : List SuppliedRelationship}
    (words : ∀ rel ∈ relationships, rel.words) :
    spdxRelationshipsToDependencies
        (relationships.filterMap fun rel => tvDependsOn (readBack rel.value)) =
      spdxRelationshipsToDependencies (relationships.map SuppliedRelationship.toJson) := by
  have ends : (relationships.filterMap fun rel => tvDependsOn (readBack rel.value)).filterMap
      dependsOnEnds = (relationships.map SuppliedRelationship.toJson).filterMap dependsOnEnds := by
    rw [List.filterMap_filterMap, List.filterMap_map]
    exact List.filterMap_congr fun rel within => dependsOnEnds_relationship (words rel within)
  unfold spdxRelationshipsToDependencies
  rw [ends]

end Relationships

section Compared

variable {isWordChar : Char → Bool}

/-- Whether the fields of a package survive the lines that they are written on. -/
structure SuppliedPackage.ReadsBack (pkg : SuppliedPackage) : Prop where
  name : readBack pkg.name = pkg.name
  version : ∀ text ∈ pkg.lastText SuppliedField.version?, readBack text = text
  spdxId : ∀ text ∈ pkg.lastText SuppliedField.spdxId?, readBack text = text
  purl : PurlSurvives pkg.refs
  licenses : LicenseSurvives (pkg.lastText SuppliedField.licenseConcluded?)
    (pkg.lastText SuppliedField.licenseDeclared?)

/-- A text with a default is read back when the text is. -/
theorem getD_readBack {text : Option String} :
    (text.map readBack).getD "" = text.getD "" ↔ ∀ value ∈ text, readBack value = value := by
  cases text <;> simp

/-- A text that may be there and is not empty is read back when the text is. -/
theorem filled_readBack {text : Option String} :
    filled (text.map readBack) = filled text ↔ ∀ value ∈ text, readBack value = value := by
  cases text with
  | none => simp
  | some value =>
    -- An empty text is left out, and so is one whose first line is.
    by_cases blank : value = ""
    · subst blank
      simp [readBack_empty]
    · by_cases lost : readBack value = ""
      · simp [filled, Option.filter, blank, lost, Ne.symm blank]
      · simp [filled, Option.filter, blank, lost]

/-- A text that is not empty is read back when it stays as it is. -/
theorem filled_some_readBack {text : String} :
    filled (some (readBack text)) = filled (some text) ↔ readBack text = text := by
  simpa using @filled_readBack (some text)

/-- A package is read from its lines as what it states exactly when its fields are, or it has no name. -/
theorem coreComponent_read_eq_stated (pkg : SuppliedPackage) :
    pkg.read.coreComponent isWordChar = pkg.stated isWordChar ↔ (pkg.name ≠ "" → pkg.ReadsBack) := by
  rw [coreComponent_read, SuppliedPackage.stated]
  -- A package without a name is no component on either side.
  by_cases unnamed : pkg.name = ""
  · simp [unnamed, readBack_empty]
  · rw [if_neg unnamed]
    -- A name that is lost on the way makes a component on one side only.
    by_cases lost : readBack pkg.name = ""
    · rw [if_pos lost]
      simp only [reduceCtorEq, ne_eq, unnamed, not_false_eq_true, forall_const, false_iff]
      intro back
      exact unnamed (back.name.symm.trans lost)
    · -- Otherwise the two components are compared field by field.
      rw [if_neg lost, Option.some_inj]
      simp only [IngestComponent.mk.injEq, Json.str.injEq, getD_readBack, filled_readBack, purlSurvives_iff,
        licenseSurvives_iff, ne_eq, unnamed, not_false_eq_true, forall_const, and_true]
      -- The four conditions are those of the fields.
      constructor
      · rintro ⟨name, version, spdxId, purl, licenses⟩
        exact ⟨name, version, spdxId, purl, licenses⟩
      · rintro ⟨name, version, spdxId, purl, licenses⟩
        exact ⟨name, version, spdxId, purl, licenses⟩

/-- Two selections of which one takes no more are equal exactly when they are item by item. -/
theorem filterMap_eq_iff {α β : Type} {fewer more : α → Option β} {items : List α}
    (within : ∀ item ∈ items, more item = none → fewer item = none) :
    items.filterMap fewer = items.filterMap more ↔ ∀ item ∈ items, fewer item = more item := by
  -- The smaller filter has no more members than the larger one.
  have shorter (items : List α) (within : ∀ item ∈ items, more item = none → fewer item = none) :
      (items.filterMap fewer).length ≤ (items.filterMap more).length := by
    induction items with
    | nil => rfl
    | cons item rest ih =>
      have tail := ih fun other member => within other (List.mem_cons_of_mem item member)
      cases first : fewer item <;> cases second : more item <;>
        simp_all
      omega
  -- Along the list: an item that only the larger one keeps makes it longer for good.
  induction items with
  | nil => simp
  | cons item rest ih =>
    have rest_within : ∀ other ∈ rest, more other = none → fewer other = none :=
      fun other member => within other (List.mem_cons_of_mem item member)
    have head_within := within item List.mem_cons_self
    cases first : fewer item with
    | none =>
      cases second : more item with
      | none => simp [first, second, ih rest_within]
      | some value =>
        have lengths := shorter rest rest_within
        simp only [List.filterMap_cons, first, second, List.forall_mem_cons, reduceCtorEq, false_and,
          iff_false]
        intro same
        rw [same, List.length_cons] at lengths
        omega
    | some value =>
      cases second : more item with
      | none => exact absurd (head_within second) (by simp [first])
      | some other => simp [first, second, ih rest_within]

/-- Two uploads are read as the same components and the same dependencies. -/
def SameReading (isWordChar : Char → Bool) (first second : SbomUpload) : Prop :=
  ∃ one other, toCyclonedx isWordChar first = some (.inr one) ∧
    toCyclonedx isWordChar second = some (.inr other) ∧
    one.components.map IngestComponent.core = other.components.map IngestComponent.core ∧
    one.dependencies = other.dependencies

/-- The compared part of the components of an upload. -/
def readComponents (isWordChar : Char → Bool) (upload : SbomUpload) : Option (List IngestComponent) :=
  (toCyclonedx isWordChar upload).bind fun read =>
    match read with
    | .inl _ => none
    | .inr doc => some (doc.components.map IngestComponent.core)

/-- Two uploads that are read alike have the same components. -/
theorem SameReading.components {first second : SbomUpload} (same : SameReading isWordChar first second) :
    readComponents isWordChar first = readComponents isWordChar second := by
  obtain ⟨one, other, left, right, components, -⟩ := same
  simp [readComponents, left, right, components]

/-- Two uploads that are read with the same dependencies agree exactly when their components do. -/
theorem sameReading_iff {first second : SbomUpload} {one other : IngestDoc}
    (left : toCyclonedx isWordChar first = some (.inr one))
    (right : toCyclonedx isWordChar second = some (.inr other))
    (dependencies : one.dependencies = other.dependencies) :
    SameReading isWordChar first second ↔
      one.components.map IngestComponent.core = other.components.map IngestComponent.core := by
  constructor
  · rintro ⟨one', other', left', right', components, -⟩
    rw [left, Option.some_inj, Sum.inr.injEq] at left'
    rw [right, Option.some_inj, Sum.inr.injEq] at right'
    rw [left', right', components]
  · intro components
    exact ⟨one, other, left, right, components, dependencies⟩

/-- What a package states is its own core. -/
theorem stated_core (pkg : SuppliedPackage) :
    (pkg.stated isWordChar).map IngestComponent.core = pkg.stated isWordChar := by
  by_cases unnamed : pkg.name = "" <;> simp [SuppliedPackage.stated, unnamed, IngestComponent.core]

/-- A text that starts with its version is read as tags and values. -/
theorem toCyclonedx_tv (version : String) (rest : List String) :
    toCyclonedx isWordChar (.text (writeLines (tagLine "SPDXVersion" version :: rest))) =
      some (.inr (spdxTvToCdx isWordChar (writeLines (tagLine "SPDXVersion" version :: rest)))) := by
  have starts : startsWithVersion (writeLines (tagLine "SPDXVersion" version :: rest)).toList := by
    unfold startsWithVersion
    rw [List.any_eq_true]
    -- The version's tag is at the very start.
    refine ⟨_, (List.mem_tails _ _).mpr List.suffix_rfl, List.isPrefixOf_iff_prefix.mpr ?_⟩
    simp only [writeLines, tagLine, String.toList_ofList, List.flatMap_cons, String.toList_append,
      List.append_assoc]
    exact ⟨_, rfl⟩
  rw [toCyclonedx, if_pos starts]

/-- The components of a text of tags and values, read line by line. -/
theorem readComponents_tv (version : String) (rest : List String) :
    readComponents isWordChar (.text (writeLines (tagLine "SPDXVersion" version :: rest))) =
      some (((TvState.readLines isWordChar ⟨[], [], none, none, none⟩
        (tagLine "SPDXVersion" version :: rest)).flushed isWordChar).map IngestComponent.core) := by
  rw [readComponents, toCyclonedx_tv, spdxTvToCdx_eq_readLines]
  rfl

/-- Whether the lines of a document hold nothing that is read but the fields they are written for. -/
def SuppliedDoc.free (doc : SuppliedDoc) : Bool :=
  (linePairs (tagLine "DocumentName" doc.name)).all isFreeHead &&
    (linePairs (tagLine "Created" doc.created)).all isFreeHead &&
    doc.packages.all SuppliedPackage.free && doc.relationships.all SuppliedRelationship.words

/-- A submitted document is read alike from both forms exactly when the fields of its packages survive
their lines. -/
theorem supplied_agrees_iff {doc : SuppliedDoc} (free : doc.free) :
    SameReading isWordChar (.text doc.toTv) (.json doc.toJson) ↔
      ∀ pkg ∈ doc.packages, pkg.name ≠ "" → pkg.ReadsBack := by
  -- The head, the packages and the words of the relationships are all free of foreign tags.
  simp only [SuppliedDoc.free, Bool.and_eq_true, List.all_eq_true] at free
  obtain ⟨⟨⟨name, created⟩, packages⟩, words⟩ := free
  have headFree : ∀ line ∈ [tagLine "SPDXVersion" "SPDX-2.3", tagLine "DataLicense" "CC0-1.0",
      tagLine "SPDXID" "SPDXRef-DOCUMENT", tagLine "DocumentName" doc.name,
      tagLine "Created" doc.created], (linePairs line).all isFreeHead := by
    -- Five head lines, of which two are the document's own.
    intro line within
    simp only [List.mem_cons, List.not_mem_nil, or_false] at within
    rcases within with rfl | rfl | rfl | rfl | rfl
    · decide +kernel
    · decide +kernel
    · decide +kernel
    · exact List.all_eq_true.mpr name
    · exact List.all_eq_true.mpr created
  -- What the tag-value reader makes of the document.
  obtain ⟨components, dependencies⟩ := @spdxTvToCdx_writeLines isWordChar _ doc.packages
    doc.relationships headFree packages
    (fun rel within => by rw [laterPairs_relationship (words rel within)]; rfl)
  have json : toCyclonedx isWordChar (.json doc.toJson) =
      (spdxJsonToCdx isWordChar doc.toJson).map .inr := rfl
  -- What the JSON reader makes of it.
  obtain ⟨found, read, listed, related⟩ := @spdxJsonToCdx_packages isWordChar SuppliedPackage doc.toJson
    doc.packages SuppliedPackage.toJson (SuppliedPackage.stated isWordChar)
    (doc.relationships.map SuppliedRelationship.toJson) [("created", .str doc.created)]
    rfl (fun _ => rfl) jsonComponent_toJson (orEmptyList_arr _) rfl
  rw [read] at json
  -- Both read the same relationships.
  have same : (spdxTvToCdx isWordChar doc.toTv).dependencies = found.dependencies :=
    dependencies.trans ((dependencies_relationships words).trans related.symm)
  have text : toCyclonedx isWordChar (.text doc.toTv) =
      some (.inr (spdxTvToCdx isWordChar doc.toTv)) := toCyclonedx_tv "SPDX-2.3" _
  rw [sameReading_iff text json same]
  -- So only the components are left to compare.
  have compared : (spdxTvToCdx isWordChar doc.toTv).components.map IngestComponent.core =
      found.components.map IngestComponent.core ↔
      doc.packages.filterMap (fun pkg => pkg.read.coreComponent isWordChar) =
        doc.packages.filterMap (SuppliedPackage.stated isWordChar) := by
    rw [listed, List.map_filterMap]
    simp only [stated_core]
    exact Eq.congr_left components
  refine compared.trans ((filterMap_eq_iff ?_).trans ?_)
  · -- An unnamed package is read by neither.
    intro pkg _ unstated
    have unnamed : pkg.name = "" := by
      by_contra named
      simp [SuppliedPackage.stated, named] at unstated
    rw [coreComponent_read, unnamed, readBack_empty, if_pos rfl]
  · -- Package by package, the two readings agree as the condition says.
    exact forall₂_congr fun pkg _ => coreComponent_read_eq_stated pkg

end Compared

section Exported

variable {isWordChar : Char → Bool}

/-- A package of an exported document as its lines have it. -/
def SpdxPackage.supplied (pkg : SpdxPackage) : SuppliedPackage where
  name := spdxClean pkg.name
  fields := [.spdxId pkg.spdxId, .version (spdxClean pkg.versionInfo),
      .other "PackageDownloadLocation" pkg.downloadLocation,
      .other "FilesAnalyzed" (if pkg.filesAnalyzed then "true" else "false"),
      .licenseConcluded pkg.licenseConcluded, .licenseDeclared pkg.licenseDeclared,
      .other "PackageCopyrightText" pkg.copyrightText] ++
    (pkg.description.map (SuppliedField.other "PackageDescription")).toList ++
    pkg.externalRefs.map SuppliedField.externalRef ++
    pkg.annotations.flatMap fun note =>
      [.other "AnnotationDate" note.annotationDate, .other "Annotator" note.annotator,
        .other "AnnotationType" note.annotationType, .other "SPDXREF" pkg.spdxId,
        .other "AnnotationComment" (spdxClean note.comment)]
  files := []

/-- The lines of what is supplied are the lines of the package. -/
theorem toLines_supplied (pkg : SpdxPackage) : pkg.supplied.toLines = packageLines pkg := by
  cases described : pkg.description <;>
    simp [SuppliedPackage.toLines, SpdxPackage.supplied, packageLines, described, SuppliedField.toLine,
      List.map_flatMap, Function.comp_def] <;>
    rfl

/-- The component that a package of an exported document states. -/
def SpdxPackage.stated (isWordChar : Char → Bool) (pkg : SpdxPackage) : Option IngestComponent :=
  if pkg.name = "" then none
  else some
    { name := pkg.name
      version := .str pkg.versionInfo
      bomRef := filled (some pkg.spdxId)
      purl := pkg.externalRefs.findSome? fun ref => jsonPurl ref.toJson
      licenses := licenseEntries isWordChar [some pkg.licenseConcluded, some pkg.licenseDeclared]
      hashes := [] }

/-- A package of an exported document is read from JSON as what it states. -/
theorem jsonComponent_exported (pkg : SpdxPackage) :
    jsonComponent isWordChar pkg.toJson = some (pkg.stated isWordChar) := by
  -- Each field of the exported object, under its own name.
  have name : pkg.toJson.get? "name" = some (.str pkg.name) := rfl
  have spdxId : pkg.toJson.get? "SPDXID" = some (.str pkg.spdxId) := rfl
  have version : pkg.toJson.get? "versionInfo" = (some pkg.versionInfo).map .str := rfl
  have concluded : pkg.toJson.get? "licenseConcluded" = some (.str pkg.licenseConcluded) := rfl
  have declared : pkg.toJson.get? "licenseDeclared" = some (.str pkg.licenseDeclared) := rfl
  -- An empty list of references is left out, which reads as the empty list.
  have refs : orEmptyList (pkg.toJson.get? "externalRefs") =
      some (pkg.externalRefs.map SpdxExternalRef.toJson) := by
    have field : pkg.toJson.get? "externalRefs" =
        if pkg.externalRefs ≠ [] then some (.arr (pkg.externalRefs.map SpdxExternalRef.toJson))
        else none := by
      simp [SpdxPackage.toJson, get?_cons, get?_append, get?_optionalField, get?_listField]
    rw [field]
    cases pkg.externalRefs <;> rfl
  have checksums : pkg.toJson.get? "checksums" = none := by
    simp [SpdxPackage.toJson, get?_cons, get?_append, get?_optionalField, get?_listField]
  unfold jsonComponent SpdxPackage.stated
  rw [name, spdxId, version, concluded, declared, refs, checksums, json_version]
  by_cases unnamed : pkg.name = ""
  · simp [unnamed, Json.asText, Option.filter]
  · simp [unnamed, Json.asText, Option.filter, filled, List.findSome?_map, Function.comp_def]

/-- The last value supplied for a field is the package's. -/
theorem lastText_supplied (pkg : SpdxPackage) :
    pkg.supplied.lastText SuppliedField.version? = some (spdxClean pkg.versionInfo) ∧
      pkg.supplied.lastText SuppliedField.spdxId? = some pkg.spdxId ∧
      pkg.supplied.lastText SuppliedField.licenseConcluded? = some pkg.licenseConcluded ∧
      pkg.supplied.lastText SuppliedField.licenseDeclared? = some pkg.licenseDeclared ∧
      pkg.supplied.refs = pkg.externalRefs := by
  -- Neither the description nor a note is a field that is read.
  have rest {α : Type} {select : SuppliedField → Option α} (skips : ∀ tag value, select (.other tag value) = none) :
      pkg.supplied.fields.filterMap select =
        ([SuppliedField.spdxId pkg.spdxId, .version (spdxClean pkg.versionInfo),
          .licenseConcluded pkg.licenseConcluded, .licenseDeclared pkg.licenseDeclared] ++
          pkg.externalRefs.map SuppliedField.externalRef).filterMap select := by
    have notes : (pkg.annotations.flatMap fun note =>
        [SuppliedField.other "AnnotationDate" note.annotationDate, .other "Annotator" note.annotator,
          .other "AnnotationType" note.annotationType, .other "SPDXREF" pkg.spdxId,
          .other "AnnotationComment" (spdxClean note.comment)]).filterMap select = [] := by
      rw [List.filterMap_eq_nil_iff]
      intro field within
      obtain ⟨note, -, written⟩ := List.mem_flatMap.mp within
      simp only [List.mem_cons, List.not_mem_nil, or_false] at written
      rcases written with rfl | rfl | rfl | rfl | rfl <;> exact skips _ _
    cases described : pkg.description <;>
      simp [SpdxPackage.supplied, described, List.filterMap_append, List.filterMap_cons, skips, notes]
  -- Each field stands once among those that are read.
  refine ⟨?_, ?_, ?_, ?_, ?_⟩
  · rw [SuppliedPackage.lastText, rest fun _ _ => rfl]
    simp [List.filterMap_cons, SuppliedField.version?, Function.comp_def]
  · rw [SuppliedPackage.lastText, rest fun _ _ => rfl]
    simp [List.filterMap_cons, SuppliedField.spdxId?, Function.comp_def]
  · rw [SuppliedPackage.lastText, rest fun _ _ => rfl]
    simp [List.filterMap_cons, SuppliedField.licenseConcluded?, Function.comp_def]
  · rw [SuppliedPackage.lastText, rest fun _ _ => rfl]
    simp [List.filterMap_cons, SuppliedField.licenseDeclared?, Function.comp_def]
  · rw [SuppliedPackage.refs, rest fun _ _ => rfl]
    simp [List.filterMap_cons, SuppliedField.externalRef?, Function.comp_def]

/-- Whether the fields of an exported package survive the lines that they are written on. -/
structure SpdxPackage.ReadsBack (pkg : SpdxPackage) : Prop where
  name : readBack (spdxClean pkg.name) = pkg.name
  version : readBack (spdxClean pkg.versionInfo) = pkg.versionInfo
  spdxId : readBack pkg.spdxId = pkg.spdxId
  purl : PurlSurvives pkg.externalRefs
  licenses : LicenseSurvives (some pkg.licenseConcluded) (some pkg.licenseDeclared)

/-- The empty text is clean. -/
theorem spdxClean_empty : spdxClean "" = "" := by decide +kernel

/-- An exported package is read from its lines as what it states exactly when its fields are, or it has no
name. -/
theorem coreComponent_supplied_eq_stated (pkg : SpdxPackage) :
    pkg.supplied.read.coreComponent isWordChar = pkg.stated isWordChar ↔
      (pkg.name ≠ "" → pkg.ReadsBack) := by
  obtain ⟨version, spdxId, concluded, declared, refs⟩ := lastText_supplied pkg
  have name : pkg.supplied.name = spdxClean pkg.name := rfl
  -- The exported lines give each field back as it was cleaned.
  rw [coreComponent_read, SpdxPackage.stated, version, spdxId, concluded, declared, refs, name]
  -- As before: unnamed packages are none, and lost names make a difference.
  by_cases unnamed : pkg.name = ""
  · simp [unnamed, spdxClean_empty, readBack_empty]
  · rw [if_neg unnamed]
    by_cases lost : readBack (spdxClean pkg.name) = ""
    · rw [if_pos lost]
      simp only [reduceCtorEq, ne_eq, unnamed, not_false_eq_true, forall_const, false_iff]
      intro back
      exact unnamed (back.name.symm.trans lost)
    · rw [if_neg lost, Option.some_inj]
      simp only [IngestComponent.mk.injEq, Json.str.injEq, Option.getD_some, filled_some_readBack,
        purlSurvives_iff, ne_eq, unnamed, not_false_eq_true, forall_const, and_true, Option.map_some]
      -- The two licences are compared together.
      have fields := @licenseSurvives_iff isWordChar (some pkg.licenseConcluded) (some pkg.licenseDeclared)
      simp only [Option.map_some] at fields
      constructor
      · rintro ⟨name, version, spdxId, purl, licenses⟩
        exact ⟨name, version, spdxId, purl, fields.mp licenses⟩
      · rintro ⟨name, version, spdxId, purl, licenses⟩
        exact ⟨name, version, spdxId, purl, fields.mpr licenses⟩

/-- Whether the lines of an exported document hold nothing that is read but the fields they are written
for. -/
def SpdxDoc.free (doc : SpdxDoc) : Bool :=
  (headLines doc).all (fun line => (linePairs line).all isFreeHead) &&
    doc.packages.all fun pkg => pkg.supplied.free

/-- An exported document is read alike from both forms exactly when the fields of its packages survive
their lines. -/
theorem exported_agrees_iff {doc : SpdxDoc} (free : doc.free) :
    SameReading isWordChar (.text (serializeSpdxTv doc)) (.json doc.toJson) ↔
      ∀ pkg ∈ doc.packages, pkg.name ≠ "" → pkg.ReadsBack := by
  -- The document is the head, the lines of the packages, and no relationship.
  simp only [SpdxDoc.free, Bool.and_eq_true, List.all_eq_true] at free
  have written : serializeSpdxTv doc = writeLines (headLines doc ++
      (doc.packages.map SpdxPackage.supplied).flatMap SuppliedPackage.toLines ++
      [].map SuppliedRelationship.toLine) := by
    simp only [serializeSpdxTv, List.flatMap_map, toLines_supplied, List.map_nil, List.append_nil]
  -- The tag-value side.
  obtain ⟨components, dependencies⟩ := @spdxTvToCdx_writeLines isWordChar (headLines doc)
    (doc.packages.map SpdxPackage.supplied) []
    (fun line within => List.all_eq_true.mpr (free.1 line within))
    (List.forall_mem_map.mpr free.2) (by simp)
  rw [← written] at components dependencies
  -- The JSON side: the version tells the format, and the relationships are not written.
  have version : doc.toJson.get? "spdxVersion" = some (.str doc.spdxVersion) := rfl
  have format : doc.toJson.get? "bomFormat" = none := by
    simp [SpdxDoc.toJson, get?_cons, get?_listField]
  have related : orEmptyList (doc.toJson.get? "relationships") = some [] := by
    have none : doc.toJson.get? "relationships" = none := by
      simp [SpdxDoc.toJson, get?_cons, get?_listField]
    rw [none]
    rfl
  -- Its packages are read as they are stated.
  obtain ⟨found, read, listed, edges⟩ := @spdxJsonToCdx_packages isWordChar SpdxPackage doc.toJson
    doc.packages SpdxPackage.toJson (SpdxPackage.stated isWordChar) []
    [("created", .str doc.created), ("creators", .arr (doc.creators.map .str))]
    rfl (fun _ => rfl) jsonComponent_exported related rfl
  -- Both readings are there, and the edges agree.
  have json : toCyclonedx isWordChar (.json doc.toJson) = some (.inr found) := by
    simp [toCyclonedx, version, format, read]
  have text : toCyclonedx isWordChar (.text (serializeSpdxTv doc)) =
      some (.inr (spdxTvToCdx isWordChar (serializeSpdxTv doc))) := toCyclonedx_tv doc.spdxVersion _
  rw [sameReading_iff text json (dependencies.trans edges.symm)]
  -- Nothing but the core is stated of an exported package.
  have core (pkg : SpdxPackage) :
      (pkg.stated isWordChar).map IngestComponent.core = pkg.stated isWordChar := by
    by_cases unnamed : pkg.name = "" <;> simp [SpdxPackage.stated, unnamed, IngestComponent.core]
  rw [components, listed, List.map_filterMap, List.filterMap_map]
  simp only [core]
  -- Package by package again.
  refine (filterMap_eq_iff ?_).trans ?_
  · intro pkg _ unstated
    have unnamed : pkg.name = "" := by
      by_contra named
      simp [SpdxPackage.stated, named] at unstated
    have name : pkg.supplied.name = spdxClean pkg.name := rfl
    rw [Function.comp_apply, coreComponent_read, name, unnamed, spdxClean_empty, readBack_empty, if_pos rfl]
  · exact forall₂_congr fun pkg _ => coreComponent_supplied_eq_stated pkg

/-- Whether the fields of a component of a scan survive the lines that they are written on. -/
structure SbomRow.SurvivesLines (licensesByCv : CvRef → ObservationKind → List LicenseEntry)
    (row : SbomRow) : Prop where
  name : readBack (spdxClean row.name) = row.name
  version : readBack (spdxClean row.version) = row.version
  spdxId : readBack (spdxIdForComponent row.componentVersionId) =
    spdxIdForComponent row.componentVersionId
  purl : ∀ purl ∈ nonEmpty row.purl, isToken purl
  licenses :
    let declared := licensesByCv row.componentVersionId .declared
    let concluded := licensesByCv row.componentVersionId .concluded
    LicenseSurvives (some (spdxLicenseExpr (if concluded ≠ [] then concluded else declared)))
      (some (spdxLicenseExpr declared))

/-- The fields of a package are those of its component. -/
theorem readsBack_spdxPackage {env : SbomEnvironment}
    {licensesByCv : CvRef → ObservationKind → List LicenseEntry}
    {annotations : CvRef → Option ComponentPolicyVerdict} {timestamp : String} {row : SbomRow} :
    (spdxPackage env licensesByCv annotations timestamp row).ReadsBack ↔
      row.SurvivesLines licensesByCv := by
  -- Only the purl's condition is rephrased: it has to be one word.
  have purl : PurlSurvives (spdxPackage env licensesByCv annotations timestamp row).externalRefs ↔
      ∀ purl ∈ nonEmpty row.purl, isToken purl := by
    -- Without a purl no reference is written.
    cases given : nonEmpty row.purl with
    | none => simp [spdxPackage, given, PurlSurvives]
    | some purl =>
      have nonempty : purl ≠ "" := by
        rintro rfl
        simp [nonEmpty, Option.filter_eq_some_iff] at given
      have alone : (spdxPackage env licensesByCv annotations timestamp row).externalRefs =
          [⟨"PACKAGE-MANAGER", "purl", purl⟩] := by simp [spdxPackage, given]
      rw [alone, purlSurvives_single purl nonempty]
      simp
  -- The four other conditions are the same on both sides.
  constructor
  · rintro ⟨name, version, spdxId, same, licenses⟩
    exact ⟨name, version, spdxId, purl.mp same, licenses⟩
  · rintro ⟨name, version, spdxId, same, licenses⟩
    exact ⟨name, version, spdxId, purl.mpr same, licenses⟩

end Exported

/-- A document of two packages, of which the second depends on the first. The first has a reference of
another kind, a licence in its second field and a text that repeats the tag of a reference; the second has the
section of a file. -/
def plainDoc : SuppliedDoc where
  name := "doc"
  created := "2026-01-01T00:00:00Z"
  packages := [⟨"alpha", [.spdxId "SPDXRef-alpha", .version "1.2.3", .licenseConcluded "NOASSERTION",
      .licenseDeclared "MIT", .externalRef ⟨"SECURITY", "cpe23Type", "cpe:2.3:a:x:alpha"⟩,
      .externalRef ⟨"PACKAGE-MANAGER", "purl", "pkg:npm/alpha@1.2.3"⟩,
      .other "PackageComment" "<text>was\nExternalRef: PACKAGE-MANAGER purl pkg:npm/old@1</text>"], []⟩,
    ⟨"beta", [.spdxId "SPDXRef-beta"], [[("FileName", "./b.c"), ("FileCopyrightText", "NONE")]]⟩]
  relationships := [⟨"SPDXRef-beta", "DEPENDS_ON", "SPDXRef-alpha"⟩]

/-- A scan of two components, of which one has a package URL, a description and a licence. -/
def plainInput : SbomInput where
  project := ⟨"p", "demo"⟩
  scan := some ⟨"s", .source, [("stage_timings", .obj [])]⟩
  rows := [⟨"c", "zlib", "1.3", none, some "compression\nlibrary", some "pkg:generic/zlib@1.3", true⟩,
    ⟨"d", "beta", "2.0", none, none, none, false⟩]
  licensesByCv := fun ref kind => if ref = "c" ∧ kind = .declared then [⟨some "Zlib", "zlib License"⟩] else []
  vulnRows := []
  timestamp := "1970-01-01T00:00:00.000Z"
  edges := []
  unscanned := nofun

/-- A document of one package that is followed by the section of a file. -/
def filedDoc : SuppliedDoc where
  name := "doc"
  created := "2026-01-01T00:00:00Z"
  packages := [⟨"alpha", [.spdxId "SPDXRef-alpha"], [[("FileName", "./a.c"), ("SPDXID", "SPDXRef-a-c")]]⟩]
  relationships := []

/-- A scan of one component whose description has a line separator. -/
def separatedInput : SbomInput where
  project := ⟨"p", "demo"⟩
  scan := some ⟨"s", .source, [("stage_timings", .obj [])]⟩
  rows := [⟨"c", "zlib", "1.3", none, some "compression\u2028PackageName: forged", none, true⟩]
  licensesByCv := fun _ _ => []
  vulnRows := []
  timestamp := "1970-01-01T00:00:00.000Z"
  edges := []
  unscanned := nofun

end Trusca
