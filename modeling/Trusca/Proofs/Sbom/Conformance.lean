import Trusca.Data.Outcome
import Trusca.Sbom.Conformance

/-! Scoring a submission fails on a nesting without end, on a package URL that is no text, and on names that
cannot be cleaned character by character; on nothing else. -/

namespace Trusca

variable {ν : Type}

section Statements

/-- A value whose characters can be cleaned one by one. -/
def Iterable : PyJson ν → Prop
  | .str _ => True
  | .arr items => ∀ item ∈ items, ∃ code, item = .str [code]
  | .obj fields => ∀ field ∈ fields, ∃ code, field.1 = [code]
  | .null | .bool _ | .num _ => False

variable (py : PyRuntime ν)

/-- The first items have names that can be cleaned, if they count as true at all. -/
def CleanNames (items : List (PyJson ν)) : Prop :=
  ∀ item ∈ items.take missingCap, ∀ name, item.get? "name" = some name → py.truthy (some name) = true →
    Iterable name

/-- The package URLs of the packages are texts, if they count as true at all. -/
def TextLocators (packages : List (PyJson ν)) : Prop :=
  ∀ package ∈ packages, ∀ reference ∈ PyJson.asList (package.get? "externalRefs"),
    reference.isDict = true → PyJson.isText (reference.get? "referenceType") "purl" = true →
      ∀ locator, reference.get? "referenceLocator" = some locator → py.truthy (some locator) = true →
        ∃ text, locator = .str text

/-- Whether an object is a CycloneDX document. -/
def isCyclonedx (doc : PyJson ν) : Bool :=
  PyJson.isText (doc.get? "bomFormat") "CycloneDX" && isGiven (doc.get? "specVersion")

/-- What a CycloneDX document must meet: the first components that could have a package URL and have none. -/
def CleanCyclonedx (doc : PyJson ν) : Prop :=
  CleanNames py ((iterComponents (doc.get? "components")).filter fun c =>
    !isUnmeasurable c && !py.truthy (c.get? "purl"))

/-- What an SPDX document must meet: its package URLs, and the first packages without a name or version, and
without a package URL. -/
def CleanSpdx (doc : PyJson ν) : Prop :=
  TextLocators py (spdxPackages doc) ∧
    CleanNames py ((spdxPackages doc).filter fun p =>
      !py.truthy (p.get? "name") || !py.truthy (p.get? "versionInfo")) ∧
    CleanNames py ((spdxPackages doc).filter fun p => (extPurls py p).isEmpty)

/-- What submitted bytes must meet. -/
def CleanSubmission (upload : SubmittedSbom ν) : Prop :=
  match upload.loaded with
  | .tooDeep => False
  | .value (.obj fields) =>
      if isCyclonedx (.obj fields) then CleanCyclonedx py (.obj fields)
      else if isGiven ((PyJson.obj fields).get? "spdxVersion") then CleanSpdx py (.obj fields)
      else True
  | _ => True

end Statements

section Rendering

/-- One character is read off a text of one character. -/
theorem oneCharacter_ok {value : PyJson ν} :
    (∃ code, oneCharacter value = .ok code) ↔ ∃ code, value = .str [code] := by
  unfold oneCharacter
  split
  · next code => exact iff_of_true ⟨code, rfl⟩ ⟨code, rfl⟩
  · next other =>
    refine iff_of_false (fun ⟨_, bad⟩ => by cases bad) fun ⟨code, same⟩ => other code same

/-- What can be cleaned is what has characters. -/
theorem sanitizeCharacters_ok {value : PyJson ν} :
    (∃ text, sanitizeCharacters value = .ok text) ↔ Iterable value := by
  -- A text is iterated by characters; numbers, booleans and null are not iterable.
  cases value with
  | str text => exact iff_of_true ⟨_, rfl⟩ trivial
  | null | bool _ | num _ => exact iff_of_false (fun ⟨_, bad⟩ => by cases bad) id
  -- A list is read item by item, and each item has to hash as a character does.
  | arr items =>
    simp only [sanitizeCharacters, bind_ok, pure, Except.pure, Except.ok.injEq, Iterable]
    rw [exists_comm]
    simp only [exists_and_left, exists_eq', and_true]
    rw [mapM_ok]
    exact forall₂_congr fun item _ => oneCharacter_ok
  -- A mapping is iterated by its keys, which are texts.
  | obj fields =>
    simp only [sanitizeCharacters, bind_ok, pure, Except.pure, Except.ok.injEq, Iterable]
    rw [exists_comm]
    simp only [exists_and_left, exists_eq', and_true]
    rw [mapM_ok]
    refine forall₂_congr fun field _ => ?_
    rw [oneCharacter_ok]
    simp

/-- A check is stored when each name it lists as missing can be. -/
theorem check_asDict_ok {check : ConformanceCheck ν} :
    (∃ stored, check.asDict = .ok stored) ↔ ∀ name ∈ check.missing, Iterable name := by
  simp only [ConformanceCheck.asDict, bind_ok, pure, Except.pure, Except.ok.injEq]
  rw [exists_comm]
  simp only [exists_and_left, exists_eq', and_true]
  rw [mapM_ok]
  exact forall₂_congr fun name _ => sanitizeCharacters_ok

/-- A verdict can be stored when the offending items of all its checks can be cleaned. -/
theorem result_asDict_ok {result : ConformanceResult ν} :
    (∃ stored, result.asDict = .ok stored) ↔
      ∀ check ∈ result.checks, ∀ name ∈ check.missing, Iterable name := by
  simp only [ConformanceResult.asDict, bind_ok, pure, Except.pure, Except.ok.injEq]
  rw [exists_comm]
  simp only [exists_and_left, exists_eq', and_true]
  rw [mapM_ok]
  exact forall₂_congr fun check _ => check_asDict_ok

end Rendering

section Names

variable {py : PyRuntime ν}

/-- What stands in for a name can be stored when the name given is empty or can be. -/
theorem either_iterable {value : Option (PyJson ν)} {text : PyText} :
    Iterable (py.either value (.str text)) ↔
      ∀ name, value = some name → py.truthy (some name) = true → Iterable name := by
  cases value with
  | none => exact iff_of_true trivial fun _ absent => by cases absent
  | some name =>
    simp only [PyRuntime.either, Option.some.injEq, forall_eq']
    split
    · next counts => exact ⟨fun clean _ => clean, fun clean => clean counts⟩
    · next empty => exact iff_of_true trivial fun counts => absurd counts empty

/-- The first raw names of some items can be cleaned when these items have clean names. -/
theorem names_iterable {items : List (PyJson ν)} {text : PyText} :
    (∀ name ∈ capMissing (items.map fun item => py.either (item.get? "name") (.str text)), Iterable name) ↔
      CleanNames py items := by
  unfold capMissing CleanNames
  rw [← List.map_take, List.forall_mem_map]
  exact forall₂_congr fun _ _ => either_iterable

/-- Names that are written as texts can always be cleaned. -/
theorem written_iterable {items : List (PyJson ν)} {write : PyJson ν → PyText} :
    ∀ name ∈ capMissing (items.map fun item => (.str (write item) : PyJson ν)), Iterable name := by
  intro name mem
  obtain ⟨_, _, rfl⟩ := List.mem_map.1 (List.mem_of_mem_take mem)
  trivial

/-- Every name the generic check lists can be stored. -/
theorem genericComponents_iterable {components : List (PyJson ν)} :
    ∀ name ∈ capMissing (genericComponents py components), Iterable name := by
  intro name mem
  obtain ⟨component, _, found⟩ := List.mem_filterMap.1 (List.mem_of_mem_take mem)
  -- Only a text is taken for a name.
  split at found
  · split at found
    · cases found
      trivial
    · cases found
  · cases found

/-- The names listed as lacking a purl can be stored when the components are named cleanly. -/
theorem missPurl_iterable {components : List (PyJson ν)} :
    (∀ name ∈ capMissing (missPurl py (components.filter fun c => !isUnmeasurable c)), Iterable name) ↔
      CleanNames py (components.filter fun c => !isUnmeasurable c && !py.truthy (c.get? "purl")) := by
  unfold missPurl
  rw [names_iterable, List.filter_filter]
  simp only [Bool.and_comm]

end Names

section Scorers

variable {py : PyRuntime ν} {thresholds : ConformanceThresholds}

/-- A check without offending items, or with such that can be cleaned. -/
def CleanChecks (checks : List (ConformanceCheck ν)) : Prop :=
  ∀ check ∈ checks, ∀ name ∈ check.missing, Iterable name

/-- The baselines name their subjects as texts. -/
theorem evaluateRegistry_clean (spec : RegistrySpec ν) (doc : PyJson ν) :
    CleanChecks (evaluateRegistry spec doc) := by
  intro check mem name named
  obtain ⟨element, _, rfl⟩ := List.mem_map.1 mem
  -- Whatever the element's rule, the missing names are texts.
  have texts : ∃ texts : List PyText, (evaluateElement spec doc element).missing = texts.map .str := by
    unfold evaluateElement
    dsimp only
    split
    · split
      · exact ⟨[], rfl⟩
      · split_ifs <;> exact ⟨_, rfl⟩
    · split
      · exact ⟨[], rfl⟩
      · split <;> exact ⟨[], rfl⟩
  obtain ⟨texts, same⟩ := texts
  rw [same] at named
  obtain ⟨_, _, rfl⟩ := List.mem_map.1 named
  trivial

/-- Two lists of checks are clean when each of them is. -/
theorem cleanChecks_append {first second : List (ConformanceCheck ν)} :
    CleanChecks (first ++ second) ↔ CleanChecks first ∧ CleanChecks second := by
  simp only [CleanChecks, List.forall_mem_append]

/-- A list of checks is clean when its first and the rest are. -/
theorem cleanChecks_cons {check : ConformanceCheck ν} {rest : List (ConformanceCheck ν)} :
    CleanChecks (check :: rest) ↔ (∀ name ∈ check.missing, Iterable name) ∧ CleanChecks rest :=
  List.forall_mem_cons

/-- No checks are clean. -/
theorem cleanChecks_nil : CleanChecks ([] : List (ConformanceCheck ν)) := fun _ mem => by cases mem

/-- Of the checks on a CycloneDX document one keeps the names as they stand. -/
theorem cdxCoreChecks_clean {doc : PyJson ν} :
    CleanChecks (cdxCoreChecks py thresholds doc).checks ↔ CleanCyclonedx py doc := by
  have none : ∀ name ∈ ([] : List (PyJson ν)), Iterable name := fun _ mem => by cases mem
  unfold cdxCoreChecks CleanCyclonedx
  rw [← missPurl_iterable]
  simp only [cleanChecks_cons, cleanChecks_nil, missNameVersion, and_true]
  constructor
  · -- Of the checks only the one over missing purls can hold anything else.
    rintro ⟨-, -, -, -, purls, -⟩
    exact purls
  · intro clean
    exact ⟨none, none, none, written_iterable, clean, genericComponents_iterable, none, none, none, none,
      none, none, none, written_iterable, none⟩

/-- The checks of a CycloneDX document are clean when the document is. -/
theorem cdxChecks_clean {baselines : List (RegistrySpec ν)} {doc : PyJson ν} :
    CleanChecks (cdxChecks py thresholds baselines doc).checks ↔ CleanCyclonedx py doc := by
  simp only [cdxChecks]
  rw [cleanChecks_append, cdxCoreChecks_clean]
  refine and_iff_left fun check mem => ?_
  obtain ⟨spec, _, own⟩ := List.mem_flatMap.1 mem
  exact evaluateRegistry_clean spec doc check own

/-- The checks of a tag-value document are always clean. -/
theorem spdxTvChecks_clean {text : PyText} : CleanChecks (spdxTvChecks text : ScoreResult ν).checks := by
  have none : ∀ name ∈ ([] : List (PyJson ν)), Iterable name := fun _ mem => by cases mem
  unfold spdxTvChecks
  simp only [cleanChecks_cons, cleanChecks_nil, and_true]
  exact ⟨none, none, none, none, none, none, none, none, none⟩

end Scorers

section Spdx

variable {py : PyRuntime ν} {thresholds : ConformanceThresholds}

/-- A locator is judged when it is a text. -/
theorem genericLocator_ok {locator : PyJson ν} :
    (∃ found, genericLocator locator = .ok found) ↔ ∃ text, locator = .str text := by
  unfold genericLocator
  split
  · next text => exact iff_of_true ⟨_, rfl⟩ ⟨text, rfl⟩
  · next other => exact iff_of_false (fun ⟨_, bad⟩ => by cases bad) fun ⟨text, same⟩ => other text same

/-- What stands in for a locator is a text when the locator given is empty or one. -/
theorem either_text {value : Option (PyJson ν)} {text : PyText} :
    (∃ own, py.either value (.str text) = .str own) ↔
      ∀ locator, value = some locator → py.truthy (some locator) = true → ∃ own, locator = .str own := by
  cases value with
  | none => exact iff_of_true ⟨text, rfl⟩ fun _ absent => by cases absent
  | some locator =>
    simp only [PyRuntime.either, Option.some.injEq, forall_eq']
    split
    · next counts => exact ⟨fun own _ => own, fun own => own counts⟩
    · next empty => exact iff_of_true ⟨text, rfl⟩ fun counts => absurd counts empty

/-- The package URLs can be asked for their start when all of them are texts. -/
theorem locators_ok {packages : List (PyJson ν)} :
    (∃ locators, (packages.flatMap (extPurls py)).mapM genericLocator = .ok locators) ↔
      TextLocators py packages := by
  rw [mapM_ok]
  simp only [genericLocator_ok, List.mem_flatMap, extPurls, List.mem_map, List.mem_filter, Bool.and_eq_true]
  constructor
  · intro texts package mem reference refMem isObject isPurl
    exact either_text.1 (texts _ ⟨package, mem, reference, ⟨refMem, isObject, isPurl⟩, rfl⟩)
  · rintro texts _ ⟨package, mem, reference, ⟨refMem, isObject, isPurl⟩, rfl⟩
    exact either_text.2 (texts package mem reference refMem isObject isPurl)

/-- What the scorer for SPDX documents does: it asks the package URLs, and keeps the names of two checks as they
stand. -/
theorem spdxJsonChecks_spec {doc : PyJson ν} {score : ScoreResult ν}
    (scored : spdxJsonChecks py thresholds doc = .ok score) :
    TextLocators py (spdxPackages doc) ∧
      (CleanChecks score.checks ↔
        CleanNames py ((spdxPackages doc).filter fun p =>
            !py.truthy (p.get? "name") || !py.truthy (p.get? "versionInfo")) ∧
          CleanNames py ((spdxPackages doc).filter fun p => (extPurls py p).isEmpty)) := by
  have none : ∀ name ∈ ([] : List (PyJson ν)), Iterable name := fun _ mem => by cases mem
  obtain ⟨locators, asked, rest⟩ := bind_ok.1 scored
  cases rest
  refine ⟨locators_ok.1 ⟨locators, asked⟩, ?_⟩
  -- The locators are texts, so the names cut from them are.
  have texts : ∀ name ∈ capMissing (locators.reduceOption.map (.str : PyText → PyJson ν)), Iterable name := by
    intro name mem
    obtain ⟨_, _, rfl⟩ := List.mem_map.1 (List.mem_of_mem_take mem)
    trivial
  rw [← names_iterable, ← names_iterable]
  -- Of the checks only the two over the packages' names can hold anything else.
  simp only [cleanChecks_cons, cleanChecks_nil, and_true]
  constructor
  · rintro ⟨-, -, -, names, purls, -⟩
    exact ⟨names, purls⟩
  · rintro ⟨names, purls⟩
    exact ⟨none, none, none, names, purls, texts, none, none, none⟩

/-- An SPDX document is scored with clean checks when the document is clean. -/
theorem spdxJsonChecks_clean {doc : PyJson ν} :
    (∃ score, spdxJsonChecks py thresholds doc = .ok score ∧ CleanChecks score.checks) ↔ CleanSpdx py doc := by
  constructor
  · -- The score was given, so the locators were texts.
    rintro ⟨score, scored, clean⟩
    obtain ⟨texts, names⟩ := spdxJsonChecks_spec scored
    exact ⟨texts, names.1 clean⟩
  · -- With locators that are texts the score is given.
    rintro ⟨texts, names⟩
    obtain ⟨locators, asked⟩ := locators_ok.2 texts
    have scored : ∃ score, spdxJsonChecks py thresholds doc = .ok score :=
      ⟨_, bind_ok.2 ⟨locators, asked, rfl⟩⟩
    obtain ⟨score, scored⟩ := scored
    exact ⟨score, scored, (spdxJsonChecks_spec scored).2.2 names⟩

end Spdx

section Submission

variable (py : PyRuntime ν) (thresholds : ConformanceThresholds) (baselines : List (RegistrySpec ν))
variable (upload : SubmittedSbom ν)

/-- A submission is scored when its format is told and its scorer returns. -/
theorem evaluateConformance_ok :
    (∃ result stored, evaluateConformance py thresholds baselines upload = .ok result ∧
        result.asDict = .ok stored) ↔
      ∃ format, detectFormat upload = .ok format ∧
        ∃ score, scoreFormat py thresholds baselines upload.text format = .ok score ∧
          CleanChecks score.checks := by
  unfold evaluateConformance
  constructor
  · -- The three steps, each of which has to return.
    rintro ⟨result, stored, scored, written⟩
    obtain ⟨format, told, rest⟩ := bind_ok.1 scored
    obtain ⟨score, checked, made⟩ := bind_ok.1 rest
    cases made
    exact ⟨format, told, score, checked, result_asDict_ok.1 ⟨stored, written⟩⟩
  · rintro ⟨format, told, score, checked, clean⟩
    simp only [told, checked, bind, Except.bind, pure, Except.pure, Except.ok.injEq, exists_and_left,
      exists_eq_left']
    exact result_asDict_ok.2 clean

/-- A CycloneDX document is scored with clean checks when the document is clean. -/
theorem scoreFormat_cyclonedx {doc : PyJson ν} :
    (∃ score, scoreFormat py thresholds baselines upload.text (.cyclonedx doc) = .ok score ∧
        CleanChecks score.checks) ↔ CleanCyclonedx py doc := by
  simp only [scoreFormat, Except.ok.injEq, exists_eq_left', cdxChecks_clean]

/-- A text that is no JSON document of a known kind is always scored. -/
theorem scoreFormat_tagValue :
    ∃ score, scoreFormat py thresholds baselines upload.text (detectTagValue upload.text) = .ok score ∧
      CleanChecks score.checks := by
  unfold detectTagValue
  split
  · exact ⟨_, rfl, spdxTvChecks_clean⟩
  · refine ⟨_, rfl, ?_⟩
    simp only [cleanChecks_cons, cleanChecks_nil, and_true]
    intro name mem
    cases mem

/-- An object is taken for the format its fields name. -/
theorem detectFormat_object {fields : List (PyText × PyJson ν)} (loaded : upload.loaded = .value (.obj fields)) :
    detectFormat upload =
      if isCyclonedx (.obj fields) then .ok (.cyclonedx (.obj fields))
      else if isGiven ((PyJson.obj fields).get? "spdxVersion") then .ok (.spdxJson (.obj fields))
      else .ok (detectTagValue upload.text) := by
  unfold detectFormat
  rw [loaded]
  rfl

/-- Scoring returns, and its verdict can be stored, exactly on clean submissions. -/
theorem evaluateConformance_returns_iff :
    (∃ result stored, evaluateConformance py thresholds baselines upload = .ok result ∧
        result.asDict = .ok stored) ↔ CleanSubmission py upload := by
  rw [evaluateConformance_ok]
  unfold CleanSubmission
  split
  · -- Too deep: the loader raises, and no submission that deep is clean.
    next deep => simp only [detectFormat, deep, reduceCtorEq, false_and, exists_false]
  · next fields loaded =>
    -- An object: the format is told from its fields.
    rw [detectFormat_object upload loaded]
    split_ifs
    · simp only [Except.ok.injEq, exists_eq_left']
      exact scoreFormat_cyclonedx py thresholds baselines upload
    · simp only [Except.ok.injEq, exists_eq_left']
      exact spdxJsonChecks_clean
    · simp only [Except.ok.injEq, exists_eq_left', iff_true]
      exact scoreFormat_tagValue py thresholds baselines upload
  · -- Neither: the text is read as tag-value, which always returns.
    next notDeep notObject =>
    have told : detectFormat upload = .ok (detectTagValue upload.text) := by
      unfold detectFormat
      split
      · next deep => exact absurd deep notDeep
      · next fields loaded => exact absurd loaded (notObject fields)
      · rfl
    simp only [told, Except.ok.injEq, exists_eq_left', iff_true]
    exact scoreFormat_tagValue py thresholds baselines upload

/-- A document with one component, whose name is a number. -/
def numberedDocument : SubmittedSbom Nat where
  text := PyText.of "\x7b\"bomFormat\":\"CycloneDX\",\"specVersion\":\"1.6\",\"components\":[\x7b\"name\":5\x7d]\x7d"
  loaded := .value (.obj [
    (PyText.of "bomFormat", .str (PyText.of "CycloneDX")),
    (PyText.of "specVersion", .str (PyText.of "1.6")),
    (PyText.of "components", .arr [.obj [(PyText.of "name", .num 5)]])])

/-- The numbers of a document are its own numerals. -/
def numerals : PyRuntime Nat where
  nonzero number := number != 0
  render
    | .num number => PyText.of (toString number)
    | _ => []

/-- No run stores a result for the document whose name is a number. -/
theorem evaluateConformance_numberedDocument :
    ¬ ∃ baselines result stored,
      evaluateConformance numerals ⟨90, 80, 80, 80⟩ baselines numberedDocument = .ok result ∧
        result.asDict = .ok stored := by
  rintro ⟨baselines, returned⟩
  obtain ⟨format, told, scored⟩ := (evaluateConformance_ok _ _ _ _).1 returned
  cases told
  have clean := (scoreFormat_cyclonedx _ _ _ _).1 scored
  exact clean (.obj [(PyText.of "name", .num 5)]) (.head _) (.num 5) rfl rfl

end Submission

end Trusca
