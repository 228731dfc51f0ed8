import Mathlib.Data.List.ReduceOption
import Trusca.Proofs.Triage.Update
import Trusca.Triage.VexExport

/-! An exported VEX document, imported back, puts every finding in the status its dialect can
tell. -/

namespace Trusca

open Store

variable {scope : TriageScope} {db : TriageDb}

/-- The status a dialect can tell of a finding: what the import makes of the exported one. -/
def VexFormat.canonical : VexFormat → FindingStatus → FindingStatus
  -- Nothing leads back into the inbox, and neither dialect knows a suppressed finding.
  | _, .new => .analyzing
  | _, .suppressed => .notAffected
  -- OpenVEX does not tell a false positive from a finding that does not apply.
  | .openvex, .falsePositive => .notAffected
  | _, status => status

/-- A text the import reads back as it stands. -/
def Trimmed (text : String) : Prop := strip text = text ∧ text ≠ ""

instance (text : String) : Decidable (Trimmed text) := inferInstanceAs (Decidable (_ ∧ _))

/-- A text without characters is the empty one. -/
theorem of_eq_nil {text : String} : PyText.of text = [] ↔ text = "" := @PyText.of_inj text ""

/-- A trimmed text is read as itself. -/
theorem asStr_trimmed {text : String} (trimmed : Trimmed text) :
    asStr (some (.str (PyText.of text))) = some (PyText.of text) := by
  simp [asStr, PyText.strip_of, trimmed.1, of_eq_nil, trimmed.2]

section Texts

/-- A text without half of a pair. -/
def WholeText (text : PyText) : Prop := ∀ code ∈ text, isSurrogate code = false

/-- Such a text can be written. -/
theorem text?_of_whole {text : PyText} (whole : WholeText text) : text.text?.isSome := by
  have none_within : text.any isSurrogate = false :=
    List.any_eq_false.mpr fun code member => Bool.eq_false_iff.mp (whole code member)
  rw [PyText.text?, none_within]
  rfl

/-- A text without surrogates is whole. -/
theorem whole_of (text : String) : WholeText (PyText.of text) := by
  intro code member
  obtain ⟨character, -, rfl⟩ := List.mem_map.mp member
  exact isSurrogate_toNat character

/-- What is left of a text is whole when the text is. -/
theorem WholeText.mono {text part : PyText} (whole : WholeText text) (within : ∀ code ∈ part, code ∈ text) :
    WholeText part :=
  fun code member => whole code (within code member)

/-- A code point of a stripped text is one of the text. -/
theorem mem_of_mem_strip {text : PyText} {code : Nat} (member : code ∈ PyText.strip text) : code ∈ text := by
  rw [PyText.strip, List.mem_reverse] at member
  have back := (List.dropWhile_suffix isSpaceCode).mem member
  exact (List.dropWhile_suffix isSpaceCode).mem (List.mem_reverse.mp back)

/-- Cleaning adds nothing to a text. -/
theorem mem_of_mem_cleanText {text : PyText} {code : Nat} (member : code ∈ cleanText text) : code ∈ text :=
  (List.mem_filter.mp (mem_of_mem_strip member)).1

/-- Keep a part of a text, unless a test of the text comes out empty; anything but a text is dropped. -/
def keepPart (test part : PyText → PyText) : Option (PyJson Rat) → Option PyText
  | some (.str text) => if test text = [] then none else some (part text)
  | _ => none

/-- A part of a whole text is whole. -/
theorem whole_keepPart {test part : PyText → PyText} {value : Option (PyJson Rat)} {text : PyText}
    (within : ∀ given, ∀ code ∈ part given, code ∈ given)
    (whole : ∀ given, value = some (.str given) → WholeText given) (kept : keepPart test part value = some text) :
    WholeText text := by
  unfold keepPart at kept
  -- Only a text is kept, and an empty result is dropped.
  split at kept
  · next given =>
    split at kept
    · cases kept
    · cases kept
      exact (whole given rfl).mono (within given)
  · cases kept

/-- What is kept of whole provenance is whole. -/
theorem whole_cleanProvenance {value : Option (PyJson Rat)} {text : PyText}
    (whole : ∀ given, value = some (.str given) → WholeText given) (kept : cleanProvenance value = some text) :
    WholeText text :=
  @whole_keepPart cleanText cleanText value text (fun _ _ => mem_of_mem_cleanText) whole kept

/-- What is kept of a whole justification is whole. -/
theorem whole_cleanJustification {value : Option (PyJson Rat)} {text : PyText}
    (whole : ∀ given, value = some (.str given) → WholeText given) (kept : cleanJustification value = some text) :
    WholeText text :=
  @whole_keepPart cleanText (fun given => (cleanText given).take maxJustificationChars) value text
    (fun _ _ member => mem_of_mem_cleanText (List.mem_of_mem_take member)) whole kept

/-- A whole text that is read is whole. -/
theorem whole_asStr {value : Option (PyJson Rat)} {text : PyText}
    (whole : ∀ given, value = some (.str given) → WholeText given) (kept : asStr value = some text) :
    WholeText text :=
  @whole_keepPart PyText.strip PyText.strip value text (fun _ _ => mem_of_mem_strip) whole kept

/-- The texts that a value is made of when it is written from characters are whole. -/
theorem whole_decoded {value : Option Json} {given : PyText}
    (same : value.map Json.decoded = some (.str given)) : WholeText given := by
  obtain ⟨json, -, read⟩ := Option.map_eq_some_iff.mp same
  cases json <;> cases read
  exact whole_of _

/-- The value under the only key of an object. -/
theorem get?_only {key : String} {value : PyJson Rat} :
    (PyJson.obj [(PyText.of key, value)]).get? key = some value := by
  simp [PyJson.get?]

end Texts

section Statements

variable {row : VexRow}

/-- The import reads the OpenVEX status of a finding as its canonical one. -/
theorem openvexReverseMap_export (status : FindingStatus) :
    ((asStr (some (.str (PyText.of (openvexStatusMap status))))).bind PyText.text?).bind openvexReverseMap =
      some (VexFormat.openvex.canonical status) := by
  cases status <;> decide

/-- The import reads the CycloneDX state of a finding as its canonical status. -/
theorem cyclonedxReverseMap_export (status : FindingStatus) :
    ((asStr (some (.str (PyText.of (cyclonedxStateMap status))))).bind PyText.text?).bind cyclonedxReverseMap =
      some (VexFormat.cyclonedx.canonical status) := by
  cases status <;> decide

/-- What a parsed statement says of an exported finding. -/
structure Restates (format : VexFormat) (row : VexRow) (statement : VexStatement) : Prop where
  vuln : statement.vuln = some (PyText.of row.cveId)
  products : statement.products = [PyText.of row.purl]
  told : statement.vexStatus.isSome = true
  target : statement.target = some (format.canonical row.status)

/-- An OpenVEX statement is read back as the finding it was written from. -/
theorem parseOpenvexStatement_export (cve : Trimmed row.cveId) (purl : Trimmed row.purl) :
    Restates .openvex row (parseOpenvexStatement (openvexStatement row).decoded) := by
  -- The status is a word of the dialect's own vocabulary, which survives stripping.
  have target := openvexReverseMap_export row.status
  have told : (asStr (some (.str (PyText.of (openvexStatusMap row.status))))).isSome = true := by
    cases row.status <;> decide
  have parsed : parseOpenvexStatement (openvexStatement row).decoded =
      ⟨some (PyText.of row.cveId), [PyText.of row.purl], asStr (some (.str (PyText.of (openvexStatusMap row.status)))),
        ((asStr (some (.str (PyText.of (openvexStatusMap row.status))))).bind PyText.text?).bind openvexReverseMap,
        cleanJustification ((openvexStatement row).decoded.get? "impact_statement")⟩ := by
    -- The three fields that the parser reads, as the export has written them.
    have vulnerability : (openvexStatement row).decoded.get? "vulnerability" =
        some (.obj [(PyText.of "name", .str (PyText.of row.cveId))]) := by
      rw [Json.get?_decoded]
      rfl
    have products : (openvexStatement row).decoded.get? "products" =
        some (.arr [.obj [(PyText.of "@id", .str (PyText.of row.purl))]]) := by
      rw [Json.get?_decoded, show (openvexStatement row).get? "products" = some (purlRefs "@id" row.purl) from rfl,
        purlRefs, if_neg purl.2]
      rfl
    have status : (openvexStatement row).decoded.get? "status" =
        some (.str (PyText.of (openvexStatusMap row.status))) := by
      rw [Json.get?_decoded]
      rfl
    -- The statement is an object, so the parser takes its fields.
    have object : ∃ fields, (openvexStatement row).decoded = .obj fields := ⟨_, rfl⟩
    obtain ⟨fields, object⟩ := object
    rw [object] at vulnerability products status ⊢
    simp [parseOpenvexStatement, vulnerability, products, status, PyJson.asList, get?_only, asStr_trimmed cve,
      asStr_trimmed purl]
  rw [parsed]
  exact ⟨rfl, rfl, told, target⟩

/-- A CycloneDX entry is read back as the finding it was written from. -/
theorem parseCyclonedxStatement_export (cve : Trimmed row.cveId) (purl : Trimmed row.purl) :
    Restates .cyclonedx row (parseCyclonedxStatement (cyclonedxVulnerability row).decoded) := by
  -- The exported state reads back as the status it stands for.
  have target := cyclonedxReverseMap_export row.status
  have told : (asStr (some (.str (PyText.of (cyclonedxStateMap row.status))))).isSome = true := by
    cases row.status <;> decide
  have analysis : (cyclonedxVulnerability row).get? "analysis" = some (.obj (("state",
      .str (cyclonedxStateMap row.status)) :: textField "detail" row.justification)) := rfl
  -- The statement, field by field as the reader finds it.
  have parsed : parseCyclonedxStatement (cyclonedxVulnerability row).decoded =
      ⟨some (PyText.of row.cveId), [PyText.of row.purl], asStr (some (.str (PyText.of (cyclonedxStateMap row.status)))),
        ((asStr (some (.str (PyText.of (cyclonedxStateMap row.status))))).bind PyText.text?).bind cyclonedxReverseMap,
        cleanJustification ((Json.obj (("state", .str (cyclonedxStateMap row.status)) ::
          textField "detail" row.justification)).decoded.get? "detail")⟩ := by
    -- The identifier, the reference and the analysis under their own keys.
    have id : (cyclonedxVulnerability row).decoded.get? "id" = some (.str (PyText.of row.cveId)) := by
      rw [Json.get?_decoded]
      rfl
    have affects : (cyclonedxVulnerability row).decoded.get? "affects" =
        some (.arr [.obj [(PyText.of "ref", .str (PyText.of row.purl))]]) := by
      rw [Json.get?_decoded,
        show (cyclonedxVulnerability row).get? "affects" = some (purlRefs "ref" row.purl) from rfl,
        purlRefs, if_neg purl.2]
      rfl
    have told : (cyclonedxVulnerability row).decoded.get? "analysis" = some (Json.obj (("state",
        .str (cyclonedxStateMap row.status)) :: textField "detail" row.justification)).decoded := by
      rw [Json.get?_decoded, analysis]
      rfl
    have state : (Json.obj (("state", .str (cyclonedxStateMap row.status)) ::
        textField "detail" row.justification)).decoded.get? "state" =
          some (.str (PyText.of (cyclonedxStateMap row.status))) := by
      rw [Json.get?_decoded]
      rfl
    -- The exported entry is an object, and so is its analysis.
    have object : ∃ fields, (cyclonedxVulnerability row).decoded = .obj fields := ⟨_, rfl⟩
    obtain ⟨fields, object⟩ := object
    rw [object] at id affects told ⊢
    have inner : ∃ fields, (Json.obj (("state", .str (cyclonedxStateMap row.status)) ::
        textField "detail" row.justification)).decoded = .obj fields := ⟨_, rfl⟩
    obtain ⟨inner_fields, inner⟩ := inner
    rw [inner] at told state ⊢
    simp [parseCyclonedxStatement, id, affects, told, state, PyJson.asList, get?_only, asStr_trimmed cve,
      asStr_trimmed purl]
  rw [parsed]
  exact ⟨rfl, rfl, told, target⟩

end Statements

section Steps

/-- A finding always has a legal path to its canonical status, and anybody may take it. -/
theorem canonical_path (format : VexFormat) (status : FindingStatus) (actor : CurrentUser)
    (team : GroupId) :
    ∃ path, legalPath status (format.canonical status) = some path ∧
      refusedHop actor team status path = none ∧
      path.getLastD status = format.canonical status := by
  -- No path to a canonical status enters `suppressed`, the one status with a role of its own.
  cases format <;> cases status
  all_goals first
    | exact ⟨[], rfl, rfl, rfl⟩
    | exact ⟨[.analyzing], rfl, rfl, rfl⟩
    | exact ⟨[.analyzing, .notAffected], rfl, rfl, rfl⟩

/-- The hops of a path end in its last status and touch only their own finding. -/
theorem applyHops_find? (now : Time) (path : List FindingStatus) {finding : VulnerabilityFinding}
    (present : db.findings.find? finding.id = some finding) :
    (applyHops now db finding path).2.id = finding.id ∧
      (applyHops now db finding path).2.status = path.getLastD finding.status ∧
      ∀ id, (applyHops now db finding path).1.findings.find? id =
        if id = finding.id then some (applyHops now db finding path).2
        else db.findings.find? id := by
  -- The finding changes with every hop, so it stays quantified over along the path.
  induction path generalizing db finding with
  | nil =>
    refine ⟨rfl, rfl, fun id => ?_⟩
    split
    · rename_i mine
      rw [mine]
      exact present
    · rfl
  | cons step rest ih =>
    have hopped : ∀ id, (db.flush (finding.hop step now) none).findings.find? id =
        if id = finding.id then some (finding.hop step now) else db.findings.find? id :=
      TriageDb.flush_find?_stored (finding.hop step now) present none
    have stored : (db.flush (finding.hop step now) none).findings.find? (finding.hop step now).id =
        some (finding.hop step now) :=
      TriageDb.flush_find?_self (finding.hop step now) present none
    -- The later hops start from the hopped finding, which has the same id.
    obtain ⟨id, status, others⟩ := ih stored
    refine ⟨id, ?_, fun other => ?_⟩
    · rw [List.getLastD_cons]
      exact status
    · have moved := others other
      rw [hopped] at moved
      refine moved.trans ?_
      show (if other = finding.id then _ else _) = _
      split
      · rfl
      · rfl

/-- A statement about a finding puts it in its canonical status and touches nothing else. -/
theorem applyToFinding_canonical {run : VexImport} (format : VexFormat) (summary : VexSummary)
    (statement : VexStatement) {finding : VulnerabilityFinding}
    (free : run.scope.statusesRequiringApproval run.project.id = [])
    (present : db.findings.find? finding.id = some finding) :
    ∃ moved, moved.status = format.canonical finding.status ∧ ∀ id,
      (applyToFinding run db summary statement (format.canonical finding.status)
        finding).1.findings.find? id =
          if id = finding.id then some moved else db.findings.find? id := by
  obtain ⟨path, legal, permitted, last⟩ :=
    canonical_path format finding.status run.actor run.project.teamId
  unfold applyToFinding
  rw [legal]
  cases path with
  | nil =>
    -- The finding is there already: the statement is skipped.
    refine ⟨finding, last, fun id => ?_⟩
    show db.findings.find? id = _
    split
    · rename_i mine
      rw [mine]
      exact present
    · rfl
  | cons step rest =>
    -- No hop is gated or refused, so the hops are taken and the stamp follows.
    obtain ⟨id, status, others⟩ := applyHops_find? run.now (step :: rest) present
    have stored : (applyHops run.now db finding (step :: rest)).1.findings.find?
        (run.stamp statement (applyHops run.now db finding (step :: rest)).2).id =
          some (applyHops run.now db finding (step :: rest)).2 := by
      rw [others]
      exact if_pos id
    have none_gated : (step :: rest).filter [].contains = ([] : List FindingStatus) := by simp
    simp only [free, none_gated, List.isEmpty_nil, Bool.not_true, Bool.false_eq_true, if_false,
      permitted]
    refine ⟨run.stamp statement (applyHops run.now db finding (step :: rest)).2, ?_, ?_⟩
    · exact status.trans last
    · intro other
      rw [TriageDb.flush_find?_stored _ stored, others]
      -- The stamp is written to the finding the hops moved.
      have same : (run.stamp statement (applyHops run.now db finding (step :: rest)).2).id =
          finding.id := id
      rw [same]
      split <;> rfl

/-- Importing the statement of one exported finding puts it in its canonical status. -/
theorem importStatement_canonical (run : VexImport) {format : VexFormat} {index : VexIndex}
    {state : TriageDb × VexSummary} {row : VexRow} {statement : VexStatement}
    {finding : VulnerabilityFinding}
    (free : run.scope.statusesRequiringApproval run.project.id = [])
    (restates : Restates format row statement)
    (single : index.matching (PyText.of row.cveId) (PyText.of row.purl) = [row.findingId])
    (present : state.1.findings.find? row.findingId = some finding)
    (unmoved : finding.status = row.status) :
    ∃ moved, moved.status = format.canonical row.status ∧ ∀ id,
      (importStatement run index state statement).1.findings.find? id =
        if id = row.findingId then some moved else state.1.findings.find? id := by
  -- The statement names one vulnerability, one product and a known status, so it is applied.
  obtain ⟨told, tells⟩ := Option.isSome_iff_exists.mp restates.told
  have key : finding.id = row.findingId := Table.key_of_find? present
  have stored : state.1.findings.find? finding.id = some finding := by
    rw [key]
    exact present
  obtain ⟨moved, status, others⟩ :=
    applyToFinding_canonical format state.2 statement free stored
  refine ⟨moved, unmoved ▸ status, fun id => ?_⟩
  simp only [importStatement, restates.vuln, tells, restates.target, restates.products,
    List.isEmpty_cons, Bool.false_eq_true, if_false, List.foldl_cons, List.foldl_nil,
    importProduct, single, present]
  rw [← unmoved, ← key]
  exact others id

/-- Importing the statements of exported findings puts each one in its canonical status and
leaves every other finding alone. -/
theorem importStatements_canonical {run : VexImport} {format : VexFormat} {index : VexIndex}
    {parse : VexRow → VexStatement}
    (free : run.scope.statusesRequiringApproval run.project.id = []) (rows : List VexRow)
    (state : TriageDb × VexSummary) (distinct : (rows.map VexRow.findingId).Nodup)
    (restates : ∀ row ∈ rows, Restates format row (parse row))
    (single : ∀ row ∈ rows,
      index.matching (PyText.of row.cveId) (PyText.of row.purl) = [row.findingId])
    (present : ∀ row ∈ rows, state.1.status? row.findingId = some row.status) :
    (∀ row ∈ rows, ((rows.map parse).foldl (importStatement run index) state).1.status?
        row.findingId = some (format.canonical row.status)) ∧
      ∀ id, id ∉ rows.map VexRow.findingId →
        ((rows.map parse).foldl (importStatement run index) state).1.findings.find? id =
          state.1.findings.find? id := by
  -- A row is still unmoved when its turn comes, since the rows before it have other ids.
  induction rows generalizing state with
  | nil => exact ⟨by simp, by simp⟩
  | cons row rest ih =>
    rw [List.map_cons, List.nodup_cons] at distinct
    obtain ⟨finding, found, unmoved⟩ := Option.map_eq_some_iff.mp (present row (by simp))
    obtain ⟨moved, status, others⟩ := importStatement_canonical run free
      (restates row (by simp)) (single row (by simp)) found unmoved
    obtain ⟨settled, kept⟩ := ih (importStatement run index state (parse row)) distinct.2
      (fun next member => restates next (by simp [member]))
      (fun next member => single next (by simp [member])) (by
        intro next member
        have different : next.findingId ≠ row.findingId := fun same =>
          distinct.1 (same ▸ List.mem_map_of_mem member)
        rw [TriageDb.status?, others, if_neg different]
        exact present next (by simp [member]))
    refine ⟨fun next member => ?_, fun id fresh => ?_⟩
    · rcases List.mem_cons.mp member with rfl | later
      · -- No later row has this id, so its status stays the canonical one.
        rw [List.map_cons, List.foldl_cons, TriageDb.status?, kept _ distinct.1, others,
          if_pos rfl, Option.map_some, status]
      · exact settled next later
    · rw [List.map_cons, List.mem_cons, not_or] at fresh
      rw [List.map_cons, List.foldl_cons, kept id fresh.2, others, if_neg fresh.1]

end Steps

section Writing

/-- A statement whose status and rationale have no half of a pair. -/
structure WholeStatement (statement : VexStatement) : Prop where
  status : ∀ text ∈ statement.vexStatus, WholeText text
  justification : ∀ text ∈ statement.justification, WholeText text

/-- A statement without status and justification is whole. -/
theorem WholeStatement.silent {statement : VexStatement} (status : statement.vexStatus = none)
    (justification : statement.justification = none) : WholeStatement statement := by
  constructor
  · rw [status]
    exact fun _ absent => absurd absent (Option.not_mem_none _)
  · rw [justification]
    exact fun _ absent => absurd absent (Option.not_mem_none _)

/-- The status and the rationale of a written OpenVEX statement are whole. -/
theorem parseOpenvexStatement_whole (value : Json) : WholeStatement (parseOpenvexStatement value.decoded) := by
  -- A statement that is no object has neither text.
  cases value with
  | obj fields =>
    have found (key : String) {given : PyText}
        (same : (PyJson.obj (Json.decodedFields fields)).get? key = some (.str given)) : WholeText given :=
      whole_decoded ((Json.get?_decoded (.obj fields) key).symm.trans same)
    exact ⟨fun text kept => whole_asStr (fun _ => found "status") (Option.mem_def.mp kept),
      fun text kept => whole_cleanJustification (fun _ => found "impact_statement") (Option.mem_def.mp kept)⟩
  | _ => exact .silent rfl rfl

/-- The status and the rationale of a written CycloneDX entry are whole. -/
theorem parseCyclonedxStatement_whole (value : Json) : WholeStatement (parseCyclonedxStatement value.decoded) := by
  -- By what stands under `analysis`: only there a state or a justification is read.
  cases value with
  | obj fields =>
    have found : (PyJson.obj (Json.decodedFields fields)).get? "analysis" =
        ((Json.obj fields).get? "analysis").map Json.decoded := Json.get?_decoded (.obj fields) "analysis"
    rw [Json.decoded, parseCyclonedxStatement, found]
    dsimp only
    cases (Json.obj fields).get? "analysis" with
    | none => exact .silent rfl rfl
    -- An object's texts are decoded ones, so they are whole; anything else keeps silent.
    | some analysis =>
      cases analysis with
      | obj inner =>
        have within (key : String) {given : PyText}
            (same : (PyJson.obj (Json.decodedFields inner)).get? key = some (.str given)) : WholeText given :=
          whole_decoded ((Json.get?_decoded (.obj inner) key).symm.trans same)
        exact ⟨fun text kept => whole_asStr (fun _ => within "state") (Option.mem_def.mp kept),
          fun text kept => whole_cleanJustification (fun _ => within "detail") (Option.mem_def.mp kept)⟩
      -- Nothing else has a state to be read.
      | _ => exact .silent rfl rfl
  | _ => exact .silent rfl rfl

variable {run : VexImport} {statement : VexStatement}

/-- A statement and a provenance of whole texts can be written. -/
theorem unwritable_of_whole (whole : WholeStatement statement)
    (origin : ∀ field ∈ run.origin, ∀ text ∈ field.2, WholeText text) : run.unwritable statement = false := by
  rw [VexImport.unwritable, List.any_eq_false]
  intro text stamped
  have stamped_whole : WholeText text := by
    rw [VexImport.stampTexts, List.reduceOption_mem_iff, List.mem_cons, List.mem_cons] at stamped
    -- The justification, the status that the file gave, or a field of the origin.
    rcases stamped with own | cleaned | given
    · exact whole.justification text (Option.mem_def.mpr own.symm)
    · refine whole_cleanProvenance (fun given same => ?_) cleaned.symm
      obtain ⟨told, found, equal⟩ := Option.map_eq_some_iff.mp same
      cases equal
      exact whole.status _ found
    · obtain ⟨field, listed, same⟩ := List.mem_map.mp given
      exact origin field listed text (Option.mem_def.mpr same)
  rw [Option.isNone_eq_false_iff.mpr (text?_of_whole stamped_whole)]
  exact Bool.false_ne_true

/-- Applying a whole statement leaves a summary that can be written. -/
theorem applyToFinding_writable (db : TriageDb) {summary : VexSummary} (target : FindingStatus)
    (finding : VulnerabilityFinding) (written : run.unwritable statement = false)
    (before : summary.unwritable = false) :
    (applyToFinding run db summary statement target finding).2.unwritable = false := by
  unfold applyToFinding
  dsimp only
  -- Each refusal comes before the write, so only the last branch looks at the texts.
  split
  · exact before
  · exact before
  · split
    · exact before
    · split
      · exact before
      · rw [before, written]
        rfl

/-- Importing a product gives no finding a text that cannot be written, when the statement has none. -/
theorem importProduct_writable (index : VexIndex) (vuln purl : PyText) (target : FindingStatus)
    {state : TriageDb × VexSummary} (written : run.unwritable statement = false)
    (before : state.2.unwritable = false) :
    (importProduct run index statement vuln target state purl).2.unwritable = false := by
  unfold importProduct
  dsimp only
  -- The product is not found, or found more than once, or there is one finding.
  split
  · split <;> exact before
  · split
    · exact before
    · exact applyToFinding_writable _ _ _ written before
  · exact before

/-- Importing a whole statement leaves a summary that can be written. -/
theorem importStatement_writable (index : VexIndex) {state : TriageDb × VexSummary}
    (written : run.unwritable statement = false) (before : state.2.unwritable = false) :
    (importStatement run index state statement).2.unwritable = false := by
  unfold importStatement
  dsimp only
  -- No identifier, no status or no products, and then one product after the other.
  split
  · exact before
  · exact before
  · exact before
  · split
    · exact before
    · generalize statement.products = products
      induction products generalizing state with
      | nil => exact before
      -- Each product leaves the flag as it was, so the rest starts as the first did.
      | cons purl rest ih => exact ih (importProduct_writable index _ purl _ written before)

/-- Statements that can be written are imported without a failing flush. -/
theorem importStatements_writable (index : VexIndex) (statements : List VexStatement)
    {state : TriageDb × VexSummary} (written : ∀ statement ∈ statements, run.unwritable statement = false)
    (before : state.2.unwritable = false) :
    (statements.foldl (importStatement run index) state).2.unwritable = false := by
  induction statements generalizing state with
  | nil => exact before
  | cons statement rest ih =>
    obtain ⟨here, later⟩ := List.forall_mem_cons.mp written
    exact ih later (importStatement_writable index here before)

end Writing

section Document

variable {texts : VexExport}

/-- The statement the import reads for an exported row. -/
def VexFormat.reread : VexFormat → VexRow → VexStatement
  | .openvex, row => parseOpenvexStatement (openvexStatement row).decoded
  | .cyclonedx, row => parseCyclonedxStatement (cyclonedxVulnerability row).decoded

/-- A row with readable ids is restated by what the import reads for it. -/
theorem reread_restates (format : VexFormat) {row : VexRow} (cve : Trimmed row.cveId)
    (purl : Trimmed row.purl) : Restates format row (format.reread row) := by
  cases format with
  | openvex => exact parseOpenvexStatement_export cve purl
  | cyclonedx => exact parseCyclonedxStatement_export cve purl

/-- The provenance the import reads from an exported document. -/
def VexExport.origin (texts : VexExport) (project : Project) (scan : Option ScanRecord)
    (now : Time) : VexFormat → List (String × Option PyText)
  | .openvex =>
      [("format", some (PyText.of "openvex")),
        ("id", cleanProvenance (some (.str (PyText.of ("https://trustedoss.io/vex/" ++
          texts.projectText project.id ++ "/" ++ texts.deterministicDocUuid project scan))))),
        ("author", cleanProvenance (some (.str (PyText.of "TRUSCA")))),
        ("timestamp", cleanProvenance (some (.str (PyText.of (texts.utcIso now)))))]
  | .cyclonedx =>
      [("format", some (PyText.of "cyclonedx")),
        ("id", cleanProvenance (some (.str (PyText.of ("urn:uuid:" ++
          texts.deterministicDocUuid project scan))))),
        ("author", cleanProvenance (some (.str (PyText.of "TRUSCA")))),
        ("timestamp", cleanProvenance (some (.str (PyText.of (texts.utcIso now)))))]

/-- The provenance of an exported document can be written. -/
theorem origin_whole (texts : VexExport) (project : Project) (scan : Option ScanRecord) (now : Time)
    (format : VexFormat) : ∀ field ∈ texts.origin project scan now format, ∀ text ∈ field.2, WholeText text := by
  have cleaned (given : String) : ∀ text ∈ cleanProvenance (some (.str (PyText.of given))), WholeText text :=
    fun text kept => @whole_cleanProvenance (some (.str (PyText.of given))) text
      (fun other same => by cases same; exact whole_of given) kept
  have literal (given : String) : ∀ text ∈ some (PyText.of given), WholeText text :=
    fun text same => Option.some.inj same ▸ whole_of given
  -- The two formats stamp the same four fields.
  cases format with
  | openvex =>
    simp only [VexExport.origin, List.forall_mem_cons, List.not_mem_nil, false_imp_iff, implies_true, and_true]
    exact ⟨literal _, cleaned _, cleaned _, cleaned _⟩
  | cyclonedx =>
    simp only [VexExport.origin, List.forall_mem_cons, List.not_mem_nil, false_imp_iff, implies_true, and_true]
    exact ⟨literal _, cleaned _, cleaned _, cleaned _⟩

/-- An exported document is recognised as its own dialect, and refused only for its length. -/
theorem detectAndParse_export (texts : VexExport) (scope : TriageScope) (db : TriageDb)
    (limits : VexLimits) {scans : List ScanRecord} {project : Project} {scan : ScanRecord}
    (format : VexFormat) (now : Option Time)
    (current : latestSucceededScan scans project.id project.defaultBranch = some scan) :
    detectAndParse limits (texts.exportVex scope db scans project format now).decoded =
      if limits.maxStatements < (texts.loadFindings scope db scan.id).length then .error .tooLarge
      else .ok ⟨format, (texts.loadFindings scope db scan.id).map format.reread,
        texts.origin project (some scan) (now.getD (deterministicTimestamp (some scan))) format⟩ := by
  unfold VexExport.exportVex
  rw [current]
  dsimp only
  generalize texts.loadFindings scope db scan.id = rows
  generalize now.getD (deterministicTimestamp (some scan)) = timestamp
  cases format with
  | openvex =>
    -- Each row is read back from its own statement.
    have reread : rows.map VexFormat.openvex.reread =
        (rows.map openvexStatement).map fun statement => parseOpenvexStatement statement.decoded := by
      rw [List.map_map]
      rfl
    have size : rows.length = (rows.map openvexStatement).length := by rw [List.length_map]
    -- There is no `bomFormat`, and the statements are an array.
    have recognised : detectAndParse limits
        (texts.buildOpenvexDoc project (some scan) rows timestamp).decoded =
          parseOpenvex limits (texts.buildOpenvexDoc project (some scan) rows timestamp).decoded := by
      have unnamed : (texts.buildOpenvexDoc project (some scan) rows timestamp).decoded.get? "bomFormat" = none := by
        rw [Json.get?_decoded]
        rfl
      have array : (texts.buildOpenvexDoc project (some scan) rows timestamp).decoded.get? "statements" =
          some (.arr ((rows.map openvexStatement).map Json.decoded)) := by
        rw [Json.get?_decoded, ← Json.decodedItems_eq]
        rfl
      have object : ∃ fields, (texts.buildOpenvexDoc project (some scan) rows timestamp).decoded = .obj fields :=
        ⟨_, rfl⟩
      obtain ⟨fields, object⟩ := object
      rw [object] at unnamed array ⊢
      simp [detectAndParse, unnamed, array, PyJson.isText]
    -- The rows and the origin are what the document was built from.
    rw [reread, size, recognised]
    simp [parseOpenvex, VexExport.buildOpenvexDoc, Json.decoded, Json.decodedItems_eq, Json.decodedFields_eq,
      PyJson.get?, VexExport.origin, Function.comp_def]
  | cyclonedx =>
    -- The `bomFormat` decides at once.
    have reread : rows.map VexFormat.cyclonedx.reread =
        (rows.map cyclonedxVulnerability).map fun entry => parseCyclonedxStatement entry.decoded := by
      rw [List.map_map]
      rfl
    have size : rows.length = (rows.map cyclonedxVulnerability).length := by rw [List.length_map]
    have recognised : detectAndParse limits
        (texts.buildCyclonedxDoc project (some scan) rows timestamp).decoded =
          parseCyclonedx limits (texts.buildCyclonedxDoc project (some scan) rows timestamp).decoded := by
      have named : (texts.buildCyclonedxDoc project (some scan) rows timestamp).decoded.get? "bomFormat" =
          some (.str (PyText.of "CycloneDX")) := by
        rw [Json.get?_decoded]
        rfl
      have object : ∃ fields, (texts.buildCyclonedxDoc project (some scan) rows timestamp).decoded = .obj fields :=
        ⟨_, rfl⟩
      obtain ⟨fields, object⟩ := object
      rw [object] at named ⊢
      simp [detectAndParse, named, PyJson.isText]
    rw [reread, size, recognised]
    simp [parseCyclonedx, VexExport.buildCyclonedxDoc, Json.decoded, Json.decodedItems_eq, Json.decodedFields_eq,
      PyJson.get?, cyclonedxAuthor, VexExport.origin, Function.comp_def]

/-- The uniqueness the schema enforces on what identifies a finding. -/
structure UniqueKeys (scope : TriageScope) (db : TriageDb) : Prop where
  externalId : ∀ first ∈ db.findings.rows, ∀ second ∈ db.findings.rows,
    scope.externalId first.vulnerabilityId = scope.externalId second.vulnerabilityId →
      first.vulnerabilityId = second.vulnerabilityId
  purlWithVersion : ∀ first ∈ db.findings.rows, ∀ second ∈ db.findings.rows,
    scope.purlWithVersion first.componentVersionId =
      scope.purlWithVersion second.componentVersionId →
        first.componentVersionId = second.componentVersionId
  finding : ∀ first ∈ db.findings.rows, ∀ second ∈ db.findings.rows,
    first.scanId = second.scanId → first.componentVersionId = second.componentVersionId →
      first.vulnerabilityId = second.vulnerabilityId → first = second

/-- The ids of the scan's findings have no white space at their ends. -/
def ReadableIds (scope : TriageScope) (db : TriageDb) (scan : ScanId) : Prop :=
  ∀ finding ∈ db.findings.rows, finding.scanId = scan →
    Trimmed (scope.externalId finding.vulnerabilityId) ∧
      Trimmed (scope.purlWithVersion finding.componentVersionId)

/-- The exported rows are the findings of the scan. -/
theorem mem_loadFindings {scan : ScanId} {row : VexRow} :
    row ∈ texts.loadFindings scope db scan ↔
      ∃ finding ∈ db.findings.rows, finding.scanId = scan ∧ texts.row scope finding = row := by
  simp [VexExport.loadFindings, and_assoc]

/-- No finding is exported twice. -/
theorem loadFindings_distinct (texts : VexExport) (scope : TriageScope) (db : TriageDb)
    (scan : ScanId) : ((texts.loadFindings scope db scan).map VexRow.findingId).Nodup := by
  unfold VexExport.loadFindings
  have sorted := (List.mergeSort_perm ((db.findings.rows.filter fun finding =>
    finding.scanId = scan).map (texts.row scope)) fun first second =>
      (first.compare texts.collate second).isLE).map VexRow.findingId
  refine sorted.nodup_iff.mpr ?_
  -- Sorting aside, the ids are those of a part of the table.
  rw [List.map_map]
  show ((db.findings.rows.filter _).map VulnerabilityFinding.id).Nodup
  exact db.findings.unique.sublist (List.filter_sublist.map _)

/-- The import matches every exported row with the finding it was written from. -/
theorem matching_export (keys : UniqueKeys scope db) {finding : VulnerabilityFinding}
    (member : finding ∈ db.findings.rows) :
    (loadFindingsIndex scope db finding.scanId).matching
      (PyText.of (scope.externalId finding.vulnerabilityId))
      (PyText.of (scope.purlWithVersion finding.componentVersionId)) = [finding.id] := by
  have rows_nodup : db.findings.rows.Nodup := List.Nodup.of_map _ db.findings.unique
  -- The same ids in the same scan can only be the same finding.
  have only : (db.findings.rows.filter fun other =>
      (other.scanId = finding.scanId ∧
        scope.externalId other.vulnerabilityId = scope.externalId finding.vulnerabilityId ∧
        scope.purlWithVersion other.componentVersionId =
          scope.purlWithVersion finding.componentVersionId)).Perm [finding] := by
    refine (List.perm_ext_iff_of_nodup (rows_nodup.filter _) (List.nodup_singleton _)).mpr ?_
    intro other
    simp only [List.mem_filter, decide_eq_true_eq, List.mem_singleton]
    constructor
    · rintro ⟨stored, scan, vuln, purl⟩
      exact keys.finding other stored finding member scan
        (keys.purlWithVersion other stored finding member purl)
        (keys.externalId other stored finding member vuln)
    · rintro rfl
      exact ⟨member, rfl, rfl, rfl⟩
  have found := List.perm_singleton.mp only
  -- Selecting from the index is selecting the findings and listing their ids.
  unfold VexIndex.matching loadFindingsIndex
  rw [List.filter_map, List.filter_filter, List.map_map]
  have same : (db.findings.rows.filter fun other =>
      (((fun entry : String × String × FindingId => decide (PyText.of entry.1 =
        PyText.of (scope.externalId finding.vulnerabilityId) ∧ PyText.of entry.2.1 =
          PyText.of (scope.purlWithVersion finding.componentVersionId))) ∘ fun other =>
            (scope.externalId other.vulnerabilityId,
              scope.purlWithVersion other.componentVersionId, other.id)) other &&
        decide (other.scanId = finding.scanId))) = [finding] := by
    rw [← found]
    refine List.filter_congr fun other _ => ?_
    simp [Bool.and_comm]
  rw [same]
  rfl

/-- Importing the statements of a scan's exported findings puts each finding of the scan in its
canonical status. -/
theorem importStatements_export {run : VexImport} {scan : ScanId} (format : VexFormat)
    (keys : UniqueKeys scope db) (readable : ReadableIds scope db scan)
    (free : run.scope.statusesRequiringApproval run.project.id = []) (id : FindingId) :
    (((texts.loadFindings scope db scan).map format.reread).foldl
        (importStatement run (loadFindingsIndex scope db scan)) (db, .start)).1.status? id =
      (db.findings.find? id).map fun finding =>
        if finding.scanId = scan then format.canonical finding.status else finding.status := by
  -- Every exported row is restated, matched with one finding, and unmoved at the start.
  have restates : ∀ row ∈ texts.loadFindings scope db scan,
      Restates format row (format.reread row) := by
    intro row member
    obtain ⟨finding, stored, own, rfl⟩ := mem_loadFindings.mp member
    exact reread_restates format (readable finding stored own).1 (readable finding stored own).2
  have single : ∀ row ∈ texts.loadFindings scope db scan,
      (loadFindingsIndex scope db scan).matching (PyText.of row.cveId) (PyText.of row.purl) =
        [row.findingId] := by
    intro row member
    obtain ⟨finding, stored, rfl, rfl⟩ := mem_loadFindings.mp member
    exact matching_export keys stored
  have present : ∀ row ∈ texts.loadFindings scope db scan,
      db.status? row.findingId = some row.status := by
    intro row member
    obtain ⟨finding, stored, own, rfl⟩ := mem_loadFindings.mp member
    exact congrArg (Option.map VulnerabilityFinding.status) (Table.find?_of_mem stored)
  obtain ⟨settled, kept⟩ := importStatements_canonical free (texts.loadFindings scope db scan)
    (db, .start) (loadFindings_distinct texts scope db scan) restates single present
  cases found : db.findings.find? id with
  | none =>
    -- An unknown id is not exported, and stays unknown.
    have absent : id ∉ (texts.loadFindings scope db scan).map VexRow.findingId := by
      intro member
      obtain ⟨row, exported, rfl⟩ := List.mem_map.mp member
      obtain ⟨finding, stored, own, rfl⟩ := mem_loadFindings.mp exported
      have again : db.findings.find? finding.id = some finding := Table.find?_of_mem stored
      exact absurd (again.symm.trans found) (by simp)
    rw [TriageDb.status?, kept id absent, found]
    rfl
  | some finding =>
    have stored := Table.mem_of_find? found
    have key : finding.id = id := Table.key_of_find? found
    subst key
    rw [Option.map_some]
    by_cases own : finding.scanId = scan
    · rw [if_pos own]
      exact settled (texts.row scope finding) (mem_loadFindings.mpr ⟨finding, stored, own, rfl⟩)
    · -- A finding of another scan is not exported.
      have absent : finding.id ∉ (texts.loadFindings scope db scan).map VexRow.findingId := by
        intro member
        obtain ⟨row, exported, same⟩ := List.mem_map.mp member
        obtain ⟨other, member, inScan, rfl⟩ := mem_loadFindings.mp exported
        cases Table.eq_of_key member stored same
        exact own inScan
      rw [if_neg own, TriageDb.status?, kept _ absent, found]
      rfl

/-- The statement that is read for an exported row can be written. -/
theorem reread_whole (format : VexFormat) (row : VexRow) : WholeStatement (format.reread row) := by
  cases format with
  | openvex => exact parseOpenvexStatement_whole (openvexStatement row)
  | cyclonedx => exact parseCyclonedxStatement_whole (cyclonedxVulnerability row)

/-- An import of exported statements does not fail with its commit. -/
theorem commitImport_export {run : VexImport} {index : VexIndex} (format : VexFormat) (rows : List VexRow)
    (origin : ∀ field ∈ run.origin, ∀ text ∈ field.2, WholeText text) :
    commitImport ((rows.map format.reread).foldl (importStatement run index) (db, .start)) =
      .ok ((rows.map format.reread).foldl (importStatement run index) (db, .start)) := by
  refine commitImport_ok.mpr ⟨importStatements_writable index _ (fun statement listed => ?_) rfl, rfl⟩
  obtain ⟨row, -, rfl⟩ := List.mem_map.mp listed
  exact unwritable_of_whole (reread_whole format row) origin

/-- Importing an export of the project's current scan back puts every finding of that scan in its
canonical status and leaves the others alone; it is refused only for its length. -/
theorem vex_round_trip (texts : VexExport) (scans : List ScanRecord) (project : Project)
    (scan : ScanRecord) (format : VexFormat) (now : Option Time) (call : VexImportCall)
    (keys : UniqueKeys scope db) (readable : ReadableIds scope db scan.id)
    (current : latestSucceededScan scans project.id project.defaultBranch = some scan)
    (latest : project.latestScanId = some scan.id)
    (free : scope.statusesRequiringApproval project.id = [])
    (upload : call.upload.parsed = some (texts.exportVex scope db scans project format now).decoded) :
    match importVex scope db project call with
    | .ok (after, _) => ∀ id, after.status? id = (db.findings.find? id).map fun finding =>
        if finding.scanId = scan.id then format.canonical finding.status else finding.status
    | .error reason => reason = .tooLarge ∧ (call.limits.maxDocumentBytes < call.upload.bytes ∨
        call.limits.maxStatements < (texts.loadFindings scope db scan.id).length) := by
  have parsed := detectAndParse_export texts scope db call.limits format now current
  unfold importVex decodeJson
  -- The two limits are all that can refuse an exported document.
  by_cases long : call.limits.maxDocumentBytes < call.upload.bytes
  · rw [if_pos long]
    exact ⟨rfl, .inl long⟩
  · rw [if_neg long, upload]
    simp only [Bind.bind, Except.bind, parsed]
    by_cases many : call.limits.maxStatements < (texts.loadFindings scope db scan.id).length
    · rw [if_pos many]
      exact ⟨rfl, .inr many⟩
    · rw [if_neg many]
      rw [latest]
      dsimp only
      rw [commitImport_export format _ (origin_whole texts project _ _ format)]
      exact importStatements_export format keys readable free

end Document

section Lossy

/-- Texts for ids and times, with the code point order for a collation. -/
def plainTexts : VexExport where
  source := fun _ => "NVD"
  collate := fun first second => compare first second
  projectText := fun _ => "p"
  scanText := fun _ => "s"
  uuid5 := id
  utcIso := fun _ => "1970-01-01T00:00:00.000Z"

/-- A finding of scan 1 on the one component, under the given vulnerability. -/
def scanFinding (vulnerability : VulnerabilityId) (status : FindingStatus) :
    VulnerabilityFinding where
  id := vulnerability
  scanId := 1
  componentVersionId := 1
  vulnerabilityId := vulnerability
  status := status
  analysisState := none
  analysisJustification := none
  analysisSource := none
  vexOrigin := none
  analystUserId := none
  analyzedAt := none
  updatedAt := 0

/-- A project whose only scan succeeded. -/
def scannedProject : Project := ⟨1, "portal", 1, some 1, none⟩

/-- That scan. -/
def onlyScan : ScanRecord := ⟨1, 1, .succeeded, none, 0, some 1, 1⟩

/-- Five vulnerabilities; the last two differ only in a blank at the end. -/
def lossyScope : TriageScope where
  directory :=
    { path := fun _ => some [], isDemoGroup := fun _ => false, demoReadOnly := false
      groupCascadeEnabled := true }
  projects := ⟨[scannedProject], by decide⟩
  scanProject := fun _ => 1
  latestScanOwn := by decide
  externalId := fun
    | 1 => "CVE-1"
    | 2 => "CVE-2"
    | 3 => "CVE-3"
    | 4 => "CVE-4"
    | _ => "CVE-4 "
  purlWithVersion := fun _ => "pkg:npm/left-pad@1.3.0"
  statusesRequiringApproval := fun _ => []

/-- One finding for each of the first four. -/
def readableDb : TriageDb where
  findings := ⟨[scanFinding 1 .new, scanFinding 2 .suppressed, scanFinding 3 .falsePositive,
    scanFinding 4 .fixed], by decide⟩
  approvals := ⟨[], List.nodup_nil⟩
  audit := []

/-- One finding for each of the five. -/
def lossyDb : TriageDb where
  findings := ⟨[scanFinding 1 .new, scanFinding 2 .suppressed, scanFinding 3 .falsePositive,
    scanFinding 4 .fixed, scanFinding 5 .exploitable], by decide⟩
  approvals := ⟨[], List.nodup_nil⟩
  audit := []

/-- A team administrator imports what was exported. -/
def reimport (db : TriageDb) (format : VexFormat) : VexImportCall where
  actor := ⟨1, .groupAdmin, [1], fun _ => some .groupAdmin, false⟩
  project := 1
  limits := ⟨1000000, 1000⟩
  upload := ⟨1000, some (plainTexts.exportVex lossyScope db [onlyScan] scannedProject format none).decoded⟩
  now := 2
  nowText := "1970-01-01T00:00:02+00:00"

/-- The only scan is the current one. -/
theorem onlyScan_current : latestSucceededScan [onlyScan] scannedProject.id
    scannedProject.defaultBranch = some onlyScan := by
  simp [latestSucceededScan, succeededScans, onlyScan, scannedProject]

/-- With readable ids CycloneDX keeps the false positive and the fixed finding, and moves the
new and the suppressed one. -/
theorem vex_round_trip_readable :
    ∃ after summary, importVex lossyScope readableDb scannedProject
        (reimport readableDb .cyclonedx) = .ok (after, summary) ∧
      [1, 2, 3, 4].map after.status? = [some .analyzing, some .notAffected, some .falsePositive,
        some .fixed] := by
  have keys : UniqueKeys lossyScope readableDb :=
    ⟨by decide, by decide, by decide⟩
  have readable : ReadableIds lossyScope readableDb onlyScan.id := by
    unfold ReadableIds
    decide
  have stable := vex_round_trip plainTexts [onlyScan] scannedProject onlyScan .cyclonedx
    none (reimport readableDb .cyclonedx) keys readable onlyScan_current rfl rfl rfl
  cases imported : importVex lossyScope readableDb scannedProject
      (reimport readableDb .cyclonedx) with
  | ok result =>
    simp only [imported] at stable
    refine ⟨result.1, result.2, rfl, ?_⟩
    simp only [List.map_cons, List.map_nil, stable]
    decide
  | error reason =>
    -- One small document with four statements is not too long.
    simp only [imported] at stable
    rcases stable.2 with long | many
    · exact absurd long (by decide)
    · rw [VexExport.loadFindings, List.length_mergeSort] at many
      exact absurd many (by decide)

/-- What is exported for the five findings. -/
theorem lossyRows : plainTexts.loadFindings lossyScope lossyDb onlyScan.id =
    [⟨1, .new, none, "CVE-1", "NVD", "pkg:npm/left-pad@1.3.0"⟩,
      ⟨2, .suppressed, none, "CVE-2", "NVD", "pkg:npm/left-pad@1.3.0"⟩,
      ⟨3, .falsePositive, none, "CVE-3", "NVD", "pkg:npm/left-pad@1.3.0"⟩,
      ⟨4, .fixed, none, "CVE-4", "NVD", "pkg:npm/left-pad@1.3.0"⟩,
      ⟨5, .exploitable, none, "CVE-4 ", "NVD", "pkg:npm/left-pad@1.3.0"⟩] := by
  -- The findings already stand in the order of their vulnerabilities.
  refine (List.mergeSort_of_pairwise (by decide)).trans ?_
  decide

/-- The import of that export runs over its statements. -/
theorem reimport_lossy (format : VexFormat) :
    importVex lossyScope lossyDb scannedProject (reimport lossyDb format) =
      .ok (((plainTexts.loadFindings lossyScope lossyDb onlyScan.id).map format.reread).foldl
        (importStatement
          { scope := lossyScope, actor := (reimport lossyDb format).actor, project := scannedProject
            origin := plainTexts.origin scannedProject (some onlyScan) 1 format
            now := (reimport lossyDb format).now, nowText := (reimport lossyDb format).nowText }
          (loadFindingsIndex lossyScope lossyDb onlyScan.id)) (lossyDb, .start)) := by
  have parsed := detectAndParse_export plainTexts lossyScope lossyDb ⟨1000000, 1000⟩ format none
    onlyScan_current
  rw [if_neg (by rw [lossyRows]; decide)] at parsed
  have short : ¬(1000000 < 1000) := by decide
  simp only [importVex, decodeJson, reimport, short, if_false, Bind.bind, Except.bind, parsed]
  exact commitImport_export format _ (origin_whole plainTexts scannedProject _ _ format)

/-- The import of an export moves a new, a suppressed and a false positive finding, and takes a
statement about `CVE-4` with a blank behind it for one about `CVE-4`. -/
theorem vex_round_trip_lossy :
    (∃ after summary, importVex lossyScope lossyDb scannedProject (reimport lossyDb .openvex) =
        .ok (after, summary) ∧
      [1, 2, 3, 4, 5].map after.status? = [some .analyzing, some .notAffected, some .notAffected,
        some .exploitable, some .exploitable]) ∧
    (∃ after summary, importVex lossyScope lossyDb scannedProject (reimport lossyDb .cyclonedx) =
        .ok (after, summary) ∧
      [1, 2, 3, 4, 5].map after.status? = [some .analyzing, some .notAffected, some .falsePositive,
        some .exploitable, some .exploitable]) ∧
    [1, 2, 3, 4, 5].map lossyDb.status? = [some .new, some .suppressed, some .falsePositive,
      some .fixed, some .exploitable] := by
  refine ⟨⟨_, _, reimport_lossy .openvex, ?_⟩, ⟨_, _, reimport_lossy .cyclonedx, ?_⟩, by decide⟩
  · rw [lossyRows]
    decide +kernel
  · rw [lossyRows]
    decide +kernel

end Lossy

end Trusca
