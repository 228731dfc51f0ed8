import Trusca.Proofs.License.Obligations

/-! The stored obligations of a licence expression cover its licences, as long as no kind has two texts. -/

namespace Trusca

open Store

variable {catalog : ObligationCatalog} {expression : String} {tree : SpdxExpr}

section Rows

/-- The rows of one key: those that were stored, and else the first that is inserted. -/
theorem insertMissing_key (stored values : List Obligation) (key : LicenseId × String) :
    (insertMissing stored values).filter (·.key == key) =
      if stored.filter (·.key == key) = [] then (values.filter (·.key == key)).take 1
      else stored.filter (·.key == key) := by
  induction values generalizing stored with
  | nil =>
    rw [insertMissing, List.foldl_nil, List.filter_nil, List.take_nil]
    split_ifs with absent
    · exact absent
    · rfl
  | cons row rest ih =>
    rw [insertMissing, List.foldl_cons]
    change (insertMissing _ rest).filter (·.key == key) = _
    rw [ih]
    -- A row whose key is taken is passed over, any other is appended.
    by_cases taken : stored.any (·.key == row.key) = true
    · rw [if_pos taken]
      by_cases own : row.key = key
      · -- The key of the row is taken, so it is not the first.
        have some_row : stored.filter (·.key == key) ≠ [] := by
          obtain ⟨other, listed, same⟩ := List.any_eq_true.mp taken
          rw [own] at same
          exact List.ne_nil_of_mem (List.mem_filter.mpr ⟨listed, same⟩)
        rw [if_neg some_row, if_neg some_row]
      · rw [List.filter_cons_of_neg (by simpa using own)]
    · rw [if_neg taken, List.filter_append]
      -- The appended row may be the first of the key.
      by_cases own : row.key = key
      · have none_row : stored.filter (·.key == key) = [] := by
          rw [List.filter_eq_nil_iff]
          intro other listed same
          exact taken (List.any_eq_true.mpr ⟨other, listed, by rw [own]; exact same⟩)
        simp [none_row, own]
      · simp [own]

/-- A single word is read as itself. -/
theorem ids_of_catalog {entry : LicenseObligations} (read : parseExpression (some expression) = .ok tree)
    (direct : catalog.get expression = some entry) : tree.ids = [expression] := by
  -- An expression that the catalogue lists is a bare identifier: no blank, no bracket.
  obtain ⟨-, plain, no_operator⟩ := catalog.simple expression entry direct
  obtain ⟨some_text, -, -, -, depth, -, derived⟩ := parseExpression_ok.mp read
  have letters : ∀ character ∈ expression.toList, character ≠ ' ' ∧ isBracket character = false := by
    intro character within
    obtain ⟨space, left, right⟩ := plain character within
    exact ⟨space, by simp [isBracket, left, right]⟩
  have nonempty : expression.toList ≠ [] := by
    intro blank
    have text : expression = "" := by rw [← String.toList_inj, blank]; rfl
    exact some_text (by rw [text]; rfl)
  -- So it is one token.
  have tokens : tokensOf expression = [.id expression] := by
    have word := lexFrom_word letters [] []
    rw [List.append_nil, List.nil_append] at word
    rw [tokensOf, word]
    simp [lexFrom, nonempty, token_of_id no_operator]
  -- And the tree's identifiers are those of the tokens.
  rw [derived.ids, tokens]
  rfl

/-- The entries of an expression are those of its licences, when the splitter finds them. -/
theorem mem_catalogEntries (read : parseExpression (some expression) = .ok tree)
    (exactly : ∀ name, name ∈ spdxIdsForExpression expression ↔ name ∈ tree.ids) {entry : LicenseObligations} :
    entry ∈ catalogEntries catalog expression ↔ ∃ name ∈ tree.ids, catalog.get name = some entry := by
  unfold catalogEntries
  cases direct : catalog.get expression with
  | some found =>
    rw [ids_of_catalog read direct]
    simp [direct, eq_comm]
  | none => simp only [List.mem_filterMap, exactly]

/-- The obligations of an expression are the rows of its entries. -/
theorem mem_obligationsFor (nonempty : expression ≠ "") (referenceUrl : Option String) {kind text : String} :
    (∃ row ∈ obligationsFor catalog expression referenceUrl, row.kind = kind ∧ row.text = text) ↔
      ∃ entry ∈ catalogEntries catalog expression, (kind, text) ∈ entry.rows := by
  rw [obligationsFor, if_neg nonempty]
  constructor
  · -- Every row comes from an entry of the catalogue.
    rintro ⟨row, listed, rfl, rfl⟩
    have kept := mem_of_mem_distinctOn _ listed
    obtain ⟨entry, among, given⟩ := List.mem_flatMap.mp kept
    obtain ⟨⟨kind, text⟩, inside, rfl⟩ := List.mem_map.mp given
    exact ⟨entry, among, inside⟩
  · -- The dedupe keeps one row of each kind and text.
    rintro ⟨entry, among, inside⟩
    have given : ⟨kind, text, obligationLink referenceUrl entry⟩ ∈
        (catalogEntries catalog expression).flatMap (entryRows referenceUrl) :=
      List.mem_flatMap.mpr ⟨entry, among, List.mem_map.mpr ⟨(kind, text), inside, rfl⟩⟩
    obtain ⟨row, selected, same⟩ :=
      exists_mem_distinctOn (fun row : ObligationRow => (row.kind, row.text)) given
    obtain ⟨rfl, rfl⟩ := Prod.mk.inj same
    exact ⟨row, selected, rfl, rfl⟩

end Rows

section Sync

variable {observed : ScanLicenses} {stored : List Obligation} {license : ObservedLicense}

/-- The rows that are to be stored for the licences of a scan. -/
def syncValues (catalog : ObligationCatalog) (observed : ScanLicenses) : List Obligation :=
  observed.rows.flatMap fun license =>
    (obligationsFor catalog license.spdxId license.referenceUrl).map fun row =>
      ⟨license.id, row.kind, row.text, row.link⟩

/-- The rows of one licence are its obligations. -/
theorem mem_syncValues (among : license ∈ observed.rows) {kind text : String} :
    (∃ row ∈ syncValues catalog observed, row.licenseId = license.id ∧ row.kind = kind ∧ row.text = text) ↔
      ∃ row ∈ obligationsFor catalog license.spdxId license.referenceUrl, row.kind = kind ∧ row.text = text := by
  constructor
  · rintro ⟨row, listed, own, rfl, rfl⟩
    obtain ⟨other, here, given⟩ := List.mem_flatMap.mp listed
    obtain ⟨found, inside, rfl⟩ := List.mem_map.mp given
    -- A licence is observed once.
    have same := List.inj_on_of_nodup_map observed.once here among own
    subst same
    exact ⟨found, inside, rfl, rfl⟩
  · rintro ⟨row, inside, rfl, rfl⟩
    exact ⟨_, List.mem_flatMap.mpr ⟨license, among, List.mem_map.mpr ⟨row, inside, rfl⟩⟩, rfl, rfl, rfl⟩

/-- The stored rows of a licence have every obligation of the licences of its expression. -/
def ObligationsCover (catalog : ObligationCatalog) (license : ObservedLicense) (ids : List String)
    (stored : List Obligation) : Prop :=
  ∀ name ∈ ids, ∀ entry, catalog.get name = some entry → ∀ kind text, (kind, text) ∈ entry.rows →
    ∃ row ∈ stored, row.licenseId = license.id ∧ row.kind = kind ∧ row.text = text

/-- No two licences of an expression, and no licence by itself, have two texts of one kind. -/
def OneTextPerKind (catalog : ObligationCatalog) (ids : List String) : Prop :=
  ∀ name ∈ ids, ∀ other ∈ ids, ∀ entry entry', catalog.get name = some entry →
    catalog.get other = some entry' → ∀ kind text text', (kind, text) ∈ entry.rows →
      (kind, text') ∈ entry'.rows → text = text'

/-- What is stored of a licence covers its expression exactly when no kind has two texts. -/
theorem obligationsCover_iff (read : parseExpression (some license.spdxId) = .ok tree)
    (exactly : ∀ name, name ∈ spdxIdsForExpression license.spdxId ↔ name ∈ tree.ids)
    (among : license ∈ observed.rows) (fresh : ∀ row ∈ stored, row.licenseId ≠ license.id) :
    ObligationsCover catalog license tree.ids (syncCatalogObligations catalog observed stored) ↔
      OneTextPerKind catalog tree.ids := by
  have nonempty : license.spdxId ≠ "" := by
    intro blank
    rw [blank] at read
    exact (parseExpression_ok.mp read).1 rfl
  -- An obligation of the expression is among the rows to be stored.
  have valued {kind text : String} : (∃ row ∈ syncValues catalog observed, row.licenseId = license.id ∧
      row.kind = kind ∧ row.text = text) ↔
      ∃ name ∈ tree.ids, ∃ entry, catalog.get name = some entry ∧ (kind, text) ∈ entry.rows := by
    rw [mem_syncValues among, mem_obligationsFor nonempty]
    simp only [mem_catalogEntries read exactly]
    constructor
    · rintro ⟨entry, ⟨name, listed, found⟩, inside⟩
      exact ⟨name, listed, entry, found, inside⟩
    · rintro ⟨name, listed, entry, found, inside⟩
      exact ⟨entry, ⟨name, listed, found⟩, inside⟩
  -- Of each kind the first row is stored.
  have first (kind : String) : (syncCatalogObligations catalog observed stored).filter
      (·.key == (license.id, kind)) =
      ((syncValues catalog observed).filter (·.key == (license.id, kind))).take 1 := by
    have absent : stored.filter (·.key == (license.id, kind)) = [] := by
      rw [List.filter_eq_nil_iff]
      intro row listed same
      rw [beq_iff_eq] at same
      exact fresh row listed (congrArg Prod.fst same)
    have kept := insertMissing_key stored (syncValues catalog observed) (license.id, kind)
    rw [if_pos absent] at kept
    exact kept
  constructor
  · intro covers name listed other listed' entry entry' found found' kind text text' inside inside'
    obtain ⟨row, held, own, rfl, rfl⟩ := covers name listed entry found _ _ inside
    obtain ⟨row', held', own', same, rfl⟩ := covers other listed' entry' found' _ _ inside'
    have one : row ∈ (syncCatalogObligations catalog observed stored).filter
        (·.key == (license.id, row.kind)) := List.mem_filter.mpr ⟨held, by simp [Obligation.key, own]⟩
    have two : row' ∈ (syncCatalogObligations catalog observed stored).filter
        (·.key == (license.id, row.kind)) := List.mem_filter.mpr ⟨held', by simp [Obligation.key, own', same]⟩
    rw [first] at one two
    cases rows : (syncValues catalog observed).filter (·.key == (license.id, row.kind)) with
    | nil => simp [rows] at one
    | cons head rest =>
      simp only [rows, List.take_succ_cons, List.take_zero, List.mem_singleton] at one two
      rw [one, two]
  · intro single name listed entry found kind text inside
    obtain ⟨row, valued_row, own, rfl, rfl⟩ := valued.mpr ⟨name, listed, entry, found, inside⟩
    have some_row : row ∈ (syncValues catalog observed).filter (·.key == (license.id, row.kind)) :=
      List.mem_filter.mpr ⟨valued_row, by simp [Obligation.key, own]⟩
    cases rows : (syncValues catalog observed).filter (·.key == (license.id, row.kind)) with
    | nil =>
      rw [rows] at some_row
      cases some_row
    | cons head rest =>
      have kept := first row.kind
      rw [rows, List.take_succ_cons, List.take_zero] at kept
      have held : head ∈ (syncCatalogObligations catalog observed stored).filter
          (·.key == (license.id, row.kind)) := by
        rw [kept]
        exact List.mem_singleton_self head
      have source : head ∈ (syncValues catalog observed).filter (·.key == (license.id, row.kind)) := by
        rw [rows]
        exact List.mem_cons_self
      obtain ⟨listed_head, key⟩ := List.mem_filter.mp source
      have parts : head.licenseId = license.id ∧ head.kind = row.kind := by
        simpa [Obligation.key] using key
      refine ⟨head, (List.mem_filter.mp held).1, parts.1, parts.2, ?_⟩
      -- The first row of the kind has the only text that there is.
      obtain ⟨other, listed', entry', found', inside'⟩ :=
        valued.mp ⟨head, listed_head, parts.1, parts.2, rfl⟩
      exact single other listed' name listed entry' entry found' found _ _ _ inside' inside

/-- What is asked of an expression: the splitter finds the licences that the parser resolves, and the
stored rows have all their obligations. -/
def ObligationsKept (catalog : ObligationCatalog) (observed : ScanLicenses) (stored : List Obligation)
    (license : ObservedLicense) (ids : List String) : Prop :=
  (∀ name, name ∈ spdxIdsForExpression license.spdxId ↔ name ∈ ids) ∧
    ObligationsCover catalog license ids (syncCatalogObligations catalog observed stored)

/-- The obligations of an expression that is read are kept when its only white space is the space, its
operators are in capitals between spaces, and no kind has two texts; with plain spaces, only then. -/
theorem obligations_kept (catalog : ObligationCatalog) (observed : ScanLicenses) (stored : List Obligation)
    (license : ObservedLicense) (among : license ∈ observed.rows)
    (fresh : ∀ row ∈ stored, row.licenseId ≠ license.id) (tree : SpdxExpr)
    (read : parseExpression (some license.spdxId) = .ok tree) :
    (PlainSpaces license.spdxId.toList ∧ operatorsSpaced license.spdxId = true ∧
        OneTextPerKind catalog tree.ids → ObligationsKept catalog observed stored license tree.ids) ∧
      (PlainSpaces license.spdxId.toList → ObligationsKept catalog observed stored license tree.ids →
        operatorsSpaced license.spdxId = true ∧ OneTextPerKind catalog tree.ids) := by
  constructor
  · rintro ⟨plain, spaced, single⟩
    have exactly := (spdxIds_exact read plain).mpr spaced
    exact ⟨exactly, (obligationsCover_iff read exactly among fresh).mpr single⟩
  · rintro plain ⟨exactly, covers⟩
    exact ⟨(spdxIds_exact read plain).mp exactly, (obligationsCover_iff read exactly among fresh).mp covers⟩

/-- The notice that permissive licences ask for. -/
def noticeText : String :=
  "Include a copy of the license text with any redistribution so recipients receive the same grant and disclaimers."

/-- The attribution of the licences in the style of MIT. -/
def attrText : String :=
  "Reproduce the above copyright notice and the permission notice in all copies or substantial portions of the software."

/-- The attribution of the licences in the style of BSD. -/
def bsdAttrText : String :=
  "Retain the copyright notice, the list of conditions, and the disclaimer in source redistributions, and reproduce them in the documentation and/or other materials provided with binary redistributions."

/-- Three entries of the catalog. -/
def permissiveCatalog : ObligationCatalog where
  get name :=
    if name = "MIT" then some ⟨"MIT", [("attribution", attrText), ("notice", noticeText)]⟩
    else if name = "ISC" then some ⟨"ISC", [("attribution", attrText), ("notice", noticeText)]⟩
    else if name = "BSD-2-Clause" then
      some ⟨"BSD-2-Clause", [("attribution", bsdAttrText), ("notice", noticeText)]⟩
    else none
  simple := by
    intro name entry found
    split_ifs at found with mit isc bsd
    · subst mit
      decide
    · subst isc
      decide
    · subst bsd
      decide

/-- One licence in a scan. -/
def oneLicense (spdxId : String) : ScanLicenses := ⟨[⟨1, spdxId, none⟩], by simp⟩

/-- Synchronising the one dual licence leaves the obligations of both its parts. -/
theorem obligations_kept_mit :
    ObligationsKept permissiveCatalog (oneLicense "MIT OR ISC") [] ⟨1, "MIT OR ISC", none⟩ ["MIT", "ISC"] := by
  have read : parseExpression (some "MIT OR ISC") = .ok (.node .OR (.id "MIT") (.id "ISC")) := by
    decide +kernel
  refine (obligations_kept permissiveCatalog (oneLicense "MIT OR ISC") [] ⟨1, "MIT OR ISC", none⟩
    List.mem_cons_self (by simp) _ read).1 ⟨?_, by decide +kernel, ?_⟩
  · intro character within
    revert character
    decide +kernel
  · -- Both licences have the same rows.
    have rows : ∀ name ∈ ["MIT", "ISC"], ∀ entry, permissiveCatalog.get name = some entry →
        entry.rows = [("attribution", attrText), ("notice", noticeText)] := by
      intro name listed entry found
      simp only [List.mem_cons, List.not_mem_nil, or_false] at listed
      obtain rfl | rfl := listed <;> cases found <;> rfl
    intro name listed other listed' entry entry' found found' kind text text' inside inside'
    rw [rows name listed entry found] at inside
    rw [rows other listed' entry' found'] at inside'
    simp only [List.mem_cons, Prod.mk.injEq, List.not_mem_nil, or_false] at inside inside'
    obtain ⟨rfl, rfl⟩ | ⟨rfl, rfl⟩ := inside <;> simpa [eq_comm] using inside'

/-- A small operator is not split, and the attribution of a second licence is lost. -/
theorem obligations_lost :
    (spdxIdsForExpression "MIT and ISC" = ["MIT and ISC"] ∧
      parseExpression (some "MIT and ISC") = .ok (.node .AND (.id "MIT") (.id "ISC"))) ∧
    (parseExpression (some "MIT AND BSD-2-Clause") = .ok (.node .AND (.id "MIT") (.id "BSD-2-Clause")) ∧
      ("attribution", bsdAttrText) ∈ [("attribution", bsdAttrText), ("notice", noticeText)] ∧
      (syncCatalogObligations permissiveCatalog (oneLicense "MIT AND BSD-2-Clause") []).all
        (fun row => row.text != bsdAttrText) = true) := by
  refine ⟨⟨by decide +kernel, by decide +kernel⟩, by decide +kernel, List.mem_cons_self, by decide +kernel⟩

end Sync

end Trusca
