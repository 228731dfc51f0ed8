import Mathlib.Data.Nat.Basic
import Trusca.Proofs.Sbom.LicenseExpr
import Trusca.Scan.Licenses

/-! The licence entries of a component are alternatives: their joined text has the least restrictive
category among theirs. -/

namespace Trusca

/-- The least restrictive of several categories, where an unknown one does not count. -/
def leastRestrictive (categories : List LicenseCategory) : LicenseCategory :=
  if .allowed ∈ categories then .allowed
  else if .conditional ∈ categories then .conditional
  else if .forbidden ∈ categories then .forbidden
  else .unknown

/-- The least restrictive of categories ranks as the least of their ranks. -/
theorem rank_leastRestrictive (categories : List LicenseCategory) :
    (leastRestrictive categories).rank = leastOf (categories.map LicenseCategory.rank) := by
  induction categories with
  | nil => rfl
  | cons category rest ih =>
    have step : leastOf ((category :: rest).map LicenseCategory.rank) =
        least category.rank (leastOf (rest.map LicenseCategory.rank)) := rfl
    rw [step, ← ih]
    unfold leastRestrictive
    -- The least restrictive looks for the categories from the least rank on.
    cases category <;> simp only [List.mem_cons, reduceCtorEq, false_or, true_or, if_true] <;>
      split_ifs <;> rfl

section Tokens

/-- No text has more tokens than characters. -/
theorem length_lexFrom (characters word : List Char) :
    (lexFrom characters word).length ≤ characters.length + if word.isEmpty then 0 else 1 := by
  induction characters generalizing word with
  | nil =>
    rw [lexFrom]
    split_ifs <;> simp
  | cons character rest ih =>
    -- A letter ends the word or goes on it; either way at most one token comes of it.
    have after : (lexFrom rest []).length ≤ rest.length := by simpa using ih []
    have grown : (lexFrom rest (word ++ [character])).length ≤ rest.length + 1 := by
      simpa using ih (word ++ [character])
    rw [lexFrom]
    simp only [apply_ite List.length, List.length_append, List.length_cons, List.length_nil]
    split_ifs <;> omega

/-- The tokens of two texts with OR between them. -/
theorem tokensOf_or (first second : String) : tokensOf (first ++ " OR " ++ second) =
    tokensOf first ++ .operator .OR :: tokensOf second :=
  @tokensOf_between _ ['O', 'R'] _ rfl (by decide) first second

end Tokens

section Alternatives

variable {ids : List String}

/-- The alternatives of ids with OR between them are those of each, in their order. -/
theorem AllRead.alternatives (read : AllRead ids) (nonempty : ids ≠ []) :
    ∃ parts weights, parts ≠ [] ∧ List.Forall₂ Weighs parts weights ∧
      tokensOf (" OR ".intercalate ids) = [SpdxToken.operator .OR].intercalate parts ∧
      ∀ resolveId, leastOf (weights.map (· resolveId)) = leastOf (ids.map (rankOf resolveId)) := by
  -- Along the identifiers, each one read into its parts.
  induction ids with
  | nil => exact absurd rfl nonempty
  | cons id rest ih =>
    obtain ⟨⟨tree, parsed⟩, later⟩ := List.forall_mem_cons.mp read
    obtain ⟨-, -, -, -, depth, fits, derived⟩ := parseExpression_ok.mp parsed
    obtain ⟨parts, weights, some_part, each, tokens, total⟩ := derived.parts fits
    -- The rank of an identifier is the least weight of its parts.
    have rank (resolveId : String → LicenseCategory) :
        leastOf (weights.map (· resolveId)) = rankOf resolveId id := by
      rw [← total, rankOf, foldExpression_eq, parsed]
      rfl
    by_cases last : rest = []
    · subst last
      refine ⟨parts, weights, some_part, each, by simpa using tokens, ?_⟩
      intro resolveId
      rw [List.map_singleton, leastOf_singleton, rank]
    · -- The parts of all the identifiers stand side by side under one OR.
      obtain ⟨others, more, some_other, eachOther, tokensOther, totalOther⟩ := ih later last
      refine ⟨parts ++ others, weights ++ more, by simp [some_part], List.rel_append each eachOther, ?_, ?_⟩
      · rw [String.intercalate_cons_of_ne_nil last, tokensOf_or, tokens, tokensOther,
          intercalate_append some_part some_other]
      · intro resolveId
        rw [List.map_append, leastOf_append, rank, totalOther, List.map_cons, leastOf_cons]

/-- The static category of what can be read is as restrictive as its tree. -/
theorem rank_classify {text : String} {tree : SpdxExpr} (parsed : parseExpression (some text) = .ok tree) :
    (classifyLicenseCategory (some text)).rank = tree.weight staticDefaultFor := by
  rw [classifyLicenseCategory_eq, evaluateExpression_ok parsed, SpdxExpr.weight]
  split_ifs with unknown
  · rw [unknown]
  · rfl

/-- Ids with OR between them are read within the bounds, as restrictive as the least of them. -/
theorem AllRead.disjoined (read : AllRead ids) (nonempty : ids ≠ [])
    (short : (" OR ".intercalate ids).length ≤ maxExpressionLength)
    (few : (tokensOf (" OR ".intercalate ids)).length ≤ maxTokenCount) :
    ∃ tree, parseExpression (some (" OR ".intercalate ids)) = .ok tree ∧
      ∀ resolveId, tree.weight resolveId = leastOf (ids.map (rankOf resolveId)) := by
  obtain ⟨parts, weights, some_part, each, tokens, total⟩ := read.alternatives nonempty
  obtain ⟨tree, depth, nested, derived, weighs⟩ := Derives.ofParts each some_part
  obtain ⟨plain, visible⟩ := read.plain nonempty " OR " (by decide)
  refine ⟨tree, parseExpression_ok.mpr ⟨visible, short, plain, few, depth, nested, tokens ▸ derived⟩, ?_⟩
  intro resolveId
  rw [weighs, total]

end Alternatives

section Component

variable (normalizeLicenseName : String → Option String) (component : Json)

/-- The entries of a component that can be read each by itself are stored as one text, and its category
is the least restrictive of theirs. -/
theorem extractSpdxIds_alternatives (choice : allApply component = false)
    (some_entry : licenseEntriesOf normalizeLicenseName component ≠ [])
    (read : AllRead ((licenseEntriesOf normalizeLicenseName component).map Prod.fst))
    (short : (" OR ".intercalate ((licenseEntriesOf normalizeLicenseName component).map Prod.fst)).length ≤
      maxSpdxIdLen) :
    ∃ text url, extractSpdxIds normalizeLicenseName component = [(text, url)] ∧
      classifyLicenseCategory (some text) =
        leastRestrictive ((licenseEntriesOf normalizeLicenseName component).map fun entry =>
          classifyLicenseCategory (some entry.1)) := by
  generalize entries : licenseEntriesOf normalizeLicenseName component = separate at *
  refine ⟨" OR ".intercalate (separate.map Prod.fst), separate.findSome? Prod.snd, ?_, ?_⟩
  · have listed : separate.isEmpty = false := by simpa using some_entry
    simp [extractSpdxIds, entries, choice, listed, short]
  · -- The text is far within the bounds of the reader.
    have few := length_lexFrom (" OR ".intercalate (separate.map Prod.fst)).toList []
    rw [String.length_toList] at few
    obtain ⟨tree, parsed, weighs⟩ := read.disjoined (by simpa using some_entry)
      (Nat.le_trans short (by decide)) (Nat.le_trans few (Nat.le_trans short (by decide)))
    apply LicenseCategory.rank_injective
    rw [rank_classify parsed, weighs, rank_leastRestrictive, List.map_map, List.map_map]
    -- Each entry by itself is as restrictive as its own tree.
    refine congrArg leastOf (List.map_congr_left fun entry member => ?_)
    obtain ⟨own, readable⟩ := read entry.1 (List.mem_map_of_mem member)
    rw [Function.comp_apply, Function.comp_apply, rank_classify readable, rankOf, foldExpression_eq,
      readable]
    rfl

end Component

/-- A component that offers the GPL, or else a conjunction with a choice in it. -/
def dualLicensed : Json :=
  .obj [("purl", .str "pkg:npm/dual@1.0.0"),
    ("licenses", .arr [.obj [("license", .obj [("id", .str "GPL-2.0-only")])],
      .obj [("expression", .str "(MIT OR Apache-2.0) AND MPL-2.0")]])]

/-- The entries of the component are read each by itself, and the conjunction decides. -/
theorem extractSpdxIds_dualLicensed :
    ∃ text url, extractSpdxIds (fun _ => none) dualLicensed = [(text, url)] ∧
      classifyLicenseCategory (some text) = .conditional := by
  -- The two licences of the component, one of them with a choice inside.
  have entries : licenseEntriesOf (fun _ => none) dualLicensed =
      [("GPL-2.0-only", none), ("(MIT OR Apache-2.0) AND MPL-2.0", none)] := by decide +kernel
  have read : AllRead ((licenseEntriesOf (fun _ => none) dualLicensed).map Prod.fst) := by
    rw [entries]
    refine List.forall_mem_cons.mpr ⟨⟨.id "GPL-2.0-only", by decide +kernel⟩,
      List.forall_mem_singleton.mpr ⟨.node .AND (.node .OR (.id "MIT") (.id "Apache-2.0")) (.id "MPL-2.0"),
        by decide +kernel⟩⟩
  obtain ⟨text, url, stored, category⟩ := extractSpdxIds_alternatives (fun _ => none) dualLicensed rfl
    (by simp [entries]) read (by rw [entries]; decide)
  refine ⟨text, url, stored, ?_⟩
  -- So their alternatives are classified together.
  rw [category, entries]
  decide +kernel

end Trusca
