import Mathlib.Data.List.Dedup
import Mathlib.Data.List.Find
import Trusca.Data.Lines
import Trusca.License.Normalize

/-! A licence's name is read the same in every spelling, and where the rules for the general public
licences take it for something that it is not. -/

namespace Trusca

section Statements

/-- Two characters that differ in ASCII letter case at most. -/
def SameLetter (first second : Char) : Prop :=
  first = second ∨ first.toNat < 128 ∧ second.toNat < 128 ∧ first.toLower = second.toLower

/-- Two texts that differ in ASCII letter case and in the separators between words. -/
inductive Varies : List Char → List Char → Prop where
  | nil : Varies [] []
  | letter {first second : Char} {one two : List Char} (same : SameLetter first second)
      (rest : Varies one two) : Varies (first :: one) (second :: two)
  | gap {first second : List Char} {one two : List Char} (some_first : first ≠ []) (some_second : second ≠ [])
      (separates : ∀ character ∈ first, isNameSeparator character = true)
      (separates' : ∀ character ∈ second, isNameSeparator character = true) (rest : Varies one two) :
      Varies (first ++ one) (second ++ two)

/-- A name with a version by which a lesser, library or affero licence is recognised. -/
def VariantVersioned (name : List Char) : Prop :=
  ∃ texts ∈ [["affero general public", "3"], ["lesser general public", "2 1"],
    ["library general public", "2 1"], ["lesser general public", "3"], ["library general public", "3"]],
    Mentions texts name

/-- A name with a version by which a general public licence is recognised. -/
def GplVersioned (name : List Char) : Prop :=
  ∃ texts ∈ [["general public", "2", "later"], ["general public", "2 0"], ["general public", "v2"],
    ["general public", "3"]], Mentions texts name

/-- A name with a conjunction in it. -/
def HasJoint (name : List Char) : Prop := ∃ texts ∈ [[" or "], [" and "]], Mentions texts name

/-- A name that no rule for another licence and no alias recognises. -/
def Unrecognised (table : CaseTable) (snapshot : List OsoriLicense) (name : List Char) : Prop :=
  (∀ rule ∈ aliasRules, search table.word rule.1 name = false) ∧ osoriAlias table snapshot name = none

/-- A name of the lesser, library or affero general public licence. -/
def NamesVariant (name : List Char) : Prop :=
  ∃ texts ∈ [["lesser general public"], ["library general public"], ["affero general public"]],
    Mentions texts name

/-- An id of the GPL itself. -/
def isPlainGpl (id : String) : Bool := "GPL-".toList.isPrefixOf id.toList

/-- What the snapshot's aliases are like: none has a sigma, and none of a lesser, library or affero
licence stands for the GPL itself. -/
structure KnownAliases (table : CaseTable) (snapshot : List OsoriLicense) : Prop where
  noSigma : ∀ claim ∈ osoriCanonicalClaims table snapshot, 'σ' ∉ claim.1 ∧ 'ς' ∉ claim.1
  variants : ∀ claim ∈ osoriCanonicalClaims table snapshot, NamesVariant claim.1 →
    isPlainGpl claim.2 = false

end Statements

section Rules

variable {table : CaseTable} {snapshot : List OsoriLicense} {name : List Char}

/-- Words that stand in a row begin with the first of them. -/
theorem InRow.first {letters : String} {more : List String} {rest : List Char}
    (stands : InRow (letters :: more) rest) : letters.toList <+: rest := by
  cases more with
  | nil => exact stands
  | cons next more =>
    obtain ⟨gap, after, rfl, -, -⟩ := stands
    rw [List.append_assoc]
    exact List.prefix_append _ _

/-- What is mentioned with more behind it is mentioned. -/
theorem Mentions.front {texts : List String} {text : List Char} (mentioned : Mentions texts text) :
    Mentions (texts.take 2) text := by
  match texts, mentioned with
  | [], mentioned => exact mentioned
  | [_], mentioned => exact mentioned
  | letters :: next :: more, ⟨before, after, parts, gap, behind, split, clear, stands⟩ =>
    exact ⟨before, after, parts, gap, behind, split, clear, stands.first⟩

/-- Rules of rows, with the id that each stands for. -/
def rowRules (rules : List (List (List String) × String)) : List NameRule :=
  rules.map fun rule => (rule.1.map row, some rule.2)

/-- Rules of rows apply to the names that mention one of them, or what those begin with. -/
theorem rowRules_apply (word : Char → Bool) {rules : List (List (List String) × String)}
    {spelled : List (List String)}
    (covers : ∀ rule ∈ rules, ∀ texts ∈ rule.1, texts ∈ spelled ∨ texts.take 2 ∈ spelled)
    (covered : ∀ texts ∈ spelled, ∃ rule ∈ rules, texts ∈ rule.1) :
    (∃ rule ∈ rowRules rules, search word rule.1 name = true) ↔ ∃ texts ∈ spelled, Mentions texts name := by
  constructor
  · -- A rule that applies has a row whose texts the name mentions, or their first two.
    intro applies
    obtain ⟨rule, listed, found⟩ := applies
    obtain ⟨rule, member, rfl⟩ := List.mem_map.mp listed
    obtain ⟨texts, alternative, mentioned⟩ := (search_rows rule.1 name).mp found
    obtain whole | front := covers rule member texts alternative
    · exact ⟨texts, whole, mentioned⟩
    · exact ⟨texts.take 2, front, mentioned.front⟩
  · -- And a name that mentions such texts is met by their rule.
    intro named
    obtain ⟨texts, listed, mentioned⟩ := named
    obtain ⟨rule, member, alternative⟩ := covered texts listed
    exact ⟨_, List.mem_map_of_mem member, (search_rows rule.1 name).mpr ⟨texts, alternative, mentioned⟩⟩

/-- The texts of the rules for the lesser, library and affero licences. -/
def variantTexts : List (List (List String) × String) :=
  [([["affero general public", "3", "later"]], "AGPL-3.0-or-later"),
   ([["affero general public", "3"]], "AGPL-3.0-only"),
   ([["lesser general public", "2 1", "later"], ["library general public", "2 1", "later"]],
     "LGPL-2.1-or-later"),
   ([["lesser general public", "2 1"], ["library general public", "2 1"]], "LGPL-2.1-only"),
   ([["lesser general public", "3", "later"], ["library general public", "3", "later"]],
     "LGPL-3.0-or-later"),
   ([["lesser general public", "3"], ["library general public", "3"]], "LGPL-3.0-only")]

/-- The texts of the rules for the general public licence. -/
def gplTexts : List (List (List String) × String) :=
  [([["general public", "2", "later"]], "GPL-2.0-or-later"),
   ([["general public", "2 0"], ["general public", "v2"]], "GPL-2.0-only"),
   ([["general public", "3", "later"]], "GPL-3.0-or-later"),
   ([["general public", "3"]], "GPL-3.0-only")]

/-- A rule for a lesser, library or affero licence applies exactly to the versions it knows. -/
theorem variantRules_apply (word : Char → Bool) :
    (∃ rule ∈ variantRules, search word rule.1 name = true) ↔ VariantVersioned name :=
  @rowRules_apply name word variantTexts _ (by decide) (by decide)

/-- A rule for the general public licence applies exactly to the versions it knows. -/
theorem gplRules_apply (word : Char → Bool) :
    (∃ rule ∈ gplRules, search word rule.1 name = true) ↔ GplVersioned name :=
  @rowRules_apply name word gplTexts _ (by decide) (by decide)

/-- The guard applies exactly to conjunctions. -/
theorem compoundRule_applies (word : Char → Bool) :
    search word compoundRule.1 name = true ↔ HasJoint name :=
  search_rows [[" or "], [" and "]] name

/-- What a name stands for, in its compared form: what its first rule says, or else its alias. -/
theorem normalizeLicenseName_some (raw : String) :
    normalizeLicenseName table snapshot (some raw) =
      if canon table raw = [] then none
      else
        ((nameRules.find? fun rule => search table.word rule.1 (canon table raw)).elim
          (osoriAlias table snapshot (canon table raw)) Prod.snd) := by
  -- The empty name has no letter, so it is none at once.
  by_cases blank : raw = ""
  · subst blank
    rfl
  · rw [normalizeLicenseName, if_neg blank]
    dsimp only
    split_ifs
    · rfl
    · cases nameRules.find? fun rule => search table.word rule.1 (canon table raw) <;> rfl

/-- What a name stands for, by the first of the groups of rules that applies. -/
theorem normalizeLicenseName_cases {raw : String} (visible : canon table raw ≠ []) :
    (VariantVersioned (canon table raw) ∧
        ∃ rule ∈ variantRules, normalizeLicenseName table snapshot (some raw) = rule.2) ∨
      ¬ VariantVersioned (canon table raw) ∧
        (GplVersioned (canon table raw) ∧
            (∃ rule ∈ gplRules, normalizeLicenseName table snapshot (some raw) = rule.2) ∨
          ¬ GplVersioned (canon table raw) ∧
            (HasJoint (canon table raw) ∧ normalizeLicenseName table snapshot (some raw) = none ∨
              ¬ HasJoint (canon table raw) ∧
                ((∃ rule ∈ aliasRules, search table.word rule.1 (canon table raw) = true ∧
                    normalizeLicenseName table snapshot (some raw) = rule.2) ∨
                  (∀ rule ∈ aliasRules, search table.word rule.1 (canon table raw) = false) ∧
                    normalizeLicenseName table snapshot (some raw) =
                      osoriAlias table snapshot (canon table raw)))) := by
  -- The three groups of rules one behind the other, as the table lists them.
  rw [normalizeLicenseName_some, if_neg visible, ← variantRules_apply table.word,
    ← gplRules_apply table.word, ← compoundRule_applies table.word]
  have order : nameRules.find? (fun rule => search table.word rule.1 (canon table raw)) =
      (variantRules.find? fun rule => search table.word rule.1 (canon table raw)).or
        ((gplRules.find? fun rule => search table.word rule.1 (canon table raw)).or
          ((compoundRule :: aliasRules).find? fun rule => search table.word rule.1 (canon table raw))) := by
    rw [nameRules, List.find?_append, List.find?_append, Option.or_assoc]
  rw [order]
  -- The groups are tried one after the other.
  cases variant : variantRules.find? fun rule => search table.word rule.1 (canon table raw) with
  | some rule =>
    have found := List.find?_some variant
    exact .inl ⟨⟨rule, List.mem_of_find?_eq_some variant, found⟩, rule,
      List.mem_of_find?_eq_some variant, rfl⟩
  | none =>
    refine .inr ⟨by simpa using List.find?_eq_none.mp variant, ?_⟩
    cases plain : gplRules.find? fun rule => search table.word rule.1 (canon table raw) with
    | some rule =>
      have found := List.find?_some plain
      exact .inl ⟨⟨rule, List.mem_of_find?_eq_some plain, found⟩, rule,
        List.mem_of_find?_eq_some plain, rfl⟩
    | none =>
      refine .inr ⟨by simpa using List.find?_eq_none.mp plain, ?_⟩
      -- The compound names stand first in the last group.
      rw [Option.none_or, Option.none_or, List.find?_cons]
      cases joint : search table.word compoundRule.1 (canon table raw) with
      | true => exact .inl ⟨rfl, rfl⟩
      | false =>
        refine .inr ⟨by simp, ?_⟩
        cases other : aliasRules.find? fun rule => search table.word rule.1 (canon table raw) with
        | some rule =>
          have found := List.find?_some other
          exact .inl ⟨rule, List.mem_of_find?_eq_some other, found, rfl⟩
        | none => exact .inr ⟨by simpa using List.find?_eq_none.mp other, rfl⟩

end Rules

section Spelling

variable {table : CaseTable}

/-- The lower case of a character wherever it stands, with one sigma. -/
def blurLower (table : CaseTable) (character : Char) : List Char :=
  if character = 'Σ' then ['σ'] else (table.lower character).map blurSigma

/-- Up to the two small sigmas, lower-casing a text is lower-casing each character. -/
theorem map_lowerFrom (before text : List Char) :
    (table.lowerFrom before text).map blurSigma = text.flatMap (blurLower table) := by
  induction text generalizing before with
  | nil => rfl
  | cons character text ih =>
    have here : (table.lowerAt before character text).map blurSigma = blurLower table character := by
      unfold CaseTable.lowerAt blurLower
      split_ifs <;> rfl
    rw [CaseTable.lowerFrom, List.map_append, ih, here, List.flatMap_cons]

/-- The two small sigmas separate names alike. -/
theorem isNameSeparator_blur (character : Char) :
    isNameSeparator (blurSigma character) = isNameSeparator character := by
  unfold blurSigma
  split_ifs with final
  · rw [final]
    decide
  · rfl

/-- The two small sigmas are space alike. -/
theorem isSpace_blur (character : Char) : isSpace (blurSigma character) = isSpace character := by
  unfold blurSigma
  split_ifs with final
  · rw [final]
    decide
  · rfl

/-- Collapsing separators does not tell the two small sigmas apart. -/
theorem map_collapseFrom (running : Bool) (text : List Char) :
    (collapseFrom running text).map blurSigma = collapseFrom running (text.map blurSigma) := by
  induction text generalizing running with
  | nil => rfl
  | cons character text ih =>
    -- A sigma is no separator, before the blur and after it.
    rw [List.map_cons, collapseFrom, collapseFrom, isNameSeparator_blur]
    split_ifs
    · exact ih true
    · rw [List.map_cons, ih]
      rfl
    · rw [List.map_cons, ih]

/-- Stripping does not tell the two small sigmas apart. -/
theorem map_stripChars (text : List Char) :
    (stripChars text).map blurSigma = stripChars (text.map blurSigma) := by
  -- And it is no blank.
  have drops (text : List Char) : (text.map blurSigma).dropWhile isSpace =
      (text.dropWhile isSpace).map blurSigma := by
    rw [List.dropWhile_map]
    congr 2
    funext character
    exact isSpace_blur character
  unfold stripChars
  rw [List.map_reverse, ← drops, List.map_reverse, ← drops]

/-- The compared form of a name, with one sigma. -/
theorem map_canon (raw : String) :
    (canon table raw).map blurSigma =
      stripChars (collapseFrom false
        ((raw.toList.take maxLicenseNameLen).flatMap (blurLower table))) := by
  rw [canon, map_stripChars, map_collapseFrom, CaseTable.lowerText, map_lowerFrom]

/-- A run of separators is one blank, or goes on with the run before it. -/
theorem collapseFrom_gap {gap : List Char} (some_gap : gap ≠ [])
    (separates : ∀ character ∈ gap, isNameSeparator character = true) (running : Bool) (rest : List Char) :
    collapseFrom running (gap ++ rest) =
      (if running then [] else [' ']) ++ collapseFrom true rest := by
  induction gap generalizing running with
  | nil => exact absurd rfl some_gap
  | cons character gap ih =>
    -- The first separator leaves a blank, the ones behind it nothing.
    obtain ⟨here, later⟩ := List.forall_mem_cons.mp separates
    rw [List.cons_append, collapseFrom, if_pos here]
    have onwards : collapseFrom true (gap ++ rest) = collapseFrom true rest := by
      by_cases last : gap = []
      · rw [last, List.nil_append]
      · exact ih last later true
    rw [onwards]
    cases running <;> rfl

variable (lawful : table.Lawful)

include lawful

/-- An ASCII character is lowered as everywhere. -/
theorem blurLower_ascii {character : Char} (ascii : character.toNat < 128) :
    blurLower table character = [character.toLower] := by
  -- An ASCII letter is not the capital sigma, and its lower case not the final one.
  have other : character ≠ 'Σ' := by
    rintro rfl
    exact absurd ascii (by decide)
  have small : character.toLower ≠ 'ς' := by
    have letters : ∀ code < 128, (Char.ofNat code).toLower ≠ 'ς' := by decide
    have lowered := letters character.toNat ascii
    rwa [Char.ofNat_toNat] at lowered
  rw [blurLower, if_neg other, lawful.ascii character ascii, List.map_singleton, blurSigma, if_neg small]

/-- Separators are left alone. -/
theorem blurLower_separator {character : Char} (separates : isNameSeparator character = true) :
    blurLower table character = [character] := by
  have listed : character ∈ [' ', ',', '.', '_', '/', '-'] := by simpa [isNameSeparator] using separates
  have plain : ∀ mark ∈ [' ', ',', '.', '_', '/', '-'], mark.toNat < 128 ∧ mark.toLower = mark := by decide
  obtain ⟨ascii, same⟩ := plain character listed
  rw [blurLower_ascii lawful ascii, same]

/-- Texts that differ in letter case and separators come to the same. -/
theorem Varies.collapse_eq {first second : List Char} (varies : Varies first second) (running : Bool) :
    collapseFrom running (first.flatMap (blurLower table)) =
      collapseFrom running (second.flatMap (blurLower table)) := by
  induction varies generalizing running with
  | nil => rfl
  | @letter one two first second same _ ih =>
    -- Two letters that differ in case only are one letter after folding.
    have lowered : blurLower table one = blurLower table two := by
      obtain rfl | ⟨ascii, ascii', lower⟩ := same
      · rfl
      · rw [blurLower_ascii lawful ascii, blurLower_ascii lawful ascii', lower]
    rw [List.flatMap_cons, List.flatMap_cons, lowered]
    generalize blurLower table two = letters
    -- What follows the letters is collapsed alike, whether they end in a separator or not.
    induction letters generalizing running with
    | nil => exact ih running
    | cons letter letters here =>
      rw [List.cons_append, List.cons_append, collapseFrom, collapseFrom, here, here]
  | @gap gap gap' first second some_first some_second separates separates' _ ih =>
    -- Separators are no letters, so folding leaves a gap as it is.
    have kept {gap : List Char} (separates : ∀ character ∈ gap, isNameSeparator character = true) :
        gap.flatMap (blurLower table) = gap := by
      induction gap with
      | nil => rfl
      | cons character gap more =>
        obtain ⟨here, later⟩ := List.forall_mem_cons.mp separates
        rw [List.flatMap_cons, blurLower_separator lawful here, more later]
        rfl
    rw [List.flatMap_append, List.flatMap_append, kept separates, kept separates',
      collapseFrom_gap some_first separates, collapseFrom_gap some_second separates', ih]

end Spelling

section Reading

variable {table : CaseTable} {snapshot : List OsoriLicense} {first second : List Char}

/-- No rule spells a sigma. -/
theorem nameRules_spelled : ∀ rule ∈ nameRules, ∀ pieces ∈ rule.1, ∀ piece ∈ pieces,
    ∀ letter ∈ piece.letters, letter ≠ 'σ' ∧ letter ≠ 'ς' := by
  decide +kernel

/-- A search by a rule does not tell the sigmas apart. -/
theorem search_blur (lawful : table.Lawful) {rule : NameRule} (listed : rule ∈ nameRules)
    (name : List Char) : search table.word rule.1 (name.map blurSigma) = search table.word rule.1 name := by
  refine search_map (fun pieces alternative piece member => ⟨?_, ?_, ?_⟩) name
  · -- The words, the lines and the letters of the patterns are told alike.
    intro character
    unfold blurSigma
    split_ifs with final
    · rw [final, lawful.sigma]
    · rfl
  · exact blurSigma_eq_iff (by decide) (by decide)
  · -- No rule spells a letter that the blur touches.
    intro letter spelled
    obtain ⟨medial, final⟩ := nameRules_spelled rule listed pieces alternative piece member letter spelled
    exact blurSigma_eq_iff medial final

/-- A name without a sigma is no other name with one. -/
theorem eq_of_blur {key : List Char} (medial : 'σ' ∉ key) (final : 'ς' ∉ key) {name : List Char} :
    key = name ↔ key = name.map blurSigma := by
  induction key generalizing name with
  | nil => cases name <;> simp
  | cons letter key ih =>
    -- Letter by letter: none of the key's letters is a sigma.
    simp only [List.mem_cons, not_or] at medial final
    cases name with
    | nil => simp
    | cons character name =>
      have same := blurSigma_eq_iff (fun found => medial.1 found.symm) (fun found => final.1 found.symm) character
      rw [List.map_cons, List.cons_eq_cons, List.cons_eq_cons, ih medial.2 final.2, eq_comm, ← same, eq_comm]

/-- Two names that the same claims make have the same sole owner. -/
theorem soleOwner_congr {claims : List (List Char × String)}
    (same : ∀ claim ∈ claims, claim.1 = first ↔ claim.1 = second) :
    soleOwner claims first = soleOwner claims second := by
  have kept : claims.filter (fun claim => claim.1 = first) = claims.filter fun claim => claim.1 = second :=
    List.filter_congr fun claim listed => by simp [same claim listed]
  rw [soleOwner, soleOwner, kept]

/-- Names that differ in their sigmas only stand for the same. -/
theorem normalizeLicenseName_congr (lawful : table.Lawful) (known : KnownAliases table snapshot)
    {raw raw' : String} (same : (canon table raw).map blurSigma = (canon table raw').map blurSigma) :
    normalizeLicenseName table snapshot (some raw) = normalizeLicenseName table snapshot (some raw') := by
  -- The rules and the aliases look at the canonical name alone.
  have blank : canon table raw = [] ↔ canon table raw' = [] := by
    rw [← List.map_eq_nil_iff (f := blurSigma), same, List.map_eq_nil_iff]
  have rules : nameRules.find? (fun rule => search table.word rule.1 (canon table raw)) =
      nameRules.find? fun rule => search table.word rule.1 (canon table raw') := by
    refine List.find?_congr fun rule listed => ?_
    rw [← search_blur lawful listed, same, search_blur lawful listed]
  have aliases : osoriAlias table snapshot (canon table raw) =
      osoriAlias table snapshot (canon table raw') := by
    refine soleOwner_congr fun claim listed => ?_
    -- And no alias has a sigma in it.
    obtain ⟨medial, final⟩ := known.noSigma claim listed
    rw [eq_of_blur medial final, same, ← eq_of_blur medial final]
  rw [normalizeLicenseName_some, normalizeLicenseName_some, rules, aliases]
  exact if_congr blank rfl rfl

end Reading

section Joining

variable {table : CaseTable}

/-- Something is left of a text with a character that is not space. -/
theorem stripChars_ne_nil {text : List Char} :
    stripChars text ≠ [] ↔ ∃ character ∈ text, ¬ isSpace character := by
  have stripped : (strip (String.ofList text)).toList = stripChars text := by simp [strip, stripChars]
  rw [← stripped, ne_eq, String.toList_eq_nil_iff]
  exact strip_ne_empty_iff.trans (by rw [String.toList_ofList])

/-- What stands between visible characters is not stripped. -/
theorem stripChars_between {front middle back : List Char} (before : ∃ character ∈ front, ¬ isSpace character)
    (behind : ∃ character ∈ back, ¬ isSpace character) :
    ∃ left right, stripChars (front ++ (middle ++ back)) = left ++ (middle ++ right) := by
  -- Both ends have a visible character, so neither is stripped away as a whole.
  have some_front : (front.dropWhile isSpace).isEmpty = false := by
    rw [List.isEmpty_eq_false_iff, ne_eq, List.dropWhile_eq_nil_iff]
    simpa using before
  have some_back : (back.reverse.dropWhile isSpace).isEmpty = false := by
    rw [List.isEmpty_eq_false_iff, ne_eq, List.dropWhile_eq_nil_iff]
    simpa using behind
  refine ⟨front.dropWhile isSpace, (back.reverse.dropWhile isSpace).reverse, ?_⟩
  unfold stripChars
  rw [List.dropWhile_append, some_front]
  simp only [Bool.false_eq_true, if_false, List.reverse_append, List.append_assoc]
  rw [List.dropWhile_append, some_back]
  simp

/-- A collapsed text is not blank when some character is neither a space nor a separator. -/
theorem collapseFrom_visible {text : List Char} (running : Bool) :
    (∃ character ∈ collapseFrom running text, ¬ isSpace character) ↔
      ∃ character ∈ text, ¬ isSpace character ∧ isNameSeparator character = false := by
  -- Along the text; a separator leaves at most a blank, which is not visible.
  induction text generalizing running with
  | nil => simp [collapseFrom]
  | cons character text ih =>
    have blank : isSpace ' ' = true := by decide
    rw [collapseFrom]
    cases separates : isNameSeparator character with
    | true =>
      simp only [if_true]
      split_ifs
      · rw [ih]
        simp [separates]
      · simp only [List.mem_cons, exists_eq_or_imp, ih]
        simp [separates, blank]
    | false =>
      simp only [Bool.false_eq_true, if_false, List.mem_cons, exists_eq_or_imp, ih, separates, and_true]

/-- A blank behind a text is kept, or taken for part of the separators that the text ends in. -/
theorem collapseFrom_blank (text rest : List Char) (running : Bool) :
    (∃ front, collapseFrom running (text ++ ' ' :: rest) = front ++ ' ' :: collapseFrom true rest ∧
        ∀ character ∈ text, isNameSeparator character = false → character ∈ front) ∨
      running = true ∧ (∀ character ∈ text, isNameSeparator character = true) ∧
        collapseFrom running (text ++ ' ' :: rest) = collapseFrom true rest := by
  induction text generalizing running with
  | nil =>
    -- An empty text: the blank is kept, unless a run of separators is going on already.
    cases running with
    | false => exact .inl ⟨[], rfl, by simp⟩
    | true => exact .inr ⟨rfl, by simp, rfl⟩
  | cons character text ih =>
    rw [List.cons_append, collapseFrom]
    cases separates : isNameSeparator character with
    | false =>
      -- A letter ends the run, so that the blank behind it is kept.
      obtain ⟨front, split, kept⟩ | ⟨going, -⟩ := ih false
      · refine .inl ⟨character :: front, by simp [split], ?_⟩
        intro other member letter
        obtain rfl | later := List.mem_cons.mp member
        · exact List.mem_cons_self
        · exact List.mem_cons_of_mem _ (kept other later letter)
      · cases going
    | true =>
      -- A separator adds no letter, so it changes nothing about the letters kept.
      have skips {front : List Char} (kept : ∀ other ∈ text, isNameSeparator other = false → other ∈ front) :
          ∀ other ∈ character :: text, isNameSeparator other = false → other ∈ front := by
        intro other member letter
        obtain rfl | later := List.mem_cons.mp member
        · rw [separates] at letter
          cases letter
        · exact kept other later letter
      simp only [if_true]
      obtain ⟨front, split, kept⟩ | ⟨-, gap, onwards⟩ := ih true
      · -- There is a blank in front, or the whole text is a gap.
        cases running with
        | true => exact .inl ⟨front, split, skips kept⟩
        | false =>
          refine .inl ⟨' ' :: front, by simp [split], ?_⟩
          intro other member letter
          exact List.mem_cons_of_mem _ (skips kept other member letter)
      · cases running with
        | true => exact .inr ⟨rfl, List.forall_mem_cons.mpr ⟨separates, gap⟩, onwards⟩
        | false =>
          refine .inl ⟨[], by simp [onwards], skips ?_⟩
          intro other member letter
          rw [gap other member] at letter
          cases letter

/-- Letters and the blank behind them are kept. -/
theorem collapseFrom_letters {letters : List Char} (some_letter : letters ≠ [])
    (plain : ∀ letter ∈ letters, isNameSeparator letter = false) (running : Bool) (rest : List Char) :
    collapseFrom running (letters ++ ' ' :: rest) = letters ++ ' ' :: collapseFrom true rest := by
  induction letters generalizing running with
  | nil => exact absurd rfl some_letter
  | cons letter letters ih =>
    -- The letters stay as they are, and the last one ends the run.
    obtain ⟨here, later⟩ := List.forall_mem_cons.mp plain
    rw [List.cons_append, collapseFrom, here]
    by_cases last : letters = []
    · subst last
      rfl
    · simp [ih last later]

/-- A name is not blank when, in lower case, some character is neither a space nor a separator. -/
theorem canon_ne_nil {raw : String} :
    canon table raw ≠ [] ↔ ∃ character ∈ (raw.toList.take maxLicenseNameLen).flatMap (blurLower table),
      ¬ isSpace character ∧ isNameSeparator character = false := by
  rw [← collapseFrom_visible false, ← stripChars_ne_nil, ← map_canon, ne_eq, ne_eq, List.map_eq_nil_iff]

/-- A name stays visible with something behind it. -/
theorem canon_append {first : String} (visible : canon table first ≠ []) (more : String) :
    canon table (first ++ more) ≠ [] := by
  rw [canon_ne_nil] at visible ⊢
  obtain ⟨character, inside, seen⟩ := visible
  refine ⟨character, ?_, seen⟩
  rw [String.toList_append, List.take_append, List.flatMap_append]
  exact List.mem_append_left _ inside

/-- Two names with a conjunction between them have the conjunction in their compared form. -/
theorem hasJoint_joined (lawful : table.Lawful) {first second joint : String}
    (conjunction : joint ∈ [" or ", " and "]) (one : canon table first ≠ []) (two : canon table second ≠ [])
    (short : (first ++ joint ++ second).length ≤ maxLicenseNameLen) :
    HasJoint (canon table (first ++ joint ++ second)) := by
  have lengths : first.toList.length + joint.toList.length + second.toList.length ≤ maxLicenseNameLen := by
    rw [String.length_append, String.length_append] at short
    simpa only [String.length_toList] using short
  rw [canon_ne_nil, List.take_of_length_le (by omega)] at one two
  -- The conjunction is in lower case, and has no separators but its blanks.
  obtain ⟨letters, spelled, lowered, some_letter, plain⟩ : ∃ letters, joint.toList = ' ' :: (letters ++ [' ']) ∧
      letters.flatMap (blurLower table) = letters ∧
      letters ≠ [] ∧ ∀ letter ∈ letters, isNameSeparator letter = false := by
    have lower {letters : List Char}
        (small : ∀ letter ∈ letters, letter.toNat < 128 ∧ letter.toLower = letter) :
        letters.flatMap (blurLower table) = letters := by
      induction letters with
      | nil => rfl
      | cons letter letters ih =>
        obtain ⟨⟨ascii, same⟩, later⟩ := List.forall_mem_cons.mp small
        rw [List.flatMap_cons, blurLower_ascii lawful ascii, same, ih later]
        rfl
    obtain rfl | rfl : joint = " or " ∨ joint = " and " := by simpa using conjunction
    · exact ⟨['o', 'r'], rfl, lower (by decide), by decide, by decide⟩
    · exact ⟨['a', 'n', 'd'], rfl, lower (by decide), by decide, by decide⟩
  have blank : blurLower table ' ' = [' '] := blurLower_separator lawful (by decide)
  have whole : (canon table (first ++ joint ++ second)).map blurSigma = stripChars (collapseFrom false
      (first.toList.flatMap (blurLower table) ++ ' ' ::
        (letters ++ ' ' :: second.toList.flatMap (blurLower table)))) := by
    have within : (first ++ joint ++ second).toList.length ≤ maxLicenseNameLen := by
      rwa [String.length_toList]
    rw [map_canon, List.take_of_length_le within]
    simp [spelled, lowered, blank]
  obtain ⟨front, split, kept⟩ | ⟨going, -⟩ :=
    collapseFrom_blank (first.toList.flatMap (blurLower table))
      (letters ++ ' ' :: second.toList.flatMap (blurLower table)) false
  · -- Both names have something visible, so that nothing of the conjunction is stripped.
    have before : ∃ character ∈ front, ¬ isSpace character := by
      obtain ⟨character, inside, visible, letter⟩ := one
      exact ⟨character, kept character inside letter, visible⟩
    have behind := (collapseFrom_visible true).mpr two
    obtain ⟨left, right, found⟩ := @stripChars_between front joint.toList _ before behind
    have mentioned : HasJoint ((canon table (first ++ joint ++ second)).map blurSigma) := by
      refine ⟨[joint], by simpa using conjunction, left, joint.toList ++ right, ?_, List.prefix_append _ _⟩
      rw [whole, split, collapseFrom_letters some_letter plain, ← found, spelled]
      simp
    rw [← compoundRule_applies table.word, search_blur lawful (by decide)] at mentioned
    exact (compoundRule_applies table.word).mp mentioned
  · cases going

end Joining

section Guesses

variable {table : CaseTable} {snapshot : List OsoriLicense} {raw : String}

/-- The rules for the lesser, library and affero licences never stand for the GPL itself. -/
theorem variantRules_targets : ∀ rule ∈ variantRules, rule.2 ≠ none ∧ ∀ id ∈ rule.2, isPlainGpl id = false := by
  decide

/-- The rules for the general public licence stand for the GPL itself. -/
theorem gplRules_targets : ∀ rule ∈ gplRules, rule.2 ≠ none ∧ ∀ id ∈ rule.2, isPlainGpl id = true := by
  decide

/-- The rules for the other licences never stand for the GPL. -/
theorem aliasRules_targets : ∀ rule ∈ aliasRules, rule.2 ≠ none ∧ ∀ id ∈ rule.2, isPlainGpl id = false := by
  decide

/-- An alias stands for what it is claimed for. -/
theorem mem_of_soleOwner {claims : List (List Char × String)} {key : List Char} {owner : String}
    (found : soleOwner claims key = some owner) : (key, owner) ∈ claims := by
  unfold soleOwner at found
  -- The one owner left belongs to a claim of the key.
  split at found
  · rename_i single owners
    cases found
    have listed : owner ∈ ((claims.filter fun claim => claim.1 = key).map Prod.snd).dedup := by simp [owners]
    obtain ⟨claim, member, rfl⟩ := List.mem_map.mp (List.mem_dedup.mp listed)
    obtain ⟨claimed, same⟩ := List.mem_filter.mp member
    rw [decide_eq_true_eq] at same
    rwa [← same]
  · cases found

/-- A name that is seen is not recognised exactly without a version of a general public licence, and with
a conjunction or without any other rule and alias. -/
theorem normalizeLicenseName_eq_none (visible : canon table raw ≠ []) :
    normalizeLicenseName table snapshot (some raw) = none ↔
      ¬ VariantVersioned (canon table raw) ∧ ¬ GplVersioned (canon table raw) ∧
        (HasJoint (canon table raw) ∨ Unrecognised table snapshot (canon table raw)) := by
  -- In the order of the source: a variant, a plain GPL, a joint name, then rules and aliases.
  obtain ⟨variant, rule, listed, value⟩ | ⟨other, ⟨plain, rule, listed, value⟩ |
    ⟨different, ⟨joint, value⟩ | ⟨single, ⟨rule, listed, found, value⟩ | ⟨unmatched, value⟩⟩⟩⟩ :=
    @normalizeLicenseName_cases table snapshot raw visible
  · simp [value, variant, (variantRules_targets rule listed).1]
  · simp [value, plain, (gplRules_targets rule listed).1]
  · simp [value, other, different, joint]
  · -- A rule found the name, so it is recognised.
    have recognised : ¬ Unrecognised table snapshot (canon table raw) := by
      intro unrecognised
      rw [unrecognised.1 rule listed] at found
      cases found
    simp [value, single, recognised, (aliasRules_targets rule listed).1]
  · simp only [value, other, different, single, not_false_eq_true, true_and, false_or]
    exact ⟨fun missing => ⟨unmatched, missing⟩, fun unrecognised => unrecognised.2⟩

/-- A lesser, library or affero licence is taken for the GPL itself exactly when its version is one of
the GPL's and none of its own. -/
theorem normalizeLicenseName_variant (known : KnownAliases table snapshot)
    (named : NamesVariant (canon table raw)) :
    (∀ id, normalizeLicenseName table snapshot (some raw) = some id → isPlainGpl id = false) ↔
      VariantVersioned (canon table raw) ∨ ¬ GplVersioned (canon table raw) := by
  have visible : canon table raw ≠ [] := by
    intro blank
    obtain ⟨texts, listed, before, after, parts, stands⟩ := named
    rw [blank, List.nil_eq, List.append_eq_nil_iff] at parts
    rw [parts.2] at stands
    simp only [List.mem_cons, List.not_mem_nil, or_false] at listed
    obtain rfl | rfl | rfl := listed <;> simp [InRow] at stands
  obtain ⟨variant, rule, listed, value⟩ | ⟨other, ⟨plain, rule, listed, value⟩ |
    ⟨different, ⟨joint, value⟩ | ⟨single, ⟨rule, listed, found, value⟩ | ⟨unmatched, value⟩⟩⟩⟩ :=
    @normalizeLicenseName_cases table snapshot raw visible
  · have targets := (variantRules_targets rule listed).2
    simpa [value, variant] using targets
  · -- The rule stands for some id, and that is one of the GPL.
    obtain ⟨target, ids⟩ := gplRules_targets rule listed
    obtain ⟨id, chosen⟩ := Option.ne_none_iff_exists'.mp target
    have gpl := ids id chosen
    simp only [value, other, plain, not_true_eq_false, or_self, iff_false, not_forall]
    exact ⟨id, chosen, by simp [gpl]⟩
  · simp [value, different]
  · have targets := (aliasRules_targets rule listed).2
    simpa [value, different] using targets
  · simp only [value, different, not_false_eq_true, or_true, iff_true]
    intro id found
    exact known.variants _ (mem_of_soleOwner found) named

/-- A name that stands for something is seen. -/
theorem visible_of_some {id : String} (found : normalizeLicenseName table snapshot (some raw) = some id) :
    canon table raw ≠ [] := by
  intro blank
  rw [normalizeLicenseName_some, if_pos blank] at found
  cases found

/-- Spelling does not change what a name stands for. Two names with a conjunction between them stand for
nothing exactly when no version of a general public licence is found across them and, if the conjunction is
cut off, nothing else is found either. A lesser, library or affero licence is no plain GPL exactly when its
version is one of its own or none of the GPL's. -/
theorem normalizeLicenseName_guesses (lawful : table.Lawful) (known : KnownAliases table snapshot) :
    (∀ first second : String, first.length ≤ maxLicenseNameLen → second.length ≤ maxLicenseNameLen →
      Varies first.toList second.toList →
      normalizeLicenseName table snapshot (some first) = normalizeLicenseName table snapshot (some second)) ∧
    (∀ first second joint id id', joint ∈ [" or ", " and "] →
      normalizeLicenseName table snapshot (some first) = some id →
      normalizeLicenseName table snapshot (some second) = some id' → id ≠ id' →
      (normalizeLicenseName table snapshot (some (first ++ joint ++ second)) = none ↔
        ¬ VariantVersioned (canon table (first ++ joint ++ second)) ∧
          ¬ GplVersioned (canon table (first ++ joint ++ second)) ∧
          (HasJoint (canon table (first ++ joint ++ second)) ∨
            Unrecognised table snapshot (canon table (first ++ joint ++ second)))) ∧
      ((first ++ joint ++ second).length ≤ maxLicenseNameLen →
        HasJoint (canon table (first ++ joint ++ second)))) ∧
    ∀ raw, NamesVariant (canon table raw) →
      ((∀ id, normalizeLicenseName table snapshot (some raw) = some id → isPlainGpl id = false) ↔
        VariantVersioned (canon table raw) ∨ ¬ GplVersioned (canon table raw)) := by
  refine ⟨?_, ?_, ?_⟩
  · -- First the spellings: both names have one canonical form.
    intro first second one two varies
    apply normalizeLicenseName_congr lawful known
    rw [map_canon, map_canon, List.take_of_length_le (by rwa [String.length_toList]),
      List.take_of_length_le (by rwa [String.length_toList]), varies.collapse_eq lawful]
  · -- Then the choices: a joined name is guessed only if it is nobody's own.
    intro first second joint id id' conjunction one two _
    have seen := visible_of_some one
    have seen' := visible_of_some two
    refine ⟨?_, hasJoint_joined lawful conjunction seen seen'⟩
    rw [String.append_assoc]
    exact normalizeLicenseName_eq_none (canon_append seen _)
  · -- Last the versioned names.
    intro raw named
    exact normalizeLicenseName_variant known named

end Guesses

/-- A choice is taken for its first licence, and a library licence for the GPL. -/
theorem normalizeLicenseName_guessed :
    normalizeLicenseName .asciiOnly [] (some "GNU General Public License v2") = some "GPL-2.0-only" ∧
      normalizeLicenseName .asciiOnly [] (some "MIT License") = some "MIT" ∧
      normalizeLicenseName .asciiOnly []
        (some ("GNU General Public License v2" ++ " or " ++ "MIT License")) = some "GPL-2.0-only" ∧
      NamesVariant (canon .asciiOnly "GNU Library General Public License v2") ∧
      normalizeLicenseName .asciiOnly [] (some "GNU Library General Public License v2") =
        some "GPL-2.0-only" := by
  have named : canon .asciiOnly "GNU Library General Public License v2" =
      "gnu ".toList ++ ("library general public".toList ++ " license v2".toList) := by decide +kernel
  refine ⟨by decide +kernel, by decide +kernel, by decide +kernel, ?_, by decide +kernel⟩
  exact ⟨["library general public"], by simp, _, _, named, List.prefix_append _ _⟩

/-- Two spellings of one licence, a choice of two, and a lesser licence with a version of its own. -/
theorem normalizeLicenseName_careful :
    normalizeLicenseName .asciiOnly [] (some "MIT 0") = normalizeLicenseName .asciiOnly [] (some "mit-0") ∧
      normalizeLicenseName .asciiOnly [] (some ("MIT License" ++ " or " ++ "Apache 2.0")) = none ∧
      ∀ id, normalizeLicenseName .asciiOnly [] (some "Lesser General Public License 2.1") = some id →
        isPlainGpl id = false := by
  have none_claimed : osoriCanonicalClaims .asciiOnly [] = [] := rfl
  have known : KnownAliases .asciiOnly [] := ⟨by simp [none_claimed], by simp [none_claimed]⟩
  -- The three laws, at an empty catalogue.
  obtain ⟨spelling, choice, variant⟩ := normalizeLicenseName_guesses CaseTable.asciiOnly_lawful known
  -- The two spellings vary letter by letter, and in the blank against the hyphen.
  have letter {first second : Char} (ascii : first.toNat < 128) (ascii' : second.toNat < 128)
      (same : first.toLower = second.toLower) {one two : List Char} (rest : Varies one two) :
      Varies (first :: one) (second :: two) := .letter (.inr ⟨ascii, ascii', same⟩) rest
  have varies : Varies "MIT 0".toList "mit-0".toList := by
    refine letter (by decide) (by decide) (by decide) (letter (by decide) (by decide) (by decide)
      (letter (by decide) (by decide) (by decide) ?_))
    exact @Varies.gap [' '] ['-'] _ _ (by simp) (by simp) (by decide) (by decide)
      (letter (by decide) (by decide) (by decide) .nil)
  -- The joined name is not guessed, since both of its parts are known names.
  obtain ⟨unguessed, joined⟩ := choice "MIT License" "Apache 2.0" " or " "MIT" "Apache-2.0" (by simp)
    (by decide +kernel) (by decide +kernel) (by decide)
  -- The lesser name is a variant, and the plain GPL rule has to leave it alone.
  have lesser : canon .asciiOnly "Lesser General Public License 2.1" =
      "lesser general public".toList ++ " license ".toList ++ "2 1".toList := by decide +kernel
  refine ⟨spelling _ _ (by decide) (by decide) varies,
    unguessed.mpr ⟨?_, ?_, .inl (joined (by decide))⟩, (variant _ ?_).mpr (.inl ?_)⟩
  · rw [← variantRules_apply CaseTable.asciiOnly.word]
    decide +kernel
  · rw [← gplRules_apply CaseTable.asciiOnly.word]
    decide +kernel
  · exact ⟨["lesser general public"], by simp, [], _, by rw [lesser]; rfl, List.prefix_append _ _⟩
  · exact ⟨["lesser general public", "2 1"], by simp, [], _, by rw [lesser]; rfl, _, _, rfl, by decide,
      List.prefix_refl _⟩

end Trusca
