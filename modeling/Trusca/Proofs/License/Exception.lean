import Mathlib.Data.List.DropRight
import Mathlib.Data.List.Find
import Mathlib.Data.Nat.Cast.Order.Basic
import Mathlib.Data.String.Basic
import Mathlib.Order.Lattice.Nat
import Trusca.Data.Lines
import Trusca.Proofs.License.Conflict
import Trusca.Proofs.License.Fold
import Trusca.Proofs.Sbom.LicenseExpr

/-! An exception in the outbound declaration counts as one more outbound licence, and when this makes no
verdict worse. -/

namespace Trusca

section Statements

/-- A text that is read as one name. -/
structure IsName (text : String) : Prop where
  token : tokensOf text = [.id text]
  plain : ∀ character ∈ text.toList, isControlChar character = false

/-- An outbound declaration with an exception. -/
def excepted (outbound clause : String) : String := outbound ++ " WITH " ++ clause

/-- The declaration with the exception keeps within what is read. -/
def FitsExcepted (outbound clause : String) : Prop :=
  (excepted outbound clause).length ≤ maxExpressionLength ∧
    (tokensOf outbound).length + 2 ≤ maxTokenCount

/-- Tables that are right about ASCII. -/
structure LetterTables.RightOnAscii (tables : LetterTables) : Prop where
  upper : ∀ character : Char, character.toNat < 128 → tables.upper character = [character.toUpper]
  word : ∀ character : Char, character.toNat < 128 →
    tables.word character = LetterTables.asciiOnly.word character
  digit : ∀ character : Char, character.toNat < 128 → tables.digit character = character.isDigit

/-- One of the outbound licences is at least as strict as an exception whose name is taken for a licence:
to every class of dependencies, and as to the exceptions for pairs. -/
def CoveredName (tables : LetterTables) (terms : List String) (clause : String) : Prop :=
  (match classifyLicenseClass tables clause with
    | .uncategorized => ∃ term ∈ terms, classifyLicenseClass tables term = .uncategorized
    | .permissive | .weakCopyleft => ∃ term ∈ terms,
        classifyLicenseClass tables term = .permissive ∨ classifyLicenseClass tables term = .weakCopyleft
    | .strongCopyleft => ∃ term ∈ terms, classifyLicenseClass tables term ≠ .networkCopyleft
    | .networkCopyleft => True) ∧
  (canonicalPairKey tables clause = "GPL-2.0-ONLY" →
    ∃ term ∈ terms, canonicalPairKey tables term = "GPL-2.0-ONLY")

/-- Against these outbound licences nothing is known about any dependency. -/
def NothingKnown (tables : LetterTables) (terms : List String) : Prop :=
  (∃ term ∈ terms, classifyLicenseClass tables term = .uncategorized) ∧
    ∀ term ∈ terms, classifyLicenseClass tables term ≠ .permissive ∧
      classifyLicenseClass tables term ≠ .weakCopyleft ∧ canonicalPairKey tables term ≠ "GPL-2.0-ONLY"

/-- An exception that makes no verdict worse: the declaration cannot be read in any case, or the name of
the exception is covered by the licences, or, where the exception makes the declaration too long to be
read, nothing was known against it before. -/
def HarmlessException (tables : LetterTables) (outbound clause : String) : Prop :=
  ∀ terms, outboundTerms outbound = .ok terms →
    (FitsExcepted outbound clause → CoveredName tables terms clause) ∧
      (¬ FitsExcepted outbound clause → NothingKnown tables terms)

end Statements

section Grammar

/-- An exception may follow wherever an expression ends. -/
theorem Derives.excepted {op : SpdxOperator} {tokens : List SpdxToken} {tree : SpdxExpr} {depth : Nat}
    (derived : Derives (some op) tokens tree depth) (clause : String) :
    ∃ more, Derives (some op) (tokens ++ [SpdxToken.operator .WITH, .id clause]) more depth := by
  generalize found : some op = level at derived
  -- Along the derivation: the clause joins the last operand, at the level where WITH binds.
  induction derived generalizing op with
  | id name => cases found
  | paren inner => cases found
  | @operand op tokens tree depth single ih =>
    cases found
    -- At the level of WITH the operand itself takes the clause; above it the operand passes it inwards.
    cases op with
    | WITH =>
      have both := Derives.joined (@Derives.operand .WITH _ _ _ single) (.id clause)
      rw [Nat.max_zero] at both
      exact ⟨_, both⟩
    | AND =>
      obtain ⟨more, longer⟩ := ih rfl
      exact ⟨more, .operand longer⟩
    | OR =>
      obtain ⟨more, longer⟩ := ih rfl
      exact ⟨more, .operand longer⟩
  | @joined op left right first second high low before after _ ih =>
    cases found
    -- Behind a joined pair the clause stands behind the right operand.
    have spread : left ++ SpdxToken.operator op :: right ++ [SpdxToken.operator .WITH, .id clause] =
        left ++ SpdxToken.operator op :: (right ++ [SpdxToken.operator .WITH, .id clause]) := by simp
    cases op with
    -- WITH groups to the left, so the clause is joined to the pair.
    | WITH =>
      have both := Derives.joined (Derives.joined before after) (.id clause)
      rw [Nat.max_zero] at both
      exact ⟨_, both⟩
    | AND =>
      obtain ⟨more, longer⟩ := ih rfl
      rw [spread]
      exact ⟨_, .joined before longer⟩
    | OR =>
      obtain ⟨more, longer⟩ := ih rfl
      rw [spread]
      exact ⟨_, .joined before longer⟩

/-- What an exception follows at the end is an expression itself. -/
theorem Derives.unexcepted {level : Option SpdxOperator} {all : List SpdxToken} {tree : SpdxExpr}
    {depth : Nat} (derived : Derives level all tree depth) {tokens : List SpdxToken} {clause : String}
    (split : all = tokens ++ [SpdxToken.operator .WITH, .id clause]) :
    ∃ less shallow, shallow ≤ depth ∧ Derives level tokens less shallow := by
  induction derived generalizing tokens with
  | id name =>
    have lengths := congrArg List.length split
    simp at lengths
  | paren inner =>
    have last := congrArg List.getLast? split
    rw [List.getLast?_append_of_ne_nil _ (by simp), ← List.cons_append,
      List.getLast?_append_of_ne_nil _ (by simp)] at last
    simp at last
  | operand single ih =>
    obtain ⟨less, shallow, within, shorter⟩ := ih split
    exact ⟨less, shallow, within, .operand shorter⟩
  | @joined op left right first second high low before after _ ih =>
    obtain ⟨middle, rfl, rest⟩ | ⟨middle, rfl, rest⟩ := List.append_eq_append_iff.mp split
    · -- The last operand ends with the exception, or is its name.
      cases middle with
      | nil =>
        rw [List.nil_append] at rest
        obtain ⟨same, rfl⟩ := List.cons_eq_cons.mp rest
        rw [List.append_nil]
        exact ⟨first, high, Nat.le_max_left _ _, before⟩
      | cons token middle =>
        obtain ⟨rfl, rfl⟩ := List.cons_eq_cons.mp rest
        obtain ⟨less, shallow, within, shorter⟩ := ih rfl
        exact ⟨_, _, max_le_max_left _ within, .joined before shorter⟩
    · -- Otherwise the operator would stand behind the name.
      cases middle with
      | nil =>
        rw [List.nil_append] at rest
        obtain ⟨same, rfl⟩ := List.cons_eq_cons.mp rest
        rw [List.append_nil] at before
        exact ⟨first, high, Nat.le_max_left _ _, before⟩
      | cons token middle =>
        cases middle <;> simp at rest

end Grammar

section Texts

variable {outbound clause : String}

/-- Adding an exception adds two tokens behind those of the licence. -/
theorem tokensOf_excepted (name : IsName clause) :
    tokensOf (excepted outbound clause) = tokensOf outbound ++
      [SpdxToken.operator .WITH, .id clause] := by
  rw [excepted, @tokensOf_between _ ['W', 'I', 'T', 'H'] .WITH rfl (by decide) outbound clause, name.token]

/-- A name is read as itself. -/
theorem IsName.read {text : String} (name : IsName text) (visible : strip text ≠ "")
    (short : text.length ≤ maxExpressionLength) : parseExpression (some text) = .ok (.id text) := by
  refine parseExpression_ok.mpr ⟨visible, short, name.plain, ?_, 0, by decide, ?_⟩
  · rw [name.token]
    exact (by decide : 1 ≤ maxTokenCount)
  · rw [name.token]
    exact (Derives.id text).ofPrimary.ofWith

/-- A licence with an exception is not blank. -/
theorem strip_excepted : strip (excepted outbound clause) ≠ "" := by
  refine strip_ne_empty_iff.mpr ⟨'W', ?_, by decide⟩
  simp [excepted]

/-- With an exception the declaration names one licence more, as long as it fits. -/
theorem outboundTerms_excepted (name : IsName clause) {terms : List String}
    (declared : outboundTerms outbound = .ok terms) (fits : FitsExcepted outbound clause) :
    outboundTerms (excepted outbound clause) = .ok (terms ++ [clause]) := by
  -- The declared terms come from a tree, and the clause is joined to that tree.
  obtain ⟨tree, read, rfl⟩ := outboundTerms_ok.mp declared
  obtain ⟨-, -, plain, -, depth, shallow, derived⟩ := parseExpression_ok.mp read
  obtain ⟨more, longer⟩ := derived.excepted clause
  refine outboundTerms_ok.mpr ⟨more, ?_, ?_⟩
  · refine parseExpression_ok.mpr ⟨strip_excepted, fits.1, ?_, ?_, depth, shallow, ?_⟩
    · -- Neither the old text, nor the blanks around WITH, nor the clause have a control character.
      intro character member
      simp only [excepted, String.toList_append, List.mem_append] at member
      obtain (before | between) | behind := member
      · exact plain character before
      · have clean : ∀ character ∈ " WITH ".toList, isControlChar character = false := by decide
        exact clean character between
      · exact name.plain character behind
    · -- The length is bounded by the assumption, since the clause makes it longer.
      rw [tokensOf_excepted name, List.length_append]
      exact fits.2
    · rw [tokensOf_excepted name]
      exact longer
  · -- The terms are the identifiers in their order.
    rw [longer.ids, derived.ids, List.filterMap_append]
    rfl

/-- If the declaration can be read with the exception, it fits, and it can be read without. -/
theorem outboundTerms_of_excepted (name : IsName clause) (visible : strip outbound ≠ "")
    {terms : List String} (declared : outboundTerms (excepted outbound clause) = .ok terms) :
    FitsExcepted outbound clause ∧ ∃ terms, outboundTerms outbound = .ok terms := by
  -- The longer text is read, and the shorter one has less of everything.
  obtain ⟨tree, read, -⟩ := outboundTerms_ok.mp declared
  obtain ⟨-, short, plain, few, depth, shallow, derived⟩ := parseExpression_ok.mp read
  rw [tokensOf_excepted name] at few derived
  rw [List.length_append] at few
  -- Without the clause the derivation is one of the shorter text.
  obtain ⟨less, low, within, shorter⟩ := derived.unexcepted rfl
  refine ⟨⟨short, few⟩, less.ids, outboundTerms_ok.mpr ⟨less, ?_, rfl⟩⟩
  have lengths : outbound.length ≤ (excepted outbound clause).length := by
    simp only [excepted, String.length_append]
    omega
  refine parseExpression_ok.mpr ⟨visible, Nat.le_trans lengths short, ?_, ?_, low, by omega, shorter⟩
  · -- Its characters are among those of the longer text, and its tokens as well.
    intro character member
    refine plain character ?_
    simp [excepted, member]
  · exact Nat.le_trans (Nat.le_add_right _ _) few

end Texts

section Ranking

variable {tables : LetterTables} {rules : CompatRules} {expression outbound : String}
  {terms : List String}

/-- Against a declaration that cannot be read nothing is known. -/
theorem conflictRank_unread {reason : ExpressionParseError} (failed : outboundTerms outbound = .error reason) :
    conflictRank tables rules expression outbound = 2 := by
  rw [conflictRank, expressionVerdict, failed]
  rfl

/-- Nothing is known about a text that cannot be read. -/
theorem conflictRank_unreadable {reason : ExpressionParseError}
    (failed : parseExpression (some expression) = .error reason) :
    conflictRank tables rules expression outbound = 2 := by
  rw [conflictRank, expressionVerdict]
  cases outboundTerms outbound with
  | error other => rfl
  | ok terms =>
    dsimp only
    rw [foldExpression_eq, failed]
    rfl

/-- Against more terms a licence has the worse of the two verdicts. -/
theorem againstAll_append (more : List String) (name : String) :
    againstAll tables rules (terms ++ more) name =
      max (againstAll tables rules terms name) (againstAll tables rules more name) := by
  rw [againstAll, againstAll, againstAll, List.map_append]
  generalize terms.map _ = numbers
  induction numbers with
  | nil => simp [greatestOf]
  | cons number numbers ih =>
    have step (rest : List Nat) : greatestOf (number :: rest) = max number (greatestOf rest) := rfl
    rw [List.cons_append, step, step, ih, Nat.max_assoc]

/-- Where all licences are unknown, so is every expression. -/
theorem severity_unknown {judge : String → Nat} (unknown : ∀ name, judge name = 2) (tree : SpdxExpr) :
    tree.severity judge = 2 := by
  induction tree with
  | id name => exact unknown name
  | node op left right leftIh rightIh =>
    cases op <;> rw [SpdxExpr.severity, leftIh] <;> simp [rightIh, soften]

end Ranking

section Ascii

variable {tables : LetterTables}

/-- A text of ASCII characters. -/
def isAscii (text : String) : Prop := ∀ character ∈ text.toList, character.toNat < 128

instance (text : String) : Decidable (isAscii text) :=
  inferInstanceAs (Decidable (∀ character ∈ text.toList, character.toNat < 128))

/-- On ASCII every right table upper-cases alike. -/
theorem upper_ascii (right : tables.RightOnAscii) {characters : List Char}
    (ascii : ∀ character ∈ characters, character.toNat < 128) :
    characters.flatMap tables.upper = characters.flatMap LetterTables.asciiOnly.upper :=
  List.flatMap_congr fun character member => right.upper character (ascii character member)

/-- Stripping an ASCII text leaves ASCII. -/
theorem strip_ascii {text : String} (ascii : isAscii text) : isAscii (strip text) := by
  intro character member
  rw [toList_strip] at member
  exact ascii character ((List.dropWhile_sublist _).mem ((List.rdropWhile_prefix _ _).mem member))

/-- The tables do not matter to the class of an ASCII text. -/
theorem classifyLicenseClass_ascii (right : tables.RightOnAscii) {text : String} (ascii : isAscii text) :
    classifyLicenseClass tables text = classifyLicenseClass .asciiOnly text := by
  have stripped := strip_ascii ascii
  -- Folding the case of ASCII letters leaves them ASCII.
  have folded : ∀ character ∈ (strip text).toList.map ignoreCase, character.toNat < 128 := by
    intro character member
    obtain ⟨letter, listed, rfl⟩ := List.mem_map.mp member
    have small : ∀ number < 128, (ignoreCase (Char.ofNat number)).toNat < 128 := by decide
    have same := small letter.toNat (stripped letter listed)
    rwa [Char.ofNat_toNat] at same
  -- The patterns themselves are ASCII.
  have plain : ∀ entry ∈ classPatterns, ∀ pieces ∈ entry.1, ∀ piece ∈ pieces,
      piece.Plain (fun character => character.toNat < 128) := by
    intro entry listed pieces alternative piece member
    exact PatternPiece.plain_of_asciiWord (List.all_eq_true.mp
      (List.all_eq_true.mp (List.all_eq_true.mp classPatterns_ascii entry listed) pieces alternative)
      piece member)
  -- So each pattern is found in both texts or in neither.
  have found : classPatterns.find? (fun entry =>
        search tables.word entry.1 ((strip text).toList.map ignoreCase)) =
      classPatterns.find? fun entry =>
        search LetterTables.asciiOnly.word entry.1 ((strip text).toList.map ignoreCase) :=
    List.find?_congr fun entry listed => search_agree right.word (plain entry listed) folded
  simp only [classifyLicenseClass]
  rw [upper_ascii right stripped, found]

/-- Nor do they matter to the form in which it is compared. -/
theorem canonicalPairKey_ascii (right : tables.RightOnAscii) {text : String} (ascii : isAscii text) :
    canonicalPairKey tables text = canonicalPairKey .asciiOnly text := by
  have stripped := strip_ascii ascii
  -- A row of digits and points is read alike, since a part's letters are letters of the text.
  have rows (rest : List Char) (small : ∀ character ∈ rest, character.toNat < 128) :
      isVersionRow tables rest = isVersionRow .asciiOnly rest := by
    rw [isVersionRow, isVersionRow, Bool.eq_iff_iff, List.all_eq_true, List.all_eq_true]
    refine forall_congr' fun part => forall_congr' fun listed => ?_
    have digits : part.all tables.digit = part.all LetterTables.asciiOnly.digit := by
      rw [Bool.eq_iff_iff, List.all_eq_true, List.all_eq_true]
      refine forall_congr' fun character => forall_congr' fun member => ?_
      have within : character ∈ rest := by
        rw [← @List.intercalate_splitOn _ rest _ _ '.']
        exact mem_intercalate_of_mem listed member
      rw [right.digit character (small character within)]
      rfl
    rw [digits]
  -- Whether the id is one of the deprecated ones depends on its ASCII letters alone.
  have deprecated : isDeprecatedGplId tables (strip text).toList =
      isDeprecatedGplId .asciiOnly (strip text).toList := by
    rw [isDeprecatedGplId, isDeprecatedGplId]
    congr 1
    funext family
    rw [rows _ fun character member => stripped character (List.mem_of_mem_drop member)]
  simp only [canonicalPairKey]
  rw [deprecated, upper_ascii right]
  -- The suffix the source appends is ASCII, and so is what is upper-cased.
  intro character member
  split_ifs at member
  · obtain front | back := List.mem_append.mp member
    · exact stripped character front
    · have small : ∀ character ∈ "-only".toList, character.toNat < 128 := by decide
      exact small character back
  · exact stripped character member

end Ascii

section Vendored

variable {tables : LetterTables}

/-- What the vendored pairs and the samples below are compared as. -/
theorem canonicalPairKey_samples :
    (∀ name ∈ ["MIT", "GPL-3.0-only", "AGPL-3.0-only"], canonicalPairKey .asciiOnly name ≠ "APACHE-2.0" ∧
      canonicalPairKey .asciiOnly name ≠ "APACHE-1.1") ∧
    canonicalPairKey .asciiOnly "GPL-2.0-ONLY" = "GPL-2.0-ONLY" ∧
    canonicalPairKey .asciiOnly "APACHE-2.0" = "APACHE-2.0" ∧
    canonicalPairKey .asciiOnly "APACHE-1.1" = "APACHE-1.1" ∧
    canonicalPairKey .asciiOnly "Apache-2.0" = "APACHE-2.0" ∧
    readClass .asciiOnly "MIT" = .permissive ∧ readClass .asciiOnly "Apache-2.0" = .permissive ∧
    readClass .asciiOnly "GPL-3.0-only" = .strongCopyleft ∧
    readClass .asciiOnly "AGPL-3.0-only" = .networkCopyleft := by
  decide

/-- The classes decide, but for the pairs of GPL-2.0-only with two versions of Apache. -/
theorem rank_termVerdict (right : tables.RightOnAscii) (name term : String) :
    (termVerdict tables vendoredRules name term).verdict.rank =
      if canonicalPairKey tables term = "GPL-2.0-ONLY" ∧
          (canonicalPairKey tables name = "APACHE-2.0" ∨ canonicalPairKey tables name = "APACHE-1.1") then 3
      else (vendoredMatrix (classifyLicenseClass tables term)
        (classifyLicenseClass tables name)).1.rank := by
  obtain ⟨-, gpl, apache, older, -⟩ := canonicalPairKey_samples
  -- The three names of the explicit pairs are ASCII.
  rw [← canonicalPairKey_ascii right (by decide)] at gpl apache older
  rw [termVerdict, explicitPair, vendoredRules]
  simp only [List.find?_cons, List.find?_nil, gpl, apache, older]
  have differ {key other : String} (apart : ¬ key = other) : (other == key) = false :=
    beq_eq_false_iff_ne.mpr (Ne.symm apart)
  -- A pair needs the outbound GPL-2.0-only and one of the two Apache licences.
  by_cases outbound : canonicalPairKey tables term = "GPL-2.0-ONLY"
  · by_cases newer : canonicalPairKey tables name = "APACHE-2.0"
    · simp [outbound, newer, Verdict.rank]
    · by_cases old : canonicalPairKey tables name = "APACHE-1.1"
      · simp [outbound, old, Verdict.rank]
      · simp [outbound, newer, old, differ newer, differ old]
  · -- Any other outbound term goes by the matrix.
    simp [outbound, differ outbound]

/-- The pairs are never better than the classes. -/
theorem matrix_le_rank (right : tables.RightOnAscii) (name term : String) :
    (vendoredMatrix (classifyLicenseClass tables term) (classifyLicenseClass tables name)).1.rank ≤
      (termVerdict tables vendoredRules name term).verdict.rank := by
  rw [rank_termVerdict right]
  split_ifs with pair
  · cases (vendoredMatrix (classifyLicenseClass tables term) (classifyLicenseClass tables name)).1 <;> decide
  · exact Nat.le_refl _

/-- A covered name is judged no better against the licences that cover it. -/
theorem CoveredName.rank_le (right : tables.RightOnAscii) {terms : List String} {clause : String}
    (covered : CoveredName tables terms clause) (nonempty : terms ≠ []) (name : String) :
    (termVerdict tables vendoredRules name clause).verdict.rank ≤
      againstAll tables vendoredRules terms name := by
  -- Each term bounds the worst over all terms from below.
  have by_term {term : String} (listed : term ∈ terms) :
      (termVerdict tables vendoredRules name term).verdict.rank ≤
        againstAll tables vendoredRules terms name :=
    le_greatestOf (List.mem_map_of_mem listed)
  by_cases pair : canonicalPairKey tables clause = "GPL-2.0-ONLY" ∧
      (canonicalPairKey tables name = "APACHE-2.0" ∨ canonicalPairKey tables name = "APACHE-1.1")
  · -- An explicit pair: the same licence is among the terms.
    obtain ⟨term, listed, key⟩ := covered.2 pair.1
    have same := by_term listed
    rw [rank_termVerdict right, if_pos ⟨key, pair.2⟩] at same
    rwa [rank_termVerdict right, if_pos pair]
  · -- Some term is at least as strict to every class.
    have stricter : ∃ term ∈ terms, ∀ dependency,
        (vendoredMatrix (classifyLicenseClass tables clause) dependency).1.rank ≤
          (vendoredMatrix (classifyLicenseClass tables term) dependency).1.rank := by
      have classes := covered.1
      cases own : classifyLicenseClass tables clause with
      | uncategorized =>
        rw [own] at classes
        obtain ⟨term, listed, same⟩ := classes
        exact ⟨term, listed, fun dependency => by rw [same]⟩
      | permissive =>
        rw [own] at classes
        obtain ⟨term, listed, same | same⟩ := classes
        · exact ⟨term, listed, fun dependency => by rw [same]⟩
        · exact ⟨term, listed, fun dependency => by rw [same]; cases dependency <;> decide⟩
      | weakCopyleft =>
        rw [own] at classes
        obtain ⟨term, listed, same | same⟩ := classes
        · exact ⟨term, listed, fun dependency => by rw [same]; cases dependency <;> decide⟩
        · exact ⟨term, listed, fun dependency => by rw [same]⟩
      | strongCopyleft =>
        rw [own] at classes
        obtain ⟨term, listed, other⟩ := classes
        refine ⟨term, listed, fun dependency => ?_⟩
        cases theirs : classifyLicenseClass tables term with
        | networkCopyleft => exact absurd theirs other
        | strongCopyleft | weakCopyleft | uncategorized | permissive => cases dependency <;> decide
      | networkCopyleft =>
        obtain ⟨term, more, rfl⟩ := List.exists_cons_of_ne_nil nonempty
        refine ⟨term, List.mem_cons_self, fun dependency => ?_⟩
        cases classifyLicenseClass tables term <;> cases dependency <;> decide
    obtain ⟨term, listed, all⟩ := stricter
    rw [rank_termVerdict right, if_neg pair]
    -- The class of the exception's name, then that of the term, then the term with its pairs, then all terms.
    calc (vendoredMatrix (classifyLicenseClass tables clause) (classifyLicenseClass tables name)).1.rank
      _ ≤ (vendoredMatrix (classifyLicenseClass tables term) (classifyLicenseClass tables name)).1.rank :=
          all _
      _ ≤ (termVerdict tables vendoredRules name term).verdict.rank := matrix_le_rank right name term
      _ ≤ againstAll tables vendoredRules terms name := by_term listed

/-- Against unrecognised licences every dependency is unknown. -/
theorem NothingKnown.againstAll_eq (right : tables.RightOnAscii) {terms : List String}
    (ignorant : NothingKnown tables terms) (name : String) :
    againstAll tables vendoredRules terms name = 2 := by
  obtain ⟨⟨term, listed, own⟩, others⟩ := ignorant
  refine Nat.le_antisymm (greatestOf_le fun number member => ?_) ?_
  · -- No term is worse than 2 against a name nothing is known of.
    obtain ⟨other, within, rfl⟩ := List.mem_map.mp member
    obtain ⟨notPermissive, notWeak, key⟩ := others other within
    rw [rank_termVerdict right, if_neg (fun pair => key pair.1)]
    cases theirs : classifyLicenseClass tables other with
    | permissive => exact absurd theirs notPermissive
    | weakCopyleft => exact absurd theirs notWeak
    | networkCopyleft | strongCopyleft | uncategorized =>
      cases classifyLicenseClass tables name <;> decide
  · -- And the one unknown term is 2 by the matrix.
    have least := matrix_le_rank right name term
    rw [own] at least
    have unknown : (vendoredMatrix .uncategorized (classifyLicenseClass tables name)).1.rank = 2 := by
      cases classifyLicenseClass tables name <;> rfl
    rw [unknown] at least
    exact Nat.le_trans least (le_greatestOf (List.mem_map_of_mem listed))

end Vendored

section Samples

variable {tables : LetterTables} {terms : List String} {clause : String}

/-- A verdict that is at least so bad comes from one of the outbound licences. -/
theorem exists_of_le_againstAll {rules : CompatRules} {bound : Nat} {name : String} (positive : 0 < bound)
    (bad : bound ≤ againstAll tables rules terms name) :
    ∃ term ∈ terms, bound ≤ (termVerdict tables rules name term).verdict.rank := by
  by_contra none_bad
  push Not at none_bad
  -- Otherwise every rank would stay below the bound.
  have all : againstAll tables rules terms name ≤ bound - 1 := by
    refine greatestOf_le fun number member => ?_
    obtain ⟨term, listed, rfl⟩ := List.mem_map.mp member
    have good := none_bad term listed
    omega
  omega

/-- A licence that the pairs do not name is judged by its class. -/
theorem rank_sample (right : tables.RightOnAscii) {name : String} (ascii : isAscii name)
    (newer : canonicalPairKey .asciiOnly name ≠ "APACHE-2.0")
    (older : canonicalPairKey .asciiOnly name ≠ "APACHE-1.1") (term : String) :
    (termVerdict tables vendoredRules name term).verdict.rank =
      (vendoredMatrix (classifyLicenseClass tables term)
        (classifyLicenseClass .asciiOnly name)).1.rank := by
  rw [rank_termVerdict right, canonicalPairKey_ascii right ascii, classifyLicenseClass_ascii right ascii]
  exact if_neg fun pair => pair.2.elim newer older

/-- The verdict of a term against MIT is the permissive column's. -/
theorem rank_mit (right : tables.RightOnAscii) (term : String) :
    (termVerdict tables vendoredRules "MIT" term).verdict.rank =
      (vendoredMatrix (classifyLicenseClass tables term) .permissive).1.rank := by
  obtain ⟨apart, -, -, -, -, own, -⟩ := canonicalPairKey_samples
  obtain ⟨newer, older⟩ := apart "MIT" (by simp)
  rw [rank_sample right (by decide) newer older, @classifyLicenseClass_eq_readClass .asciiOnly, own]

/-- The verdict of a term against the GPL is the strong copyleft column's. -/
theorem rank_gpl (right : tables.RightOnAscii) (term : String) :
    (termVerdict tables vendoredRules "GPL-3.0-only" term).verdict.rank =
      (vendoredMatrix (classifyLicenseClass tables term) .strongCopyleft).1.rank := by
  obtain ⟨apart, -, -, -, -, -, -, own, -⟩ := canonicalPairKey_samples
  obtain ⟨newer, older⟩ := apart "GPL-3.0-only" (by simp)
  rw [rank_sample right (by decide) newer older, @classifyLicenseClass_eq_readClass .asciiOnly, own]

/-- The verdict of a term against the AGPL is the network copyleft column's. -/
theorem rank_agpl (right : tables.RightOnAscii) (term : String) :
    (termVerdict tables vendoredRules "AGPL-3.0-only" term).verdict.rank =
      (vendoredMatrix (classifyLicenseClass tables term) .networkCopyleft).1.rank := by
  obtain ⟨apart, -, -, -, -, -, -, -, own⟩ := canonicalPairKey_samples
  obtain ⟨newer, older⟩ := apart "AGPL-3.0-only" (by simp)
  rw [rank_sample right (by decide) newer older, @classifyLicenseClass_eq_readClass .asciiOnly, own]

/-- The verdict of a term against Apache is the permissive column's, but for the one listed pair. -/
theorem rank_apache (right : tables.RightOnAscii) (term : String) :
    (termVerdict tables vendoredRules "Apache-2.0" term).verdict.rank =
      if canonicalPairKey tables term = "GPL-2.0-ONLY" then 3
      else (vendoredMatrix (classifyLicenseClass tables term) .permissive).1.rank := by
  obtain ⟨-, -, -, -, key, -, own, -⟩ := canonicalPairKey_samples
  rw [← canonicalPairKey_ascii right (by decide)] at key
  rw [← classifyLicenseClass_eq_readClass, ← classifyLicenseClass_ascii right (by decide)] at own
  rw [rank_termVerdict right, key, own]
  simp

/-- Four licences are enough to see that a name is covered. -/
theorem CoveredName.of_samples (right : tables.RightOnAscii)
    (samples : ∀ name ∈ ["MIT", "GPL-3.0-only", "AGPL-3.0-only", "Apache-2.0"],
      (termVerdict tables vendoredRules name clause).verdict.rank ≤
        againstAll tables vendoredRules terms name) : CoveredName tables terms clause := by
  -- Four names, one a class, show all the matrix can say of the clause.
  have mit := samples "MIT" (by simp)
  have gpl := samples "GPL-3.0-only" (by simp)
  have agpl := samples "AGPL-3.0-only" (by simp)
  have apache := samples "Apache-2.0" (by simp)
  rw [rank_mit right] at mit
  rw [rank_gpl right] at gpl
  rw [rank_agpl right] at agpl
  rw [rank_apache right] at apache
  -- A clause at 3 against GPL needs a declared term at 3, and only these two classes are.
  have incompatible (own : classifyLicenseClass tables clause = .permissive ∨
      classifyLicenseClass tables clause = .weakCopyleft) : ∃ term ∈ terms,
      classifyLicenseClass tables term = .permissive ∨ classifyLicenseClass tables term = .weakCopyleft := by
    have worst : (vendoredMatrix (classifyLicenseClass tables clause) .strongCopyleft).1.rank = 3 := by
      obtain same | same := own <;> rw [same] <;> rfl
    rw [worst] at gpl
    obtain ⟨term, listed, bad⟩ := exists_of_le_againstAll (by decide) gpl
    rw [rank_gpl right] at bad
    refine ⟨term, listed, ?_⟩
    cases theirs : classifyLicenseClass tables term <;> simp [theirs, vendoredMatrix, Verdict.rank] at bad ⊢
  refine ⟨?_, ?_⟩
  · -- By the class of the clause: each class is told from the others by one of the samples.
    cases own : classifyLicenseClass tables clause with
    | uncategorized =>
      rw [own] at mit
      -- Unknown against MIT is 2, so some declared term is no better there.
      obtain ⟨term, listed, bad⟩ := exists_of_le_againstAll (by decide) mit
      rw [rank_mit right] at bad
      refine ⟨term, listed, ?_⟩
      cases theirs : classifyLicenseClass tables term <;>
        simp [theirs, vendoredMatrix, Verdict.rank] at bad ⊢
    | permissive => exact incompatible (.inl own)
    | weakCopyleft => exact incompatible (.inr own)
    | strongCopyleft =>
      rw [own] at agpl
      -- Against AGPL a strong clause is bad, and network copyleft is the one class that is not.
      obtain ⟨term, listed, bad⟩ := exists_of_le_againstAll (by decide) agpl
      rw [rank_agpl right] at bad
      refine ⟨term, listed, fun network => ?_⟩
      rw [network] at bad
      exact absurd bad (by decide)
    | networkCopyleft => trivial
  · -- The pair of Apache-2.0 and GPL-2.0-only is a row of its own, which the last sample shows.
    intro key
    rw [if_pos key] at apache
    obtain ⟨term, listed, bad⟩ := exists_of_le_againstAll (by decide) apache
    refine ⟨term, listed, ?_⟩
    by_contra other
    rw [rank_apache right, if_neg other] at bad
    cases theirs : classifyLicenseClass tables term <;> simp [theirs, vendoredMatrix, Verdict.rank] at bad

/-- And three are enough to see that nothing is known. -/
theorem NothingKnown.of_samples (right : tables.RightOnAscii)
    (mit : 2 ≤ againstAll tables vendoredRules terms "MIT")
    (gpl : againstAll tables vendoredRules terms "GPL-3.0-only" ≠ 3)
    (apache : againstAll tables vendoredRules terms "Apache-2.0" ≠ 3) : NothingKnown tables terms := by
  -- No rank is above 3, so not being 3 leaves every single term below it.
  have atMost (name : String) : againstAll tables vendoredRules terms name ≤ 3 := by
    refine greatestOf_le fun number member => ?_
    obtain ⟨term, -, rfl⟩ := List.mem_map.mp member
    cases (termVerdict tables vendoredRules name term).verdict <;> decide
  have below {name term : String} (listed : term ∈ terms)
      (other : againstAll tables vendoredRules terms name ≠ 3) :
      (termVerdict tables vendoredRules name term).verdict.rank < 3 := by
    have within : (termVerdict tables vendoredRules name term).verdict.rank ≤
        againstAll tables vendoredRules terms name := le_greatestOf (List.mem_map_of_mem listed)
    have most := atMost name
    omega
  refine ⟨?_, ?_⟩
  · -- The term that is at least 2 against MIT is unknown.
    obtain ⟨term, listed, bad⟩ := exists_of_le_againstAll (by decide) mit
    rw [rank_mit right] at bad
    refine ⟨term, listed, ?_⟩
    cases theirs : classifyLicenseClass tables term <;> simp [theirs, vendoredMatrix, Verdict.rank] at bad ⊢
  · -- No term is in conflict with GPL, nor, by the pair, with Apache-2.0.
    intro term listed
    have gplBelow := below listed gpl
    have apacheBelow := below listed apache
    rw [rank_gpl right] at gplBelow
    rw [rank_apache right] at apacheBelow
    refine ⟨?_, ?_, ?_⟩
    · intro own
      rw [own] at gplBelow
      exact absurd gplBelow (by decide)
    · intro own
      rw [own] at gplBelow
      exact absurd gplBelow (by decide)
    · intro key
      rw [if_pos key] at apacheBelow
      omega

/-- An exception in the outbound declaration makes no verdict worse exactly when it is harmless. -/
theorem conflictRank_excepted (right : tables.RightOnAscii) {outbound : String}
    (visible : strip outbound ≠ "") (name : IsName clause) :
    (∀ expression, conflictRank tables vendoredRules expression (excepted outbound clause) ≤
      conflictRank tables vendoredRules expression outbound) ↔
        HarmlessException tables outbound clause := by
  have simple {text : String} {terms : List String} {declaration : String}
      (declared : outboundTerms declaration = .ok terms) (read : parseExpression (some text) = .ok (.id text)) :
      conflictRank tables vendoredRules text declaration = againstAll tables vendoredRules terms text :=
    Judged.conflictRank_eq ⟨read, declared⟩
  constructor
  · -- Harmless by verdict, so by class: the sample licences tell the classes apart.
    intro harmless terms declared
    refine ⟨?_, ?_⟩
    · intro fits
      have longer := outboundTerms_excepted name declared fits
      -- Within the limits the name is one more term, and must not be the worst.
      refine CoveredName.of_samples right fun sample listed => ?_
      have read : parseExpression (some sample) = .ok (.id sample) := by
        revert sample
        decide
      have worse := harmless sample
      rw [simple longer read, simple declared read, againstAll_append, againstAll_singleton] at worse
      exact (Nat.le_max_right _ _).trans worse
    · -- Beyond the limits nothing is known any more, so nothing may have been incompatible or fine.
      intro long
      have unread (expression : String) :
          conflictRank tables vendoredRules expression (excepted outbound clause) = 2 := by
        cases longer : outboundTerms (excepted outbound clause) with
        | error reason => exact conflictRank_unread longer
        | ok more => exact absurd (outboundTerms_of_excepted name visible longer).1 long
      -- The soft branch of an expression shows a verdict that the single licence would hide.
      have softened {text : String}
          (read : parseExpression (some (text ++ " WITH Bison")) =
            .ok (.node .WITH (.id text) (.id "Bison"))) :
          againstAll tables vendoredRules terms text ≠ 3 := by
        intro incompatible
        have worse := harmless (text ++ " WITH Bison")
        rw [unread, Judged.conflictRank_eq ⟨read, declared⟩, SpdxExpr.severity, SpdxExpr.severity,
          incompatible] at worse
        exact absurd worse (by decide)
      have mit := harmless "MIT"
      rw [unread, simple declared (by decide)] at mit
      exact NothingKnown.of_samples right mit (softened (by decide)) (softened (by decide +kernel))
  · -- Harmless by class, so by verdict.
    intro harmless expression
    cases declared : outboundTerms outbound with
    | error reason =>
      -- Then it cannot be read with the exception either.
      rw [conflictRank_unread declared]
      cases longer : outboundTerms (excepted outbound clause) with
      | error reason => rw [conflictRank_unread longer]
      | ok more =>
        obtain ⟨-, terms, read⟩ := outboundTerms_of_excepted name visible longer
        rw [declared] at read
        cases read
    | ok terms =>
      obtain ⟨covers, unknown⟩ := harmless terms declared
      cases read : parseExpression (some expression) with
      | error reason => rw [conflictRank_unreadable read, conflictRank_unreadable read]
      | ok tree =>
        rw [Judged.conflictRank_eq ⟨read, declared⟩]
        -- With the name among the terms, the others are as strict, so the worst stays.
        by_cases fits : FitsExcepted outbound clause
        · obtain ⟨declaredTree, -, rfl⟩ := outboundTerms_ok.mp declared
          have alike : againstAll tables vendoredRules (declaredTree.ids ++ [clause]) =
              againstAll tables vendoredRules declaredTree.ids := by
            funext sample
            rw [againstAll_append, againstAll_singleton]
            exact Nat.max_eq_left ((covers fits).rank_le right declaredTree.ids_ne_nil sample)
          rw [Judged.conflictRank_eq ⟨read, outboundTerms_excepted name declared fits⟩, alike]
        · -- Without it the verdict was unknown before, and is so still.
          rw [severity_unknown fun sample => (unknown fits).againstAll_eq right sample]
          cases longer : outboundTerms (excepted outbound clause) with
          | error reason => rw [conflictRank_unread longer]
          | ok more => exact absurd (outboundTerms_of_excepted name visible longer).1 fits

end Samples

/-- The tables as far as ASCII goes are right about it. -/
theorem rightOnAscii_asciiOnly : LetterTables.asciiOnly.RightOnAscii where
  upper _ _ := rfl
  word _ _ := rfl
  digit _ _ := rfl

/-- An exception of the GPL makes no verdict worse for a project under the GPL, as its name is taken for the GPL
again. -/
theorem conflictRank_excepted_gpl :
    HarmlessException .asciiOnly "GPL-3.0-only" "GPL-3.0-linking-exception" ∧
      ∀ expression,
        conflictRank .asciiOnly vendoredRules expression
            (excepted "GPL-3.0-only" "GPL-3.0-linking-exception") ≤
          conflictRank .asciiOnly vendoredRules expression "GPL-3.0-only" := by
  have own : classifyLicenseClass .asciiOnly "GPL-3.0-only" = .strongCopyleft := by
    rw [classifyLicenseClass_eq_readClass]
    decide
  have again : classifyLicenseClass .asciiOnly "GPL-3.0-linking-exception" = .strongCopyleft := by
    rw [classifyLicenseClass_eq_readClass]
    decide
  -- The clause is of the class of the one declared licence, so it adds nothing.
  have harmless : HarmlessException .asciiOnly "GPL-3.0-only" "GPL-3.0-linking-exception" := by
    intro terms declared
    have only : outboundTerms "GPL-3.0-only" = .ok ["GPL-3.0-only"] := by decide
    obtain rfl := Except.ok.inj (only.symm.trans declared)
    refine ⟨fun _ => ⟨?_, fun key => ?_⟩, fun long => absurd ⟨by decide, by decide +kernel⟩ long⟩
    · rw [again]
      exact ⟨_, List.mem_singleton_self _, by rw [own]; decide⟩
    · -- The pair rows name neither the licence nor the clause.
      revert key
      decide +kernel
  exact ⟨harmless, (conflictRank_excepted rightOnAscii_asciiOnly (by decide)
    ⟨by decide, by decide +kernel⟩).mpr harmless⟩

/-- With the Classpath exception a GPL project does not know about its MIT dependencies. -/
theorem conflictRank_excepted_classpath :
    conflictRank .asciiOnly vendoredRules "MIT" "GPL-2.0-only" = Verdict.compatible.rank ∧
      conflictRank .asciiOnly vendoredRules "MIT" (excepted "GPL-2.0-only" "Classpath-exception-2.0") =
        Verdict.unknown.rank ∧
      ¬ ∀ expression, conflictRank .asciiOnly vendoredRules expression
          (excepted "GPL-2.0-only" "Classpath-exception-2.0") ≤
        conflictRank .asciiOnly vendoredRules expression "GPL-2.0-only" := by
  have read : parseExpression (some "MIT") = .ok (.id "MIT") := by decide
  have declared : outboundTerms "GPL-2.0-only" = .ok ["GPL-2.0-only"] := by decide
  have name : IsName "Classpath-exception-2.0" := ⟨by decide, by decide +kernel⟩
  have own : classifyLicenseClass .asciiOnly "GPL-2.0-only" = .strongCopyleft := by
    rw [classifyLicenseClass_eq_readClass]
    decide
  have unknown : classifyLicenseClass .asciiOnly "Classpath-exception-2.0" = .uncategorized := by
    rw [classifyLicenseClass_eq_readClass]
    decide
  -- Before: the clean licence. After: the clause is a term of its own, and an unknown one.
  have before : conflictRank .asciiOnly vendoredRules "MIT" "GPL-2.0-only" = Verdict.compatible.rank := by
    rw [Judged.conflictRank_eq ⟨read, declared⟩, SpdxExpr.severity, againstAll_singleton,
      rank_mit rightOnAscii_asciiOnly, own]
    rfl
  have after : conflictRank .asciiOnly vendoredRules "MIT"
      (excepted "GPL-2.0-only" "Classpath-exception-2.0") = Verdict.unknown.rank := by
    have longer := outboundTerms_excepted name declared ⟨by decide, by decide +kernel⟩
    rw [Judged.conflictRank_eq ⟨read, longer⟩, SpdxExpr.severity, againstAll_append, againstAll_singleton,
      againstAll_singleton, rank_mit rightOnAscii_asciiOnly, rank_mit rightOnAscii_asciiOnly, own, unknown]
    rfl
  refine ⟨before, after, fun harmless => ?_⟩
  -- The law at MIT is what fails.
  have worse := harmless "MIT"
  rw [before, after] at worse
  exact absurd worse (by decide)

end Trusca
