import Mathlib.Data.List.Find
import Mathlib.Order.MinMax
import Trusca.Data.Chain
import Trusca.License.Conflict
import Trusca.Proofs.License.Expression
import Trusca.Proofs.License.Grammar

/-! The verdict on a licence expression is the worst over its terms and the best over its alternatives,
but for the softening under an exception; and what an exception in the outbound licence does to it. -/

namespace Trusca

section Statements

/-- What an exception makes of the verdict on its licence, by rank: an incompatible one becomes
conditional, which is better than an unknown one. -/
def soften (rank : Nat) : Nat := if rank = 3 then 1 else rank

/-- How bad an expression is, when the licences are judged so: all terms of AND count, the best
alternative of OR, and of WITH the licence. -/
def SpdxExpr.severity (judge : String → Nat) : SpdxExpr → Nat
  | .id name => judge name
  | .node .AND left right => max (left.severity judge) (right.severity judge)
  | .node .OR left right => min (left.severity judge) (right.severity judge)
  | .node .WITH left _ => soften (left.severity judge)

/-- How bad a licence is against all outbound terms: the worst over them. -/
def againstAll (tables : LetterTables) (rules : CompatRules) (terms : List String) (name : String) : Nat :=
  greatestOf (terms.map fun term => (termVerdict tables rules name term).verdict.rank)

/-- Trees that differ in the order and the grouping of alternatives and terms. -/
inductive Reordered : SpdxExpr → SpdxExpr → Prop where
  | same (tree : SpdxExpr) : Reordered tree tree
  | back {first second : SpdxExpr} (forth : Reordered first second) : Reordered second first
  | further {first second third : SpdxExpr} (one : Reordered first second)
      (two : Reordered second third) : Reordered first third
  | swapped {op : SpdxOperator} (apart : op ≠ .WITH) (left right : SpdxExpr) :
      Reordered (.node op left right) (.node op right left)
  | regrouped (op : SpdxOperator) (first second third : SpdxExpr) :
      Reordered (.node op (.node op first second) third) (.node op first (.node op second third))
  | inside {op : SpdxOperator} {left left' right right' : SpdxExpr} (one : Reordered left left')
      (two : Reordered right right') : Reordered (.node op left right) (.node op left' right')

/-- One of two verdicts is unknown and the other incompatible: softening reverses their order. -/
def Crosses (first second : Nat) : Prop :=
  first = 2 ∧ second = 3 ∨ first = 3 ∧ second = 2

/-- An operand more of an operator somewhere in a tree, where under no exception the licence goes from
unknown to incompatible or back. -/
inductive Adds (op : SpdxOperator) (severity : SpdxExpr → Nat) : SpdxExpr → SpdxExpr → Prop where
  | behind (tree more : SpdxExpr) : Adds op severity tree (.node op tree more)
  | before (tree more : SpdxExpr) : Adds op severity tree (.node op more tree)
  | left {other : SpdxOperator} {first second : SpdxExpr} (apart : other ≠ .WITH)
      (inner : Adds op severity first second) (right : SpdxExpr) :
      Adds op severity (.node other first right) (.node other second right)
  | right {other : SpdxOperator} {first second : SpdxExpr} (left : SpdxExpr)
      (inner : Adds op severity first second) :
      Adds op severity (.node other left first) (.node other left second)
  | licence {first second : SpdxExpr} (inner : Adds op severity first second)
      (kept : ¬ Crosses (severity first) (severity second)) (clause : SpdxExpr) :
      Adds op severity (.node .WITH first clause) (.node .WITH second clause)

/-- Under no exception of a tree the licence goes from unknown to incompatible or back. -/
def SpdxExpr.Uncrossed (before after : SpdxExpr → Nat) : SpdxExpr → Prop
  | .id _ => True
  | .node .AND left right => left.Uncrossed before after ∧ right.Uncrossed before after
  | .node .OR left right => left.Uncrossed before after ∧ right.Uncrossed before after
  | .node .WITH left _ => left.Uncrossed before after ∧ ¬ Crosses (before left) (after left)

end Statements

section Ranks

/-- No two verdicts rank alike. -/
theorem Verdict.rank_injective {first second : Verdict} (same : first.rank = second.rank) :
    first = second := by
  cases first <;> cases second <;> simp_all [Verdict.rank]

/-- The worse of two verdicts ranks as the greater of the two. -/
theorem rank_worseVerdict (left right : ConflictVerdict) :
    (worseVerdict left right).verdict.rank = max left.verdict.rank right.verdict.rank := by
  unfold worseVerdict
  split_ifs <;> omega

/-- The better of two verdicts ranks as the lesser of the two. -/
theorem rank_betterVerdict (left right : ConflictVerdict) :
    (betterVerdict left right).verdict.rank = min left.verdict.rank right.verdict.rank := by
  unfold betterVerdict
  split_ifs <;> omega

/-- Where softening does not reverse the order, it keeps it. -/
theorem soften_le {low high : Nat} (bound : low ≤ high) (kept : ¬ Crosses low high) :
    soften low ≤ soften high := by
  unfold Crosses at kept
  unfold soften
  split_ifs <;> omega

/-- Softening a verdict twice is softening it once. -/
theorem soften_idem (rank : Nat) : soften (soften rank) = soften rank := by
  unfold soften
  split_ifs <;> omega

variable (tables : LetterTables) (rules : CompatRules)

/-- The worst verdict against some outbound terms. -/
theorem rank_worstAgainstOutbound (name : String) {terms : List String} (some_term : terms ≠ []) :
    (worstAgainstOutbound tables rules name terms).verdict.rank = againstAll tables rules terms name := by
  obtain ⟨outbound, more, rfl⟩ := List.exists_cons_of_ne_nil some_term
  -- The induction carries the worst verdict so far.
  have run (start : ConflictVerdict) :
      (more.foldl (fun worst other => worseVerdict worst (termVerdict tables rules name other))
        start).verdict.rank =
        max start.verdict.rank
          (greatestOf (more.map fun term => (termVerdict tables rules name term).verdict.rank)) := by
    induction more generalizing start with
    | nil => simp [greatestOf]
    | cons other more ih =>
      rw [List.foldl_cons, ih (by simp), rank_worseVerdict, Nat.max_assoc]
      rfl
  rw [worstAgainstOutbound, run]
  rfl

/-- The verdict on a tree is as bad as the tree. -/
theorem rank_eval {judge : String → ConflictVerdict} (tree : SpdxExpr) :
    (tree.eval judge combineVerdicts).verdict.rank =
      tree.severity fun name => (judge name).verdict.rank := by
  induction tree with
  | id name => rfl
  | node op left right leftIh rightIh =>
    cases op with
    | AND => rw [SpdxExpr.eval, combineVerdicts, rank_worseVerdict, leftIh, rightIh, SpdxExpr.severity]
    | OR => rw [SpdxExpr.eval, combineVerdicts, rank_betterVerdict, leftIh, rightIh, SpdxExpr.severity]
    -- WITH softens its left side, which is worst exactly if it is incompatible.
    | WITH =>
      rw [SpdxExpr.severity, ← leftIh, SpdxExpr.eval, combineVerdicts, soften]
      have worst : (left.eval judge combineVerdicts).verdict.rank = 3 ↔
          (left.eval judge combineVerdicts).verdict = .incompatible :=
        ⟨fun same => Verdict.rank_injective same, fun same => congrArg Verdict.rank same⟩
      simp only [worst]
      split_ifs <;> rfl

end Ranks

section Laws

variable {judge judge' : String → Nat}

/-- The order of terms and alternatives does not matter. -/
theorem Reordered.severity_eq {first second : SpdxExpr} (related : Reordered first second) :
    first.severity judge = second.severity judge := by
  -- A rearrangement is undone step by step; the severity of a node is a max, a min or a softening.
  induction related with
  | same => rfl
  | back _ ih => exact ih.symm
  | further _ _ ih ih' => exact ih.trans ih'
  -- Swapping: max and min are symmetric, and WITH is not swapped.
  | @swapped op apart left right =>
    cases op with
    | AND => exact Nat.max_comm _ _
    | OR => exact Nat.min_comm _ _
    | WITH => exact absurd rfl apart
  -- Regrouping under WITH softens twice, which is once.
  | regrouped op first second third =>
    cases op with
    | AND => exact Nat.max_assoc _ _ _
    | OR => exact Nat.min_assoc _ _ _
    | WITH => exact soften_idem _
  | @inside op left left' right right' _ _ ih ih' =>
    cases op with
    | AND => rw [SpdxExpr.severity, SpdxExpr.severity, ih, ih']
    | OR => rw [SpdxExpr.severity, SpdxExpr.severity, ih, ih']
    | WITH => rw [SpdxExpr.severity, SpdxExpr.severity, ih]

/-- An alternative more does not make it worse. -/
theorem Adds.severity_le {first second : SpdxExpr}
    (adds : Adds .OR (SpdxExpr.severity judge) first second) :
    second.severity judge ≤ first.severity judge := by
  -- A further alternative can only lower the minimum it joins.
  induction adds with
  | behind tree more => exact Nat.min_le_left _ _
  | before tree more => exact Nat.min_le_right _ _
  -- Inside a node the change goes up through max, min or a softening.
  | @left other first second apart _ right ih =>
    cases other with
    | AND => exact max_le_max_right _ ih
    | OR => exact min_le_min_right _ ih
    | WITH => exact absurd rfl apart
  | @right other first second left _ ih =>
    cases other with
    | AND => exact max_le_max_left _ ih
    | OR => exact min_le_min_left _ ih
    | WITH => exact Nat.le_refl _
  -- Under WITH the softening is monotone but where the exception is crossed.
  | licence _ kept clause ih =>
    refine soften_le ih fun crosses => kept ?_
    exact crosses.symm.imp And.symm And.symm

/-- A term more does not make it better. -/
theorem Adds.le_severity {first second : SpdxExpr}
    (adds : Adds .AND (SpdxExpr.severity judge) first second) :
    first.severity judge ≤ second.severity judge := by
  induction adds with
  -- A further term can only raise the maximum it joins.
  | behind tree more => exact Nat.le_max_left _ _
  | before tree more => exact Nat.le_max_right _ _
  | @left other first second apart _ right ih =>
    cases other with
    | AND => exact max_le_max_right _ ih
    | OR => exact min_le_min_right _ ih
    | WITH => exact absurd rfl apart
  | @right other first second left _ ih =>
    cases other with
    | AND => exact max_le_max_left _ ih
    | OR => exact min_le_min_left _ ih
    | WITH => exact Nat.le_refl _
  -- Under WITH the licence gets no better, as long as the exception is not crossed.
  | licence _ kept clause ih => exact soften_le ih kept

/-- Harsher judgements of the licences do not make an expression better. -/
theorem severity_mono (harsher : ∀ name, judge name ≤ judge' name) {tree : SpdxExpr}
    (uncrossed : tree.Uncrossed (SpdxExpr.severity judge) (SpdxExpr.severity judge')) :
    tree.severity judge ≤ tree.severity judge' := by
  induction tree with
  | id name => exact harsher name
  | node op left right leftIh rightIh =>
    cases op with
    | AND => exact max_le_max (leftIh uncrossed.1) (rightIh uncrossed.2)
    | OR => exact min_le_min (leftIh uncrossed.1) (rightIh uncrossed.2)
    | WITH => exact soften_le (leftIh uncrossed.1) uncrossed.2

/-- More outbound terms judge harsher. -/
theorem againstAll_mono {tables : LetterTables} {rules : CompatRules} {terms terms' : List String}
    (more : ∀ term ∈ terms, term ∈ terms') (name : String) :
    againstAll tables rules terms name ≤ againstAll tables rules terms' name := by
  refine greatestOf_le fun number listed => ?_
  obtain ⟨term, member, rfl⟩ := List.mem_map.mp listed
  exact le_greatestOf (List.mem_map_of_mem (more term member))

end Laws

section Verdicts

variable (tables : LetterTables) (rules : CompatRules)

/-- An inbound and an outbound text that can be read, with the tree of the one and the terms of the
other. -/
structure Judged (expression outbound : String) (tree : SpdxExpr) (terms : List String) : Prop where
  read : parseExpression (some expression) = .ok tree
  declared : outboundTerms outbound = .ok terms

/-- How bad the verdict on a text is; a text that cannot be read is unknown. -/
def conflictRank (expression outbound : String) : Nat :=
  (expressionVerdict tables rules expression outbound).elim Verdict.unknown.rank (·.verdict.rank)

/-- The outbound terms are the licences of the outbound expression. -/
theorem outboundTerms_ok {outbound : String} {terms : List String} :
    outboundTerms outbound = .ok terms ↔
      ∃ tree, parseExpression (some outbound) = .ok tree ∧ tree.ids = terms := by
  -- Collected from the leaves, the terms are the tree's identifiers in their order.
  have leaves (tree : SpdxExpr) :
      tree.eval (fun token => [token]) (fun left right _ => left ++ right) = tree.ids := by
    induction tree with
    | id name => rfl
    | node op left right leftIh rightIh => rw [SpdxExpr.eval, leftIh, rightIh, SpdxExpr.ids]
  rw [outboundTerms, foldExpression_eq]
  cases parseExpression (some outbound) with
  | error reason => simp [Except.map]
  | ok tree => simp [Except.map, leaves]

/-- Every expression names a licence. -/
theorem SpdxExpr.ids_ne_nil (tree : SpdxExpr) : tree.ids ≠ [] := by
  induction tree with
  | id name => simp [SpdxExpr.ids]
  | node op left right leftIh _ => simp [SpdxExpr.ids, leftIh]

variable {tables rules} {expression outbound : String} {tree : SpdxExpr} {terms : List String}

/-- The verdict on a text is as bad as its tree is against the outbound terms. -/
theorem Judged.verdict (judged : Judged expression outbound tree terms) :
    ∃ verdict, expressionVerdict tables rules expression outbound = some verdict ∧
      verdict.verdict.rank = tree.severity (againstAll tables rules terms) := by
  -- The declared terms and the expression are both read, so there is a verdict.
  obtain ⟨declared, -, rfl⟩ := outboundTerms_ok.mp judged.declared
  refine ⟨tree.eval (fun token => worstAgainstOutbound tables rules token declared.ids) combineVerdicts,
    ?_, ?_⟩
  · rw [expressionVerdict, judged.declared]
    dsimp only
    rw [foldExpression_eq, judged.read]
    rfl
  · -- Its rank is folded from the leaves, each of which takes its worst term.
    rw [rank_eval]
    congr 1
    funext name
    exact rank_worstAgainstOutbound tables rules name declared.ids_ne_nil

/-- The verdict of a judged expression is the severity of its tree against all the terms. -/
theorem Judged.conflictRank_eq (judged : Judged expression outbound tree terms) :
    conflictRank tables rules expression outbound = tree.severity (againstAll tables rules terms) := by
  obtain ⟨verdict, found, rank⟩ := judged.verdict
  rw [conflictRank, found, ← rank]
  rfl

/-- The verdict on a component is the best on its texts, once one of them can be read. -/
theorem assessConflict_best (declared : strip outbound ≠ "") {licenseStrings : List String}
    (readable : ∃ text ∈ licenseStrings, strip text ≠ "" ∧
      (expressionVerdict tables rules text outbound).isSome) :
    ∃ verdict, assessConflict tables rules licenseStrings (some outbound) = some verdict ∧
      (∃ text ∈ licenseStrings, strip text ≠ "" ∧
        expressionVerdict tables rules text outbound = some verdict) ∧
      ∀ text ∈ licenseStrings, strip text ≠ "" → ∀ other,
        expressionVerdict tables rules text outbound = some other →
        verdict.verdict.rank ≤ other.verdict.rank := by
  -- The fold keeps one of the verdicts, and no other is better.
  have best (verdict : ConflictVerdict) (more : List ConflictVerdict) :
      more.foldl betterVerdict verdict ∈ verdict :: more ∧
        ∀ other ∈ verdict :: more, (more.foldl betterVerdict verdict).verdict.rank ≤ other.verdict.rank := by
    induction more generalizing verdict with
    | nil => simp
    | cons next more ih =>
      obtain ⟨member, least⟩ := ih (betterVerdict verdict next)
      have one := least _ List.mem_cons_self
      rw [rank_betterVerdict] at one
      refine ⟨?_, ?_⟩
      · obtain first | later := List.mem_cons.mp member
        · rw [List.foldl_cons, first, betterVerdict]
          split_ifs <;> simp
        · exact List.mem_cons_of_mem _ (List.mem_cons_of_mem _ later)
      · intro other listed
        rw [List.foldl_cons]
        obtain rfl | rest := List.mem_cons.mp listed
        · omega
        · obtain rfl | later := List.mem_cons.mp rest
          · omega
          · exact least other (List.mem_cons_of_mem _ later)
  -- One readable text is enough for the list of verdicts not to be empty.
  obtain ⟨text, listed, visible, found⟩ := readable
  obtain ⟨own, judged⟩ := Option.isSome_iff_exists.mp found
  have usable : text ∈ licenseStrings.filter fun value => strip value != "" :=
    List.mem_filter.mpr ⟨listed, by simpa using visible⟩
  have nonempty : (licenseStrings.filter fun value => strip value != "").isEmpty = false := by
    rw [List.isEmpty_eq_false_iff]
    exact List.ne_nil_of_mem usable
  -- The verdicts are those of the visible texts that can be read.
  have member : ∀ verdict, verdict ∈ (licenseStrings.filter fun value => strip value != "").filterMap
      (fun value => expressionVerdict tables rules value outbound) ↔
      ∃ text ∈ licenseStrings, strip text ≠ "" ∧
        expressionVerdict tables rules text outbound = some verdict := by
    intro verdict
    simp [List.mem_filterMap, List.mem_filter, and_assoc]
  rw [assessConflict]
  simp only [declared, if_false, nonempty, Bool.false_eq_true]
  cases verdicts : (licenseStrings.filter fun value => strip value != "").filterMap
      fun value => expressionVerdict tables rules value outbound with
  | nil =>
    -- An empty list would leave that text out.
    have none_left := (member own).mpr ⟨text, listed, visible, judged⟩
    rw [verdicts] at none_left
    cases none_left
  | cons verdict more =>
    rw [verdicts] at member
    -- The fold over them is the answer.
    obtain ⟨kept, least⟩ := best verdict more
    refine ⟨_, rfl, (member _).mp kept, ?_⟩
    intro other within seen judgedOther same
    exact least judgedOther ((member _).mpr ⟨other, within, seen, same⟩)

/-- The verdict is the worst over terms and outbound terms and the best over alternatives, with the
softening under an exception; the order does not matter; what is added moves it one way only, but where it
takes a licence under an exception across that softening. -/
theorem expressionVerdict_laws (tables : LetterTables) (rules : CompatRules) :
    (∀ expression outbound tree terms, Judged expression outbound tree terms →
      conflictRank tables rules expression outbound = tree.severity (againstAll tables rules terms)) ∧
    (∀ first second outbound outbound' tree tree' terms terms', Judged first outbound tree terms →
      Judged second outbound' tree' terms' → Reordered tree tree' → terms.Perm terms' →
      conflictRank tables rules first outbound = conflictRank tables rules second outbound') ∧
    (∀ first second outbound tree tree' terms, Judged first outbound tree terms →
      Judged second outbound tree' terms →
      Adds .OR (SpdxExpr.severity (againstAll tables rules terms)) tree tree' →
      conflictRank tables rules second outbound ≤ conflictRank tables rules first outbound) ∧
    (∀ first second outbound tree tree' terms, Judged first outbound tree terms →
      Judged second outbound tree' terms →
      Adds .AND (SpdxExpr.severity (againstAll tables rules terms)) tree tree' →
      conflictRank tables rules first outbound ≤ conflictRank tables rules second outbound) ∧
    (∀ expression outbound outbound' tree terms terms', Judged expression outbound tree terms →
      Judged expression outbound' tree terms' → (∀ term ∈ terms, term ∈ terms') →
      tree.Uncrossed (SpdxExpr.severity (againstAll tables rules terms))
        (SpdxExpr.severity (againstAll tables rules terms')) →
      conflictRank tables rules expression outbound ≤ conflictRank tables rules expression outbound') ∧
    ∀ first second outbound, strip outbound ≠ "" → (∀ text ∈ first, text ∈ second) →
      (∃ text ∈ first, strip text ≠ "" ∧ (expressionVerdict tables rules text outbound).isSome) →
      ∃ verdict verdict', assessConflict tables rules first (some outbound) = some verdict ∧
        assessConflict tables rules second (some outbound) = some verdict' ∧
        verdict'.verdict.rank ≤ verdict.verdict.rank := by
  refine ⟨?_, ?_, ?_, ?_, ?_, ?_⟩
  · intro expression outbound tree terms judged
    exact judged.conflictRank_eq
  · -- Reordered operands: the two lists of terms give one judgement, and the tree one severity.
    intro first second outbound outbound' tree tree' terms terms' one two related order
    have alike : againstAll tables rules terms = againstAll tables rules terms' := by
      funext name
      exact Nat.le_antisymm (againstAll_mono (fun term => order.mem_iff.mp) name)
        (againstAll_mono (fun term => order.mem_iff.mpr) name)
    rw [one.conflictRank_eq, two.conflictRank_eq, ← alike, related.severity_eq]
  · intro first second outbound tree tree' terms one two adds
    rw [one.conflictRank_eq, two.conflictRank_eq]
    exact adds.severity_le
  · intro first second outbound tree tree' terms one two adds
    rw [one.conflictRank_eq, two.conflictRank_eq]
    exact adds.le_severity
  · intro expression outbound outbound' tree terms terms' one two more uncrossed
    rw [one.conflictRank_eq, two.conflictRank_eq]
    exact severity_mono (againstAll_mono more) uncrossed
  · -- A further expression: the best verdict over more of them cannot be worse.
    intro first second outbound declared more readable
    obtain ⟨verdict, found, ⟨text, listed, visible, judged⟩, -⟩ := assessConflict_best declared readable
    have readable' : ∃ text ∈ second, strip text ≠ "" ∧
        (expressionVerdict tables rules text outbound).isSome :=
      -- What could be read in the shorter list can be read in the longer.
      ⟨text, more text listed, visible, by simp [judged]⟩
    obtain ⟨verdict', found', -, least⟩ := assessConflict_best declared readable'
    exact ⟨verdict, verdict', found, found', least text (more text listed) visible verdict judged⟩

end Verdicts

/-- Against one term a licence has the verdict of the two. -/
theorem againstAll_singleton (tables : LetterTables) (rules : CompatRules) (term name : String) :
    againstAll tables rules [term] name = (termVerdict tables rules name term).verdict.rank :=
  Nat.max_zero _

section Reading

variable {tables : LetterTables} {rules : CompatRules} {expression outbound : String} {tree : SpdxExpr}
  {terms : List String}

/-- The class of a licence, with the texts of the patterns read off their bytes. -/
def readClass (tables : LetterTables) (value : String) : LicenseClass :=
  let identifier := strip value
  if identifier = "" || maxIdentifierLength < identifier.length then .uncategorized
  else if permissiveIds.contains (String.ofList (identifier.toList.flatMap tables.upper)) then .permissive
  else
    (classPatterns.find? fun entry =>
      searchAscii tables.word entry.1 (identifier.toList.map ignoreCase)).elim .uncategorized (·.2)

/-- The patterns consist of ASCII texts and edges. -/
theorem classPatterns_ascii : classPatterns.all fun entry => entry.1.all fun pieces =>
    pieces.all PatternPiece.isAsciiWord := by
  decide +kernel

/-- The class of a licence is the one read from its name. -/
theorem classifyLicenseClass_eq_readClass (value : String) :
    classifyLicenseClass tables value = readClass tables value := by
  -- The patterns are ASCII, so the ASCII search finds the same.
  have found : classPatterns.find? (fun entry =>
        search tables.word entry.1 ((strip value).toList.map ignoreCase)) =
      classPatterns.find? fun entry =>
        searchAscii tables.word entry.1 ((strip value).toList.map ignoreCase) :=
    List.find?_congr fun entry listed => search_ascii (List.all_eq_true.mpr fun pieces member =>
      List.all_eq_true.mpr fun piece within => PatternPiece.ascii_of_asciiWord (List.all_eq_true.mp
        (List.all_eq_true.mp (List.all_eq_true.mp classPatterns_ascii entry listed) pieces member)
        piece within)) _
  simp only [classifyLicenseClass, readClass]
  rw [found]
  cases classPatterns.find? fun entry =>
    searchAscii tables.word entry.1 ((strip value).toList.map ignoreCase) <;> rfl

/-- Where no pair is listed, the classes of two licences decide. -/
theorem rank_of_classes {term : String} {theirs own : LicenseClass}
    (unlisted : explicitPair tables vendoredRules outbound term = none)
    (declared : readClass tables outbound = theirs) (found : readClass tables term = own) :
    (termVerdict tables vendoredRules term outbound).verdict.rank =
      (vendoredMatrix theirs own).1.rank := by
  rw [termVerdict, unlisted]
  simp only [vendoredRules, classifyLicenseClass_eq_readClass, declared, found]

/-- The verdict is the one with the rank of the tree. -/
theorem Judged.map_verdict (judged : Judged expression outbound tree terms) {verdict : Verdict}
    (bad : tree.severity (againstAll tables rules terms) = verdict.rank) :
    (expressionVerdict tables rules expression outbound).map (·.verdict) = some verdict := by
  obtain ⟨found, judgement, rank⟩ := judged.verdict
  rw [judgement, Option.map_some, Verdict.rank_injective (rank.trans bad)]

end Reading

/-- Terms, alternatives and outbound terms that are added, to licences without and with an exception. -/
theorem expressionVerdict_laws_added :
    conflictRank .asciiOnly vendoredRules "MIT AND GPL-3.0-only WITH Bison" "MIT" =
        conflictRank .asciiOnly vendoredRules "GPL-3.0-only WITH Bison AND MIT" "MIT" ∧
      conflictRank .asciiOnly vendoredRules "GPL-3.0-only OR MIT" "MIT" ≤
        conflictRank .asciiOnly vendoredRules "GPL-3.0-only" "MIT" ∧
      conflictRank .asciiOnly vendoredRules "MIT" "MIT" ≤
        conflictRank .asciiOnly vendoredRules "MIT AND GPL-3.0-only" "MIT" ∧
      conflictRank .asciiOnly vendoredRules "GPL-3.0-only WITH Bison" "AGPL-3.0-only" ≤
        conflictRank .asciiOnly vendoredRules "GPL-3.0-only WITH Bison" "AGPL-3.0-only AND MIT" ∧
      ∃ verdict verdict',
        assessConflict .asciiOnly vendoredRules ["GPL-3.0-only", "("] (some "MIT") = some verdict ∧
        assessConflict .asciiOnly vendoredRules ["MIT", "GPL-3.0-only", "("] (some "MIT") = some verdict' ∧
        verdict'.verdict.rank ≤ verdict.verdict.rank := by
  -- Each law at a pair of expressions that the vendored rules tell apart.
  obtain ⟨-, order, alternative, term, outbound, list⟩ := expressionVerdict_laws .asciiOnly vendoredRules
  refine ⟨?_, ?_, ?_, ?_, ?_⟩
  · refine order _ _ _ _ (.node .AND (.id "MIT") (.node .WITH (.id "GPL-3.0-only") (.id "Bison")))
      (.node .AND (.node .WITH (.id "GPL-3.0-only") (.id "Bison")) (.id "MIT")) ["MIT"] ["MIT"]
      ⟨by decide +kernel, by decide +kernel⟩ ⟨by decide +kernel, by decide +kernel⟩ ?_ (.refl _)
    exact .swapped (by decide) _ _
  · refine alternative _ _ _ (.id "GPL-3.0-only") (.node .OR (.id "GPL-3.0-only") (.id "MIT")) ["MIT"]
      ⟨by decide +kernel, by decide +kernel⟩ ⟨by decide +kernel, by decide +kernel⟩ ?_
    exact .behind _ _
  · refine term _ _ _ (.id "MIT") (.node .AND (.id "MIT") (.id "GPL-3.0-only")) ["MIT"]
      ⟨by decide +kernel, by decide +kernel⟩ ⟨by decide +kernel, by decide +kernel⟩ ?_
    exact .behind _ _
  · -- The outbound side grows, and the softened clause does not cross the cap.
    refine outbound _ _ _ (.node .WITH (.id "GPL-3.0-only") (.id "Bison")) ["AGPL-3.0-only"]
      ["AGPL-3.0-only", "MIT"] ⟨by decide +kernel, by decide +kernel⟩
      ⟨by decide +kernel, by decide +kernel⟩ (by simp) ⟨trivial, ?_⟩
    -- Strong against network copyleft is compatible, against permissive in conflict.
    have before : (termVerdict .asciiOnly vendoredRules "GPL-3.0-only" "AGPL-3.0-only").verdict.rank = 1 :=
      @rank_of_classes _ _ _ .networkCopyleft .strongCopyleft (by decide +kernel) (by decide +kernel)
        (by decide +kernel)
    have after : (termVerdict .asciiOnly vendoredRules "GPL-3.0-only" "MIT").verdict.rank = 3 :=
      @rank_of_classes _ _ _ .permissive .strongCopyleft (by decide +kernel) (by decide +kernel)
        (by decide +kernel)
    simp [Crosses, SpdxExpr.severity, againstAll, greatestOf, before, after]
  · refine list ["GPL-3.0-only", "("] ["MIT", "GPL-3.0-only", "("] "MIT" (by decide +kernel) (by simp) ?_
    exact ⟨"GPL-3.0-only", by simp, by decide +kernel, by decide +kernel⟩

/-- Under an exception the laws fail: an outbound term more, a term more or an alternative less turns an
unknown licence into an incompatible one, which the exception softens to conditional. -/
theorem expressionVerdict_crossed :
    ((expressionVerdict .asciiOnly vendoredRules "GPL-3.0-only WITH Classpath-exception-2.0" "Foo").map
        (·.verdict) = some .unknown ∧
      (expressionVerdict .asciiOnly vendoredRules "GPL-3.0-only WITH Classpath-exception-2.0"
        "Foo AND MIT").map (·.verdict) = some .conditional) ∧
    ((expressionVerdict .asciiOnly vendoredRules "Foo WITH Classpath-exception-2.0" "MIT").map
        (·.verdict) = some .unknown ∧
      (expressionVerdict .asciiOnly vendoredRules "(Foo AND GPL-3.0-only) WITH Classpath-exception-2.0"
        "MIT").map (·.verdict) = some .conditional) ∧
    (expressionVerdict .asciiOnly vendoredRules "GPL-3.0-only WITH Classpath-exception-2.0" "MIT").map
        (·.verdict) = some .conditional ∧
      (expressionVerdict .asciiOnly vendoredRules "(GPL-3.0-only OR Foo) WITH Classpath-exception-2.0"
        "MIT").map (·.verdict) = some .unknown := by
  -- The classes of the three names decide every rank below.
  have unknown : readClass .asciiOnly "Foo" = .uncategorized := by decide +kernel
  have permissive : readClass .asciiOnly "MIT" = .permissive := by decide +kernel
  have copyleft : readClass .asciiOnly "GPL-3.0-only" = .strongCopyleft := by decide +kernel
  -- Against one unknown outbound term, against a known one, and against both.
  have foo : againstAll .asciiOnly vendoredRules ["Foo"] "GPL-3.0-only" = 2 :=
    (againstAll_singleton _ _ _ _).trans (rank_of_classes (by decide +kernel) unknown copyleft)
  have mit : againstAll .asciiOnly vendoredRules ["MIT"] "GPL-3.0-only" = 3 :=
    (againstAll_singleton _ _ _ _).trans (rank_of_classes (by decide +kernel) permissive copyleft)
  have both : againstAll .asciiOnly vendoredRules ["Foo", "MIT"] "GPL-3.0-only" = 3 := by
    rw [againstAll_singleton] at foo mit
    rw [againstAll, List.map_cons, List.map_singleton, foo, mit]
    rfl
  have foo_mit : againstAll .asciiOnly vendoredRules ["MIT"] "Foo" = 2 :=
    (againstAll_singleton _ _ _ _).trans (rank_of_classes (by decide +kernel) permissive unknown)
  have excepted : parseExpression (some "GPL-3.0-only WITH Classpath-exception-2.0") =
      .ok (.node .WITH (.id "GPL-3.0-only") (.id "Classpath-exception-2.0")) := by decide +kernel
  have declared : outboundTerms "MIT" = .ok ["MIT"] := by decide +kernel
  -- Softened from 3 to 1 or left at 2: the same added operand is better here and worse there.
  refine ⟨⟨?_, ?_⟩, ⟨?_, ?_⟩, ?_, ?_⟩
  · have judged : Judged "GPL-3.0-only WITH Classpath-exception-2.0" "Foo" _ ["Foo"] :=
      ⟨excepted, by decide +kernel⟩
    exact judged.map_verdict (by simp [SpdxExpr.severity, soften, foo, Verdict.rank])
  · have judged : Judged "GPL-3.0-only WITH Classpath-exception-2.0" "Foo AND MIT" _ ["Foo", "MIT"] :=
      ⟨excepted, by decide +kernel⟩
    exact judged.map_verdict (by simp [SpdxExpr.severity, soften, both, Verdict.rank])
  · have judged : Judged "Foo WITH Classpath-exception-2.0" "MIT"
        (.node .WITH (.id "Foo") (.id "Classpath-exception-2.0")) ["MIT"] :=
      ⟨by decide +kernel, declared⟩
    exact judged.map_verdict (by simp [SpdxExpr.severity, soften, foo_mit, Verdict.rank])
  · have judged : Judged "(Foo AND GPL-3.0-only) WITH Classpath-exception-2.0" "MIT"
        (.node .WITH (.node .AND (.id "Foo") (.id "GPL-3.0-only")) (.id "Classpath-exception-2.0"))
        ["MIT"] := ⟨by decide +kernel, declared⟩
    exact judged.map_verdict (by simp [SpdxExpr.severity, soften, foo_mit, mit, Verdict.rank])
  · have judged : Judged "GPL-3.0-only WITH Classpath-exception-2.0" "MIT" _ ["MIT"] :=
      ⟨excepted, declared⟩
    exact judged.map_verdict (by simp [SpdxExpr.severity, soften, mit, Verdict.rank])
  · have judged : Judged "(GPL-3.0-only OR Foo) WITH Classpath-exception-2.0" "MIT"
        (.node .WITH (.node .OR (.id "GPL-3.0-only") (.id "Foo")) (.id "Classpath-exception-2.0"))
        ["MIT"] := ⟨by decide +kernel, declared⟩
    exact judged.map_verdict (by simp [SpdxExpr.severity, soften, foo_mit, mit, Verdict.rank])

end Trusca
