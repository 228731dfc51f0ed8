import Mathlib.Algebra.Order.Ring.Nat
import Mathlib.Data.List.Forall2
import Trusca.Data.Chain
import Trusca.Data.Segments
import Trusca.Proofs.License.Grammar
import Trusca.Proofs.License.Transparency
import Trusca.Sbom.Spdx

/-! The licence expression of an exported package is read as the conjunction of the stored ids, unless
one of several ids is a choice of its own. -/

namespace Trusca

section Choices

/-- The alternatives of an expression: its tokens between the ORs outside parentheses; the number
counts the parentheses that are open. -/
def choicesFrom (level : Nat) : List SpdxToken → List (List SpdxToken)
  | [] => [[]]
  | token :: rest =>
      if level = 0 ∧ token = .operator .OR then [] :: choicesFrom level rest
      else (choicesFrom (token.levelAfter level) rest).modifyHead (token :: ·)

/-- The alternatives of a stored id. -/
def choicesOf (id : String) : List (List SpdxToken) := choicesFrom 0 (tokensOf id)

/-- The ids that a component has licences for, as they are exported. -/
def storedIds (entries : List LicenseEntry) : List String :=
  sortTexts (entries.filterMap fun entry => nonEmpty entry.spdxId).dedup

/-- The licences that a text names. -/
def licensesOf (id : String) : List String := (tokensOf id).filterMap SpdxToken.name?

end Choices

section Ranks

/-- How restrictive a tree is under the default strategies. -/
def SpdxExpr.weight (resolveId : String → LicenseCategory) (tree : SpdxExpr) : Nat :=
  (tree.eval resolveId (combineCategories .default)).rank

/-- How restrictive a text is, where one that cannot be read or is unknown counts as zero. -/
def rankOf (resolveId : String → LicenseCategory) (text : String) : Nat :=
  match foldExpression resolveId (combineCategories .default) (some text) with
  | .ok category => category.rank
  | .error _ => 0

/-- How restrictive one alternative is. -/
def choiceRank (resolveId : String → LicenseCategory) (tokens : List SpdxToken) : Nat :=
  match parseTokens resolveId (combineCategories .default) tokens with
  | .ok category => category.rank
  | .error _ => 0

/-- The tokens of two expressions with AND between them. -/
def conjoin (left right : List SpdxToken) : List SpdxToken := left ++ .operator .AND :: right

/-- The exported expression can be read, and is as restrictive as the most restrictive id. -/
def Conjoined (entries : List LicenseEntry) : Prop :=
  ∀ resolveId, ∃ category,
    foldExpression resolveId (combineCategories .default) (some (spdxLicenseExpr entries)) = .ok category ∧
      category.rank = greatestOf ((storedIds entries).map (rankOf resolveId))

/-- Joined ids are within what the reader takes. -/
def Fits (ids : List String) : Prop :=
  (" AND ".intercalate ids).length ≤ maxExpressionLength ∧
    ((ids.map fun id => (tokensOf id).length + 1).sum ≤ maxTokenCount + 1)

/-- No alternative that arises where ids are joined at their ends is less restrictive than one of the
ids. -/
def Unrelaxed (ids : List String) : Prop :=
  ∀ resolveId, ∀ choice ∈ glueAll conjoin (ids.map choicesOf), choiceRank resolveId choice ≠ 0 →
    ∀ id ∈ ids, rankOf resolveId id ≤ choiceRank resolveId choice

end Ranks

section Weights

variable {resolveId : String → LicenseCategory}

/-- An operator that restricts weighs as its heavier side. -/
theorem weight_restricts {op : SpdxOperator} (restricts : op.restricts = true) (left right : SpdxExpr) :
    (SpdxExpr.node op left right).weight resolveId =
      max (left.weight resolveId) (right.weight resolveId) :=
  combineCategories_restricts StrategyMap.default_get restricts

/-- A choice weighs as its lighter side. -/
theorem weight_or (left right : SpdxExpr) : (SpdxExpr.node .OR left right).weight resolveId =
    least (left.weight resolveId) (right.weight resolveId) :=
  combineCategories_relaxes StrategyMap.default_get rfl

/-- What an expression names alike is as restrictive as that. -/
theorem weight_constant {category : LicenseCategory} {tree : SpdxExpr}
    (same : ∀ name ∈ tree.ids, resolveId name = category) :
    tree.weight resolveId = category.rank := by
  -- Along the tree: all leaves have one rank, and so has every node above them.
  induction tree with
  | id name =>
    have here := same name (List.mem_singleton.mpr rfl)
    simp [SpdxExpr.weight, SpdxExpr.eval, here]
  | node op left right leftIh rightIh =>
    rw [SpdxExpr.ids] at same
    obtain ⟨first, second⟩ := List.forall_mem_append.mp same
    have one := leftIh first
    have two := rightIh second
    -- AND and WITH take the worse operand, OR the better, and here they are alike.
    cases restricts : op.restricts with
    | true => rw [weight_restricts restricts, one, two, Nat.max_self]
    | false =>
      cases op with
      | OR =>
        rw [weight_or, one, two]
        unfold least
        split_ifs <;> omega
      | AND => cases restricts
      | WITH => cases restricts

end Weights

section Parts

/-- Tokens that stand between two ORs, with how restrictive they are under each resolver. -/
def Weighs (tokens : List SpdxToken) (weight : (String → LicenseCategory) → Nat) : Prop :=
  ∃ tree depth, depth < maxNestingDepth ∧ Derives (some .AND) tokens tree depth ∧
    ∀ resolveId, tree.weight resolveId = weight resolveId

/-- The greater of two weights under each resolver. -/
def heavier (left right : (String → LicenseCategory) → Nat) : (String → LicenseCategory) → Nat :=
  fun resolveId => max (left resolveId) (right resolveId)

/-- Two conjunctions with AND between them are one conjunction. -/
theorem Derives.conjoin {left right : List SpdxToken} {first second : SpdxExpr} {high low : Nat}
    (before : Derives (some .AND) left first high) (after : Derives (some .AND) right second low) :
    ∃ tree, Derives (some .AND) (Trusca.conjoin left right) tree (max high low) ∧
      ∀ resolveId, tree.weight resolveId = max (first.weight resolveId) (second.weight resolveId) := by
  obtain ⟨tree, derived, folds⟩ := before.chained after
  refine ⟨tree, derived, ?_⟩
  intro resolveId
  have value := folds resolveId (combineCategories .default) fun _ _ _ => combineCategories_assoc ..
  have joint := @weight_restricts resolveId .AND rfl first second
  rw [← joint]
  exact congrArg LicenseCategory.rank value

/-- A conjunction weighs as the heavier of the two. -/
theorem Weighs.conjoin {left right : List SpdxToken} {first second : (String → LicenseCategory) → Nat}
    (before : Weighs left first) (after : Weighs right second) :
    Weighs (Trusca.conjoin left right) (heavier first second) := by
  obtain ⟨one, high, highFits, oneDerived, oneWeighs⟩ := before
  obtain ⟨two, low, lowFits, twoDerived, twoWeighs⟩ := after
  obtain ⟨tree, derived, weighs⟩ := oneDerived.conjoin twoDerived
  refine ⟨tree, _, Nat.max_lt.mpr ⟨highFits, lowFits⟩, derived, ?_⟩
  intro resolveId
  rw [weighs, oneWeighs, twoWeighs, heavier]

/-- An expression is a row of alternatives, and as restrictive as the least of them. -/
theorem Derives.parts {tokens : List SpdxToken} {tree : SpdxExpr} {depth : Nat}
    (derived : Derives (some .OR) tokens tree depth) (fits : depth < maxNestingDepth) :
    ∃ parts weights, parts ≠ [] ∧ List.Forall₂ Weighs parts weights ∧
      tokens = [SpdxToken.operator .OR].intercalate parts ∧
      ∀ resolveId, tree.weight resolveId = leastOf (weights.map (· resolveId)) := by
  generalize level : some SpdxOperator.OR = found at derived
  -- Along the derivation at the level of OR: one part more with every joined operand.
  induction derived with
  | id name => cases level
  | paren inner => cases level
  | @operand op tokens tree depth single =>
    cases level
    -- A single operand is its own part.
    refine ⟨[tokens], [fun resolveId => tree.weight resolveId], by simp, ?_, by simp, ?_⟩
    · exact .cons ⟨tree, depth, fits, single, fun _ => rfl⟩ .nil
    · intro resolveId
      rw [List.map_singleton, leastOf_singleton]
  | @joined op left right first second high low _ last ih =>
    cases level
    obtain ⟨highFits, lowFits⟩ := Nat.max_lt.mp fits
    obtain ⟨parts, weights, nonempty, each, rfl, total⟩ := ih highFits rfl
    -- The right operand comes behind the parts of the left side.
    refine ⟨parts ++ [right], weights ++ [fun resolveId => second.weight resolveId], by simp, ?_, ?_, ?_⟩
    · exact List.rel_append each (.cons ⟨second, low, lowFits, last, fun _ => rfl⟩ .nil)
    · rw [intercalate_append nonempty (by simp), List.intercalate_singleton]
    · intro resolveId
      rw [weight_or, total, List.map_append, leastOf_append, List.map_singleton, leastOf_singleton]

end Parts

section Alternatives

/-- What is derived is not parted, within parentheses or below the level of OR. -/
theorem Derives.unparted {found : Option SpdxOperator} {tokens : List SpdxToken} {tree : SpdxExpr}
    {depth : Nat} (derived : Derives found tokens tree depth) :
    ∀ level rest, (level = 0 → found ≠ some .OR) →
      choicesFrom level (tokens ++ rest) = (choicesFrom level rest).modifyHead (tokens ++ ·) := by
  induction derived with
  -- A name is passed at any level.
  | id name =>
    intro level rest _
    simp [choicesFrom, SpdxToken.levelAfter]
  -- Inside the parentheses the level is one higher, so nothing there parts.
  | @paren tokens tree depth _ ih =>
    intro level rest _
    have inner := ih (level + 1) (.rparen :: rest) (by simp)
    simp only [List.cons_append, List.append_assoc, List.nil_append, choicesFrom, reduceCtorEq, and_false,
      if_false, SpdxToken.levelAfter, inner, Nat.add_sub_cancel, List.modifyHead_modifyHead]
    rfl
  -- An operand is the expression itself, one level of the grammar below.
  | @operand op tokens tree depth _ ih =>
    intro level rest _
    exact ih level rest fun _ => by cases op <;> simp [operandLevel]
  | @joined op left right first second high low _ _ leftIh rightIh =>
    intro level rest outside
    -- The operator itself parts nothing: it is no OR, or it stands in parentheses.
    have kept : ¬ (level = 0 ∧ SpdxToken.operator op = .operator .OR) := by
      intro parts
      obtain ⟨top, same⟩ := parts
      cases same
      exact outside top rfl
    -- The right operand after the operator, and the left one before it.
    have after := rightIh level rest fun _ => by cases op <;> simp [operandLevel]
    rw [List.append_assoc, leftIh level _ outside, List.cons_append, choicesFrom, if_neg kept,
      SpdxToken.levelAfter, after, List.modifyHead_modifyHead, List.modifyHead_modifyHead]
    · congr 1
      funext choice
      simp
    all_goals simp

/-- Parts joined by `OR` are split back into those parts. -/
theorem choicesFrom_intercalate {parts : List (List SpdxToken)}
    {weights : List ((String → LicenseCategory) → Nat)} (each : List.Forall₂ Weighs parts weights)
    (nonempty : parts ≠ []) : choicesFrom 0 ([SpdxToken.operator .OR].intercalate parts) = parts := by
  induction each with
  | nil => exact absurd rfl nonempty
  | @cons part weight parts weights here more ih =>
    obtain ⟨tree, depth, -, derived, -⟩ := here
    -- No OR lies between the ends of a part, outside its parentheses.
    have unparted (rest : List SpdxToken) := derived.unparted 0 rest (by simp)
    by_cases last : parts = []
    · subst last
      have whole := unparted []
      rw [List.append_nil] at whole
      rw [List.intercalate_singleton, whole]
      simp [choicesFrom]
    · -- So the first OR is the one behind the part.
      rw [List.intercalate_cons_of_ne_nil last, List.append_assoc, List.singleton_append, unparted,
        choicesFrom, if_pos (by simp), ih last]
      simp

/-- Glued rows of alternatives are the two rows with AND between them. -/
theorem intercalate_glue {first second : List (List SpdxToken)} (one : first ≠ []) (two : second ≠ []) :
    [SpdxToken.operator .OR].intercalate (glue conjoin first second) =
      conjoin ([SpdxToken.operator .OR].intercalate first)
        ([SpdxToken.operator .OR].intercalate second) := by
  fun_induction glue conjoin first second with
  | case1 second => exact absurd rfl one
  | case2 last => exact absurd rfl two
  | case3 last next rest =>
    -- The last part is glued to the first of the second list.
    by_cases ends : rest = []
    · simp [ends]
    · rw [List.intercalate_cons_of_ne_nil ends, List.intercalate_cons_of_ne_nil ends]
      simp [conjoin]
  | case4 part next rest second ih =>
    rw [List.intercalate_cons_of_ne_nil (glue_ne_nil (by simp)), ih (by simp) two,
      List.intercalate_cons_cons]
    simp [conjoin]

/-- A row of alternatives is an expression. -/
theorem Derives.extend {parts : List (List SpdxToken)}
    {weights : List ((String → LicenseCategory) → Nat)} (each : List.Forall₂ Weighs parts weights)
    (nonempty : parts ≠ []) {front : List SpdxToken} {first : SpdxExpr} {depth : Nat}
    (before : Derives (some .OR) front first depth) (fits : depth < maxNestingDepth) :
    ∃ tree deep, deep < maxNestingDepth ∧
      Derives (some .OR) (front ++ .operator .OR :: [SpdxToken.operator .OR].intercalate parts) tree deep ∧
      ∀ resolveId, tree.weight resolveId =
        least (first.weight resolveId) (leastOf (weights.map (· resolveId))) := by
  -- Along the parts, each joined with OR to what has been derived before it.
  induction each generalizing front first depth with
  | nil => exact absurd rfl nonempty
  | @cons part weight parts weights here more ih =>
    obtain ⟨second, low, lowFits, derived, weighs⟩ := here
    have both := Derives.joined before derived
    have bothFits := Nat.max_lt.mpr ⟨fits, lowFits⟩
    -- The last part closes the expression; any other is the front of the rest.
    by_cases last : parts = []
    · subst last
      cases more
      refine ⟨_, _, bothFits, by simpa using both, ?_⟩
      intro resolveId
      rw [weight_or, List.map_singleton, leastOf_singleton, weighs]
    · obtain ⟨tree, deep, deepFits, whole, total⟩ := ih last both bothFits
      refine ⟨tree, deep, deepFits, ?_, ?_⟩
      · rw [List.intercalate_cons_of_ne_nil last]
        simpa using whole
      · intro resolveId
        rw [total, weight_or, weighs, least_assoc]
        rfl

/-- Parts joined by `OR` derive a tree. -/
theorem Derives.ofParts {parts : List (List SpdxToken)}
    {weights : List ((String → LicenseCategory) → Nat)} (each : List.Forall₂ Weighs parts weights)
    (nonempty : parts ≠ []) :
    ∃ tree depth, depth < maxNestingDepth ∧
      Derives (some .OR) ([SpdxToken.operator .OR].intercalate parts) tree depth ∧
      ∀ resolveId, tree.weight resolveId = leastOf (weights.map (· resolveId)) := by
  cases each with
  | nil => exact absurd rfl nonempty
  | @cons part weight parts weights here more =>
    obtain ⟨first, depth, fits, derived, weighs⟩ := here
    -- The first part starts the chain.
    have single : Derives (some .OR) part first depth := .operand derived
    -- It is the whole expression, or the others are joined to it.
    by_cases last : parts = []
    · subst last
      cases more
      refine ⟨first, depth, fits, by simpa using single, ?_⟩
      intro resolveId
      rw [List.map_singleton, leastOf_singleton, weighs]
    · obtain ⟨tree, deep, deepFits, whole, total⟩ := Derives.extend more last single fits
      refine ⟨tree, deep, deepFits, ?_, ?_⟩
      · rw [List.intercalate_cons_of_ne_nil last]
        simpa using whole
      · intro resolveId
        rw [total, weighs]
        rfl

end Alternatives

section Texts

/-- The tokens of two texts with a word between them that stands for an operator. -/
theorem tokensOf_between {joint : String} {word : List Char} {op : SpdxOperator}
    (spelled : joint.toList = ' ' :: (word ++ [' '])) (means : lexFrom word [] = [.operator op])
    (first second : String) :
    tokensOf (first ++ joint ++ second) = tokensOf first ++ .operator op :: tokensOf second := by
  have written : (first ++ joint ++ second).toList =
      first.toList ++ ' ' :: (word ++ ' ' :: second.toList) := by
    simp [spelled]
  rw [tokensOf, written, lexFrom_mark ' ' rfl, lexFrom_mark ' ' rfl, means]
  rfl

/-- The tokens of two texts with AND between them. -/
theorem tokensOf_and (first second : String) :
    tokensOf (first ++ " AND " ++ second) = conjoin (tokensOf first) (tokensOf second) :=
  @tokensOf_between _ ['A', 'N', 'D'] _ rfl (by decide) first second

/-- Joined ids have the tokens of each, and one AND between two of them. -/
theorem length_tokensOf_joined {ids : List String} (nonempty : ids ≠ []) :
    (tokensOf (" AND ".intercalate ids)).length + 1 =
      (ids.map fun id => (tokensOf id).length + 1).sum := by
  induction ids with
  | nil => exact absurd rfl nonempty
  | cons id rest ih =>
    -- With each further identifier come its tokens and the AND before it.
    by_cases last : rest = []
    · simp [last]
    · have more := ih last
      rw [String.intercalate_cons_of_ne_nil last, tokensOf_and, conjoin, List.map_cons, List.sum_cons,
        ← more, List.length_append, List.length_cons]
      omega

/-- The tokens of joined ids are the alternatives that arise where they are joined. -/
theorem tokensOf_joined {ids : List String} (nonempty : ids ≠ [])
    (parted : ∀ id ∈ ids, choicesOf id ≠ [] ∧
      tokensOf id = [SpdxToken.operator .OR].intercalate (choicesOf id)) :
    tokensOf (" AND ".intercalate ids) =
      [SpdxToken.operator .OR].intercalate (glueAll conjoin (ids.map choicesOf)) := by
  -- Along the identifiers, joined with AND from the right.
  induction ids with
  | nil => exact absurd rfl nonempty
  | cons id rest ih =>
    obtain ⟨⟨choices, here⟩, later⟩ := List.forall_mem_cons.mp parted
    cases rest with
    | nil => simpa [glueAll] using here
    | cons next rest =>
      -- Each of the others offers a choice, so the glue joins two non-empty lists.
      have others : ∀ items ∈ (next :: rest).map choicesOf, items ≠ [] := by
        intro items listed
        obtain ⟨other, member, rfl⟩ := List.mem_map.mp listed
        exact (later other member).1
      have step : glueAll conjoin ((id :: next :: rest).map choicesOf) =
          glue conjoin (choicesOf id) (glueAll conjoin ((next :: rest).map choicesOf)) := rfl
      -- AND distributes over the choices, which is what the glue of the lists says.
      rw [String.intercalate_cons_cons, tokensOf_and, here, ih (by simp) later, step,
        intercalate_glue choices (glueAll_ne_nil (by simp) others)]

end Texts

section Reading

variable {resolveId : String → LicenseCategory}

/-- Tokens that derive a tree are folded into its value. -/
theorem parseTokens_derived {tokens : List SpdxToken} {tree : SpdxExpr} {depth : Nat}
    (derived : Derives (some .OR) tokens tree depth) (fits : depth < maxNestingDepth) :
    parseTokens resolveId (combineCategories .default) tokens =
      .ok (tree.eval resolveId (combineCategories .default)) := by
  -- Both parsers take the same tokens.
  have grammar : Translates (SpdxExpr.eval resolveId (combineCategories .default))
      (orExpr SpdxExpr.id (fun left right op => .node op left right) maxNestingDepth)
      (orExpr resolveId (combineCategories .default) maxNestingDepth) :=
    .orExpr (fun _ => rfl) (fun _ _ _ => rfl) maxNestingDepth
  -- And the derivation is read to its end within the levels.
  have read : orExpr SpdxExpr.id (fun left right op => .node op left right) maxNestingDepth tokens =
      .ok (tree, []) :=
    (treeParser_iff 63).mpr ⟨depth, Nat.le_of_lt_succ fits, derived⟩
  rw [parseTokens, grammar tokens, read]
  rfl

/-- The weight of an alternative is its rank. -/
theorem Weighs.choiceRank_eq {tokens : List SpdxToken} {weight : (String → LicenseCategory) → Nat}
    (weighs : Weighs tokens weight) : choiceRank resolveId tokens = weight resolveId := by
  obtain ⟨tree, depth, fits, derived, same⟩ := weighs
  have single : Derives (some .OR) tokens tree depth := .operand derived
  rw [choiceRank, parseTokens_derived single fits, ← same]
  rfl

/-- The ranks of alternatives are their weights. -/
theorem map_choiceRank {parts : List (List SpdxToken)}
    {weights : List ((String → LicenseCategory) → Nat)} (each : List.Forall₂ Weighs parts weights) :
    parts.map (choiceRank resolveId) = weights.map (· resolveId) := by
  induction each with
  | nil => rfl
  | cons here more ih => rw [List.map_cons, List.map_cons, ih, here.choiceRank_eq]

/-- An id that can be read is a row of alternatives, and as restrictive as the least of them. -/
theorem choices_of_read {id : String} {tree : SpdxExpr} (read : parseExpression (some id) = .ok tree) :
    choicesOf id ≠ [] ∧ tokensOf id = [SpdxToken.operator .OR].intercalate (choicesOf id) ∧
      (∃ weights, List.Forall₂ Weighs (choicesOf id) weights) ∧
      ∀ resolveId, rankOf resolveId id = leastOf ((choicesOf id).map (choiceRank resolveId)) := by
  obtain ⟨-, -, -, -, depth, fits, derived⟩ := parseExpression_ok.mp read
  obtain ⟨parts, weights, nonempty, each, tokens, total⟩ := derived.parts fits
  -- The choices are the parts of the derivation.
  have choices : choicesOf id = parts := by
    rw [choicesOf, tokens, choicesFrom_intercalate each nonempty]
  rw [choices]
  refine ⟨nonempty, tokens, ⟨weights, each⟩, ?_⟩
  -- The rank is the weight of the tree, which is the least of the parts.
  intro resolveId
  rw [map_choiceRank each, ← total, rankOf, foldExpression_eq, read]
  rfl

end Reading

section Joined

variable {ids : List String} {resolveId : String → LicenseCategory}

/-- The ids can be read, each by itself. -/
def AllRead (ids : List String) : Prop := ∀ id ∈ ids, ∃ tree, parseExpression (some id) = .ok tree

/-- Every licence that is read offers a choice. -/
theorem AllRead.choices_ne_nil (read : AllRead ids) : ∀ items ∈ ids.map choicesOf, items ≠ [] := by
  intro items listed
  obtain ⟨id, member, rfl⟩ := List.mem_map.mp listed
  obtain ⟨tree, parsed⟩ := read id member
  exact (choices_of_read parsed).1

/-- The choices of licences that are read all have weights. -/
theorem AllRead.weights (read : AllRead ids) :
    ∃ weights, List.Forall₂ (List.Forall₂ Weighs) (ids.map choicesOf) weights := by
  induction ids with
  | nil => exact ⟨[], .nil⟩
  | cons id rest ih =>
    -- Each identifier has the weights of its own choices.
    obtain ⟨here, later⟩ := List.forall_mem_cons.mp read
    obtain ⟨tree, parsed⟩ := here
    obtain ⟨-, -, ⟨weights, each⟩, -⟩ := choices_of_read parsed
    obtain ⟨others, more⟩ := ih later
    exact ⟨weights :: others, .cons each more⟩

/-- The ranks of the alternatives that arise are glued from the ranks of those of the ids. -/
theorem AllRead.map_choiceRank (read : AllRead ids) :
    (glueAll conjoin (ids.map choicesOf)).map (choiceRank resolveId) =
      glueAll max (ids.map fun id => (choicesOf id).map (choiceRank resolveId)) := by
  obtain ⟨weights, each⟩ := read.weights
  have glued := forall₂_glueAll (fun _ _ _ _ one two => Weighs.conjoin one two) each
  -- The weights are what ranking the choices gives, list by list.
  have pointwise : weights.map (fun items => items.map (· resolveId)) =
      (ids.map choicesOf).map fun items => items.map (choiceRank resolveId) := by
    clear glued
    generalize ids.map choicesOf = lists at each
    induction each with
    | nil => rfl
    | cons here more ih => rw [List.map_cons, List.map_cons, ih, Trusca.map_choiceRank here]
  rw [Trusca.map_choiceRank glued, map_glueAll fun _ _ => rfl, pointwise, List.map_map]
  rfl

/-- The characters of joined ids are theirs and those between them. -/
theorem mem_joined {joint : String} {character : Char}
    (within : character ∈ (joint.intercalate ids).toList) :
    character ∈ joint.toList ∨ ∃ id ∈ ids, character ∈ id.toList := by
  induction ids with
  | nil => simp at within
  | cons id rest ih =>
    by_cases last : rest = []
    · subst last
      exact .inr ⟨id, List.mem_singleton.mpr rfl, by simpa using within⟩
    · rw [String.intercalate_cons_of_ne_nil last, String.toList_append, String.toList_append,
        List.mem_append, List.mem_append] at within
      -- Of the first identifier, of the joint, or of a later one.
      obtain (here | between) | later := within
      · exact .inr ⟨id, List.mem_cons_self, here⟩
      · exact .inl between
      · obtain letters | ⟨other, listed, inside⟩ := ih later
        · exact .inl letters
        · exact .inr ⟨other, List.mem_cons_of_mem _ listed, inside⟩

/-- Every character of a licence is in the joined text. -/
theorem subset_joined (joint : String) {id : String} (listed : id ∈ ids) :
    ∀ character ∈ id.toList, character ∈ (joint.intercalate ids).toList := by
  intro character inside
  induction ids with
  | nil => simp at listed
  | cons first rest ih =>
    by_cases last : rest = []
    · subst last
      rw [List.mem_singleton.mp listed] at inside
      simpa using inside
    · -- The identifier is the first, or it is joined behind.
      rw [String.intercalate_cons_of_ne_nil last, String.toList_append, String.toList_append]
      obtain rfl | later := List.mem_cons.mp listed
      · exact List.mem_append_left _ (List.mem_append_left _ inside)
      · exact List.mem_append_right _ (ih later)

/-- Joined ids have no control character, and something besides spaces. -/
theorem AllRead.plain (read : AllRead ids) (nonempty : ids ≠ []) (joint : String)
    (harmless : ∀ letter ∈ joint.toList, isControlChar letter = false) :
    (∀ character ∈ (joint.intercalate ids).toList, isControlChar character = false) ∧
      strip (joint.intercalate ids) ≠ "" := by
  constructor
  · -- Neither the joint nor the identifiers have a control character.
    intro character within
    obtain letters | ⟨id, member, inside⟩ := mem_joined within
    · exact harmless character letters
    · obtain ⟨_, parsed⟩ := read id member
      exact (parseExpression_ok.mp parsed).2.2.1 character inside
  · -- And the first identifier has a visible one.
    obtain ⟨id, member⟩ := List.exists_mem_of_ne_nil ids nonempty
    obtain ⟨_, parsed⟩ := read id member
    obtain ⟨character, inside, visible⟩ := strip_ne_empty_iff.mp (parseExpression_ok.mp parsed).1
    exact strip_ne_empty_iff.mpr ⟨character, subset_joined _ member character inside, visible⟩

/-- The joined text is read exactly within the bounds, as restrictive as the least alternative. -/
theorem AllRead.joined (read : AllRead ids) (nonempty : ids ≠ []) :
    ((∃ tree, parseExpression (some (" AND ".intercalate ids)) = .ok tree) ↔ Fits ids) ∧
      (Fits ids → ∀ resolveId, ∃ category,
        foldExpression resolveId (combineCategories .default) (some (" AND ".intercalate ids)) =
            .ok category ∧
          category.rank =
            leastOf (glueAll max (ids.map fun id => (choicesOf id).map (choiceRank resolveId)))) := by
  obtain ⟨weights, each⟩ := read.weights
  have glued := forall₂_glueAll (fun _ _ _ _ one two => Weighs.conjoin one two) each
  obtain ⟨tree, depth, nested, derived, total⟩ := Derives.ofParts glued
    (glueAll_ne_nil (by simpa using nonempty) read.choices_ne_nil)
  -- Each id parts into its own choices.
  have parted : ∀ id ∈ ids, choicesOf id ≠ [] ∧
      tokensOf id = [SpdxToken.operator .OR].intercalate (choicesOf id) := by
    intro id member
    obtain ⟨_, parsed⟩ := read id member
    exact ⟨(choices_of_read parsed).1, (choices_of_read parsed).2.1⟩
  have tokens := tokensOf_joined nonempty parted
  have count := length_tokensOf_joined nonempty
  -- Nothing but the bounds can keep the joined text from being read.
  have parses (fits : Fits ids) : parseExpression (some (" AND ".intercalate ids)) = .ok tree := by
    obtain ⟨short, few⟩ := fits
    obtain ⟨plain, visible⟩ := read.plain nonempty " AND " (by decide)
    exact parseExpression_ok.mpr ⟨visible, short, plain, by omega, depth, nested, tokens ▸ derived⟩
  constructor
  · constructor
    · -- What is read is within the bounds, as the parser checks them.
      intro readable
      obtain ⟨_, parsed⟩ := readable
      obtain ⟨-, short, -, few, -⟩ := parseExpression_ok.mp parsed
      exact ⟨short, by omega⟩
    · intro fits
      exact ⟨tree, parses fits⟩
  · -- The fold over the joined text is the greatest of the ranks.
    intro fits resolveId
    refine ⟨tree.eval resolveId (combineCategories .default), ?_, ?_⟩
    · rw [foldExpression_eq, parses fits]
      rfl
    · rw [← read.map_choiceRank, Trusca.map_choiceRank glued]
      exact total resolveId

end Joined

section Relaxed

variable {ids : List String}

/-- The joined text is as restrictive as the most restrictive id exactly when no alternative is
less so. -/
theorem least_eq_greatest_iff (read : AllRead ids) (nonempty : ids ≠ [])
    (resolveId : String → LicenseCategory) :
    leastOf (glueAll max (ids.map fun id => (choicesOf id).map (choiceRank resolveId))) =
        greatestOf (ids.map (rankOf resolveId)) ↔
      ∀ choice ∈ glueAll conjoin (ids.map choicesOf), choiceRank resolveId choice ≠ 0 →
        ∀ id ∈ ids, rankOf resolveId id ≤ choiceRank resolveId choice := by
  have rank {id : String} (member : id ∈ ids) :
      rankOf resolveId id = leastOf ((choicesOf id).map (choiceRank resolveId)) := by
    obtain ⟨_, parsed⟩ := read id member
    exact (choices_of_read parsed).2.2.2 resolveId
  have lists : ∀ items ∈ ids.map (fun id => (choicesOf id).map (choiceRank resolveId)), items ≠ [] := by
    intro items listed
    obtain ⟨id, member, rfl⟩ := List.mem_map.mp listed
    simpa using read.choices_ne_nil _ (List.mem_map_of_mem member)
  obtain ⟨zero, bound⟩ := leastOf_glueAll (by simpa using nonempty) lists
  have ranks : (ids.map fun id => (choicesOf id).map (choiceRank resolveId)).map leastOf =
      ids.map (rankOf resolveId) := by
    rw [List.map_map]
    exact List.map_congr_left fun id member => (rank member).symm
  rw [ranks] at bound
  have choices := @AllRead.map_choiceRank ids resolveId read
  constructor
  · intro same choice listed known id member
    have least_le : leastOf (glueAll max (ids.map fun id => (choicesOf id).map (choiceRank resolveId))) ≤
        choiceRank resolveId choice :=
      leastOf_le (choices ▸ List.mem_map_of_mem listed) known
    exact Nat.le_trans (le_greatestOf (List.mem_map_of_mem member)) (same ▸ least_le)
  · intro unrelaxed
    refine Nat.le_antisymm bound (greatestOf_le ?_)
    intro number listed
    obtain ⟨id, member, rfl⟩ := List.mem_map.mp listed
    obtain ⟨none_known, -⟩ | ⟨known, least_mem⟩ :=
      leastOf_cases (glueAll max (ids.map fun id => (choicesOf id).map (choiceRank resolveId)))
    · -- Where no alternative is known, no id is.
      have unknown := zero.mp none_known _ (List.mem_map_of_mem member)
      rw [rank member, unknown]
      exact Nat.zero_le _
    · -- The least alternative is one that arises, and not below the id.
      rw [← choices] at known least_mem ⊢
      obtain ⟨choice, arises, same⟩ := List.mem_map.mp least_mem
      rw [← same] at known ⊢
      exact unrelaxed choice arises known id member

/-- Whether an id is a choice between licences. -/
def offersChoice (id : String) : Bool := 1 < (choicesOf id).length

/-- A single id has no alternative that is less restrictive than itself. -/
theorem unrelaxed_of_single (read : AllRead ids) (single : ids.length = 1) : Unrelaxed ids := by
  obtain ⟨id, rfl⟩ := List.length_eq_one_iff.mp single
  intro resolveId choice listed known other member
  obtain rfl := List.mem_singleton.mp member
  obtain ⟨_, parsed⟩ := read other (List.mem_singleton.mpr rfl)
  rw [(choices_of_read parsed).2.2.2 resolveId]
  exact leastOf_le (List.mem_map_of_mem listed) known

/-- Joined without a choice among them, the ids make one alternative with all of them in it. -/
theorem unrelaxed_of_plain (read : AllRead ids) (nonempty : ids ≠ [])
    (plain : ∀ id ∈ ids, offersChoice id = false) : Unrelaxed ids := by
  intro resolveId choice listed _ id member
  -- Without a choice inside, each identifier has one rank.
  have ranks : (ids.map fun id => (choicesOf id).map (choiceRank resolveId)) =
      (ids.map (rankOf resolveId)).map fun number => [number] := by
    rw [List.map_map]
    refine List.map_congr_left fun other within => ?_
    obtain ⟨_, parsed⟩ := read other within
    obtain ⟨some_choice, -, -, rank⟩ := choices_of_read parsed
    have once : (choicesOf other).length = 1 := by
      have few := plain other within
      have many := List.length_pos_of_ne_nil some_choice
      simp only [offersChoice, decide_eq_false_iff_not] at few
      omega
    obtain ⟨part, alone⟩ := List.length_eq_one_iff.mp once
    rw [Function.comp_apply, rank resolveId, alone, List.map_singleton, leastOf_singleton]
  have arises : choiceRank resolveId choice ∈ _ := List.mem_map_of_mem listed
  -- So the one choice there is takes the worst rank of them all.
  rw [read.map_choiceRank, ranks, glueAll_singletons (by simpa using nonempty), List.mem_singleton] at arises
  rw [arises]
  exact le_greatestOf (List.mem_map_of_mem member)

/-- The licences that an alternative names. -/
def choiceLicenses (choice : List SpdxToken) : List String := choice.filterMap SpdxToken.name?

/-- The licences of an alternative are among those of the row. -/
theorem choiceLicenses_subset {parts : List (List SpdxToken)} {part : List SpdxToken}
    (listed : part ∈ parts) : ∀ name ∈ choiceLicenses part,
      name ∈ choiceLicenses ([SpdxToken.operator .OR].intercalate parts) := by
  induction parts with
  | nil => simp at listed
  | cons first rest ih =>
    intro name named
    by_cases last : rest = []
    · subst last
      rw [List.mem_singleton.mp listed] at named
      simpa using named
    · rw [List.intercalate_cons_of_ne_nil last, choiceLicenses, List.filterMap_append,
        List.filterMap_append]
      -- The part is the first one, or it is joined behind.
      obtain rfl | later := List.mem_cons.mp listed
      · exact List.mem_append_left _ (List.mem_append_left _ named)
      · exact List.mem_append_right _ (ih later name named)

/-- Where an id is a choice, some alternative that arises has none of the licences of some id. -/
theorem exists_choice_apart (read : AllRead ids)
    (apart : ids.Pairwise fun one other => ∀ name ∈ licensesOf one, name ∉ licensesOf other)
    (several : 1 < ids.length) (choice : ∃ id ∈ ids, offersChoice id = true) :
    ∃ part ∈ glueAll conjoin (ids.map choicesOf), ∃ id ∈ ids,
      ∀ name ∈ choiceLicenses part, name ∉ licensesOf id := by
  induction ids with
  | nil => simp at several
  | cons id rest ih =>
    obtain ⟨here, later⟩ := List.forall_mem_cons.mp read
    obtain ⟨_, parsed⟩ := here
    obtain ⟨some_choice, tokens, -, -⟩ := choices_of_read parsed
    obtain ⟨fromRest, restApart⟩ := List.pairwise_cons.mp apart
    have own {part : List SpdxToken} (listed : part ∈ choicesOf id) :
        ∀ name ∈ choiceLicenses part, name ∈ licensesOf id := by
      intro name named
      have inside := choiceLicenses_subset listed name named
      rwa [← tokens] at inside
    cases rest with
    | nil => simp at several
    | cons next rest =>
      have step : glueAll conjoin ((id :: next :: rest).map choicesOf) =
          glue conjoin (choicesOf id) (glueAll conjoin ((next :: rest).map choicesOf)) := rfl
      obtain ⟨first, others, glued⟩ := List.exists_cons_of_ne_nil
        (@glueAll_ne_nil _ conjoin ((next :: rest).map choicesOf) (by simp) (AllRead.choices_ne_nil later))
      rw [step, glued]
      cases choices : choicesOf id with
      | nil => exact absurd choices some_choice
      | cons part more =>
        rw [choices] at own
        cases more with
        | cons second more =>
          -- The first alternative stands alone and has nothing of the next id.
          refine ⟨part, List.mem_cons_self, next, by simp, ?_⟩
          intro name named
          exact fromRest next List.mem_cons_self name (own List.mem_cons_self name named)
        | nil =>
          have plain : offersChoice id = false := by simp [offersChoice, choices]
          have chosen : ∃ other ∈ next :: rest, offersChoice other = true := by
            obtain ⟨other, member, offers⟩ := choice
            obtain rfl | within := List.mem_cons.mp member
            · simp [plain] at offers
            · exact ⟨other, within, offers⟩
          by_cases last : rest = []
          · -- The choice is the last id: its last alternative has nothing of the first.
            subst last
            obtain ⟨other, member, offers⟩ := chosen
            obtain rfl := List.mem_singleton.mp member
            have row : choicesOf other = first :: others := glued
            obtain ⟨_, read_other⟩ := later other (List.mem_singleton.mpr rfl)
            simp only [offersChoice, row, List.length_cons, decide_eq_true_eq] at offers
            obtain ⟨second, more, rfl⟩ := List.exists_cons_of_ne_nil
              (List.ne_nil_of_length_pos (show 0 < others.length by omega))
            refine ⟨second, List.mem_cons_of_mem _ List.mem_cons_self, id, List.mem_cons_self, ?_⟩
            intro name named mine
            refine fromRest other (List.mem_singleton.mpr rfl) name mine ?_
            have inside := @choiceLicenses_subset (choicesOf other) second (by simp [row]) name named
            rwa [← (choices_of_read read_other).2.1] at inside
          · have more := List.length_pos_of_ne_nil last
            obtain ⟨part', listed, id', member, away⟩ :=
              ih later restApart (by simp only [List.length_cons]; omega) chosen
            rw [glued] at listed
            obtain rfl | within := List.mem_cons.mp listed
            · -- The alternative is joined with the first id, which has nothing of the other either.
              refine ⟨conjoin part part', List.mem_cons_self, id', List.mem_cons_of_mem _ member, ?_⟩
              intro name named
              rw [choiceLicenses, conjoin, List.filterMap_append, List.mem_append] at named
              obtain before | after := named
              · exact fromRest id' member name (own List.mem_cons_self name before)
              · exact away name (by simpa [choiceLicenses, List.filterMap_cons, SpdxToken.name?] using after)
            · exact ⟨part', List.mem_cons_of_mem _ within, id', List.mem_cons_of_mem _ member, away⟩

/-- Where ids have no licence in common and one of several is a choice, an alternative is less
restrictive than an id. -/
theorem not_unrelaxed (read : AllRead ids)
    (apart : ids.Pairwise fun one other => ∀ name ∈ licensesOf one, name ∉ licensesOf other)
    (several : 1 < ids.length) (choice : ∃ id ∈ ids, offersChoice id = true) : ¬ Unrelaxed ids := by
  intro unrelaxed
  obtain ⟨part, arises, id, member, away⟩ := exists_choice_apart read apart several choice
  -- A resolver that forbids just the licences of this id.
  let resolveId (name : String) : LicenseCategory := if name ∈ licensesOf id then .forbidden else .allowed
  have strict : rankOf resolveId id = 3 := by
    obtain ⟨tree, parsed⟩ := read id member
    obtain ⟨-, -, -, -, depth, -, derived⟩ := parseExpression_ok.mp parsed
    have forbidden : tree.weight resolveId = LicenseCategory.forbidden.rank := by
      refine weight_constant fun name named => ?_
      rw [derived.ids] at named
      exact if_pos named
    rw [rankOf, foldExpression_eq, parsed]
    exact forbidden
  -- The choice that avoids this id has only allowed licences.
  have loose : choiceRank resolveId part = 1 := by
    obtain ⟨weights, each⟩ := read.weights
    have glued := forall₂_glueAll (fun _ _ _ _ one two => Weighs.conjoin one two) each
    obtain ⟨weight, tree, depth, fits, derived, same⟩ := exists_of_forall₂ glued arises
    have allowed : tree.weight resolveId = LicenseCategory.allowed.rank := by
      refine weight_constant fun name named => ?_
      rw [derived.ids] at named
      exact if_neg (away name named)
    have weighs : Weighs part weight := ⟨tree, depth, fits, derived, same⟩
    rw [weighs.choiceRank_eq, ← same, allowed]
    rfl
  -- The rank of the one would have to bound that of the other.
  have bound := unrelaxed resolveId part arises (by omega) id member
  omega

end Relaxed

/-- With any licence stored, the expression joins the stored ones. -/
theorem spdxLicenseExpr_stored {entries : List LicenseEntry} (stored : storedIds entries ≠ []) :
    spdxLicenseExpr entries = " AND ".intercalate (storedIds entries) := by
  unfold spdxLicenseExpr
  unfold storedIds at stored ⊢
  split
  · rename_i none_left
    exact absurd none_left stored
  · rfl

/-- The exported expression is read as the conjunction of the ids exactly when it is within the bounds
and no alternative that arises where the ids are joined is less restrictive than one of them. This is
so for a single id and where no id is a choice; where ids have no licence in common, only then. -/
theorem spdx_expression_conjoins (entries : List LicenseEntry) (stored : storedIds entries ≠ [])
    (read : AllRead (storedIds entries)) :
    (Conjoined entries ↔ Fits (storedIds entries) ∧ Unrelaxed (storedIds entries)) ∧
      ((storedIds entries).length = 1 ∨ (∀ id ∈ storedIds entries, offersChoice id = false) →
        Unrelaxed (storedIds entries)) ∧
      ((storedIds entries).Pairwise (fun one other => ∀ name ∈ licensesOf one, name ∉ licensesOf other) →
        Unrelaxed (storedIds entries) →
          (storedIds entries).length = 1 ∨ ∀ id ∈ storedIds entries, offersChoice id = false) := by
  obtain ⟨readable, folded⟩ := read.joined stored
  refine ⟨?_, ?_, ?_⟩
  · unfold Conjoined
    rw [spdxLicenseExpr_stored stored]
    constructor
    · intro conjoined
      -- What is folded under one resolver is read, so it is within the bounds.
      have fits : Fits (storedIds entries) := by
        obtain ⟨category, value, -⟩ := conjoined fun _ => .allowed
        rw [foldExpression_eq] at value
        refine readable.mp ?_
        cases parsed : parseExpression (some (" AND ".intercalate (storedIds entries))) with
        | ok tree => exact ⟨tree, rfl⟩
        | error reason => simp [parsed, Except.map] at value
      refine ⟨fits, fun resolveId => (least_eq_greatest_iff read stored resolveId).mp ?_⟩
      obtain ⟨category, value, rank⟩ := conjoined resolveId
      obtain ⟨other, again, total⟩ := folded fits resolveId
      cases Except.ok.inj (value.symm.trans again)
      rw [← total, rank]
    · -- The two conditions give it back: the bounds, and no choice that relaxes.
      intro holds resolveId
      obtain ⟨fits, unrelaxed⟩ := holds
      obtain ⟨category, value, total⟩ := folded fits resolveId
      exact ⟨category, value,
        total.trans ((least_eq_greatest_iff read stored resolveId).mpr (unrelaxed resolveId))⟩
  · -- One id, or ids without an OR, relax nothing.
    intro plain
    obtain single | plain := plain
    · exact unrelaxed_of_single read single
    · exact unrelaxed_of_plain read stored plain
  · -- Several ids apart, one of them with a choice, do.
    intro apart unrelaxed
    by_contra neither
    simp only [not_or, not_forall, Bool.not_eq_false] at neither
    obtain ⟨several, id, member, offers⟩ := neither
    have some_id := List.length_pos_of_ne_nil stored
    exact not_unrelaxed read apart (by omega) ⟨id, member, offers⟩ unrelaxed

/-- A licence, and a choice in parentheses. -/
def bracketedEntries : List LicenseEntry :=
  [⟨some "GPL-3.0-only", "GPL"⟩, ⟨some "(MIT OR Apache-2.0)", "MIT or Apache"⟩]

/-- A licence, and a choice without parentheses. -/
def choiceEntries : List LicenseEntry :=
  [⟨some "GPL-3.0-only", "GPL"⟩, ⟨some "MIT OR Apache-2.0", "MIT or Apache"⟩]

/-- A choice in parentheses is exported as one operand of the conjunction. -/
theorem spdx_expression_conjoins_bracketed : storedIds bracketedEntries ≠ [] ∧
    AllRead (storedIds bracketedEntries) ∧ Conjoined bracketedEntries := by
  -- The two identifiers as they are stored, both readable and neither with a choice left open.
  have ids : storedIds bracketedEntries = ["(MIT OR Apache-2.0)", "GPL-3.0-only"] := by decide +kernel
  have stored : storedIds bracketedEntries ≠ [] := by simp [ids]
  have read : AllRead (storedIds bracketedEntries) := by
    rw [ids]
    exact List.forall_mem_cons.mpr ⟨⟨.node .OR (.id "MIT") (.id "Apache-2.0"), by decide +kernel⟩,
      List.forall_mem_singleton.mpr ⟨.id "GPL-3.0-only", by decide +kernel⟩⟩
  have plain : ∀ id ∈ storedIds bracketedEntries, offersChoice id = false := by decide +kernel
  have fits : Fits (storedIds bracketedEntries) := by
    unfold Fits
    decide +kernel
  -- So the exported text conjoins them.
  have exported := spdx_expression_conjoins bracketedEntries stored read
  exact ⟨stored, read, exported.1.mpr ⟨fits, exported.2.1 (.inr plain)⟩⟩

/-- A forbidden licence beside a choice without parentheses is exported as an allowed expression. -/
theorem spdx_expression_relaxes : AllRead (storedIds choiceEntries) ∧
    spdxLicenseExpr choiceEntries = "GPL-3.0-only AND MIT OR Apache-2.0" ∧ ¬ Conjoined choiceEntries := by
  have ids : storedIds choiceEntries = ["GPL-3.0-only", "MIT OR Apache-2.0"] := by decide +kernel
  have read : AllRead (storedIds choiceEntries) := by
    rw [ids]
    exact List.forall_mem_cons.mpr ⟨⟨.id "GPL-3.0-only", by decide +kernel⟩,
      List.forall_mem_singleton.mpr ⟨.node .OR (.id "MIT") (.id "Apache-2.0"), by decide +kernel⟩⟩
  refine ⟨read, by decide +kernel, ?_⟩
  intro conjoined
  -- The choice of MIT is a way out of GPL, which the conjunction would not have.
  obtain ⟨category, value, rank⟩ := conjoined fun name =>
    if name = "GPL-3.0-only" then .forbidden else .allowed
  revert value rank
  cases category <;> decide +kernel

end Trusca
