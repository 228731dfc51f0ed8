import Trusca.License.Classify
import Trusca.Proofs.License.Expression

/-! When a policy without rules of its own leaves the static classification of an expression
alone. -/

namespace Trusca

/-- A policy that is on, overrides and waives nothing, and combines operands the default way. -/
structure LicensePolicy.Plain (policy : LicensePolicy) : Prop where
  enabled : policy.enabled = true
  overrides : policy.categoryOverrides = .empty
  exceptions : policy.licenseExceptions = []
  strategy : ∀ op, policy.compoundOperatorStrategy.get op = defaultStrategy op

/-- The policy gives an expression its static category, and its posture when there is none. -/
def Transparent (policy : LicensePolicy) (expression componentPurl : Option String) (now : Time) :
    Prop :=
  policyCategoryOf policy expression componentPurl now =
    if classifyLicenseCategory expression = .unknown then policy.unknownLicenseCategory.toCategory
    else classifyLicenseCategory expression

section Rank

/-- Categories of one rank are the same. -/
theorem LicenseCategory.rank_injective {first second : LicenseCategory}
    (same : first.rank = second.rank) : first = second := by
  cases first <;> cases second <;> simp_all [LicenseCategory.rank]

/-- Only the unknown category has rank zero. -/
theorem LicenseCategory.rank_eq_zero {category : LicenseCategory} :
    category.rank = 0 ↔ category = .unknown := by
  cases category <;> simp [LicenseCategory.rank]

/-- A policy's category is never unknown. -/
theorem PolicyCategory.rank_pos (category : PolicyCategory) : 0 < category.toCategory.rank := by
  cases category <;> decide

/-- Whether an operator takes the most restrictive of its operands by default. -/
def SpdxOperator.restricts : SpdxOperator → Bool
  | .AND => true
  | .OR => false
  | .WITH => true

/-- Either strategy is associative. -/
theorem combineCategories_assoc (strategies : StrategyMap) (first second third : LicenseCategory)
    (op : SpdxOperator) :
    combineCategories strategies (combineCategories strategies first second op) third op =
      combineCategories strategies first (combineCategories strategies second third op) op := by
  unfold combineCategories
  cases strategies.get op <;> cases first <;> cases second <;> cases third <;> rfl

/-- Either strategy is commutative. -/
theorem combineCategories_comm (strategies : StrategyMap) (left right : LicenseCategory)
    (op : SpdxOperator) :
    combineCategories strategies left right op = combineCategories strategies right left op := by
  unfold combineCategories
  cases strategies.get op <;> cases left <;> cases right <;> rfl

variable {strategies : StrategyMap} (default : ∀ op, strategies.get op = defaultStrategy op)
  {left right : LicenseCategory} {op : SpdxOperator}

include default

/-- AND and WITH take the larger rank. -/
theorem combineCategories_restricts (restricts : op.restricts = true) :
    (combineCategories strategies left right op).rank = max left.rank right.rank := by
  -- AND and WITH take the more restrictive of the two.
  have most : strategies.get op = .mostRestrictive := by
    rw [default]
    cases op with
    | AND => rfl
    | WITH => rfl
    | OR => cases restricts
  unfold combineCategories
  rw [most]
  dsimp only
  split <;> omega

/-- OR takes the smaller rank among the known operands. -/
theorem combineCategories_relaxes (relaxes : op.restricts = false) :
    (combineCategories strategies left right op).rank =
      if left.rank = 0 then right.rank else if right.rank = 0 then left.rank
      else min left.rank right.rank := by
  -- OR takes the less restrictive, and an unknown gives way to the other.
  have least : strategies.get op = .leastRestrictive := by
    rw [default]
    cases op with
    | OR => rfl
    | AND => cases relaxes
    | WITH => cases relaxes
  unfold combineCategories
  rw [least]
  cases left <;> cases right <;> rfl

end Rank

namespace SpdxExpr

variable {strategies : StrategyMap}

/-- The rank of an expression when its uncatalogued operands have the given category. -/
def read (strategies : StrategyMap) (posture : LicenseCategory) (expression : SpdxExpr) : Nat :=
  (expression.eval (fun name =>
    if staticDefaultFor name = .unknown then posture else staticDefaultFor name)
    (combineCategories strategies)).rank

/-- The catalogued operands alone keep the expression at or below a rank, whatever the others
mean. -/
def atMost (bound : Nat) : SpdxExpr → Bool
  | .id name => staticDefaultFor name ≠ .unknown && (staticDefaultFor name).rank ≤ bound
  | .node op left right =>
      if op.restricts then left.atMost bound && right.atMost bound
      else left.atMost bound || right.atMost bound

/-- The catalogued operands alone keep the expression at or above a rank, whatever the others
mean. -/
def atLeast (bound : Nat) : SpdxExpr → Bool
  | .id name => staticDefaultFor name ≠ .unknown && bound ≤ (staticDefaultFor name).rank
  | .node op left right =>
      if op.restricts then left.atLeast bound || right.atLeast bound
      else left.atLeast bound && right.atLeast bound

/-- The rank of a single operand. -/
theorem read_id (posture : LicenseCategory) (name : String) :
    (SpdxExpr.id name).read strategies posture =
      if (staticDefaultFor name).rank = 0 then posture.rank else (staticDefaultFor name).rank := by
  unfold read eval
  simp only [LicenseCategory.rank_eq_zero]
  split <;> rfl

variable (default : ∀ op, strategies.get op = defaultStrategy op)

include default

/-- The rank under AND or WITH. -/
theorem read_restricts (posture : LicenseCategory) {op : SpdxOperator} (left right : SpdxExpr)
    (restricts : op.restricts = true) : (SpdxExpr.node op left right).read strategies posture =
      max (left.read strategies posture) (right.read strategies posture) :=
  combineCategories_restricts default restricts

/-- The rank under OR. -/
theorem read_relaxes (posture : LicenseCategory) {op : SpdxOperator} (left right : SpdxExpr)
    (relaxes : op.restricts = false) : (SpdxExpr.node op left right).read strategies posture =
      if left.read strategies posture = 0 then right.read strategies posture
      else if right.read strategies posture = 0 then left.read strategies posture
      else min (left.read strategies posture) (right.read strategies posture) :=
  combineCategories_relaxes default relaxes

variable {posture : LicenseCategory} (known : 0 < posture.rank)

include known

/-- With a known posture every expression has a known category. -/
theorem read_pos (expression : SpdxExpr) : 0 < expression.read strategies posture := by
  -- Every operand is known, and neither operator makes an unknown of two known ones.
  induction expression with
  | id name =>
    rw [read_id]
    split <;> omega
  | node op left right leftPos rightPos =>
    cases restricts : op.restricts with
    | true =>
      rw [read_restricts default _ _ _ restricts]
      omega
    | false =>
      rw [read_relaxes default _ _ _ restricts, if_neg (by omega), if_neg (by omega)]
      omega

/-- With a known posture OR takes the smaller rank. -/
theorem read_alternatives {op : SpdxOperator} (left right : SpdxExpr)
    (relaxes : op.restricts = false) : (SpdxExpr.node op left right).read strategies posture =
      min (left.read strategies posture) (right.read strategies posture) := by
  have leftPos := read_pos default known left
  have rightPos := read_pos default known right
  rw [read_relaxes default _ _ _ relaxes, if_neg (by omega), if_neg (by omega)]

/-- The category lies between the posture and the static one; without a catalogued operand it is
the posture. -/
theorem read_between (expression : SpdxExpr) :
    (expression.read strategies .unknown = 0 →
        expression.read strategies posture = posture.rank) ∧
      (expression.read strategies .unknown ≠ 0 →
        min (expression.read strategies .unknown) posture.rank ≤
            expression.read strategies posture ∧
          expression.read strategies posture ≤
            max (expression.read strategies .unknown) posture.rank) := by
  induction expression with
  | id name =>
    -- A catalogued operand reads the same either way; the posture stands in for any other.
    rw [read_id, read_id]
    have zero : LicenseCategory.unknown.rank = 0 := rfl
    split <;> omega
  | node op left right leftBetween rightBetween =>
    obtain ⟨leftOpen, leftClosed⟩ := leftBetween
    obtain ⟨rightOpen, rightClosed⟩ := rightBetween
    cases restricts : op.restricts with
    | true =>
      rw [read_restricts default _ _ _ restricts, read_restricts default _ _ _ restricts]
      omega
    | false =>
      -- The static reading skips a side without a catalogued operand; the posture's does not.
      rw [read_relaxes default .unknown _ _ restricts, read_alternatives default known _ _ restricts]
      split
      · omega
      · split <;> omega

/-- What the catalogued operands keep at or below a rank stays there under every posture. -/
theorem read_le_of_atMost {bound : Nat} {expression : SpdxExpr}
    (kept : expression.atMost bound = true) : expression.read strategies posture ≤ bound := by
  -- The recursion of `atMost` follows the tree: both sides of AND, one side of OR.
  induction expression with
  | id name =>
    simp only [atMost, Bool.and_eq_true, decide_eq_true_eq, ne_eq,
      ← LicenseCategory.rank_eq_zero] at kept
    rw [read_id, if_neg kept.1]
    exact kept.2
  | node op left right leftBound rightBound =>
    unfold atMost at kept
    cases restricts : op.restricts with
    | true =>
      rw [restricts, if_pos rfl, Bool.and_eq_true] at kept
      have first := leftBound kept.1
      have second := rightBound kept.2
      rw [read_restricts default _ _ _ restricts]
      omega
    | false =>
      rw [restricts, if_neg (by simp), Bool.or_eq_true] at kept
      rw [read_alternatives default known _ _ restricts]
      rcases kept with first | second
      · have bounded := leftBound first
        omega
      · have bounded := rightBound second
        omega

/-- What stays at or below a rank less than the posture is kept there by catalogued operands. -/
theorem atMost_of_read_le {bound : Nat} {expression : SpdxExpr} (below : bound < posture.rank)
    (bounded : expression.read strategies posture ≤ bound) : expression.atMost bound = true := by
  induction expression with
  | id name =>
    rw [read_id] at bounded
    split at bounded
    · -- An uncatalogued operand reads as the posture, which is above the bound.
      omega
    · rename_i catalogued
      simp only [atMost, Bool.and_eq_true, decide_eq_true_eq, ne_eq,
        ← LicenseCategory.rank_eq_zero]
      exact ⟨catalogued, bounded⟩
  | node op left right leftKept rightKept =>
    unfold atMost
    cases restricts : op.restricts with
    | true =>
      rw [read_restricts default _ _ _ restricts] at bounded
      rw [if_pos rfl, Bool.and_eq_true]
      exact ⟨leftKept (by omega), rightKept (by omega)⟩
    | false =>
      -- The smaller of two ranks is within the bound, so one of them is.
      rw [read_alternatives default known _ _ restricts] at bounded
      rw [if_neg (by simp), Bool.or_eq_true]
      by_cases first : left.read strategies posture ≤ bound
      · exact .inl (leftKept first)
      · exact .inr (rightKept (by omega))

/-- What the catalogued operands keep at or above a rank stays there under every posture. -/
theorem le_read_of_atLeast {bound : Nat} {expression : SpdxExpr}
    (kept : expression.atLeast bound = true) : bound ≤ expression.read strategies posture := by
  -- The mirror image: one side of AND is enough, and both sides of OR are needed.
  induction expression with
  | id name =>
    simp only [atLeast, Bool.and_eq_true, decide_eq_true_eq, ne_eq,
      ← LicenseCategory.rank_eq_zero] at kept
    rw [read_id, if_neg kept.1]
    exact kept.2
  | node op left right leftBound rightBound =>
    unfold atLeast at kept
    cases restricts : op.restricts with
    | true =>
      rw [restricts, if_pos rfl, Bool.or_eq_true] at kept
      rw [read_restricts default _ _ _ restricts]
      rcases kept with first | second
      · have bounded := leftBound first
        omega
      · have bounded := rightBound second
        omega
    | false =>
      rw [restricts, if_neg (by simp), Bool.and_eq_true] at kept
      have first := leftBound kept.1
      have second := rightBound kept.2
      rw [read_alternatives default known _ _ restricts]
      omega

/-- What stays at or above a rank greater than the posture is kept there by catalogued
operands. -/
theorem atLeast_of_le_read {bound : Nat} {expression : SpdxExpr} (above : posture.rank < bound)
    (bounded : bound ≤ expression.read strategies posture) : expression.atLeast bound = true := by
  induction expression with
  | id name =>
    rw [read_id] at bounded
    split at bounded
    · -- An uncatalogued operand reads as the posture, which is below the bound.
      omega
    · rename_i catalogued
      simp only [atLeast, Bool.and_eq_true, decide_eq_true_eq, ne_eq,
        ← LicenseCategory.rank_eq_zero]
      exact ⟨catalogued, bounded⟩
  | node op left right leftKept rightKept =>
    unfold atLeast
    cases restricts : op.restricts with
    | true =>
      rw [read_restricts default _ _ _ restricts] at bounded
      rw [if_pos rfl, Bool.or_eq_true]
      by_cases first : bound ≤ left.read strategies posture
      · exact .inl (leftKept first)
      · exact .inr (rightKept (by omega))
    | false =>
      rw [read_alternatives default known _ _ restricts] at bounded
      rw [if_neg (by simp), Bool.and_eq_true]
      exact ⟨leftKept (by omega), rightKept (by omega)⟩

/-- A posture leaves the static category alone exactly when, on the side of the posture, the
catalogued operands alone keep the expression there. -/
theorem read_eq_static_iff {expression : SpdxExpr}
    (catalogued : expression.read strategies .unknown ≠ 0) :
    expression.read strategies posture = expression.read strategies .unknown ↔
      (posture.rank ≤ expression.read strategies .unknown ∨
        expression.atMost (expression.read strategies .unknown) = true) ∧
      (expression.read strategies .unknown ≤ posture.rank ∨
        expression.atLeast (expression.read strategies .unknown) = true) := by
  obtain ⟨low, high⟩ := (read_between default known expression).2 catalogued
  constructor
  · -- On the side away from the posture there is nothing to show.
    intro same
    refine ⟨?_, ?_⟩
    · by_cases side : posture.rank ≤ expression.read strategies .unknown
      · exact .inl side
      · exact .inr (atMost_of_read_le default known (by omega) (by omega))
    · by_cases side : expression.read strategies .unknown ≤ posture.rank
      · exact .inl side
      · exact .inr (atLeast_of_le_read default known (by omega) (by omega))
  · -- The posture can only pull towards itself, and the catalogued operands hold against that.
    rintro ⟨above, below⟩
    have upper : expression.read strategies posture ≤ expression.read strategies .unknown := by
      rcases above with side | kept
      · omega
      · exact read_le_of_atMost default known kept
    have lower : expression.read strategies .unknown ≤ expression.read strategies posture := by
      rcases below with side | kept
      · omega
      · exact le_read_of_atLeast default known kept
    omega

end SpdxExpr

section Evaluation

variable {policy : LicensePolicy} {expression componentPurl : Option String} {now : Time}

/-- The default strategies, spelled out, are the default ones. -/
theorem StrategyMap.default_get (op : SpdxOperator) :
    StrategyMap.default.get op = defaultStrategy op := by
  cases op <;> rfl

/-- Strategies that agree with the default ones combine operands the same way. -/
theorem combineCategories_default {strategies : StrategyMap}
    (default : ∀ op, strategies.get op = defaultStrategy op) :
    combineCategories strategies = combineCategories .default := by
  funext left right op
  unfold combineCategories
  rw [default, StrategyMap.default_get]

/-- An operand under a plain policy: the catalogue, and the posture on a miss. -/
theorem makePolicyResolver_plain (plain : policy.Plain) (componentPurl : Option String)
    (now : Time) (name : String) : makePolicyResolver policy componentPurl now name =
      if staticDefaultFor name = .unknown then policy.unknownLicenseCategory.toCategory
      else staticDefaultFor name := by
  unfold makePolicyResolver effectiveCategory
  simp only [plain.enabled, plain.exceptions, plain.overrides, Dict.get?_empty, Bool.not_true,
    Bool.false_eq_true, if_false, List.any_nil]
  by_cases unknown : staticDefaultFor name = .unknown
  · rw [if_pos unknown, if_neg (not_not.mpr unknown)]
  · rw [if_neg unknown, if_pos unknown]

/-- A readable expression evaluates to the category of its tree, or to the fallback when that is
unknown. -/
theorem evaluateExpression_ok {tree : SpdxExpr} (parsed : parseExpression expression = .ok tree)
    (resolveId : String → LicenseCategory) (strategies : StrategyMap)
    (fallback : LicenseCategory) :
    (evaluateExpression expression resolveId strategies fallback).category =
      if tree.eval resolveId (combineCategories strategies) = .unknown then fallback
      else tree.eval resolveId (combineCategories strategies) := by
  unfold evaluateExpression
  rw [foldExpression_eq, parsed]
  simp only [Except.map]
  cases tree.eval resolveId (combineCategories strategies) <;> rfl

/-- An unreadable expression evaluates to the fallback. -/
theorem evaluateExpression_error {reason : ExpressionParseError}
    (failed : parseExpression expression = .error reason) (resolveId : String → LicenseCategory)
    (strategies : StrategyMap) (fallback : LicenseCategory) :
    (evaluateExpression expression resolveId strategies fallback).category = fallback := by
  unfold evaluateExpression
  rw [foldExpression_eq, failed]
  rfl

/-- Every catalogued id is an expression of its own. -/
theorem parseExpression_catalogued :
    ∀ entry ∈ licenseCategoryDefaults, parseExpression (some entry.1) = .ok (.id entry.1) ∧
      staticDefaultFor entry.1 = entry.2 := by
  decide +kernel

/-- The static classification is the evaluation over the catalogue. -/
theorem classifyLicenseCategory_eq (expression : Option String) :
    classifyLicenseCategory expression =
      (evaluateExpression expression staticDefaultFor .default .unknown).category := by
  unfold classifyLicenseCategory
  cases expression with
  | none => rfl
  | some text =>
    dsimp only
    split
    · -- The empty text is unknown without a lookup, and cannot be read either.
      rename_i empty
      subst empty
      rfl
    · cases found : licenseCategoryDefaults.lookup text with
      | none => rfl
      | some category =>
        -- A catalogued id is looked up directly; its evaluation comes to the same.
        obtain ⟨before, after, split, _⟩ := List.lookup_eq_some_iff.mp found
        obtain ⟨parsed, listed⟩ := parseExpression_catalogued (text, category) (by simp [split])
        rw [evaluateExpression_ok parsed]
        simp only [SpdxExpr.eval, listed]
        split
        · rename_i unknown
          exact unknown
        · rfl

/-- The rank of the static category of a readable expression. -/
theorem classifyLicenseCategory_rank {tree : SpdxExpr}
    (parsed : parseExpression expression = .ok tree) :
    (classifyLicenseCategory expression).rank = tree.read .default .unknown := by
  -- Both resolvers answer unknown for what is not in the list.
  have resolver : staticDefaultFor = fun name =>
      if staticDefaultFor name = .unknown then .unknown else staticDefaultFor name := by
    funext name
    split
    · rename_i unknown
      exact unknown
    · rfl
  rw [classifyLicenseCategory_eq, evaluateExpression_ok parsed, SpdxExpr.read, ← resolver]
  split
  · rename_i unknown
    rw [unknown]
  · rfl

/-- An unreadable expression has no static category. -/
theorem classifyLicenseCategory_error {reason : ExpressionParseError}
    (failed : parseExpression expression = .error reason) :
    classifyLicenseCategory expression = .unknown := by
  rw [classifyLicenseCategory_eq, evaluateExpression_error failed]

/-- The rank of a readable expression under a plain policy. -/
theorem policyCategoryOf_rank (plain : policy.Plain) {tree : SpdxExpr}
    (parsed : parseExpression expression = .ok tree) :
    (policyCategoryOf policy expression componentPurl now).rank =
      tree.read .default policy.unknownLicenseCategory.toCategory := by
  have resolver : makePolicyResolver policy componentPurl now = fun name =>
      if staticDefaultFor name = .unknown then policy.unknownLicenseCategory.toCategory
      else staticDefaultFor name :=
    funext (makePolicyResolver_plain plain componentPurl now)
  have known := SpdxExpr.read_pos StrategyMap.default_get
    policy.unknownLicenseCategory.rank_pos tree
  unfold policyCategoryOf
  rw [evaluateExpression_ok parsed, resolver, combineCategories_default plain.strategy]
  split
  · -- The category of the tree is never unknown here.
    rename_i unknown
    rw [SpdxExpr.read, unknown] at known
    cases known
  · rfl

/-- The posture does not reach the static category: the expression is unreadable or without a
catalogued operand; or, on the side of the posture, its catalogued operands alone keep it where the
catalogue puts it. -/
def PostureKeeps (policy : LicensePolicy) (expression : Option String) : Prop :=
  match parseExpression expression with
  | .error _ => True
  | .ok tree =>
      classifyLicenseCategory expression = .unknown ∨
        (policy.unknownLicenseCategory.toCategory.rank ≤ (classifyLicenseCategory expression).rank ∨
          tree.atMost (classifyLicenseCategory expression).rank = true) ∧
        ((classifyLicenseCategory expression).rank ≤ policy.unknownLicenseCategory.toCategory.rank ∨
          tree.atLeast (classifyLicenseCategory expression).rank = true)

/-- A plain policy is transparent to an expression exactly when its posture does not reach the
static category. -/
theorem policy_transparent_iff (plain : policy.Plain) :
    Transparent policy expression componentPurl now ↔ PostureKeeps policy expression := by
  unfold Transparent PostureKeeps
  cases parsed : parseExpression expression with
  | error reason =>
    -- Both sides are the posture when there is no tree.
    have posture : policyCategoryOf policy expression componentPurl now =
        policy.unknownLicenseCategory.toCategory := evaluateExpression_error parsed _ _ _
    rw [posture, if_pos (classifyLicenseCategory_error parsed)]
    simp
  | ok tree =>
    have known := policy.unknownLicenseCategory.rank_pos
    have static := classifyLicenseCategory_rank parsed
    have ranked : (policyCategoryOf policy expression componentPurl now).rank = _ :=
      policyCategoryOf_rank plain parsed
    by_cases unknown : classifyLicenseCategory expression = .unknown
    · -- Without a catalogued operand the whole expression is the posture.
      have missed : tree.read .default .unknown = 0 := by rw [← static, unknown]; rfl
      have posture := (SpdxExpr.read_between StrategyMap.default_get known tree).1 missed
      rw [if_pos unknown]
      simp only [unknown, true_or, iff_true]
      exact LicenseCategory.rank_injective (ranked.trans posture)
    · -- Ranks decide categories, so the comparison of ranks is the comparison asked for.
      have catalogued : tree.read .default .unknown ≠ 0 := by
        rw [← static]
        exact fun zero => unknown (LicenseCategory.rank_eq_zero.mp zero)
      rw [if_neg unknown]
      simp only [unknown, false_or]
      rw [static, ← SpdxExpr.read_eq_static_iff StrategyMap.default_get known catalogued, ← ranked,
        ← static]
      exact ⟨fun same => congrArg LicenseCategory.rank same, LicenseCategory.rank_injective⟩

/-- A policy with nothing but a posture. -/
def postureOnly (posture : PolicyCategory) : LicensePolicy where
  organizationId := 1
  teamId := some 1
  name := none
  categoryOverrides := .empty
  licenseExceptions := []
  maliciousExceptions := []
  unknownLicenseCategory := posture
  compoundOperatorStrategy := .default
  enabled := true
  updatedAt := 0

/-- Such a policy is plain. -/
theorem postureOnly_plain (posture : PolicyCategory) : (postureOnly posture).Plain :=
  ⟨rfl, rfl, rfl, StrategyMap.default_get⟩

/-- An alternative the catalogue does not know leaves an allowed licence allowed. -/
theorem policy_transparent_iff_alternative :
    Transparent (postureOnly .conditional) (some "MIT OR Foo-1.0") none 0 := by
  refine (policy_transparent_iff (postureOnly_plain .conditional)).mpr ?_
  have parsed : parseExpression (some "MIT OR Foo-1.0") =
      .ok (.node .OR (.id "MIT") (.id "Foo-1.0")) := by decide +kernel
  unfold PostureKeeps
  rw [parsed]
  dsimp only
  decide +kernel

/-- Under the default posture an exception the catalogue does not know makes an allowed licence
conditional, and such an alternative makes a forbidden one conditional. -/
theorem policy_not_transparent :
    ¬Transparent (postureOnly .conditional) (some "Apache-2.0 WITH LLVM-exception") none 0 ∧
      ¬Transparent (postureOnly .conditional) (some "GPL-3.0-only OR Foo-1.0") none 0 := by
  unfold Transparent
  decide +kernel

end Evaluation

end Trusca
