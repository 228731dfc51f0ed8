import Mathlib.Logic.Relation
import Trusca.Data.Chain
import Trusca.License.ExpressionTexts
import Trusca.Proofs.License.Grammar
import Trusca.Proofs.License.Transparency

/-! The category of a licence expression survives a rearrangement of its operands, parentheses and
blanks, and never falls when the category of an operand rises. -/

namespace Trusca

section Rewriting

/-- Two sentences of a level of the grammar that differ in the order and the grouping of the operands of
an operator, or in parentheses around what is a sentence already. -/
inductive Rearranged : Option SpdxOperator → List SpdxToken → List SpdxToken → Prop where
  | same {level : Option SpdxOperator} {tokens : List SpdxToken} {tree : SpdxExpr} {depth : Nat}
      (derived : Derives level tokens tree depth) : Rearranged level tokens tokens
  | back {level : Option SpdxOperator} {first second : List SpdxToken}
      (forth : Rearranged level first second) : Rearranged level second first
  | further {level : Option SpdxOperator} {first second third : List SpdxToken}
      (one : Rearranged level first second) (two : Rearranged level second third) :
      Rearranged level first third
  | operand {op : SpdxOperator} {first second : List SpdxToken}
      (single : Rearranged (operandLevel op) first second) : Rearranged (some op) first second
  | joined {op : SpdxOperator} {left right left' right' : List SpdxToken}
      (before : Rearranged (some op) left left') (after : Rearranged (operandLevel op) right right') :
      Rearranged (some op) (left ++ SpdxToken.operator op :: right) (left' ++
        SpdxToken.operator op :: right')
  | paren {first second : List SpdxToken} (inner : Rearranged (some .OR) first second) :
      Rearranged none (.lparen :: (first ++ [SpdxToken.rparen])) (.lparen :: (second ++
        [SpdxToken.rparen]))
  | enclosed {level : Option SpdxOperator} {tokens : List SpdxToken} {tree : SpdxExpr} {depth : Nat}
      (derived : Derives level tokens tree depth) :
      Rearranged level tokens (.lparen :: (tokens ++ [SpdxToken.rparen]))
  | associated {op : SpdxOperator} {left right : List SpdxToken} {first second : SpdxExpr}
      {high low : Nat} (before : Derives (some op) left first high)
      (after : Derives (some op) right second low) :
      Rearranged (some op) (left ++ SpdxToken.operator op :: right)
        (left ++ SpdxToken.operator op :: .lparen :: (right ++ [SpdxToken.rparen]))
  | permuted {op : SpdxOperator} {operands operands' : List (List SpdxToken)} (nonempty : operands ≠ [])
      (each : ∀ operand ∈ operands, ∃ tree depth, Derives (operandLevel op) operand tree depth)
      (order : operands.Perm operands') :
      Rearranged (some op) ([SpdxToken.operator op].intercalate operands)
        ([SpdxToken.operator op].intercalate operands')

/-- One step of rewriting a text: a blank more between its tokens, or a rearrangement of them. -/
inductive Respells : String → String → Prop where
  | blankBefore {before after : List Char} (edge : ∀ character ∈ after.head?, endsWord character = true) :
      Respells (String.ofList (before ++ after)) (String.ofList (before ++ ' ' :: after))
  | blankAfter {before after : List Char} (edge : ∀ character ∈ before.getLast?, endsWord character = true) :
      Respells (String.ofList (before ++ after)) (String.ofList (before ++ ' ' :: after))
  | rearranged {first second : String}
      (related : Rearranged (some .OR) (tokensOf first) (tokensOf second)) : Respells first second

/-- How deep parentheses nest, where some are open already. -/
def nestingFrom (level : Nat) : List SpdxToken → Nat
  | [] => level
  | token :: rest => max level (nestingFrom (token.levelAfter level) rest)

/-- A text that the reader takes up: not blank, and within the bounds. -/
structure Admitted (text : String) : Prop where
  visible : strip text ≠ ""
  short : text.length ≤ maxExpressionLength
  plain : ∀ character ∈ text.toList, isControlChar character = false
  few : (tokensOf text).length ≤ maxTokenCount
  shallow : nestingFrom 0 (tokensOf text) < maxNestingDepth

end Rewriting

section Sentences

variable {level : Option SpdxOperator} {tokens : List SpdxToken} {tree : SpdxExpr} {depth : Nat}

/-- What stands at some level is an expression. -/
theorem Derives.expression (derived : Derives level tokens tree depth) :
    Derives (some .OR) tokens tree depth := by
  have atAnd (alone : Derives (some .WITH) tokens tree depth) : Derives (some .AND) tokens tree depth :=
    .operand alone
  -- Each level is an operand of the one above it, up to OR.
  cases level with
  | none => exact .operand (atAnd (.operand derived))
  | some op =>
    cases op with
    | OR => exact derived
    | AND => exact .operand derived
    | WITH => exact .operand (atAnd derived)

/-- A primary stands at every level. -/
theorem Derives.anywhere (derived : Derives none tokens tree depth) (level : Option SpdxOperator) :
    Derives level tokens tree depth := by
  have withs : Derives (some .WITH) tokens tree depth := .operand derived
  have ands : Derives (some .AND) tokens tree depth := .operand withs
  -- A bare term is an operand of every level.
  cases level with
  | none => exact derived
  | some op =>
    cases op with
    | OR => exact .operand ands
    | AND => exact ands
    | WITH => exact withs

/-- The nesting of a sentence is how deep its parentheses go. -/
theorem Derives.nestingFrom_eq (derived : Derives level tokens tree depth) :
    ∀ opened rest, nestingFrom opened (tokens ++ rest) =
      max (opened + depth) (nestingFrom opened rest) := by
  -- Along the derivation: its tokens close every parenthesis they open.
  induction derived with
  | id name =>
    intro opened rest
    simp [nestingFrom, SpdxToken.levelAfter]
  -- The inner tokens stand one level deeper, and the closing one comes back.
  | @paren tokens tree depth _ ih =>
    intro opened rest
    have inner := ih (opened + 1) (.rparen :: rest)
    simp only [List.cons_append, List.append_assoc, List.nil_append, nestingFrom, SpdxToken.levelAfter,
      Nat.add_sub_cancel] at inner ⊢
    rw [inner]
    omega
  | operand _ ih => exact ih
  -- The left operand first, with the operator and the right one as what comes behind.
  | @joined op left right first second high low _ _ ihLeft ihRight =>
    intro opened rest
    have before := ihLeft opened (.operator op :: (right ++ rest))
    simp only [List.append_assoc, List.cons_append, nestingFrom, SpdxToken.levelAfter] at before ⊢
    rw [before, ihRight]
    omega

/-- A text that is taken up is read as just what its tokens derive. -/
theorem Admitted.parse_iff {text : String} (admitted : Admitted text) :
    parseExpression (some text) = .ok tree ↔ ∃ depth, Derives (some .OR) (tokensOf text) tree depth := by
  rw [parseExpression_ok]
  -- The text is admitted, so only the nesting is left, and that is what the tokens nest.
  constructor
  · intro read
    obtain ⟨-, -, -, -, depth, -, derived⟩ := read
    exact ⟨depth, derived⟩
  · intro sentence
    obtain ⟨depth, derived⟩ := sentence
    have nests := derived.nestingFrom_eq 0 []
    rw [List.append_nil] at nests
    have shallow := admitted.shallow
    exact ⟨admitted.visible, admitted.short, admitted.plain, admitted.few, depth, by omega, derived⟩

end Sentences

section Blanks

/-- A blank beside the end of a word does not change the tokens. -/
theorem tokensOf_blank {before after : List Char}
    (edge : (∀ character ∈ after.head?, endsWord character = true) ∨
      ∀ character ∈ before.getLast?, endsWord character = true) :
    tokensOf (String.ofList (before ++ ' ' :: after)) = tokensOf (String.ofList (before ++ after)) := by
  rw [tokensOf, tokensOf, String.toList_ofList, String.toList_ofList, lexFrom_mark ' ' rfl]
  -- At the edge of a word the blank reads as nothing.
  obtain behind | ahead := edge
  · cases after with
    | nil => simp [markTokens, lexFrom]
    | cons mark after =>
      have ends := behind mark rfl
      have alone := lexFrom_mark mark ends [] after []
      rw [lexFrom_mark mark ends, ← List.nil_append (mark :: after), alone]
      rfl
  · -- The word before the blank has ended, whatever its mark is.
    obtain rfl | ⟨before, mark, rfl⟩ := List.eq_nil_or_concat' before
    · rfl
    · have ends := ahead mark (by simp)
      rw [List.append_assoc, List.singleton_append, lexFrom_mark mark ends, lexFrom_mark mark ends]
      simp [markTokens, lexFrom]

end Blanks

section Values

variable {β : Type} {resolveId : String → β} {combine : β → β → SpdxOperator → β}
  {level : Option SpdxOperator} {op : SpdxOperator} {tokens left right : List SpdxToken} {value a b : β}

/-- Tokens that stand at a level of the grammar, with the value that they are folded into. -/
def Means (resolveId : String → β) (combine : β → β → SpdxOperator → β) (level : Option SpdxOperator)
    (tokens : List SpdxToken) (value : β) : Prop :=
  ∃ tree depth, Derives level tokens tree depth ∧ tree.eval resolveId combine = value

/-- Tokens have one meaning at most. -/
theorem Means.unique (one : Means resolveId combine level tokens a)
    (two : Means resolveId combine level tokens b) : a = b := by
  obtain ⟨first, _, derived, rfl⟩ := one
  obtain ⟨second, _, derived', rfl⟩ := two
  rw [derived.expression.unique derived'.expression]

/-- One operand means itself. -/
theorem Means.operand (single : Means resolveId combine (operandLevel op) tokens value) :
    Means resolveId combine (some op) tokens value := by
  obtain ⟨tree, depth, derived, folded⟩ := single
  exact ⟨tree, depth, .operand derived, folded⟩

/-- A single operand is a row. -/
theorem Means.alone (single : Means resolveId combine (operandLevel op) tokens value) :
    Means resolveId combine (some op) ([.operator op].intercalate [tokens]) value := by
  rw [List.intercalate_singleton]
  exact single.operand

/-- Two operands with the operator between them mean the two combined. -/
theorem Means.joined (before : Means resolveId combine (some op) left a)
    (after : Means resolveId combine (operandLevel op) right b) :
    Means resolveId combine (some op) (left ++ .operator op :: right) (combine a b op) := by
  obtain ⟨first, _, derived, rfl⟩ := before
  obtain ⟨second, _, derived', rfl⟩ := after
  exact ⟨_, _, .joined derived derived', rfl⟩

/-- What stands in parentheses stands at every level, with its value. -/
theorem Means.enclosed (inner : Means resolveId combine level tokens value)
    (outer : Option SpdxOperator) :
    Means resolveId combine outer (.lparen :: (tokens ++ [SpdxToken.rparen])) value := by
  obtain ⟨tree, depth, derived, folded⟩ := inner
  exact ⟨tree, depth + 1, derived.expression.paren.anywhere outer, folded⟩

variable (assoc : ∀ op a b c, combine (combine a b op) c op = combine a (combine b c op) op)

include assoc

/-- Two rows of operands with their operator between them have the combined value. -/
theorem Means.chained (before : Means resolveId combine (some op) left a)
    (after : Means resolveId combine (some op) right b) :
    Means resolveId combine (some op) (left ++ SpdxToken.operator op :: right) (combine a b op) := by
  obtain ⟨first, _, derived, rfl⟩ := before
  obtain ⟨second, _, derived', rfl⟩ := after
  obtain ⟨tree, whole, folds⟩ := derived.chained derived'
  exact ⟨tree, _, whole, folds resolveId combine (assoc op)⟩

/-- A row of operands has a value, which is that of the first and of the others combined. -/
theorem means_cons {operand : List SpdxToken} {operands : List (List SpdxToken)}
    (nonempty : operands ≠ []) (here : Means resolveId combine (operandLevel op) operand a)
    (later : Means resolveId combine (some op) ([.operator op].intercalate operands) b) :
    Means resolveId combine (some op) ([.operator op].intercalate (operand :: operands))
      (combine a b op) := by
  rw [List.intercalate_cons_of_ne_nil nonempty, List.append_assoc, List.singleton_append]
  exact Means.chained assoc here.operand later

/-- A row of operands has a value. -/
theorem means_row {operands : List (List SpdxToken)} (nonempty : operands ≠ [])
    (each : ∀ operand ∈ operands, ∃ value, Means resolveId combine (operandLevel op) operand value) :
    ∃ value, Means resolveId combine (some op) ([.operator op].intercalate operands) value := by
  induction operands with
  | nil => exact absurd rfl nonempty
  | cons operand rest ih =>
    -- One operand alone means itself, and one in front is combined with the rest.
    obtain ⟨⟨a, here⟩, later⟩ := List.forall_mem_cons.mp each
    by_cases last : rest = []
    · subst last
      exact ⟨a, here.alone⟩
    · obtain ⟨b, others⟩ := ih last later
      exact ⟨combine a b op, means_cons assoc last here others⟩

variable (comm : ∀ op a b, combine a b op = combine b a op)

include comm

/-- The order of the operands of an operator does not matter. -/
theorem means_permuted {operands operands' : List (List SpdxToken)} (order : operands.Perm operands')
    (nonempty : operands ≠ [])
    (each : ∀ operand ∈ operands, ∃ value, Means resolveId combine (operandLevel op) operand value) :
    ∃ value, Means resolveId combine (some op) ([.operator op].intercalate operands) value ∧
      Means resolveId combine (some op) ([.operator op].intercalate operands') value := by
  induction order with
  | nil => exact absurd rfl nonempty
  -- A head that stays: it is joined to whatever the rest means.
  | @cons operand rest rest' order ih =>
    obtain ⟨⟨a, here⟩, later⟩ := List.forall_mem_cons.mp each
    by_cases last : rest = []
    · subst last
      rw [List.nil_perm.mp order]
      exact ⟨a, here.alone, here.alone⟩
    · obtain ⟨b, one, two⟩ := ih last later
      have more : rest' ≠ [] := fun none => last (List.perm_nil.mp (none ▸ order))
      exact ⟨combine a b op, means_cons assoc last here one, means_cons assoc more here two⟩
  | swap operand next rest =>
    obtain ⟨⟨a, here⟩, later⟩ := List.forall_mem_cons.mp each
    obtain ⟨⟨b, there⟩, others⟩ := List.forall_mem_cons.mp later
    by_cases last : rest = []
    · subst last
      have one := means_cons assoc (List.cons_ne_nil _ _) here there.alone
      have two := means_cons assoc (List.cons_ne_nil _ _) there here.alone
      rw [comm] at two
      exact ⟨_, one, two⟩
    · -- With operands behind them, both orders join the pair to the same row.
      obtain ⟨c, row⟩ := means_row assoc last others
      have one := means_cons assoc (List.cons_ne_nil _ _) here (means_cons assoc last there row)
      have two := means_cons assoc (List.cons_ne_nil _ _) there (means_cons assoc last here row)
      -- The first two operands change places past each other.
      rw [← assoc, comm op b a, assoc] at two
      exact ⟨_, one, two⟩
  -- Two permutations in a row mean the same by uniqueness.
  | trans one two ihOne ihTwo =>
    obtain ⟨a, first, second⟩ := ihOne nonempty each
    have nonempty' : _ ≠ [] := fun none => nonempty (List.perm_nil.mp (none ▸ one))
    obtain ⟨b, second', third⟩ := ihTwo nonempty' fun operand member => each operand (one.mem_iff.mpr member)
    obtain rfl := second.unique second'
    exact ⟨a, first, third⟩

/-- Rearranged sentences have the same value. -/
theorem Rearranged.means {first second : List SpdxToken} (related : Rearranged level first second) :
    ∃ value, Means resolveId combine level first value ∧ Means resolveId combine level second value := by
  -- Along the rearrangement: each step keeps one value, which is unique.
  induction related with
  | same derived => exact ⟨_, ⟨_, _, derived, rfl⟩, ⟨_, _, derived, rfl⟩⟩
  | back _ ih =>
    obtain ⟨value, one, two⟩ := ih
    exact ⟨value, two, one⟩
  | further _ _ ih ih' =>
    obtain ⟨value, one, two⟩ := ih
    obtain ⟨value', two', three⟩ := ih'
    obtain rfl := two.unique two'
    exact ⟨value, one, three⟩
  | operand _ ih =>
    obtain ⟨value, one, two⟩ := ih
    exact ⟨value, one.operand, two.operand⟩
  | joined _ _ ih ih' =>
    obtain ⟨a, one, two⟩ := ih
    obtain ⟨b, one', two'⟩ := ih'
    exact ⟨_, one.joined one', two.joined two'⟩
  | paren _ ih =>
    obtain ⟨value, one, two⟩ := ih
    exact ⟨value, one.enclosed none, two.enclosed none⟩
  | @enclosed level tokens tree depth derived =>
    have inner : Means resolveId combine level tokens _ := ⟨tree, depth, derived, rfl⟩
    exact ⟨_, inner, inner.enclosed level⟩
  -- Regrouping is where the combination has to be associative.
  | @associated op left right first second high low before after =>
    have one : Means resolveId combine (some op) left _ := ⟨first, high, before, rfl⟩
    have two : Means resolveId combine (some op) right _ := ⟨second, low, after, rfl⟩
    exact ⟨_, one.chained assoc two, one.joined (two.enclosed (operandLevel op))⟩
  -- Reordering the operands of one level is where it has to be commutative as well.
  | permuted nonempty each order =>
    refine means_permuted assoc comm order nonempty ?_
    intro operand member
    obtain ⟨tree, depth, derived⟩ := each operand member
    exact ⟨_, tree, depth, derived, rfl⟩

end Values

section Texts

/-- The category that a text names; any other text names an unknown one. -/
def categoryNamed (text : String) : LicenseCategory :=
  if text = "forbidden" then .forbidden
  else if text = "conditional" then .conditional
  else if text = "allowed" then .allowed
  else .unknown

/-- The strategies that a map of texts names. -/
def strategiesNamed (strategyMap : Option (Dict String)) : StrategyMap :=
  let named (op : SpdxOperator) : OperatorStrategy :=
    if strategyText strategyMap op = "least_restrictive" then .leastRestrictive else .mostRestrictive
  ⟨some (named .AND), some (named .OR), some (named .WITH)⟩

/-- The strategy of an operator is the one its text names. -/
theorem strategiesNamed_get (strategyMap : Option (Dict String)) (op : SpdxOperator) :
    (strategiesNamed strategyMap).get op =
      if strategyText strategyMap op = "least_restrictive" then .leastRestrictive
      else .mostRestrictive := by
  cases op <;> rfl

/-- The category of a licence is the one its text names. -/
theorem resolvedCategory_eq (resolveId : String → String) (token : String) :
    resolvedCategory resolveId token = (categoryNamed (resolveId token)).word := by
  unfold resolvedCategory categoryNamed
  generalize resolveId token = text
  -- The four words name their own categories; every other text reads as unknown.
  by_cases forbidden : text = "forbidden"
  · subst forbidden
    decide
  by_cases conditional : text = "conditional"
  · subst conditional
    decide
  by_cases allowed : text = "allowed"
  · subst allowed
    decide
  by_cases unknown : text = "unknown"
  · subst unknown
    decide
  · have missing : categoryRank.lookup text = none := by
      rw [List.lookup_eq_none_iff]
      simp [categoryRank, forbidden, conditional, allowed, unknown]
    simp [missing, forbidden, conditional, allowed, LicenseCategory.word]

/-- Names of categories are combined as the categories are. -/
theorem combineCategoryTexts_eq (strategyMap : Option (Dict String)) (left right : LicenseCategory)
    (op : SpdxOperator) :
    combineCategoryTexts strategyMap left.word right.word op =
      (combineCategories (strategiesNamed strategyMap) left right op).word := by
  unfold combineCategoryTexts combineCategories
  rw [strategiesNamed_get]
  by_cases relaxed : strategyText strategyMap op = "least_restrictive"
  · rw [if_pos relaxed, if_pos relaxed]
    cases left <;> cases right <;> rfl
  · rw [if_neg relaxed, if_neg relaxed]
    cases left <;> cases right <;> rfl

variable (strategyMap : Option (Dict String)) (resolveId : String → String)

/-- Evaluating over texts is evaluating over categories and naming the result. -/
theorem eval_texts (tree : SpdxExpr) :
    tree.eval (resolvedCategory resolveId) (combineCategoryTexts strategyMap) =
      (tree.eval (fun name => categoryNamed (resolveId name))
        (combineCategories (strategiesNamed strategyMap))).word := by
  induction tree with
  | id name => exact resolvedCategory_eq resolveId name
  | node op left right leftIh rightIh =>
    rw [SpdxExpr.eval, leftIh, rightIh, combineCategoryTexts_eq]
    rfl

/-- The category that is shown for a folded one: its name, or else the posture. -/
def shownCategory (unknownCategory : String) (category : LicenseCategory) : String :=
  if category = .unknown then unknownCategory else category.word

/-- An expression that parses has the category of its tree. -/
theorem evaluateExpressionText_ok {expression : Option String} {tree : SpdxExpr}
    (parsed : parseExpression expression = .ok tree) (unknownCategory : String) :
    (evaluateExpressionText expression resolveId strategyMap unknownCategory).category =
      shownCategory unknownCategory (tree.eval (fun name => categoryNamed (resolveId name))
        (combineCategories (strategiesNamed strategyMap))) := by
  unfold evaluateExpressionText shownCategory
  rw [foldExpression_eq, parsed]
  simp only [Except.map, eval_texts]
  cases tree.eval (fun name => categoryNamed (resolveId name))
    (combineCategories (strategiesNamed strategyMap)) <;> rfl

/-- An expression that does not parse has the unknown category and its reason. -/
theorem evaluateExpressionText_error {expression : Option String} {reason : ExpressionParseError}
    (failed : parseExpression expression = .error reason) (unknownCategory : String) :
    (evaluateExpressionText expression resolveId strategyMap unknownCategory).category =
      unknownCategory := by
  unfold evaluateExpressionText
  rw [foldExpression_eq, failed]
  rfl

end Texts

section Respelling

variable {β : Type} {resolveId : String → β} {combine : β → β → SpdxOperator → β}
  {first second : String} {value : β}

/-- Respelled texts have the same value, if one of them has a value at all. -/
theorem means_respelled (assoc : ∀ op a b c, combine (combine a b op) c op = combine a (combine b c op) op)
    (comm : ∀ op a b, combine a b op = combine b a op) (respelled : Relation.EqvGen Respells first second)
    (value : β) :
    Means resolveId combine (some .OR) (tokensOf first) value ↔
      Means resolveId combine (some .OR) (tokensOf second) value := by
  -- A respelling is a chain of steps, and each of them keeps what the text means.
  induction respelled with
  | rel first second step =>
    -- A blank at an edge leaves the tokens as they are.
    cases step with
    | blankBefore edge => rw [tokensOf_blank (.inl edge)]
    | blankAfter edge => rw [tokensOf_blank (.inr edge)]
    -- A rearrangement keeps the value both texts mean.
    | rearranged related =>
      obtain ⟨shared, one, two⟩ := related.means assoc comm
      constructor
      · intro means
        obtain rfl := one.unique means
        exact two
      · intro means
        obtain rfl := two.unique means
        exact one
  | refl => exact Iff.rfl
  | symm _ _ _ ih => exact ih.symm
  | trans _ _ _ _ _ one two => exact one.trans two

end Respelling

section Raising

/-- A category that is no lower than another, where only concrete categories are compared. -/
def LicenseCategory.Raised (low high : LicenseCategory) : Prop :=
  (low = .unknown ↔ high = .unknown) ∧ low.rank ≤ high.rank

/-- Two sentences of a level of the grammar that differ in operands, each of which has a raised category
in the second or the same one. The two may be resolved differently. -/
inductive Raises (before after : String → LicenseCategory) (strategies : StrategyMap) :
    Option SpdxOperator → List SpdxToken → List SpdxToken → Prop where
  | replaced {level : Option SpdxOperator} {first second : List SpdxToken} {low high : LicenseCategory}
      (one : Means before (combineCategories strategies) level first low)
      (two : Means after (combineCategories strategies) level second high) (raised : low.Raised high) :
      Raises before after strategies level first second
  | operand {op : SpdxOperator} {first second : List SpdxToken}
      (single : Raises before after strategies (operandLevel op) first second) :
      Raises before after strategies (some op) first second
  | joined {op : SpdxOperator} {left right left' right' : List SpdxToken}
      (front : Raises before after strategies (some op) left left')
      (back : Raises before after strategies (operandLevel op) right right') :
      Raises before after strategies (some op) (left ++ SpdxToken.operator op :: right)
        (left' ++ SpdxToken.operator op :: right')
  | paren {first second : List SpdxToken} (inner : Raises before after strategies (some .OR) first second) :
      Raises before after strategies none (.lparen :: (first ++ [SpdxToken.rparen]))
        (.lparen :: (second ++ [SpdxToken.rparen]))

variable {before after : String → LicenseCategory} {strategies : StrategyMap}

/-- The rank of two categories under an operator. -/
theorem rank_combineCategories (left right : LicenseCategory) (op : SpdxOperator) :
    (combineCategories strategies left right op).rank =
      if strategies.get op = .leastRestrictive then least left.rank right.rank
      else max left.rank right.rank := by
  unfold combineCategories
  cases strategies.get op <;> cases left <;> cases right <;> rfl

/-- Neither strategy lowers its result when its operands are raised. -/
theorem combineCategories_raised {left right left' right' : LicenseCategory}
    (one : left.Raised left') (two : right.Raised right') (op : SpdxOperator) :
    (combineCategories strategies left right op).Raised
      (combineCategories strategies left' right' op) := by
  unfold LicenseCategory.Raised at *
  simp only [← LicenseCategory.rank_eq_zero, rank_combineCategories] at *
  by_cases relaxed : strategies.get op = .leastRestrictive
  · simp only [relaxed, if_true, least]
    split_ifs <;> omega
  · simp only [relaxed, if_false]
    omega

/-- The category of a sentence whose operands are raised is raised. -/
theorem Raises.means {level : Option SpdxOperator} {first second : List SpdxToken}
    (raises : Raises before after strategies level first second) :
    ∃ low high, Means before (combineCategories strategies) level first low ∧
      Means after (combineCategories strategies) level second high ∧ low.Raised high := by
  -- Along the derivation: the values are raised where a leaf is, and combining is monotone.
  induction raises with
  | replaced one two raised => exact ⟨_, _, one, two, raised⟩
  | operand _ ih =>
    obtain ⟨low, high, one, two, raised⟩ := ih
    exact ⟨low, high, one.operand, two.operand, raised⟩
  | joined _ _ ih ih' =>
    obtain ⟨low, high, one, two, raised⟩ := ih
    obtain ⟨low', high', one', two', raised'⟩ := ih'
    exact ⟨_, _, one.joined one', two.joined two', combineCategories_raised raised raised' _⟩
  | paren _ ih =>
    obtain ⟨low, high, one, two, raised⟩ := ih
    exact ⟨low, high, one.enclosed none, two.enclosed none, raised⟩

/-- The category of a tree whose ids are raised is raised. -/
theorem SpdxExpr.eval_raised (raised : ∀ name, (before name).Raised (after name)) (tree : SpdxExpr) :
    (tree.eval before (combineCategories strategies)).Raised
      (tree.eval after (combineCategories strategies)) := by
  induction tree with
  | id name => exact raised name
  | node op left right leftIh rightIh => exact combineCategories_raised leftIh rightIh op

/-- Showing two categories keeps them in order. -/
theorem categoryRankOf_shown {low high : LicenseCategory} (raised : low.Raised high)
    (unknownCategory : String) :
    categoryRankOf (shownCategory unknownCategory low) ≤
      categoryRankOf (shownCategory unknownCategory high) := by
  have named (category : LicenseCategory) : categoryRankOf category.word = category.rank := by
    cases category <;> rfl
  unfold shownCategory
  by_cases unknown : low = .unknown
  · rw [if_pos unknown, if_pos (raised.1.mp unknown)]
  · rw [if_neg unknown, if_neg fun other => unknown (raised.1.mpr other), named, named]
    exact raised.2

end Raising

section Stability

variable {strategyMap : Option (Dict String)} {unknownCategory : String}

/-- A text that is taken up and has a value is evaluated to it. -/
theorem Admitted.evaluate {text : String} (admitted : Admitted text) {resolveId : String → String}
    {category : LicenseCategory}
    (means : Means (fun name => categoryNamed (resolveId name))
      (combineCategories (strategiesNamed strategyMap)) (some .OR) (tokensOf text) category) :
    (evaluateExpressionText (some text) resolveId strategyMap unknownCategory).category =
      shownCategory unknownCategory category := by
  obtain ⟨tree, depth, derived, rfl⟩ := means
  exact evaluateExpressionText_ok strategyMap resolveId (admitted.parse_iff.mpr ⟨depth, derived⟩) _

/-- Respelled texts are evaluated to the same category. -/
theorem evaluate_respelled {first second : String} (resolveId : String → String)
    (respelled : Relation.EqvGen Respells first second) (one : Admitted first) (two : Admitted second) :
    (evaluateExpressionText (some first) resolveId strategyMap unknownCategory).category =
      (evaluateExpressionText (some second) resolveId strategyMap unknownCategory).category := by
  have means := @means_respelled _ (fun name => categoryNamed (resolveId name))
    (combineCategories (strategiesNamed strategyMap)) _ _
    (fun op a b c => combineCategories_assoc _ a b c op) (fun op a b => combineCategories_comm _ a b op)
    respelled
  cases parsed : parseExpression (some first) with
  | ok tree =>
    obtain ⟨depth, derived⟩ := one.parse_iff.mp parsed
    have value := (means _).mp ⟨tree, depth, derived, rfl⟩
    rw [evaluateExpressionText_ok _ _ parsed, two.evaluate value]
  | error reason =>
    cases parsed' : parseExpression (some second) with
    | error reason' => rw [evaluateExpressionText_error _ _ parsed, evaluateExpressionText_error _ _ parsed']
    | ok tree =>
      -- The first text would have a value too, and would be read.
      obtain ⟨depth, derived⟩ := two.parse_iff.mp parsed'
      obtain ⟨tree', depth', derived', -⟩ := (means _).mpr ⟨tree, depth, derived, rfl⟩
      rw [one.parse_iff.mpr ⟨depth', derived'⟩] at parsed
      cases parsed

/-- The category is one of the four, if the posture is. -/
theorem evaluate_mem (expression : Option String) (resolveId : String → String)
    (valid : unknownCategory ∈ categoryRank.map Prod.fst) :
    (evaluateExpressionText expression resolveId strategyMap unknownCategory).category ∈
      categoryRank.map Prod.fst := by
  -- A text that does not read shows the given word, a tree its category or again that word.
  cases parsed : parseExpression expression with
  | error reason =>
    rw [evaluateExpressionText_error _ _ parsed]
    exact valid
  | ok tree =>
    rw [evaluateExpressionText_ok _ _ parsed, shownCategory]
    split_ifs with unknown
    · exact valid
    · cases tree.eval (fun name => categoryNamed (resolveId name))
        (combineCategories (strategiesNamed strategyMap)) <;> decide

/-- Rearranging an expression within the bounds keeps its category, which is one of the four, and raising
operands does not lower it, whether they are replaced in the text or resolved differently. -/
theorem evaluateExpressionText_stable (strategyMap : Option (Dict String)) (unknownCategory : String) :
    (∀ resolveId first second, Relation.EqvGen Respells first second → Admitted first → Admitted second →
      (evaluateExpressionText (some first) resolveId strategyMap unknownCategory).category =
        (evaluateExpressionText (some second) resolveId strategyMap unknownCategory).category) ∧
    (∀ resolveId expression, unknownCategory ∈ categoryRank.map Prod.fst →
      (evaluateExpressionText expression resolveId strategyMap unknownCategory).category ∈
        categoryRank.map Prod.fst) ∧
    (∀ before after first second,
      Raises (fun name => categoryNamed (before name)) (fun name => categoryNamed (after name))
        (strategiesNamed strategyMap) (some .OR) (tokensOf first) (tokensOf second) →
      Admitted first → Admitted second →
      categoryRankOf (evaluateExpressionText (some first) before strategyMap unknownCategory).category ≤
        categoryRankOf (evaluateExpressionText (some second) after strategyMap unknownCategory).category) ∧
    ∀ before after expression,
      (∀ name, (categoryNamed (before name)).Raised (categoryNamed (after name))) →
      categoryRankOf (evaluateExpressionText expression before strategyMap unknownCategory).category ≤
        categoryRankOf (evaluateExpressionText expression after strategyMap unknownCategory).category := by
  refine ⟨?_, ?_, ?_, ?_⟩
  · -- Respelled texts mean one value, so they show one category.
    intro resolveId first second respelled one two
    exact evaluate_respelled resolveId respelled one two
  · intro resolveId expression valid
    exact evaluate_mem expression resolveId valid
  · -- Raised leaves under one derivation: the fold is monotone.
    intro before after first second raises one two
    obtain ⟨low, high, below, above, raised⟩ := raises.means
    rw [one.evaluate below, two.evaluate above]
    exact categoryRankOf_shown raised unknownCategory
  · -- The same text under two resolvers: it reads, or it fails, for both.
    intro before after expression raised
    cases parsed : parseExpression expression with
    | error reason =>
      rw [evaluateExpressionText_error _ _ parsed, evaluateExpressionText_error _ _ parsed]
    | ok tree =>
      rw [evaluateExpressionText_ok _ _ parsed, evaluateExpressionText_ok _ _ parsed]
      exact categoryRankOf_shown (tree.eval_raised raised) unknownCategory

end Stability

/-- A resolver that knows two licences. -/
def twoKnown (name : String) : String :=
  if name = "MIT" then "allowed" else if name = "GPL-2.0-only" then "forbidden" else "unknown"

/-- A text that is visible, short and plain is admitted with the tokens it lexes to. -/
theorem admitted_of {text : String} {tokens : List SpdxToken} (lexed : tokensOf text = tokens)
    (visible : strip text ≠ "") (short : text.length ≤ maxExpressionLength)
    (plain : ∀ character ∈ text.toList, isControlChar character = false)
    (few : tokens.length ≤ maxTokenCount) (shallow : nestingFrom 0 tokens < maxNestingDepth) :
    Admitted text := by
  subst lexed
  exact ⟨visible, short, plain, few, shallow⟩

/-- Two licences may change places, and the category does not fall with the licence that is raised. -/
theorem evaluateExpressionText_stable_pair :
    (evaluateExpressionText (some "MIT OR ISC") twoKnown none "conditional").category =
        (evaluateExpressionText (some "ISC OR (MIT)") twoKnown none "conditional").category ∧
      (evaluateExpressionText (some "MIT OR ISC") twoKnown none "conditional").category ∈
        categoryRank.map Prod.fst ∧
      categoryRankOf (evaluateExpressionText (some "MIT OR ISC") twoKnown none "conditional").category ≤
        categoryRankOf
          (evaluateExpressionText (some "GPL-2.0-only OR ISC") twoKnown none "conditional").category := by
  obtain ⟨respelled, valid, raised, -⟩ := evaluateExpressionText_stable none "conditional"
  -- The tokens of the three texts, each of which the limits admit.
  have first : tokensOf "MIT OR ISC" = [.id "MIT", .operator .OR, .id "ISC"] := by decide
  have second : tokensOf "ISC OR (MIT)" = [.id "ISC", .operator .OR, .lparen, .id "MIT", .rparen] := by
    decide
  have third : tokensOf "GPL-2.0-only OR ISC" = [.id "GPL-2.0-only", .operator .OR, .id "ISC"] := by decide
  have one : Admitted "MIT OR ISC" := admitted_of first (by decide) (by decide) (by decide) (by decide)
    (by decide)
  have two : Admitted "ISC OR (MIT)" := admitted_of second (by decide) (by decide) (by decide) (by decide)
    (by decide)
  have three : Admitted "GPL-2.0-only OR ISC" := admitted_of third (by decide) (by decide) (by decide)
    (by decide) (by decide)
  -- A single name derives at every level.
  have single (name : String) : Derives (some .AND) [.id name] (.id name) 0 := (Derives.id name).anywhere _
  refine ⟨respelled twoKnown _ _ (.rel _ _ (.rearranged ?_)) one two,
    valid twoKnown (some "MIT OR ISC") (by decide), raised twoKnown twoKnown _ _ ?_ one three⟩
  · -- MIT and ISC change places, and MIT takes the parentheses.
    rw [first, second]
    have order : Rearranged (some .OR) [.id "MIT", .operator .OR, .id "ISC"]
        [.id "ISC", .operator .OR, .id "MIT"] :=
      @Rearranged.permuted .OR [[.id "MIT"], [.id "ISC"]] _ (by simp)
        (by simpa using ⟨⟨_, _, single "MIT"⟩, ⟨_, _, single "ISC"⟩⟩) (.swap _ _ [])
    exact order.further (@Rearranged.joined .OR [.id "ISC"] _ _ _
      (.operand (.same (single "ISC"))) (.enclosed (single "MIT")))
  · -- MIT is replaced by a licence of a worse category.
    rw [first, third]
    have known (name : String) : Means (fun name => categoryNamed (twoKnown name))
        (combineCategories (strategiesNamed none)) (some .AND) [.id name] (categoryNamed (twoKnown name)) :=
      ⟨_, _, single name, rfl⟩
    refine @Raises.joined _ _ _ .OR [.id "MIT"] _ [.id "GPL-2.0-only"] _ (.operand ?_) ?_
    · exact .replaced (known "MIT") (known "GPL-2.0-only") ⟨by decide, by decide⟩
    · exact .replaced (known "ISC") (known "ISC") ⟨Iff.rfl, Nat.le_refl _⟩

end Trusca
