import Trusca.License.Expression

/-! The fold of a licence expression is the evaluation of its tree, and its loops never stop
early. -/

namespace Trusca

/-- The tree of a licence expression. -/
inductive SpdxExpr where
  | id (name : String)
  | node (op : SpdxOperator) (left right : SpdxExpr)
  deriving Repr, DecidableEq

/-- The value of a tree. -/
def SpdxExpr.eval {β : Type} (resolveId : String → β) (combine : β → β → SpdxOperator → β) :
    SpdxExpr → β
  | .id name => resolveId name
  | .node op left right =>
      combine (left.eval resolveId combine) (right.eval resolveId combine) op

/-- The tree of an expression, as the parser itself builds it. -/
def parseExpression (expression : Option String) : Except ExpressionParseError SpdxExpr :=
  foldExpression SpdxExpr.id (fun left right op => .node op left right) expression

section Fold

variable {β γ : Type} {resolveId : String → β} {combine : β → β → SpdxOperator → β}
  {resolveId' : String → γ} {combine' : γ → γ → SpdxOperator → γ} {translate : β → γ}

/-- One parser reads what the other reads, up to a translation of the values. -/
def Translates (translate : β → γ) (first : ExpressionParser β) (second : ExpressionParser γ) :
    Prop :=
  ∀ tokens, second tokens = (first tokens).map (Prod.map translate fun rest => rest)

/-- The loop over operands translates. -/
theorem Translates.operandsLoop {first : ExpressionParser β} {second : ExpressionParser γ}
    (operand : Translates translate first second) (op : SpdxOperator)
    (combines : ∀ left right,
      translate (combine left right op) = combine' (translate left) (translate right) op)
    (fuel : Nat) (value : β) : Translates translate (operandsLoop combine first op fuel value)
      (operandsLoop combine' second op fuel (translate value)) := by
  -- Each round combines the value so far with one more operand.
  induction fuel generalizing value with
  | zero => exact fun tokens => rfl
  | succ fuel ih =>
    intro tokens
    unfold Trusca.operandsLoop
    cases tokens with
    | nil => rfl
    | cons token rest =>
      cases token with
      | lparen => rfl
      | rparen => rfl
      | id name => rfl
      | operator found =>
        by_cases same : found = op
        · -- Both loops read one operand and go on with related values.
          simp only [same, if_true, operand rest]
          cases first rest with
          | error reason => rfl
          | ok result =>
            obtain ⟨right, rest⟩ := result
            have later := ih (combine value right op) rest
            rw [combines] at later
            exact later
        · simp only [same, if_false]
          rfl

/-- Operands joined by an operator translate. -/
theorem Translates.operands {first : ExpressionParser β} {second : ExpressionParser γ}
    (operand : Translates translate first second) (op : SpdxOperator)
    (combines : ∀ left right,
      translate (combine left right op) = combine' (translate left) (translate right) op) :
    Translates translate (operands combine first op) (operands combine' second op) := by
  intro tokens
  unfold Trusca.operands
  rw [operand tokens]
  -- The first operand is read by both alike, and the loop goes on from there.
  cases first tokens with
  | error reason => rfl
  | ok result =>
    obtain ⟨value, rest⟩ := result
    exact operand.operandsLoop op combines rest.length value rest

/-- A primary translates when its parenthesised expression does. -/
theorem Translates.primary {first : ExpressionParser β} {second : ExpressionParser γ}
    (inner : Translates translate first second)
    (resolves : ∀ name, translate (resolveId name) = resolveId' name) :
    Translates translate (primary resolveId first) (primary resolveId' second) := by
  intro tokens
  cases tokens with
  | nil => rfl
  | cons token rest =>
    cases token with
    | rparen => rfl
    | operator op => rfl
    | id name =>
      simp only [Trusca.primary, ← resolves]
      rfl
    | lparen =>
      -- What follows the inner expression decides alike on both sides.
      simp only [Trusca.primary, inner rest]
      cases first rest with
      | error reason => rfl
      | ok result =>
        obtain ⟨value, rest⟩ := result
        cases rest with
        | nil => rfl
        | cons token rest => cases token <;> rfl

/-- The whole grammar translates, level by level. -/
theorem Translates.orExpr (resolves : ∀ name, translate (resolveId name) = resolveId' name)
    (combines : ∀ left right op,
      translate (combine left right op) = combine' (translate left) (translate right) op)
    (levels : Nat) :
    Translates translate (orExpr resolveId combine levels) (orExpr resolveId' combine' levels) := by
  induction levels with
  | zero => exact fun tokens => rfl
  | succ levels ih =>
    -- Inside parentheses the whole grammar applies again, one level further down.
    have withs := (ih.primary resolves).operands .WITH fun left right => combines left right .WITH
    have ands := withs.operands .AND fun left right => combines left right .AND
    exact ands.operands .OR fun left right => combines left right .OR

/-- The fold of an expression is the evaluation of its tree. -/
theorem foldExpression_eq (resolveId : String → γ) (combine : γ → γ → SpdxOperator → γ)
    (expression : Option String) :
    foldExpression resolveId combine expression =
      (parseExpression expression).map (SpdxExpr.eval resolveId combine) := by
  -- The grammar is one, whatever its leaves and nodes build.
  have grammar : Translates (SpdxExpr.eval resolveId combine)
      (orExpr SpdxExpr.id (fun left right op => .node op left right) maxNestingDepth)
      (orExpr resolveId combine maxNestingDepth) :=
    .orExpr (fun _ => rfl) (fun _ _ _ => rfl) maxNestingDepth
  unfold parseExpression foldExpression
  cases expression with
  | none => rfl
  | some text =>
    -- The checks before parsing are the same on both sides.
    simp only [throw, throwThe, MonadExceptOf.throw, Bind.bind, Except.bind]
    split
    · rfl
    · split
      · rfl
      · cases tokenize text with
        | error reason => rfl
        | ok tokens =>
          dsimp only
          split
          · rfl
          · -- Both parsers see the same tokens.
            unfold parseTokens
            rw [grammar tokens]
            -- So is the check that nothing is left over.
            cases orExpr SpdxExpr.id (fun left right op => .node op left right) maxNestingDepth
                tokens with
            | error reason => rfl
            | ok result =>
              obtain ⟨value, rest⟩ := result
              cases rest <;> rfl

end Fold

section Fuel

variable {β : Type} {combine : β → β → SpdxOperator → β} {operand : ExpressionParser β}
  {op : SpdxOperator}

/-- A parser that leaves no more tokens than it was given. -/
def Shrinks (parser : ExpressionParser β) : Prop :=
  ∀ tokens value rest, parser tokens = .ok (value, rest) → rest.length ≤ tokens.length

/-- A round of the loop starts with its operator and reads one operand; otherwise the loop is
over. -/
theorem operandsLoop_cases {fuel : Nat} {value last : β} {tokens rest : List SpdxToken}
    (looped : operandsLoop combine operand op (fuel + 1) value tokens = .ok (last, rest)) :
    (∃ more right after, tokens = .operator op :: more ∧ operand more = .ok (right, after) ∧
      operandsLoop combine operand op fuel (combine value right op) after = .ok (last, rest)) ∨
      last = value ∧ rest = tokens ∧ ∀ more, tokens ≠ .operator op :: more := by
  unfold operandsLoop at looped
  -- Whatever is not the loop's own operator ends it and stays unread.
  cases tokens with
  | nil => cases looped; exact .inr ⟨rfl, rfl, by simp⟩
  | cons token more =>
    cases token with
    | lparen => cases looped; exact .inr ⟨rfl, rfl, by simp⟩
    | rparen => cases looped; exact .inr ⟨rfl, rfl, by simp⟩
    | id name => cases looped; exact .inr ⟨rfl, rfl, by simp⟩
    | operator found =>
      by_cases same : found = op
      · subst same
        simp only [if_true, Bind.bind, Except.bind] at looped
        cases read : operand more with
        | error reason => simp [read] at looped
        | ok result =>
          obtain ⟨right, after⟩ := result
          simp only [read] at looped
          exact .inl ⟨more, right, after, rfl, read, looped⟩
      · simp only [same, if_false] at looped
        cases looped
        exact .inr ⟨rfl, rfl, by simp [same]⟩

/-- The loop only consumes tokens. -/
theorem Shrinks.operandsLoop (shrinks : Shrinks operand) (fuel : Nat) (value : β) :
    Shrinks (operandsLoop combine operand op fuel value) := by
  induction fuel generalizing value with
  | zero =>
    intro tokens last rest looped
    cases looped
    exact Nat.le_refl _
  | succ fuel ih =>
    intro tokens last rest looped
    rcases operandsLoop_cases looped with ⟨more, right, after, rfl, read, later⟩ | ⟨_, rfl, _⟩
    · -- A round drops the operator and whatever its operand consumed.
      have shorter := shrinks more right after read
      have rest := ih _ after last rest later
      rw [List.length_cons]
      omega
    · exact Nat.le_refl _

/-- Operands joined by an operator only consume tokens. -/
theorem Shrinks.operands (shrinks : Shrinks operand) : Shrinks (operands combine operand op) := by
  intro tokens last rest parsed
  unfold Trusca.operands at parsed
  -- The first operand takes a token, and the loop behind it takes none back.
  cases read : operand tokens with
  | error reason => simp [read, Bind.bind, Except.bind] at parsed
  | ok result =>
    obtain ⟨value, after⟩ := result
    simp only [read, Bind.bind, Except.bind] at parsed
    have first := shrinks tokens value after read
    have later := shrinks.operandsLoop after.length value after last rest parsed
    omega

/-- A primary only consumes tokens. -/
theorem Shrinks.primary {resolveId : String → β} {inner : ExpressionParser β}
    (shrinks : Shrinks inner) : Shrinks (primary resolveId inner) := by
  intro tokens last rest parsed
  cases tokens with
  | nil => cases parsed
  | cons token more =>
    cases token with
    | rparen => cases parsed
    | operator op => cases parsed
    -- A name takes its own token.
    | id name =>
      cases parsed
      simp
    | lparen =>
      simp only [Trusca.primary, Bind.bind, Except.bind] at parsed
      cases read : inner more with
      | error reason => simp [read] at parsed
      | ok result =>
        obtain ⟨value, after⟩ := result
        simp only [read] at parsed
        -- What the inner expression took is gone as well.
        have shorter := shrinks more value after read
        cases after with
        | nil => cases parsed
        | cons token after =>
          cases token with
          | rparen =>
            -- Two parentheses go, and the inner expression added nothing.
            cases parsed
            simp only [List.length_cons] at shorter ⊢
            omega
          | lparen => cases parsed
          | operator op => cases parsed
          | id name => cases parsed

/-- The whole grammar only consumes tokens, so none of its loops stops early. -/
theorem Shrinks.orExpr (resolveId : String → β) (combine : β → β → SpdxOperator → β)
    (levels : Nat) : Shrinks (orExpr resolveId combine levels) := by
  induction levels with
  | zero =>
    intro tokens last rest parsed
    cases parsed
  | succ levels ih => exact ih.primary.operands.operands.operands

end Fuel

end Trusca
