import Trusca.License.Fold
import Trusca.Proofs.License.Grammar

/-! The fold of a licence expression resolves every id of its parse tree once, from left to right. -/

namespace Trusca

/-- The value of a tree whose operands are resolved with effects: the left side first, then the
right one, and then the two are combined. -/
def SpdxExpr.evalM {m : Type → Type} [Monad m] {β : Type} (resolveId : String → m β)
    (combine : β → β → SpdxOperator → m β) : SpdxExpr → m β
  | .id name => resolveId name
  | .node op left right => do
      let first ← left.evalM resolveId combine
      let second ← right.evalM resolveId combine
      combine first second op

section Effects

variable {m : Type → Type} [Monad m] [LawfulMonad m] {β : Type} {resolveId : String → m β}
  {combine : β → β → SpdxOperator → m β}

/-- Effects that end in an error of the parser. -/
def Fails {α : Type} (reason : ExpressionParseError) (fold : ExceptT ExpressionParseError m α) :
    Prop :=
  ∃ effects : m PUnit, fold = ExceptT.lift effects >>= fun _ => throw reason

/-- What a fold makes of a parse: the value of the tree, or effects and the error. -/
def Yields (resolveId : String → m β) (combine : β → β → SpdxOperator → m β)
    (parse : Except ExpressionParseError (SpdxExpr × List SpdxToken))
    (fold : ExceptT ExpressionParseError m (β × List SpdxToken)) : Prop :=
  match parse with
  | .ok (tree, rest) =>
      fold = ExceptT.lift (tree.evalM resolveId combine) >>= fun value => pure (value, rest)
  | .error reason => Fails reason fold

/-- Consecutive effects are effects. -/
theorem lift_bind {α γ : Type} (first : m α) (next : α → m γ) :
    (ExceptT.lift (first >>= next) : ExceptT ExpressionParseError m γ) =
      ExceptT.lift first >>= fun value => ExceptT.lift (next value) := by
  apply ExceptT.ext
  simp

/-- Nothing runs after an error. -/
theorem throw_bind {α γ : Type} (reason : ExpressionParseError)
    (next : α → ExceptT ExpressionParseError m γ) : throw reason >>= next = throw reason := by
  apply ExceptT.ext
  simp

/-- A failure with no effects before it. -/
theorem Fails.immediate {α : Type} (reason : ExpressionParseError) :
    Fails reason (throw reason : ExceptT ExpressionParseError m α) := by
  refine ⟨pure PUnit.unit, ?_⟩
  apply ExceptT.ext
  simp

/-- Effects before a failure belong to it. -/
theorem Fails.after {α γ : Type} {reason : ExpressionParseError}
    {fold : ExceptT ExpressionParseError m γ} (fails : Fails reason fold) (first : m α) :
    Fails reason (ExceptT.lift first >>= fun _ => fold) := by
  obtain ⟨effects, rfl⟩ := fails
  refine ⟨first >>= fun _ => effects, ?_⟩
  simp only [lift_bind, bind_assoc]

/-- What follows a failing fold is not reached. -/
theorem Fails.bind {α γ : Type} {reason : ExpressionParseError}
    {fold : ExceptT ExpressionParseError m α} (fails : Fails reason fold)
    (next : α → ExceptT ExpressionParseError m γ) :
    fold >>= next = fold >>= fun _ => throw reason := by
  obtain ⟨effects, rfl⟩ := fails
  simp only [bind_assoc, throw_bind]

/-- A fold that stops at a failing one fails. -/
theorem Fails.stop {α γ : Type} {reason : ExpressionParseError}
    {fold : ExceptT ExpressionParseError m α} (fails : Fails reason fold) :
    Fails reason (fold >>= fun _ => (throw reason : ExceptT ExpressionParseError m γ)) := by
  obtain ⟨effects, rfl⟩ := fails
  refine ⟨effects, ?_⟩
  simp only [bind_assoc, throw_bind]

/-- The loop over operands, entered with the value of the tree read so far. -/
theorem operandsLoopM_yields {operand : ExpressionParser SpdxExpr} {operandM : FoldParser m β}
    (op : SpdxOperator)
    (yields : ∀ tokens, Yields resolveId combine (operand tokens) (operandM tokens))
    (fuel : Nat) (tree : SpdxExpr) (tokens : List SpdxToken) :
    Yields resolveId combine (operandsLoop joinTrees operand op fuel tree tokens)
      (ExceptT.lift (tree.evalM resolveId combine) >>= fun value =>
        operandsLoopM combine operandM op fuel value tokens) := by
  induction fuel generalizing tree tokens with
  | zero => rfl
  | succ fuel ih =>
    unfold operandsLoop operandsLoopM
    cases tokens with
    | nil => rfl
    | cons token rest =>
      cases token with
      | lparen => rfl
      | rparen => rfl
      | id name => rfl
      | operator found =>
        by_cases same : found = op
        · simp only [same, if_true]
          have read := yields rest
          cases parsed : operand rest with
          | error reason =>
            -- The operand fails after the effects of the tree and its own.
            rw [parsed] at read
            simp only [Fails.bind read]
            exact (Fails.stop read).after _
          | ok result =>
            obtain ⟨right, after⟩ := result
            rw [parsed] at read
            -- The operand is resolved and combined, and the loop goes on with the longer tree.
            have later := ih (.node op tree right) after
            simp only [Yields] at read
            simp only [read, SpdxExpr.evalM, lift_bind, bind_assoc, pure_bind] at later ⊢
            exact later
        · simp only [same, if_false]
          rfl

/-- Operands joined by an operator. -/
theorem operandsM_yields {operand : ExpressionParser SpdxExpr} {operandM : FoldParser m β}
    (op : SpdxOperator)
    (yields : ∀ tokens, Yields resolveId combine (operand tokens) (operandM tokens))
    (tokens : List SpdxToken) :
    Yields resolveId combine (operands joinTrees operand op tokens)
      (operandsM combine operandM op tokens) := by
  unfold operands operandsM
  have read := yields tokens
  -- The first operand fails in both, or it is read and resolved in both.
  cases parsed : operand tokens with
  | error reason =>
    rw [parsed] at read
    rw [Fails.bind read]
    exact Fails.stop read
  | ok result =>
    obtain ⟨tree, rest⟩ := result
    rw [parsed] at read
    simp only [Yields] at read
    rw [read, bind_assoc]
    simp only [pure_bind]
    exact operandsLoopM_yields op yields rest.length tree rest

/-- A primary resolves its one id, or yields what its parentheses hold. -/
theorem primaryM_yields {inner : ExpressionParser SpdxExpr} {innerM : FoldParser m β}
    (yields : ∀ tokens, Yields resolveId combine (inner tokens) (innerM tokens))
    (tokens : List SpdxToken) :
    Yields resolveId combine (primary SpdxExpr.id inner tokens)
      (primaryM resolveId innerM tokens) := by
  cases tokens with
  | nil => exact Fails.immediate _
  | cons token more =>
    cases token with
    | rparen => exact Fails.immediate _
    | operator op => exact Fails.immediate _
    | id name => rfl
    | lparen =>
      simp only [primary, primaryM]
      have read := yields more
      -- The plain parser decides which of the two goes on.
      cases parsed : inner more with
      | error reason =>
        rw [parsed] at read
        rw [Fails.bind read]
        exact Fails.stop read
      | ok result =>
        -- The inner value comes first, with its effects.
        obtain ⟨tree, rest⟩ := result
        rw [parsed] at read
        simp only [Yields] at read
        rw [read, bind_assoc]
        simp only [pure_bind]
        -- What follows the inner expression decides alike on both sides.
        cases rest with
        | nil => exact (Fails.immediate _).after _
        | cons token rest =>
          cases token with
          | rparen => rfl
          | lparen => exact (Fails.immediate _).after _
          | operator op => exact (Fails.immediate _).after _
          | id name => exact (Fails.immediate _).after _

/-- The whole grammar, level by level. -/
theorem orExprM_yields (levels : Nat) (tokens : List SpdxToken) :
    Yields resolveId combine (treeParser levels tokens) (orExprM resolveId combine levels tokens) := by
  induction levels generalizing tokens with
  | zero => exact Fails.immediate _
  | succ levels ih =>
    exact operandsM_yields .OR (operandsM_yields .AND (operandsM_yields .WITH (primaryM_yields ih)))
      tokens

/-- All tokens must be read. -/
theorem parseTokensM_yields (tokens : List SpdxToken) :
    match parseTokens SpdxExpr.id joinTrees tokens with
    | .ok tree => parseTokensM resolveId combine tokens =
        ExceptT.lift (tree.evalM resolveId combine)
    | .error reason => Fails reason (parseTokensM resolveId combine tokens) := by
  rw [parseTokens_eq]
  unfold parseTokensM
  have read : Yields resolveId combine (treeParser maxNestingDepth tokens)
      (orExprM resolveId combine maxNestingDepth tokens) := orExprM_yields maxNestingDepth tokens
  cases parsed : treeParser maxNestingDepth tokens with
  | error reason =>
    rw [parsed] at read
    rw [Fails.bind read]
    exact Fails.stop read
  | ok result =>
    obtain ⟨tree, rest⟩ := result
    rw [parsed] at read
    simp only [Yields] at read
    rw [read, bind_assoc]
    cases rest with
    | nil => simp
    | cons token rest =>
      -- Tokens are left over, so the value that was folded is thrown away.
      simp only [pure_bind, List.isEmpty_cons, Bool.not_false, if_true, throw_bind]
      exact (Fails.immediate _).after _

/-- The fold of an expression has the effects and the value of its tree, or fails with the error of
the parser. -/
theorem foldExpressionM_yields (resolveId : String → m β) (combine : β → β → SpdxOperator → m β)
    {expression : Option String} {outcome : Except ExpressionParseError SpdxExpr} :
    parseExpression expression = outcome →
    match outcome with
    | .ok tree => foldExpressionM resolveId combine expression =
        ExceptT.lift (tree.evalM resolveId combine)
    | .error reason => Fails reason (foldExpressionM resolveId combine expression) := by
  intro parsed
  unfold parseExpression foldExpression at parsed
  unfold foldExpressionM
  -- The guards of the two folds, side by side: each failure leaves before any leaf is read.
  cases expression with
  | none =>
    cases parsed
    exact Fails.immediate _
  | some text =>
    simp only [throw, throwThe, MonadExceptOf.throw, Bind.bind, Except.bind] at parsed ⊢
    by_cases blank : strip text = ""
    · simp only [blank, if_true] at parsed ⊢
      cases parsed
      exact Fails.immediate _
    · by_cases long : maxExpressionLength < text.length
      · simp only [blank, long, if_true, if_false] at parsed ⊢
        cases parsed
        exact Fails.immediate _
      · -- The text is neither blank nor too long; tokenizing can still refuse it.
        simp only [blank, long, if_false] at parsed ⊢
        cases cut : tokenize text with
        | error reason =>
          rw [cut] at parsed
          cases parsed
          exact Fails.immediate _
        | ok tokens =>
          rw [cut] at parsed
          by_cases none : tokens.isEmpty = true
          · simp only [none, if_true] at parsed ⊢
            cases parsed
            exact Fails.immediate _
          · simp only [none, Bool.false_eq_true, if_false] at parsed ⊢
            -- What is left is the fold over the tokens.
            cases parsed
            exact parseTokensM_yields tokens

end Effects

section Result

/-- Without effects the fold is the plain one. -/
theorem foldExpressionM_pure {β : Type} (resolveId : String → β)
    (combine : β → β → SpdxOperator → β) (expression : Option String) :
    (foldExpressionM (m := Id) (fun name => pure (resolveId name))
      (fun left right op => pure (combine left right op)) expression).run =
      foldExpression resolveId combine expression := by
  -- Without effects the fold over the tree is the plain one.
  have values : ∀ tree : SpdxExpr, tree.evalM (m := Id) (fun name => pure (resolveId name))
      (fun left right op => pure (combine left right op)) =
        pure (tree.eval resolveId combine) := by
    intro tree
    induction tree with
    | id name => rfl
    | node op left right ihLeft ihRight =>
      simp only [SpdxExpr.evalM, ihLeft, ihRight, pure_bind]
      rfl
  rw [foldExpression_eq]
  -- Read: both are the fold of the tree. Refused: both fail with the reason.
  cases parsed : parseExpression expression with
  | ok tree =>
    have yields := foldExpressionM_yields (m := Id) (fun name => pure (resolveId name))
      (fun left right op => pure (combine left right op)) parsed
    dsimp only at yields
    rw [yields, values]
    rfl
  | error reason =>
    obtain ⟨effects, failed⟩ := foldExpressionM_yields (m := Id)
      (fun name => pure (resolveId name)) (fun left right op => pure (combine left right op)) parsed
    rw [failed]
    rfl

/-- A text is folded exactly when it has something besides white space, keeps the bounds and is a
sentence of the grammar. Its parse tree is then the only one, its ids are those of the tokens in
their order, and the fold is the evaluation of the tree: every id is resolved once, from left to
right, whatever effects resolving and combining have. Otherwise the fold fails. -/
theorem fold_expression_grammar (text : String) :
    (∀ {β : Type} (resolveId : String → β) (combine : β → β → SpdxOperator → β),
      (∃ value, foldExpression resolveId combine (some text) = .ok value) ↔
        strip text ≠ "" ∧ Readable text) ∧
      (strip text ≠ "" → Readable text →
        ∀ tree depth, Derives (some .OR) (tokensOf text) tree depth →
          (∀ other deep, Derives (some .OR) (tokensOf text) other deep → other = tree) ∧
          tree.ids = (tokensOf text).filterMap SpdxToken.name? ∧
          (∀ {β : Type} (resolveId : String → β) (combine : β → β → SpdxOperator → β),
            foldExpression resolveId combine (some text) = .ok (tree.eval resolveId combine)) ∧
          ∀ {m : Type → Type} [Monad m] [LawfulMonad m] {β : Type} (resolveId : String → m β)
            (combine : β → β → SpdxOperator → m β),
            foldExpressionM resolveId combine (some text) =
              ExceptT.lift (tree.evalM resolveId combine)) ∧
      (¬(strip text ≠ "" ∧ Readable text) →
        ∀ {m : Type → Type} [Monad m] [LawfulMonad m] {β : Type} (resolveId : String → m β)
          (combine : β → β → SpdxOperator → m β),
          ∃ reason, Fails reason (foldExpressionM resolveId combine (some text))) := by
  -- Everything is read off the tree parser, which succeeds exactly on readable texts.
  have parses : (∃ tree, parseExpression (some text) = .ok tree) ↔
      strip text ≠ "" ∧ Readable text := by
    simp only [parseExpression_ok, Readable]
    constructor
    · intro parsed
      obtain ⟨tree, visible, short, plain, few, depth, nested, derived⟩ := parsed
      exact ⟨visible, short, plain, few, tree, depth, nested, derived⟩
    · intro readable
      obtain ⟨visible, short, plain, few, tree, depth, nested, derived⟩ := readable
      exact ⟨tree, visible, short, plain, few, depth, nested, derived⟩
  refine ⟨?_, ?_, ?_⟩
  · intro β resolveId combine
    rw [← parses, foldExpression_eq]
    cases parseExpression (some text) with
    | error reason => simp [Except.map]
    | ok tree => simp [Except.map]
  · intro visible readable tree depth derived
    obtain ⟨found, parsed⟩ := parses.mpr ⟨visible, readable⟩
    obtain ⟨_, _, _, _, _, _, read⟩ := parseExpression_ok.mp parsed
    -- The tree that was read is the one that is derived.
    cases derived.unique read
    refine ⟨fun other deep again => again.unique derived, derived.ids, ?_, ?_⟩
    · intro β resolveId combine
      rw [foldExpression_eq, parsed]
      rfl
    · intro m _ _ β resolveId combine
      exact foldExpressionM_yields resolveId combine parsed
  · intro unreadable m _ _ β resolveId combine
    cases parsed : parseExpression (some text) with
    | ok tree => exact absurd (parses.mp ⟨tree, parsed⟩) unreadable
    | error reason => exact ⟨reason, foldExpressionM_yields resolveId combine parsed⟩

/-- A licence with exceptions is an expression. -/
theorem Derives.ofWith {tokens : List SpdxToken} {tree : SpdxExpr} {depth : Nat}
    (derived : Derives (some .WITH) tokens tree depth) : Derives (some .OR) tokens tree depth := by
  have conjunction : Derives (some .AND) tokens tree depth := .operand derived
  exact .operand conjunction

/-- A primary is a licence with exceptions. -/
theorem Derives.ofPrimary {tokens : List SpdxToken} {tree : SpdxExpr} {depth : Nat}
    (derived : Derives none tokens tree depth) : Derives (some .WITH) tokens tree depth :=
  .operand derived

/-- A resolver that keeps a log of what it is asked. -/
def logged (name : String) : StateM (List String) SpdxExpr :=
  modifyGet fun log => (.id name, log ++ [name])

/-- An alternative of a licence and a licence with an exception is folded in the order it is
written in. -/
theorem fold_expression_grammar_logged :
    ((foldExpressionM logged (fun left right op => pure (joinTrees left right op))
      (some "MIT or (GPL-2.0 WITH Bison)")).run.run []) =
      (.ok (.node .OR (.id "MIT") (.node .WITH (.id "GPL-2.0") (.id "Bison"))),
        ["MIT", "GPL-2.0", "Bison"]) := by
  -- The tokens of the text, and a derivation of the tree over them.
  have tokens : tokensOf "MIT or (GPL-2.0 WITH Bison)" = [SpdxToken.id "MIT"] ++
    SpdxToken.operator .OR ::
      (SpdxToken.lparen :: (([SpdxToken.id "GPL-2.0"] ++
        SpdxToken.operator .WITH :: [SpdxToken.id "Bison"]) ++ [SpdxToken.rparen])) := by
    decide
  have derived : Derives (some .OR) (tokensOf "MIT or (GPL-2.0 WITH Bison)")
      (.node .OR (.id "MIT") (.node .WITH (.id "GPL-2.0") (.id "Bison"))) 1 := by
    rw [tokens]
    -- WITH binds within the parentheses, OR outside of them.
    have exception : Derives (some .WITH) ([SpdxToken.id "GPL-2.0"] ++
      SpdxToken.operator .WITH :: [SpdxToken.id "Bison"])
        (.node .WITH (.id "GPL-2.0") (.id "Bison")) 0 :=
      .joined (Derives.id "GPL-2.0").ofPrimary (.id "Bison")
    have second : Derives (some .AND) (SpdxToken.lparen :: (([SpdxToken.id "GPL-2.0"] ++
      SpdxToken.operator .WITH ::
        [SpdxToken.id "Bison"]) ++ [SpdxToken.rparen])) (.node .WITH (.id "GPL-2.0") (.id "Bison")) 1 :=
      .operand (Derives.paren exception.ofWith).ofPrimary
    exact .joined (Derives.id "MIT").ofPrimary.ofWith second
  have plain : "MIT or (GPL-2.0 WITH Bison)".toList.all (!isControlChar ·) = true := by decide
  have readable : Readable "MIT or (GPL-2.0 WITH Bison)" :=
    ⟨by decide, by simpa only [List.all_eq_true, Bool.not_eq_true'] using plain, by decide,
      _, 1, by decide, derived⟩
  -- The leaves are resolved from left to right, as the grammar law says.
  rw [((fold_expression_grammar _).2.1 (by decide) readable _ 1 derived).2.2.2]
  rfl

/-- A no-break space is a word of the grammar, but counts as an empty text. -/
theorem fold_expression_blank :
    Readable "\u00a0" ∧ ∀ {β : Type} (resolveId : String → β) (combine : β → β → SpdxOperator → β),
      foldExpression resolveId combine (some "\u00a0") = .error .empty := by
  -- A no-break space is one identifier for the tokens, and a derivation has it as a leaf.
  have tokens : tokensOf "\u00a0" = [.id "\u00a0"] := by decide
  have plain : "\u00a0".toList.all (!isControlChar ·) = true := by decide
  refine ⟨⟨by decide, by simpa only [List.all_eq_true, Bool.not_eq_true'] using plain, by decide,
    .id "\u00a0", 0, by decide, ?_⟩, ?_⟩
  · rw [tokens]
    exact (Derives.id "\u00a0").ofPrimary.ofWith
  · intro β resolveId combine
    -- Stripped it is empty, so the fold never starts.
    have blank : strip "\u00a0" = "" := by decide
    simp [foldExpression, blank, throw, throwThe, MonadExceptOf.throw, Bind.bind, Except.bind]

end Result

end Trusca
