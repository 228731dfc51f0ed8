import Trusca.License.Expression

/-! Folding a licence expression with operands whose resolution has effects of its own. -/

namespace Trusca

section Parser

variable {m : Type → Type} [Monad m] {β : Type} (resolveId : String → m β)
  (combine : β → β → SpdxOperator → m β)

/-- Reads a value off the front of the tokens, with the effects of resolving it, and leaves the
rest. The effects before an error stay. -/
abbrev FoldParser (m : Type → Type) (β : Type) :=
  List SpdxToken → ExceptT ExpressionParseError m (β × List SpdxToken)

/-- The loop over further operands of one operator: each is resolved, then combined. -/
def operandsLoopM (operand : FoldParser m β) (op : SpdxOperator) : Nat → β → FoldParser m β
  | 0, value, tokens => pure (value, tokens)
  | fuel + 1, value, tokens =>
      match tokens with
      -- As long as the operator is this one, the right operand is folded in from the left.
      | .operator found :: rest =>
          if found = op then do
            let (right, rest) ← operand rest
            let value ← ExceptT.lift (combine value right op)
            operandsLoopM operand op fuel value rest
          -- Another operator is left for the level above.
          else pure (value, tokens)
      | _ => pure (value, tokens)

/-- Operands joined by one operator, from the left. -/
def operandsM (operand : FoldParser m β) (op : SpdxOperator) : FoldParser m β :=
  fun tokens => do
    let (value, rest) ← operand tokens
    operandsLoopM combine operand op rest.length value rest

/-- A licence id, or an expression in parentheses. -/
def primaryM (inner : FoldParser m β) : FoldParser m β
  -- The errors are those of the plain parser, in the same places.
  | [] => throw .missingOperand
  | .lparen :: rest => do
      let (value, rest) ← inner rest
      match rest with
      | .rparen :: rest => pure (value, rest)
      | _ => throw .unbalancedParens
  | .rparen :: _ => throw .unbalancedParens
  | .operator _ :: _ => throw .unexpectedOperator
  -- A licence name asks its category, and that may fail in its own way.
  | .id name :: rest => do
      let value ← ExceptT.lift (resolveId name)
      pure (value, rest)

/-- Alternatives of conjunctions of licences with exceptions; the number counts the levels of
nesting that are left. -/
def orExprM : Nat → FoldParser m β
  | 0, _ => throw .maxDepthExceeded
  | levels + 1, tokens =>
      operandsM combine (operandsM combine
        (operandsM combine (primaryM resolveId (orExprM levels)) .WITH) .AND) .OR tokens

/-- Read all tokens as one expression. -/
def parseTokensM (tokens : List SpdxToken) : ExceptT ExpressionParseError m β := do
  let (value, rest) ← orExprM resolveId combine maxNestingDepth tokens
  if !rest.isEmpty then
    throw .unexpectedToken
  pure value

/-- Read an expression and fold it into one value. -/
def foldExpressionM (expression : Option String) : ExceptT ExpressionParseError m β :=
  match expression with
  | none => throw .empty
  | some text =>
      if strip text = "" then throw .empty
      else if maxExpressionLength < text.length then throw .tooLong
      else
        -- Nothing is resolved while the text is cut into tokens.
        match tokenize text with
        | .error reason => throw reason
        | .ok tokens =>
            if tokens.isEmpty then throw .empty else parseTokensM resolveId combine tokens

end Parser

end Trusca
