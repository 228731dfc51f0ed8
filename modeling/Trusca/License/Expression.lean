import Trusca.Data.Text
import Trusca.License.Category

/-! Reading an SPDX licence expression and folding its operands into one category. -/

namespace Trusca

/-- The operators of a licence expression. -/
inductive SpdxOperator where
  | AND
  | OR
  | WITH
  deriving Repr, DecidableEq

/-- The tokens of a licence expression. -/
inductive SpdxToken where
  | lparen
  | rparen
  | operator (op : SpdxOperator)
  | id (name : String)
  deriving Repr, DecidableEq

/-- Why an expression cannot be read. -/
inductive ExpressionParseError where
  | empty
  | tooLong
  | controlChar
  | tooManyTokens
  | maxDepthExceeded
  | missingOperand
  | unbalancedParens
  | unexpectedOperator
  | unexpectedToken
  deriving Repr, DecidableEq

/-- The machine-readable code of an error. -/
def ExpressionParseError.code : ExpressionParseError → String
  -- The codes that the caller stores.
  | .empty => "empty"
  | .tooLong => "too_long"
  | .controlChar => "control_char"
  | .tooManyTokens => "too_many_tokens"
  | .maxDepthExceeded => "max_depth_exceeded"
  | .missingOperand => "missing_operand"
  | .unbalancedParens => "unbalanced_parens"
  | .unexpectedOperator => "unexpected_operator"
  | .unexpectedToken => "unexpected_token"

/-- The longest expression that is read. -/
def maxExpressionLength : Nat := 4096

/-- The most tokens an expression may have. -/
def maxTokenCount : Nat := 1024

/-- The deepest nesting of parentheses. -/
def maxNestingDepth : Nat := 64

section Lexer

/-- The control characters, and DEL. -/
def isControlChar (character : Char) : Bool :=
  character.toNat < 0x20 || character.toNat == 0x7F

/-- The upper case of a character, as far as it can matter to an operator: besides the ASCII
letters only the dotless i has an upper case among the letters of the operators. -/
def operatorLetter (character : Char) : Char :=
  if character == 'ı' then 'I' else character.toUpper

/-- The operator a word stands for, in any letter case. -/
def operatorOf (word : List Char) : Option SpdxOperator :=
  -- In any case, as a whole word.
  match word.map operatorLetter with
  | ['A', 'N', 'D'] => some .AND
  | ['O', 'R'] => some .OR
  | ['W', 'I', 'T', 'H'] => some .WITH
  | _ => none

/-- A word is an operator, or a licence id as it is written. -/
def wordToken (word : List Char) : SpdxToken :=
  match operatorOf word with
  | some op => .operator op
  | none => .id (String.ofList word)

/-- Append a token, within the budget. -/
def pushToken (tokens : List SpdxToken) (token : SpdxToken) :
    Except ExpressionParseError (List SpdxToken) :=
  if maxTokenCount < (tokens ++ [token]).length then .error .tooManyTokens
  else .ok (tokens ++ [token])

/-- Append the word read so far, if there is one. -/
def flushWord (word : List Char) (tokens : List SpdxToken) :
    Except ExpressionParseError (List SpdxToken) :=
  if word.isEmpty then .ok tokens else pushToken tokens (wordToken word)

/-- The pass over the characters: the word being read, and the tokens before it. -/
def tokenizeFrom : List Char → List Char → List SpdxToken →
    Except ExpressionParseError (List SpdxToken)
  | [], word, tokens => flushWord word tokens
  | character :: rest, word, tokens => do
      -- A control character is refused even inside a word.
      if isControlChar character then
        throw .controlChar
      if character == ' ' then
        tokenizeFrom rest [] (← flushWord word tokens)
      else if character == '(' then
        tokenizeFrom rest [] (← pushToken (← flushWord word tokens) .lparen)
      else if character == ')' then
        tokenizeFrom rest [] (← pushToken (← flushWord word tokens) .rparen)
      else
        tokenizeFrom rest (word ++ [character]) tokens

/-- The tokens of an expression. -/
def tokenize (expression : String) : Except ExpressionParseError (List SpdxToken) :=
  tokenizeFrom expression.toList [] []

end Lexer

section Parser

variable {β : Type} (resolveId : String → β) (combine : β → β → SpdxOperator → β)

/-- Reads a value off the front of the tokens and leaves the rest. -/
abbrev ExpressionParser (β : Type) :=
  List SpdxToken → Except ExpressionParseError (β × List SpdxToken)

/-- The loop over further operands of one operator. Every round consumes an operator, so the
number of tokens is enough fuel. -/
def operandsLoop (operand : ExpressionParser β) (op : SpdxOperator) :
    Nat → β → ExpressionParser β
  | 0, value, tokens => .ok (value, tokens)
  | fuel + 1, value, tokens =>
      -- The loop peeks: only its own operator is consumed.
      match tokens with
      | .operator found :: rest =>
          if found = op then do
            let (right, rest) ← operand rest
            operandsLoop operand op fuel (combine value right op) rest
          else .ok (value, tokens)
      | _ => .ok (value, tokens)

/-- Operands joined by one operator, from the left. -/
def operands (operand : ExpressionParser β) (op : SpdxOperator) : ExpressionParser β :=
  fun tokens => do
    let (value, rest) ← operand tokens
    operandsLoop combine operand op rest.length value rest

/-- A licence id, or an expression in parentheses. -/
def primary (inner : ExpressionParser β) : ExpressionParser β
  -- The end of the text where an operand should be.
  | [] => .error .missingOperand
  | .lparen :: rest => do
      let (value, rest) ← inner rest
      match rest with
      | .rparen :: rest => .ok (value, rest)
      -- A bracket that nobody closes, and below one that nobody has opened.
      | _ => .error .unbalancedParens
  | .rparen :: _ => .error .unbalancedParens
  | .operator _ :: _ => .error .unexpectedOperator
  | .id name :: rest => .ok (resolveId name, rest)

/-- Licences with exceptions. -/
def withExpr (inner : ExpressionParser β) : ExpressionParser β :=
  operands combine (primary resolveId inner) .WITH

/-- Licences that all apply. -/
def andExpr (inner : ExpressionParser β) : ExpressionParser β :=
  operands combine (withExpr resolveId combine inner) .AND

/-- Alternative licences; the number counts the levels of nesting that are left. -/
def orExpr : Nat → ExpressionParser β
  | 0, _ => .error .maxDepthExceeded
  | levels + 1, tokens => operands combine (andExpr resolveId combine (orExpr levels)) .OR tokens

/-- Read all tokens as one expression. -/
def parseTokens (tokens : List SpdxToken) : Except ExpressionParseError β := do
  let (value, rest) ← orExpr resolveId combine maxNestingDepth tokens
  -- A closing parenthesis too many, or two ids in a row, is left over here.
  if !rest.isEmpty then
    throw .unexpectedToken
  return value

/-- Read an expression and fold it into one value. -/
def foldExpression (expression : Option String) : Except ExpressionParseError β := do
  match expression with
  | none => throw .empty
  | some text =>
      if strip text = "" then
        throw .empty
      -- The length is that of the text as it came, before any stripping.
      if maxExpressionLength < text.length then
        throw .tooLong
      let tokens ← tokenize text
      if tokens.isEmpty then
        throw .empty
      parseTokens resolveId combine tokens

end Parser

/-- How an operator resolves the categories of its operands. -/
inductive OperatorStrategy where
  | mostRestrictive
  | leastRestrictive
  deriving Repr, DecidableEq

/-- The strategies a policy sets; an operator it does not mention has the default one. -/
structure StrategyMap where
  onAnd : Option OperatorStrategy
  onOr : Option OperatorStrategy
  onWith : Option OperatorStrategy
  deriving Repr, DecidableEq

/-- The default strategy of an operator. -/
def defaultStrategy : SpdxOperator → OperatorStrategy
  | .AND => .mostRestrictive
  | .OR => .leastRestrictive
  | .WITH => .mostRestrictive

/-- The strategy of an operator. -/
def StrategyMap.get (strategies : StrategyMap) : SpdxOperator → OperatorStrategy
  | .AND => strategies.onAnd.getD (defaultStrategy .AND)
  | .OR => strategies.onOr.getD (defaultStrategy .OR)
  | .WITH => strategies.onWith.getD (defaultStrategy .WITH)

/-- The default strategies, spelled out. -/
def StrategyMap.default : StrategyMap :=
  ⟨some .mostRestrictive, some .leastRestrictive, some .mostRestrictive⟩

/-- How restrictive a category is in an expression. -/
def LicenseCategory.rank : LicenseCategory → Nat
  | .forbidden => 3
  | .conditional => 2
  | .allowed => 1
  | .unknown => 0

/-- Fold two categories under an operator. The least restrictive one is never unknown while the
other is concrete. -/
def combineCategories (strategies : StrategyMap) (left right : LicenseCategory)
    (op : SpdxOperator) : LicenseCategory :=
  match strategies.get op with
  | .leastRestrictive =>
      -- An alternative nobody knows must not make the choice look safer.
      if left = .unknown ∧ right ≠ .unknown then right
      else if right = .unknown ∧ left ≠ .unknown then left
      else if left.rank ≤ right.rank then left
      else right
  | .mostRestrictive => if right.rank ≤ left.rank then left else right

/-- The outcome of an evaluation; the warning tells why the conservative category was used. -/
structure ExpressionResult where
  category : LicenseCategory
  warning : Option String
  deriving Repr, DecidableEq

/-- Resolve an expression to one category, whatever the input. -/
def evaluateExpression (expression : Option String) (resolveId : String → LicenseCategory)
    (strategies : StrategyMap) (unknownCategory : LicenseCategory) : ExpressionResult :=
  match foldExpression resolveId (combineCategories strategies) expression with
  -- A text that cannot be read is never allowed by accident.
  | .error reason => ⟨unknownCategory, some reason.code⟩
  | .ok .unknown => ⟨unknownCategory, some "all_unknown"⟩
  | .ok category => ⟨category, none⟩

end Trusca
