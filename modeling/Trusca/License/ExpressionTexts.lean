import Trusca.Data.Dict
import Trusca.License.Expression

/-! The evaluation of a licence expression over the names of categories and strategies, as callers
pass them. -/

namespace Trusca

/-- The rank of a category by its name. -/
def categoryRank : List (String × Nat) :=
  [("forbidden", 3), ("conditional", 2), ("allowed", 1), ("unknown", 0)]

/-- The name of an operator. -/
def SpdxOperator.text : SpdxOperator → String
  | .AND => "AND"
  | .OR => "OR"
  | .WITH => "WITH"

/-- The default strategies by the names of their operators. -/
def defaultStrategyTexts : List (String × String) :=
  [("AND", "most_restrictive"), ("OR", "least_restrictive"), ("WITH", "most_restrictive")]

/-- The strategy that a map names for an operator, or else the default one. -/
def strategyText (strategyMap : Option (Dict String)) (op : SpdxOperator) : String :=
  match strategyMap with
  | none => (defaultStrategyTexts.lookup op.text).getD "most_restrictive"
  | some named => (named.get? op.text).getD ((defaultStrategyTexts.lookup op.text).getD "most_restrictive")

/-- The rank of a text, where one that names no category counts as unknown. -/
def categoryRankOf (category : String) : Nat := (categoryRank.lookup category).getD 0

/-- Fold the names of two categories under an operator. -/
def combineCategoryTexts (strategyMap : Option (Dict String)) (left right : String) (op : SpdxOperator) :
    String :=
  if strategyText strategyMap op = "least_restrictive" then
    if left = "unknown" ∧ right ≠ "unknown" then right
    else if right = "unknown" ∧ left ≠ "unknown" then left
    else if categoryRankOf left ≤ categoryRankOf right then left
    else right
  -- Any other text stands for the most restrictive strategy.
  else if categoryRankOf right ≤ categoryRankOf left then left
  else right

/-- What a resolver says about a token, if that is a category at all. -/
def resolvedCategory (resolveId : String → String) (token : String) : String :=
  if (categoryRank.lookup (resolveId token)).isNone then "unknown" else resolveId token

/-- The outcome of an evaluation, by the name of the category. -/
structure ExpressionTextResult where
  category : String
  warning : Option String
  deriving Repr, DecidableEq

/-- Resolve an expression to the name of one category, whatever the input. -/
def evaluateExpressionText (expression : Option String) (resolveId : String → String)
    (strategyMap : Option (Dict String)) (unknownCategory : String) : ExpressionTextResult :=
  match foldExpression (resolvedCategory resolveId) (combineCategoryTexts strategyMap) expression with
  -- An unreadable text carries its code, a fold that knows nothing a code of its own.
  | .error reason => ⟨unknownCategory, some reason.code⟩
  | .ok category =>
      if category = "unknown" then ⟨unknownCategory, some "all_unknown"⟩ else ⟨category, none⟩

end Trusca
