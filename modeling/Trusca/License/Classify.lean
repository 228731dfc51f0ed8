import Trusca.License.Policy

/-! The static classification of a licence expression, and the one under a policy. -/

namespace Trusca

/-- The static category of an expression: a catalogued id, or the evaluation over the catalogue. -/
def classifyLicenseCategory : Option String → LicenseCategory
  | none => .unknown
  | some text =>
      if text = "" then .unknown
      else
        match licenseCategoryDefaults.lookup text with
        -- A plain id does not go through the parser.
        | some category => category
        | none => (evaluateExpression (some text) staticDefaultFor .default .unknown).category

/-- The category of one operand under a policy. -/
def makePolicyResolver (policy : LicensePolicy) (componentPurl : Option String) (now : Time)
    (spdxId : String) : LicenseCategory :=
  effectiveCategory spdxId (some policy) (staticDefaultFor spdxId) componentPurl now

/-- The category of an expression under a policy. -/
def policyCategoryOf (policy : LicensePolicy) (expression componentPurl : Option String)
    (now : Time) : LicenseCategory :=
  (evaluateExpression expression (makePolicyResolver policy componentPurl now)
    policy.compoundOperatorStrategy policy.unknownLicenseCategory.toCategory).category

/-- A licence expression found in a component. -/
structure LicenseRow where
  componentVersionId : ComponentVersionId
  spdxId : Option String
  purl : Option String
  deriving Repr, DecidableEq

/-- The verdict on a component, with the expression it comes from. -/
structure ComponentPolicyVerdict where
  category : LicenseCategory
  spdxId : Option String
  deriving Repr, DecidableEq

/-- How bad a verdict is for a component. -/
def LicenseCategory.verdictRank : LicenseCategory → Nat
  | .forbidden => 3
  | .conditional => 2
  | .unknown => 1
  | .allowed => 0

/-- Take a verdict into account: a component keeps its worst one. -/
def recordVerdict (verdicts : List (ComponentVersionId × ComponentPolicyVerdict))
    (component : ComponentVersionId) (verdict : ComponentPolicyVerdict) :
    List (ComponentVersionId × ComponentPolicyVerdict) :=
  match verdicts.lookup component with
  | none => verdicts ++ [(component, verdict)]
  | some prior =>
      -- A tie keeps the expression that came first.
      if prior.category.verdictRank < verdict.category.verdictRank then
        verdicts.map fun entry => if entry.1 = component then (component, verdict) else entry
      else verdicts

/-- The worst verdict of every component. -/
def categorizeLicenseRows (rows : List LicenseRow) (policy : LicensePolicy) (now : Time) :
    List (ComponentVersionId × ComponentPolicyVerdict) :=
  rows.foldl (fun verdicts row =>
    recordVerdict verdicts row.componentVersionId
      ⟨policyCategoryOf policy row.spdxId row.purl now, row.spdxId⟩) []

end Trusca
