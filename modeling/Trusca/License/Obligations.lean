import Trusca.Gate.Database
import Trusca.License.Expression
import Trusca.Store.Select

/-! The obligations of a licence expression, and how they are stored for the licences of a scan. -/

namespace Trusca

open Store

section Split

/-- The operators that the splitter knows, in capitals only. -/
def splitOperators : List (List Char) := [['A', 'N', 'D'], ['O', 'R'], ['W', 'I', 'T', 'H']]

/-- What follows an operator with white space on both sides. -/
def operatorGap (text : List Char) : Option (List Char) :=
  -- An operator counts only between blanks.
  if text.head?.any isSpace then
    let rest := text.dropWhile isSpace
    (splitOperators.find? (·.isPrefixOf rest)).bind fun word =>
      let after := rest.drop word.length
      if after.head?.any isSpace then some (after.dropWhile isSpace) else none
  else none

/-- The pieces of an expression between the operators and the parentheses, with the piece being read. The
length of the text is enough fuel. -/
def splitCompoundFrom : Nat → List Char → List Char → List (List Char)
  | 0, _, piece => [piece]
  -- The rest of the text is the last piece, even when it is empty.
  | _ + 1, [], piece => [piece]
  | fuel + 1, character :: rest, piece =>
      -- A bracket ends a piece as an operator does.
      if character == '(' || character == ')' then piece :: splitCompoundFrom fuel rest []
      else
        match operatorGap (character :: rest) with
        | some after => piece :: splitCompoundFrom fuel after []
        | none => splitCompoundFrom fuel rest (piece ++ [character])

/-- The operands of a compound expression, as a pattern finds them. -/
def splitCompound (expression : String) : List String :=
  (splitCompoundFrom expression.length expression.toList []).map fun piece => strip (String.ofList piece)

/-- The operands of an expression, each once. -/
def spdxIdsForExpression (expression : String) : List String :=
  if expression = "" then [] else distinctOn id ((splitCompound expression).filter (· != ""))

end Split

section Obligations

/-- The obligations of one licence: what kind of obligation it is, and its text. -/
structure LicenseObligations where
  spdxId : String
  rows : List (String × String)
  deriving Repr, DecidableEq

/-- The catalog of obligations, by licence id. -/
structure ObligationCatalog where
  get : String → Option LicenseObligations
  /-- The ids are words without spaces and parentheses, and no operators. -/
  simple : ∀ id entry, get id = some entry → id ≠ "" ∧
    (∀ character ∈ id.toList, character ≠ ' ' ∧ character ≠ '(' ∧ character ≠ ')') ∧
    operatorOf id.toList = none

/-- An obligation as it is to be stored. -/
structure ObligationRow where
  kind : String
  text : String
  link : String
  deriving Repr, DecidableEq

/-- The licences of an expression that the catalog has. -/
def catalogEntries (catalog : ObligationCatalog) (spdxId : String) : List LicenseObligations :=
  match catalog.get spdxId with
  | some direct => [direct]
  | none => (spdxIdsForExpression spdxId).filterMap catalog.get

/-- Where the obligations of a licence are read: its own address, or its page in the licence list. -/
def obligationLink (referenceUrl : Option String) (entry : LicenseObligations) : String :=
  match referenceUrl with
  | some url => if url = "" then "https://spdx.org/licenses/" ++ entry.spdxId ++ ".html" else url
  | none => "https://spdx.org/licenses/" ++ entry.spdxId ++ ".html"

/-- The rows of one licence. -/
def entryRows (referenceUrl : Option String) (entry : LicenseObligations) : List ObligationRow :=
  entry.rows.map fun (kind, text) => ⟨kind, text, obligationLink referenceUrl entry⟩

/-- The obligations of a licence expression, each text of a kind once. -/
def obligationsFor (catalog : ObligationCatalog) (spdxId : String) (referenceUrl : Option String) :
    List ObligationRow :=
  if spdxId = "" then []
  else distinctOn (fun row => (row.kind, row.text))
    ((catalogEntries catalog spdxId).flatMap (entryRows referenceUrl))

end Obligations

section Sync

/-- A stored obligation. -/
structure Obligation where
  licenseId : LicenseId
  kind : String
  text : String
  link : String
  deriving Repr, DecidableEq

/-- The columns that no two stored obligations share. -/
def Obligation.key (row : Obligation) : LicenseId × String := (row.licenseId, row.kind)

/-- A licence that was observed in a scan. -/
structure ObservedLicense where
  id : LicenseId
  spdxId : String
  referenceUrl : Option String
  deriving Repr, DecidableEq

/-- The licences that were observed in a scan, as the query returns them. -/
structure ScanLicenses where
  rows : List ObservedLicense
  /-- SELECT DISTINCT returns every licence once. -/
  once : (rows.map ObservedLicense.id).Nodup

/-- INSERT ... ON CONFLICT DO NOTHING: a row whose key is taken, also by an earlier row of the same
statement, is left out. -/
def insertMissing (stored values : List Obligation) : List Obligation :=
  values.foldl (fun rows row => if rows.any (·.key == row.key) then rows else rows ++ [row]) stored

/-- The obligations of the observed licences that are not stored yet are added. -/
def syncCatalogObligations (catalog : ObligationCatalog) (observed : ScanLicenses)
    (stored : List Obligation) : List Obligation :=
  insertMissing stored (observed.rows.flatMap fun license =>
    (obligationsFor catalog license.spdxId license.referenceUrl).map fun row =>
      ⟨license.id, row.kind, row.text, row.link⟩)

end Sync

end Trusca
