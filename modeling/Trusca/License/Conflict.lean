import Trusca.Data.Pattern
import Trusca.License.Expression

/-! The verdict on a dependency's licence against the licence that a project is shipped under. -/

namespace Trusca

/-- How far a licence reaches into what it is combined with. -/
inductive LicenseClass where
  | networkCopyleft
  | strongCopyleft
  | weakCopyleft
  | uncategorized
  | permissive
  deriving Repr, DecidableEq

section Class

/-- The character tables: upper case, the characters of words, and the digits. -/
structure LetterTables where
  upper : Char → List Char
  word : Char → Bool
  digit : Char → Bool

/-- The tables as far as ASCII goes. -/
def LetterTables.asciiOnly : LetterTables where
  upper character := [character.toUpper]
  word character := character.isAlphanum || character == '_'
  digit character := character.isDigit

/-- The ids that are known to be permissive. -/
def permissiveIds : List String :=
  ["MIT", "MIT-0", "ISC", "0BSD", "BSD-2-CLAUSE", "BSD-3-CLAUSE", "APACHE-2.0", "APACHE-1.1", "ZLIB",
   "UNLICENSE", "BSL-1.0", "PSF-2.0", "PYTHON-2.0", "CC0-1.0", "WTFPL", "NCSA", "X11"]

/-- The longest text that is taken for a licence. -/
def maxIdentifierLength : Nat := 512

/-- A character as a search that ignores case takes it: four letters outside ASCII count as letters of
ASCII. -/
def ignoreCase (character : Char) : Char :=
  if character = 'İ' ∨ character = 'ı' then 'i'
  else if character = 'ſ' then 's'
  else if character.toNat = 0x212A then 'k'
  else character.toLower

/-- All texts that take one part from each list. -/
def spellings : List (List String) → List String
  | [] => [""]
  | parts :: more => parts.flatMap fun part => (spellings more).map (part ++ ·)

/-- The reciprocal licences of a file or a library that are no kind of GPL. -/
def weakFamilies : List String :=
  ["mpl", "epl", "cddl", "cpl", "osl", "eupl", "cecill", "sleepycat", "ofl", "open font license"]

/-- The spellings of the share-alike licences for contents. -/
def shareAlikes : List String :=
  spellings [["cc"], ["-", " "], ["by"], ["", "-nc", " nc"], ["-", " "], ["sa"]] ++
    spellings [["attribution"], ["", "-", " "],
      ["", "noncommercial", "noncommercial-", "noncommercial "], ["sharealike"]]

/-- The patterns in their order, each with its class. -/
def classPatterns : List (List (List PatternPiece) × LicenseClass) :=
  -- The first class that fits decides, so AGPL and LGPL come before GPL.
  [([[.edge, .text "agpl"]], .networkCopyleft),
   ([[.edge, .text "lgpl"]], .weakCopyleft),
   (weakFamilies.map fun family => [.edge, .text family, .edge], .weakCopyleft),
   (shareAlikes.map fun name => [.edge, .text name, .edge], .weakCopyleft),
   ([[.edge, .text "gpl"]], .strongCopyleft)]

variable (tables : LetterTables)

/-- The class of one licence; what is not recognised is never permissive. -/
def classifyLicenseClass (value : String) : LicenseClass :=
  let identifier := strip value
  -- Neither an empty text nor one that is too long is classified.
  if identifier = "" || maxIdentifierLength < identifier.length then .uncategorized
  -- The exact permissive names, upper-cased, before the patterns.
  else if permissiveIds.contains (String.ofList (identifier.toList.flatMap tables.upper)) then .permissive
  else
    match classPatterns.find? fun entry =>
        search tables.word entry.1 (identifier.toList.map ignoreCase) with
    | some entry => entry.2
    | none => .uncategorized

end Class

/-- The verdicts, from the best to the worst. -/
inductive Verdict where
  | compatible
  | conditional
  | unknown
  | incompatible
  deriving Repr, DecidableEq

/-- The place of a verdict in the order; not to know is worse than having to check. -/
def Verdict.rank : Verdict → Nat
  | .compatible => 0
  | .conditional => 1
  | .unknown => 2
  | .incompatible => 3

/-- A verdict with the sentence that justifies it, and the class of the dependency. -/
structure ConflictVerdict where
  verdict : Verdict
  why : String
  dependencyClass : LicenseClass
  deriving Repr, DecidableEq

/-- What two licences mean for each other beyond their classes. -/
structure CompatPair where
  outbound : String
  dependency : String
  verdict : Verdict
  why : String
  deriving Repr, DecidableEq

/-- The rules: a verdict for each pair of classes that is covered, and exceptions for pairs of licences. -/
structure CompatRules where
  matrix : LicenseClass → LicenseClass → Option (Verdict × String)
  pairs : List CompatPair

section Vendored

/-- The cells of the vendored matrix, by the class of the outbound licence and of the dependency. -/
def vendoredMatrix : LicenseClass → LicenseClass → Verdict × String
  -- The row is the class of the project, the column that of the dependency.
  | .permissive, .permissive =>
      (.compatible, "Both are permissive; keep the notices.")
  | .permissive, .weakCopyleft =>
      (.conditional, "File- or library-level reciprocity: changes to the dependency stay under its license, and static linking adds obligations. Distributing your own code under the permissive license is still fine.")
  | .permissive, .strongCopyleft =>
      (.incompatible, "Distributing a combined work requires the whole work to be offered under the copyleft license, which the declared permissive outbound license does not do.")
  | .permissive, .networkCopyleft =>
      (.incompatible, "Network copyleft extends the reciprocity to users served over a network, which the declared permissive outbound license cannot satisfy.")
  | .permissive, .uncategorized =>
      (.unknown, "The dependency's license was not recognised.")
  | .weakCopyleft, .permissive =>
      (.compatible, "A permissive dependency imposes no reciprocal obligation.")
  | .weakCopyleft, .weakCopyleft =>
      (.conditional, "Two file- or library-level reciprocal licenses. Each keeps its own scope, so check that the boundaries do not overlap in the combined work.")
  | .weakCopyleft, .strongCopyleft =>
      (.incompatible, "The dependency requires the combined work to be offered under its terms, which a weaker reciprocal outbound license does not provide.")
  | .weakCopyleft, .networkCopyleft =>
      (.incompatible, "The dependency adds network-use reciprocity that the declared outbound license does not carry.")
  | .weakCopyleft, .uncategorized =>
      (.unknown, "The dependency's license was not recognised.")
  | .strongCopyleft, .permissive =>
      (.compatible, "Permissive terms can be met while distributing under a strong copyleft license.")
  | .strongCopyleft, .weakCopyleft =>
      (.conditional, "Usually absorbable into a strong copyleft work, but some file-level reciprocal licenses need an explicit compatibility clause. Check the specific pair.")
  | .strongCopyleft, .strongCopyleft =>
      (.conditional, "Same family, but versions differ in compatibility — notably GPL-2.0-only cannot be combined with GPL-3.0 code. Check the versions.")
  | .strongCopyleft, .networkCopyleft =>
      (.conditional, "Network copyleft adds obligations beyond the declared outbound license; combining is allowed in one direction only. Check which way this goes.")
  | .strongCopyleft, .uncategorized =>
      (.unknown, "The dependency's license was not recognised.")
  | .networkCopyleft, .permissive =>
      (.compatible, "Permissive terms can be met while distributing under a network copyleft license.")
  | .networkCopyleft, .weakCopyleft =>
      (.conditional, "Usually absorbable, but check whether the dependency's reciprocal scope has an explicit compatibility clause.")
  | .networkCopyleft, .strongCopyleft =>
      (.conditional, "AGPL-3.0 and GPL-3.0 are designed to combine; older strong copyleft versions are not. Check the versions.")
  | .networkCopyleft, .networkCopyleft =>
      (.compatible, "Same reciprocal scope.")
  | .networkCopyleft, .uncategorized =>
      (.unknown, "The dependency's license was not recognised.")
  | .uncategorized, .permissive =>
      (.unknown, "The declared outbound license was not recognised, so there is nothing to judge the dependency against.")
  | .uncategorized, .weakCopyleft =>
      (.unknown, "The declared outbound license was not recognised, so there is nothing to judge the dependency against.")
  | .uncategorized, .strongCopyleft =>
      (.unknown, "The declared outbound license was not recognised, so there is nothing to judge the dependency against.")
  | .uncategorized, .networkCopyleft =>
      (.unknown, "The declared outbound license was not recognised, so there is nothing to judge the dependency against.")
  | .uncategorized, .uncategorized =>
      (.unknown, "Neither the declared outbound license nor the dependency's license was recognised.")

/-- The vendored rules. -/
def vendoredRules : CompatRules where
  matrix outbound dependency := some (vendoredMatrix outbound dependency)
  -- Two pairs whose verdict the classes would get wrong.
  pairs :=
  [⟨"GPL-2.0-ONLY", "APACHE-2.0", .incompatible,
     "The FSF treats Apache-2.0's patent termination and indemnification terms as further restrictions that GPL-2.0 does not permit. GPL-3.0 does not have this problem."⟩,
   ⟨"GPL-2.0-ONLY", "APACHE-1.1", .incompatible,
     "The advertising and naming clauses are further restrictions that GPL-2.0 does not permit."⟩]

end Vendored

section Verdicts

/-- The sentences that are not part of the rules. -/
def whyNoRule : String := "No rule covers this combination."
def whyNoLicense : String := "The component declares no license."
def whyUnparseable : String := "The declared license could not be read as an SPDX expression."
def whyOutboundUnparseable : String :=
  "The project's outbound license could not be read as an SPDX expression, so there is nothing to judge this dependency against."
def whyException : String :=
  "The dependency carries an exception clause, which exists to permit exactly this combination. Confirm the exception covers your use."

variable (tables : LetterTables) (rules : CompatRules)

/-- Whether the rest of a deprecated id is a version. -/
def isVersionRow (rest : List Char) : Bool :=
  (rest.splitOn '.').all fun part => !part.isEmpty && part.all tables.digit

/-- Whether an id names a GPL without saying whether later versions count. -/
def isDeprecatedGplId (candidate : List Char) : Bool :=
  ["agpl-", "lgpl-", "gpl-"].any fun family =>
    family.toList.isPrefixOf (candidate.map ignoreCase) &&
      isVersionRow tables (candidate.drop family.length)

/-- The form in which ids are compared with the pairs. -/
def canonicalPairKey (value : String) : String :=
  let candidate := (strip value).toList
  let expanded := if isDeprecatedGplId tables candidate then candidate ++ "-only".toList else candidate
  String.ofList (expanded.flatMap tables.upper)

/-- The exception for a pair of licences, if there is one. -/
def explicitPair (outbound dependency : String) : Option ConflictVerdict :=
  (rules.pairs.find? fun pair =>
    canonicalPairKey tables pair.outbound == canonicalPairKey tables outbound &&
      canonicalPairKey tables pair.dependency == canonicalPairKey tables dependency).map fun pair =>
    ⟨pair.verdict, pair.why, classifyLicenseClass tables dependency⟩

/-- The verdict on one licence of a dependency against one outbound licence. -/
def termVerdict (term outbound : String) : ConflictVerdict :=
  -- A pair of names decides before the classes do.
  match explicitPair tables rules outbound term with
  | some verdict => verdict
  | none =>
      let dependencyClass := classifyLicenseClass tables term
      match rules.matrix (classifyLicenseClass tables outbound) dependencyClass with
      -- A matrix without the entry is an answer of its own.
      | some (verdict, why) => ⟨verdict, why, dependencyClass⟩
      | none => ⟨.unknown, whyNoRule, dependencyClass⟩

/-- The better of two verdicts, or the first of two equal ones. -/
def betterVerdict (left right : ConflictVerdict) : ConflictVerdict :=
  if right.verdict.rank < left.verdict.rank then right else left

/-- The worse of two verdicts, or the first of two equal ones. -/
def worseVerdict (left right : ConflictVerdict) : ConflictVerdict :=
  if left.verdict.rank < right.verdict.rank then right else left

/-- Fold two verdicts under an operator. -/
def combineVerdicts (left right : ConflictVerdict) : SpdxOperator → ConflictVerdict
  -- An exception has no verdict of its own, and softens the one of its licence.
  | .WITH =>
      if left.verdict = .incompatible then
        ⟨.conditional, whyException ++ " (" ++ left.why ++ ")", left.dependencyClass⟩
      else left
  | .OR => betterVerdict left right
  | .AND => worseVerdict left right

/-- Every licence that the outbound declaration names, if it can be read. -/
def outboundTerms (outbound : String) : Except ExpressionParseError (List String) :=
  foldExpression (fun token => [token]) (fun left right _ => left ++ right) (some outbound)

/-- The worst verdict on a term against several outbound terms. There is always one. -/
def worstAgainstOutbound (term : String) : List String → ConflictVerdict
  | [] => ⟨.unknown, whyNoRule, classifyLicenseClass tables term⟩
  | outbound :: more =>
      more.foldl (fun worst other => worseVerdict worst (termVerdict tables rules term other))
        (termVerdict tables rules term outbound)

/-- The verdict on one licence text; absent when it cannot be read. -/
def expressionVerdict (expression outbound : String) : Option ConflictVerdict :=
  -- An outbound text that cannot be read: no dependency can be judged against it.
  match outboundTerms outbound with
  | .error _ => some ⟨.unknown, whyOutboundUnparseable, classifyLicenseClass tables expression⟩
  | .ok outbounds =>
      (foldExpression (fun token => worstAgainstOutbound tables rules token outbounds) combineVerdicts
        -- An expression that cannot be read has no verdict, and leaves the place to the others.
        (some expression)).toOption

/-- The verdict on a component: the best of its licence texts. Without an outbound licence there is
none. -/
def assessConflict (licenseStrings : List String) (outbound : Option String) : Option ConflictVerdict :=
  -- Nothing is declared, or only blanks: nothing to compare with.
  match outbound with
  | none => none
  | some outbound =>
      if strip outbound = "" then none
      else
        let usable := licenseStrings.filter fun value => strip value != ""
        if usable.isEmpty then some ⟨.unknown, whyNoLicense, .uncategorized⟩
        else
          match usable.filterMap fun value => expressionVerdict tables rules value outbound with
          -- Not one of the texts could be read.
          | [] => some ⟨.unknown, whyUnparseable, .uncategorized⟩
          -- The best of the verdicts: several licences of a component are read as a choice.
          | verdict :: more => some (more.foldl betterVerdict verdict)

end Verdicts

end Trusca
