import Trusca.Data.Segments

/-! Reading version texts of any ecosystem, and comparing what is read. -/

namespace Trusca

/-- What the language knows about digits: which characters it counts as such, and the decimal value of
those that have one. -/
structure DigitTable where
  isDigit : Char → Bool
  decimal : Char → Option Nat
  /-- A decimal digit is a digit; a superscript is a digit without a decimal value. -/
  decimal_isDigit : ∀ character value, decimal character = some value → isDigit character = true
  /-- Within ASCII the digits are the ten figures. -/
  ascii : ∀ character, character.toNat < 128 → isDigit character = character.isDigit ∧
    decimal character = if character.isDigit then some (character.toNat - '0'.toNat) else none

/-- The digits of ASCII alone. -/
def asciiDigits : DigitTable where
  isDigit := Char.isDigit
  decimal character := if character.isDigit then some (character.toNat - '0'.toNat) else none
  decimal_isDigit := by
    intro character value found
    split_ifs at found with digit
    exact digit
  ascii _ _ := ⟨rfl, rfl⟩

/-- The error of reading a number off a text that is none. -/
inductive ValueError where
  | invalidLiteral (text : String)
  | exceedsLimit (digits : Nat)
  deriving Repr, DecidableEq

/-- A pre-release identifier: numbers are compared as such, and come before words. -/
inductive PrereleaseSegment where
  | number (value : Nat)
  | word (text : String)
  deriving Repr, DecidableEq

/-- A version that can be compared. -/
structure ParsedVersion where
  release : List Nat
  isPrerelease : Bool
  prerelease : List PrereleaseSegment
  raw : String
  deriving Repr, DecidableEq

/-- The longest version that is read. -/
def maxVersionLen : Nat := 256

/-- The most release segments that are read. -/
def maxReleaseSegments : Nat := 16

section Parse

variable (table : DigitTable)

/-- Whether a text is made of digits, one or more. -/
def isDigits (text : List Char) : Bool := !text.isEmpty && text.all table.isDigit

/-- The number that a text of digits stands for. -/
def intOf (text : List Char) : Except ValueError Nat :=
  match text.mapM table.decimal with
  | some figures => .ok (figures.foldl (fun value figure => 10 * value + figure) 0)
  | none => .error (.invalidLiteral (String.ofList text))

/-- The number that a text of digits of any length stands for. -/
def readInt (text : List Char) : Except ValueError Nat :=
  if maxStrDigits < text.length then .error (.exceedsLimit text.length) else intOf table text

/-- A pre-release identifier as it is compared; a number is cut after eighteen figures. -/
def coercePrereleaseSegment (token : List Char) : Except ValueError PrereleaseSegment :=
  if isDigits table token then (intOf table (token.take 18)).map .number
  else .ok (.word (String.ofList token))

/-- The release part and the pre-release identifiers, parted at the first hyphen. The identifiers are compared in
lower case, in which letters outside ASCII are left as they are. -/
def splitPrerelease (candidate : List Char) :
    Except ValueError (List Char × Bool × List PrereleaseSegment) :=
  if candidate.contains '-' then do
    let rest := (candidate.dropWhile (· != '-')).drop 1
    let tokens := ((rest.splitOnP fun character => character == '.' || character == '-').filter
      fun token => !token.isEmpty).take 8
    let segments ← tokens.mapM fun token => coercePrereleaseSegment table (token.map lowerChar)
    return (candidate.takeWhile (· != '-'), true, segments)
  else return (candidate, false, [])

/-- The segments of a release; an epoch is the first of them. -/
def releaseSegments (part : List Char) : Option (List (List Char)) :=
  if part.head?.any (fun character => character == '.' || character == '_') then none
  else if part.getLast?.any fun character => character == '.' || character == '_' || character == ':' then
    none
  else if containsText (String.ofList part) ".." || containsText (String.ofList part) "__" then none
  else
    let split (text : List Char) := (text.splitOnP fun character =>
      character == '.' || character == '_' || character == ':').filter fun segment => !segment.isEmpty
    if part.contains ':' then
      let head := part.takeWhile (· != ':')
      if isDigits table head then some (head :: split ((part.dropWhile (· != ':')).drop 1)) else none
    else some (split part)

/-- The numbers of the segments; none when one of them is not made of digits. -/
def releaseNumbers : List (List Char) → Except ValueError (Option (List Nat))
  | [] => .ok (some [])
  | segment :: rest =>
      if isDigits table segment then do
        let number ← intOf table (segment.take 18)
        let numbers ← releaseNumbers rest
        return numbers.map (number :: ·)
      else .ok none

/-- Whether a text may be a version: not empty, not too long, and without control characters. -/
def isVersionText (candidate : String) : Bool :=
  candidate != "" && candidate.length ≤ maxVersionLen &&
    !candidate.toList.any fun character => character.toNat < 0x20 || character.toNat == 0x7F

/-- The text without a letter in front of a digit and without build metadata. -/
def versionBody (candidate : List Char) : List Char :=
  let unprefixed := match candidate with
    | first :: second :: rest =>
        if (first == 'v' || first == 'V') && table.isDigit second then second :: rest
        else first :: second :: rest
    | short => short
  unprefixed.takeWhile (· != '+')

/-- The numbers and the pre-release of a version, with the text that it was read from. -/
def parseBody (body : List Char) (raw : String) : Except ValueError (Option ParsedVersion) := do
  let (part, isPrerelease, prerelease) ← splitPrerelease table body
  match releaseSegments table part with
  | none => return none
  | some segments =>
      if segments.isEmpty then return none
      let release ← releaseNumbers table (segments.take maxReleaseSegments)
      return release.map fun numbers => ⟨numbers, isPrerelease, prerelease, raw⟩

/-- A version text as it is compared, or none when it is no version; its raw text keeps the letter. -/
def parseVersion (value : String) : Except ValueError (Option ParsedVersion) :=
  let candidate := strip value
  if !isVersionText candidate then .ok none
  else
    let body := versionBody table candidate.toList
    if body.isEmpty then .ok none else parseBody table body candidate

end Parse

section Compare

/-- The order of two pre-release identifiers. -/
def PrereleaseSegment.compare : PrereleaseSegment → PrereleaseSegment → Ordering
  | .number left, .number right => Ord.compare left right
  | .number _, .word _ => .lt
  | .word _, .number _ => .gt
  | .word left, .word right => Ord.compare left right

/-- The order of two sequences: that of the first difference, and then the shorter one first. -/
def compareSequences {α : Type} (order : α → α → Ordering) : List α → List α → Ordering
  | [], [] => .eq
  | [], _ :: _ => .lt
  | _ :: _, [] => .gt
  | left :: lefts, right :: rights => (order left right).then (compareSequences order lefts rights)

/-- A release with zeros after it, up to a width. -/
def padded (release : List Nat) (width : Nat) : List Nat :=
  release ++ List.replicate (width - release.length) 0

/-- How two versions compare. -/
def compareVersions (first second : ParsedVersion) : Ordering :=
  let width := max first.release.length second.release.length
  match compareSequences Ord.compare (padded first.release width) (padded second.release width) with
  | .eq =>
      -- A final release comes after its pre-releases.
      if first.isPrerelease != second.isPrerelease then if first.isPrerelease then .lt else .gt
      else compareSequences PrereleaseSegment.compare first.prerelease second.prerelease
  | order => order

end Compare

end Trusca
