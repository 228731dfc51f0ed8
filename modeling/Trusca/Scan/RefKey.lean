import Mathlib.Data.List.Infix
import Trusca.Data.Lines
import Trusca.Upgrade.Version

/-! The key that scans of one branch, tag or request are kept under. -/

namespace Trusca

/-- The start of a branch, and of a tag. -/
def refHeads : String := "refs/heads/"

def refTags : String := "refs/tags/"

/-- The start of a pull request, and of a merge request. -/
def refPull : String := "refs/pull/"

def refMerge : String := "refs/merge-requests/"

/-- The longest ref. -/
def maxRefLength : Nat := 255

/-- Whether a text has a control character. -/
def hasControlByte (text : List Char) : Bool :=
  text.any fun character =>
    character.toNat < 0x20 || character.toNat == 0x7F ||
      (0x80 ≤ character.toNat && character.toNat ≤ 0x9F)

/-- A character that a key may have. -/
def isRefCharacter (character : Char) : Bool :=
  character.isAlphanum || character == '.' || character == '_' || character == '/' ||
    character == '+' || character == '-'

/-- Whether a text matches the pattern for keys, whose end also stands before a line break. -/
def refAllowed (text : List Char) : Bool :=
  let body := if text.getLast? = some '\n' then text.dropLast else text
  !body.isEmpty && body.all isRefCharacter

/-- A text without a start, when it has it. -/
def dropStart (start : String) (text : List Char) : Option (List Char) :=
  if start.toList.isPrefixOf text then some (text.drop start.length) else none

/-- A text without the slashes at its ends. -/
def stripSlashes (text : List Char) : List Char := (text.dropWhile (· == '/')).rdropWhile (· == '/')

/-- A ref without the start of a branch or a tag. -/
def dropRefStart (text : List Char) : List Char :=
  match dropStart refHeads text with
  | some rest => rest
  | none => (dropStart refTags text).getD text

section Normalize

variable (table : DigitTable)

/-- Whether a character is a decimal digit of any script. -/
def DigitTable.isDecimal (character : Char) : Bool := (table.decimal character).isSome

/-- The digits behind a start, when there are some and a slash follows them. -/
def numberBehind (start : String) (text : List Char) : Option (List Char) :=
  match dropStart start text with
  | none => none
  | some rest =>
      let digits := rest.takeWhile table.isDecimal
      if !digits.isEmpty && (rest.dropWhile table.isDecimal).head? == some '/' then some digits else none

/-- The key of a ref that is no request. -/
def branchKey (text : List Char) : Option (List Char) :=
  let rest := stripSlashes (dropRefStart text)
  if rest.isEmpty then none
  else if "..".toList <:+: rest ∨ ¬ refAllowed rest then none
  else some rest

/-- The key of a ref without white space at its ends. -/
def refKey (text : List Char) : Option (List Char) :=
  -- Empty, too long, or not printable: no key.
  if text.isEmpty || maxRefLength < text.length then none
  else if hasControlByte text then none
  else
    -- The merge references of the two hosts before the plain branches.
    match numberBehind table refPull text with
    | some number => some ("pr-".toList ++ number)
    | none =>
        match numberBehind table refMerge text with
        | some number => some ("mr-".toList ++ number)
        | none => branchKey text

/-- The key of a ref as it is sent. -/
def normalizeRef (raw : Option String) : Option String :=
  match raw with
  | none => none
  | some raw => (refKey table (strip raw).toList).map String.ofList

end Normalize

end Trusca
