import Trusca.Data.Semver
import Trusca.Upgrade.Version

/-! Rewriting one dependency range of an npm manifest so that it asks for a fixed version. -/

namespace Trusca

/-- A letter in front of a version. -/
def takeVPrefix : List Char → List Char × List Char
  | 'v' :: rest => (['v'], rest)
  | 'V' :: rest => (['V'], rest)
  | rest => ([], rest)

/-- The characters of a version after its first figure. -/
def isCoreChar (character : Char) : Bool :=
  character.isAlphanum || character == '.' || character == '-' || character == '+'

/-- A range of one operator, with an optional letter and a version. -/
def simpleRange (text : List Char) : Option (RangeOperator × List Char × List Char) :=
  match takeOperator text with
  | (operator, rest) =>
    -- An operator, a leading v and a version of the plain characters, and nothing behind them.
    match takeVPrefix rest with
    | (vPrefix, core) =>
      if core.head?.any Char.isDigit && core.all isCoreChar then some (operator, vPrefix, core) else none

/-- One or more figures. -/
def isFigures (text : List Char) : Bool := !text.isEmpty && text.all Char.isDigit

/-- A wildcard in the place of a number. -/
def isWildcard (text : List Char) : Bool := text == ['x'] || text == ['X'] || text == ['*']

/-- A range of numbers whose last places are left open. -/
def isXRange (text : List Char) : Bool :=
  match text.splitOn '.' with
  -- Each place may be a wildcard once the places before it are figures.
  | [major] => isFigures major
  | [major, minor] => isFigures major && (isFigures minor || isWildcard minor)
  | [major, minor, patch] => isFigures major && isFigures minor && isWildcard patch
  | _ => false

/-- Why an entry is left alone. -/
inductive ManifestWarningCode where
  | packageNotPresent
  | valueNotString
  | unparseableRange
  | targetUnparseable
  | alreadySatisfied
  | lockfileRegenerationRequired
  | lockfileNotEdited
  | duplicateKeysCollapsed
  deriving Repr, DecidableEq

/-- A note on an edit. -/
structure ManifestWarning where
  code : ManifestWarningCode
  package : Option String
  detail : String
  deriving Repr, DecidableEq

/-- What is decided for one entry: its new range, a note, and whether its text differs. -/
structure EntryRewrite where
  newRange : Option String
  warning : Option ManifestWarning
  changed : Bool
  deriving Repr, DecidableEq

/-- An entry that is left alone, with the reason. -/
def leaveEntry (code : ManifestWarningCode) (package detail : String) : EntryRewrite :=
  ⟨none, some ⟨code, some package, detail⟩, false⟩

/-- The range for a target, with the operator and the letter kept. -/
def bumpForTarget (operator : RangeOperator) (vPrefix : List Char) (target : ParsedVersion) : String :=
  operator.text ++ String.ofList vPrefix ++ target.raw

/-- Whether a range already covers a target. -/
def satisfiesTarget (operator : RangeOperator) (current target : ParsedVersion) : Bool :=
  let order := compareVersions current target
  match operator with
  -- A pin is satisfied by its own version only.
  | .bare | .eq => order == .eq
  | .caret | .tilde | .ge | .gt => order != .lt
  -- An upper bound never counts as reaching the target.
  | .le | .lt => false

/-- Texts that name no version: wildcards and tags. -/
def isTagOrWildcard (stripped : String) : Bool :=
  ["", "*", "x", "X", "latest", "next"].contains stripped || lower stripped == "latest"

/-- Texts that are no range of one operator: several ranges, aliases and other sources. -/
def isForeignRange (stripped : String) : Bool :=
  containsText stripped "||" || containsText stripped " " ||
    ["npm:", "file:", "link:", "workspace:", "git", "http"].any (startsWith (lower stripped)) ||
    containsText stripped "://"

/-- The new range of one entry, if it is to be rewritten; `pyRepr` is how the notes quote a text. -/
def rewriteEntry (table : DigitTable) (pyRepr : String → String)
    (package sectionName currentRange target : String) : Except ValueError EntryRewrite := do
  match ← parseVersion table target with
  | none =>
      return leaveEntry .targetUnparseable package
        ("recommended version " ++ pyRepr target ++ " is not a comparable version")
  | some targetParsed =>
    let stripped := strip currentRange
    if isTagOrWildcard stripped then
      return leaveEntry .unparseableRange package
        ("range " ++ pyRepr currentRange ++ " in " ++ sectionName ++ " is a wildcard/dist-tag; " ++
          "left unchanged (it already permits the fix or is non-numeric)")
    if isForeignRange stripped then
      return leaveEntry .unparseableRange package
        ("range " ++ pyRepr currentRange ++ " in " ++ sectionName ++ " is a compound/alias/" ++
          "non-registry source; left unchanged (cannot safely rewrite)")
    -- A range with open places becomes a caret on the target.
    if isXRange stripped.toList then
      let newRange := "^" ++ targetParsed.raw
      return ⟨some newRange, none, newRange != currentRange⟩
    match simpleRange stripped.toList with
    | none =>
        return leaveEntry .unparseableRange package
          ("range " ++ pyRepr currentRange ++ " in " ++ sectionName ++
            " is not a simple range; left unchanged")
    | some (operator, vPrefix, core) =>
      match ← parseVersion table (String.ofList core) with
      | none =>
          return leaveEntry .unparseableRange package
            ("version " ++ pyRepr (String.ofList core) ++ " in " ++ sectionName ++
              " range did not parse; left unchanged")
      | some currentParsed =>
        if satisfiesTarget operator currentParsed targetParsed then
          return leaveEntry .alreadySatisfied package
            (sectionName ++ " range " ++ pyRepr currentRange ++ " already satisfies " ++ pyRepr target ++
              "; no bump")
        let newRange := bumpForTarget operator vPrefix targetParsed
        return ⟨some newRange, none, newRange != currentRange⟩

end Trusca
