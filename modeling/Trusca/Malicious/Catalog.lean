import Trusca.Upgrade.Version

/-! The catalogue of malicious packages: the identity of a package in it, and the verdict on one. -/

namespace Trusca

/-- A package URL without qualifiers, subpath and version. -/
def basePurl (purlWithVersion : String) : String :=
  let head := (purlWithVersion.toList.takeWhile (· ≠ '?')).takeWhile (· ≠ '#')
  -- Only a separator after the last slash starts a version; an earlier one marks an npm scope.
  let segment := (head.reverse.takeWhile (· ≠ '/')).reverse
  let position := head.length - segment.length + segment.findIdx (· == '@')
  if segment.contains '@' && 0 < position then String.ofList (head.take position)
  else String.ofList head

/-- The version of a package URL, or none when it has none. -/
def versionFromPurl (purlWithVersion : String) : Option String :=
  -- Qualifiers and subpath go first, so an @ in them is no version.
  let head := (purlWithVersion.toList.takeWhile (· ≠ '?')).takeWhile (· ≠ '#')
  let segment := (head.reverse.takeWhile (· ≠ '/')).reverse
  -- `rfind` of the last segment's marker; at the very start it marks a scope.
  let position := head.length - segment.length + segment.findIdx (· == '@')
  if segment.contains '@' && 0 < position then
    let version := String.ofList (head.drop (position + 1))
    if version = "" then none else some version
  else none

/-- What is known of the malicious packages, by their identity. -/
structure MaliciousIndex where
  snapshot : String
  /-- The advisory of every package. -/
  packages : List (String × String)
  /-- The versions that an advisory names; without an entry it is about all of them. -/
  versions : List (String × List String)
  /-- The release at which the compromise of a package ended. -/
  fixedBefore : List (String × String)
  deriving Repr

/-- The answers of the catalogue of malicious packages. -/
inductive MaliciousState where
  | flagged
  | clear
  deriving Repr, DecidableEq

/-- The verdict on one component. -/
structure MaliciousVerdict where
  state : MaliciousState
  /-- The advisory, where the component is flagged. -/
  advisoryId : Option String
  source : String
  deriving Repr, DecidableEq

section Verdict

variable (table : DigitTable)

/-- The numbers that the segments begin with, up to the first segment without one. -/
def segmentKeys : List (List Char) → Except ValueError (List Nat)
  | [] => .ok []
  | segment :: rest =>
      let digits := segment.takeWhile table.isDigit
      -- The key ends at the first segment that does not begin with a digit.
      if digits.isEmpty then .ok []
      else do
        -- `int` refuses a number of too many digits, and that is not caught.
        let number ← readInt table digits
        let numbers ← segmentKeys rest
        return number :: numbers

/-- The numbers of a version, for the comparison with a fix. -/
def versionKey (value : String) : Except ValueError (List Nat) :=
  segmentKeys table (value.toList.splitOn '.')

/-- The verdict on a component. What is not in the index is clear. -/
def MaliciousIndex.verdictFor (index : MaliciousIndex) (purlWithVersion : String)
    (version : Option String) : Except ValueError MaliciousVerdict :=
  let source := "osv.dev@" ++ index.snapshot
  let clear : MaliciousVerdict := ⟨.clear, none, source⟩
  let key := basePurl purlWithVersion
  match index.packages.lookup key with
  | none => .ok clear
  | some advisoryId =>
      let flagged : MaliciousVerdict := ⟨.flagged, some advisoryId, source⟩
      match version with
      | none => .ok flagged
      | some version =>
          let pinned := (index.versions.lookup key).getD []
          if !pinned.isEmpty && !pinned.contains version then .ok clear
          else
            match index.fixedBefore.lookup key with
            | none => .ok flagged
            | some fixed =>
                if fixed = "" then .ok flagged
                else do
                  let installedKey ← versionKey table version
                  let fixedKey ← versionKey table fixed
                  -- A version without numbers keeps the flag.
                  if !installedKey.isEmpty && !fixedKey.isEmpty &&
                      (compareSequences Ord.compare fixedKey installedKey).isLE then
                    return clear
                  else return flagged

end Verdict

end Trusca
