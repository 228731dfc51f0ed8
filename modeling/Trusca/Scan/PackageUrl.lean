import Trusca.Data.Percent
import Trusca.Data.Segments

/-! The package URLs that identify a component and its versions in the database. -/

namespace Trusca

/-- A package URL without its version, which identifies a component. -/
def purlWithoutVersion (purl : String) : String :=
  match rfind purl.toList ['@'] with
  | some position => if 0 < position then String.ofList (purl.toList.take position) else purl
  | none => purl

/-- What follows the last slash of a text. -/
def lastSegment (text : List Char) : List Char := (text.reverse.takeWhile (· ≠ '/')).reverse

/-- A package URL with a version in its place, in front of the qualifiers and the subpath. It is left as
it is when there is no version to pin, and when it has one. -/
def purlPinnedToVersion (purl version : String) : String :=
  let text := strip version
  -- Without a version to add the address stays.
  if text = "" ∨ text = "unknown" then purl
  else
    let (beforeHash, hashSign, subpath) := partition '#' purl
    let (base, question, qualifiers) := partition '?' beforeHash
    -- A marker in the last segment is taken for a version.
    if (lastSegment base.toList).contains '@' then purl
    else
      -- The version goes before the qualifiers and the subpath.
      base ++ "@" ++ quote [':'] text ++ (if question then "?" else "") ++ qualifiers ++
        (if hashSign then "#" else "") ++ subpath

end Trusca
