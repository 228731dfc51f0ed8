import Trusca.Data.Json
import Trusca.Data.Text
import Trusca.Store.Select

/-! The licence expression that a component of a scan is stored with. -/

namespace Trusca

/-- A text without control characters other than tabs, and without white space at its ends. -/
def sanitizeJsonbText (value : String) : String :=
  strip (String.ofList (value.toList.filter fun character =>
    character == '\t' || (0x20 ≤ character.toNat && character.toNat != 0x7F)))

/-- The type of a package URL. -/
def purlPackageType (purl : String) : String :=
  if ['p', 'k', 'g', ':'].isPrefixOf purl.toList then
    let rest := purl.toList.drop 4
    let kind := rest.takeWhile (· ≠ '/')
    if rest.contains '/' && !kind.isEmpty then String.ofList kind else "unknown"
  else "unknown"

/-- The types of packages all of whose listed licences apply. -/
def osPackageTypes : List String := ["deb", "rpm", "apk"]

/-- The longest licence expression that is stored. -/
def maxSpdxIdLen : Nat := 64

section Extract

variable (normalizeLicenseName : String → Option String)

/-- A text that is left after cleaning, if there is one. -/
def cleanedText : Option Json → Option String
  | some (.str text) => if sanitizeJsonbText text = "" then none else some (sanitizeJsonbText text)
  | _ => none

/-- The id of a licence, by its id or else by its name, with its address. -/
def licenseIdOf (license : Json) : Option (String × Option String) :=
  -- An id stands as it is, a name has to be known.
  match cleanedText (license.get? "id") with
  | some spdxId => some (spdxId, cleanedText (license.get? "url"))
  | none =>
      match license.get? "name" with
      | some (.str name) =>
          if name = "" then none
          else
            match normalizeLicenseName name with
            | some normalized =>
                -- The address is kept with either.
                if normalized = "" then none else some (normalized, cleanedText (license.get? "url"))
            | none => none
      | _ => none

/-- What one entry of a component's licences says: a licence, or else an expression. -/
def licenseEntryOf (entry : Json) : Option (String × Option String) :=
  match (entry.get? "license").bind (licenseIdOf normalizeLicenseName) with
  | some found => some found
  | none => (cleanedText (entry.get? "expression")).map fun expression => (expression, none)

/-- What the entries of a component's licences say. -/
def licenseEntriesOf (component : Json) : List (String × Option String) :=
  match component.get? "licenses" with
  | some (.arr licenses) => licenses.filterMap (licenseEntryOf normalizeLicenseName)
  | _ => []

/-- Whether all licences of a component apply: those of a package of an operating system. -/
def allApply (component : Json) : Bool :=
  match component.get? "purl" with
  | some (.str purl) => osPackageTypes.contains (purlPackageType purl)
  | _ => false

/-- The expressions that a component is stored with. The entries are alternatives, unless all of them
apply. -/
def extractSpdxIds (component : Json) : List (String × Option String) :=
  let separate := licenseEntriesOf normalizeLicenseName component
  -- All apply: one observation for each licence.
  if allApply component then
    Store.distinctOn Prod.fst (separate.filter fun entry => entry.1.length ≤ maxSpdxIdLen)
  else if separate.isEmpty then []
  else
    -- A choice: one expression, or nothing when it would be too long.
    let combined := " OR ".intercalate (separate.map Prod.fst)
    if combined.length ≤ maxSpdxIdLen then [(combined, separate.findSome? Prod.snd)] else []

end Extract

end Trusca
