import Trusca.Data.Casing
import Trusca.Data.Pattern
import Trusca.Data.Text

/-! The SPDX id that a licence's name stands for, if one is recognised. -/

namespace Trusca

/-- The longest part of a name that is looked at. -/
def maxLicenseNameLen : Nat := 200

/-- A character that separates words. -/
def isNameSeparator (character : Char) : Bool :=
  [' ', ',', '.', '_', '/', '-'].contains character

/-- A text with one blank for each run of separators; the flag tells that a run is going on. -/
def collapseFrom (running : Bool) : List Char → List Char
  | [] => []
  | character :: rest =>
      -- A run of separators becomes one blank.
      if isNameSeparator character then
        if running then collapseFrom true rest else ' ' :: collapseFrom true rest
      else character :: collapseFrom false rest

/-- The characters without white space at their ends. -/
def stripChars (text : List Char) : List Char :=
  ((text.dropWhile isSpace).reverse.dropWhile isSpace).reverse

/-- The form in which names are compared. -/
def canon (table : CaseTable) (raw : String) : List Char :=
  stripChars (collapseFrom false (table.lowerText (raw.toList.take maxLicenseNameLen)))

/-- A rule: the alternatives of its pattern, and the id that it stands for, or none for a compound
expression. -/
abbrev NameRule := List (List PatternPiece) × Option String

/-- The rules for the AGPL and the LGPL, which come before those for the GPL. -/
def variantRules : List NameRule :=
  -- The later version is looked for before the exact one, and AGPL before LGPL.
  [([row ["affero general public", "3", "later"]], some "AGPL-3.0-or-later"),
   ([row ["affero general public", "3"]], some "AGPL-3.0-only"),
   ([row ["lesser general public", "2 1", "later"], row ["library general public", "2 1", "later"]],
     some "LGPL-2.1-or-later"),
   ([row ["lesser general public", "2 1"], row ["library general public", "2 1"]], some "LGPL-2.1-only"),
   ([row ["lesser general public", "3", "later"], row ["library general public", "3", "later"]],
     some "LGPL-3.0-or-later"),
   ([row ["lesser general public", "3"], row ["library general public", "3"]], some "LGPL-3.0-only")]

/-- The rules for the GPL. -/
def gplRules : List NameRule :=
  [([row ["general public", "2", "later"]], some "GPL-2.0-or-later"),
   ([row ["general public", "2 0"], row ["general public", "v2"]], some "GPL-2.0-only"),
   ([row ["general public", "3", "later"]], some "GPL-3.0-or-later"),
   ([row ["general public", "3"]], some "GPL-3.0-only")]

/-- The guard against compound expressions. -/
def compoundRule : NameRule := ([row [" or "], row [" and "]], none)

/-- The pieces of a text that stands as words of its own. -/
def wholeWords (letters : String) : List PatternPiece := [.edge, .text letters, .edge]

/-- The clauses that a plain attribution licence does not have. -/
def restrictedClauses : List (String × Bool) :=
  [("noncommercial", false), ("noderiv", false), ("nc", true), ("nd", true)]

/-- The rules for the other licences. -/
def aliasRules : List NameRule :=
  [([row ["apache", "2"]], some "Apache-2.0"),
   ([row ["apache", "1 1"]], some "Apache-1.1"),
   ([row ["mit 0"], row ["mit no attribution"]], some "MIT-0"),
   ([row ["mit license"], [.start, .text "mit", .stop], row ["expat"], row ["mit x11"], row ["x11 mit"]],
     some "MIT"),
   ([row ["boost software"]], some "BSL-1.0"),
   ([row ["artistic", "2"]], some "Artistic-2.0"),
   ([row ["open font"], wholeWords "ofl"], some "OFL-1.1"),
   ([row ["postgresql"]], some "PostgreSQL"),
   ([row ["universal permissive"], wholeWords "upl"], some "UPL-1.0"),
   ([row ["academic free"]], some "AFL-3.0"),
   ([row ["blue oak"]], some "BlueOak-1.0.0"),
   ([row ["microsoft public"], wholeWords "ms pl"], some "MS-PL"),
   ([row ["microsoft reciprocal"], wholeWords "ms rl"], some "MS-RL"),
   ([row ["php license"], wholeWords "php" ++ [PatternPiece.anything, .text "3"]], some "PHP-3.01"),
   ([row ["openssl"]], some "OpenSSL"),
   ([wholeWords "curl"], some "curl"),
   ([wholeWords "ntp"], some "NTP"),
   ([row ["ruby license"], [.start, .text "ruby", .stop]], some "Ruby"),
   ([wholeWords "x11"], some "X11"),
   ([row ["creative commons attribution noncommercial noderiv", "4"], wholeWords "cc by nc nd 4"],
     some "CC-BY-NC-ND-4.0"),
   ([row ["creative commons attribution noncommercial share", "4"], wholeWords "cc by nc sa 4"],
     some "CC-BY-NC-SA-4.0"),
   ([row ["creative commons attribution noncommercial", "4"], wholeWords "cc by nc 4"],
     some "CC-BY-NC-4.0"),
   ([row ["creative commons attribution noderiv", "4"], wholeWords "cc by nd 4"], some "CC-BY-ND-4.0"),
   ([row ["creative commons attribution share", "4"], wholeWords "cc by sa 4"], some "CC-BY-SA-4.0"),
   -- An unforeseen restricted spelling must not pass for the plain licence.
   ([[.text "creative commons attribution", .notAhead restrictedClauses, .anything, .text "4"],
     wholeWords "cc by 4"], some "CC-BY-4.0"),
   ([row ["eclipse distribution"], [.start, .text "edl "]], some "BSD-3-Clause"),
   ([row ["eclipse public", "2"]], some "EPL-2.0"),
   ([row ["eclipse public", "1"]], some "EPL-1.0"),
   ([wholeWords "zlib"], some "Zlib"),
   ([row ["libpng"]], some "Libpng"),
   ([row ["bsd", "4"]], some "BSD-4-Clause"),
   ([row ["bsd", "3"]], some "BSD-3-Clause"),
   ([row ["bsd", "2"]], some "BSD-2-Clause")]

/-- All rules, in the order in which they are tried. -/
def nameRules : List NameRule := variantRules ++ gplRules ++ compoundRule :: aliasRules

section Aliases

variable {κ : Type} [DecidableEq κ]

/-- The id that a key is claimed for, if it is claimed for one id only. -/
def soleOwner (claims : List (κ × String)) (key : κ) : Option String :=
  match ((claims.filter fun claim => claim.1 = key).map Prod.snd).dedup with
  | [owner] => some owner
  | _ => none

/-- A licence of the vendored snapshot: its id and its aliases. -/
structure OsoriLicense where
  spdxId : String
  aliases : List String
  deriving Repr, DecidableEq

/-- The claims of the snapshot for its aliases in lower case. -/
def osoriClaims (table : CaseTable) (snapshot : List OsoriLicense) : List (List Char × String) :=
  snapshot.flatMap fun license =>
    (license.aliases.filterMap fun alternative =>
      let key := table.lowerText (stripChars alternative.toList)
      if key = [] then none else some key).map fun key => (key, license.spdxId)

/-- The aliases that one licence alone claims. -/
def osoriAliasMap (table : CaseTable) (snapshot : List OsoriLicense) : List (List Char × String) :=
  ((osoriClaims table snapshot).map Prod.fst).dedup.filterMap fun key =>
    (soleOwner (osoriClaims table snapshot) key).map fun owner => (key, owner)

/-- The claims for the aliases in the form in which names are compared. -/
def osoriCanonicalClaims (table : CaseTable) (snapshot : List OsoriLicense) :
    List (List Char × String) :=
  (osoriAliasMap table snapshot).filterMap fun entry =>
    let key := canon table (String.ofList entry.1)
    if key = [] then none else some (key, entry.2)

/-- The id of an alias in that form, unless two licences claim it. -/
def osoriAlias (table : CaseTable) (snapshot : List OsoriLicense) (canonical : List Char) :
    Option String :=
  soleOwner (osoriCanonicalClaims table snapshot) canonical

end Aliases

/-- The id that a name stands for, if it is recognised. -/
def normalizeLicenseName (table : CaseTable) (snapshot : List OsoriLicense) (raw : Option String) :
    Option String :=
  match raw with
  | none => none
  | some text =>
      if text = "" then none
      else
        let name := canon table text
        if name = [] then none
        else
          match nameRules.find? fun rule => search table.word rule.1 name with
          | some rule => rule.2
          -- The curated aliases come last, so that none of them hides a rule.
          | none => osoriAlias table snapshot name

end Trusca
