import Mathlib.Data.String.Basic
import Trusca.Data.JsonText

/-! The viewer of a scan's preserved source: which member of the archive a path names, what is shown of it, and
which licence matches are shown beside its lines. -/

namespace Trusca

/-- The kinds of members of an archive. -/
inductive MemberKind where
  | regular
  | directory
  | symlink
  | hardlink
  | characterDevice
  | blockDevice
  | fifo
  | other
  deriving Repr, DecidableEq

/-- A member of the preserved archive. -/
structure SourceMember where
  name : String
  kind : MemberKind
  body : ByteArray

/-- Why a file is not shown. -/
inductive SourceTreeError where
  | pathRejected
  | rootDirectory
  | directory (path : String)
  | irregular (path : String) (kind : MemberKind)
  | noSuchFile (path : String)
  deriving Repr, DecidableEq

/-- What escapes from reading the results of the licence scan. -/
inductive ScancodeFault where
  /-- An integer has too many figures. -/
  | valueError
  /-- The document is too deep. -/
  | recursionError
  /-- A score is too large for a floating-point number. -/
  | overflowError
  deriving Repr, DecidableEq

/-- How a read of a file fails: it is refused, or something escapes from it. -/
inductive ReadFileError where
  | refused (reason : SourceTreeError)
  | escaped (fault : ScancodeFault)
  deriving Repr, DecidableEq

/-- How the bytes of a file are read. -/
inductive FileEncoding where
  | utf8
  | binary
  deriving Repr, DecidableEq

/-- A licence that was found in some lines; the score is the floating-point number closest to the one given. -/
structure LineMatch where
  spdxId : PyText
  startLine : Int
  endLine : Int
  score : Option JsonNumber
  deriving Repr, DecidableEq

/-- What is shown of a file. -/
structure FileContent where
  path : String
  byteSize : Nat
  truncated : Bool
  encoding : FileEncoding
  content : Option String
  licenseMatches : List LineMatch

/-- The parts of a path, where a backslash counts as a slash. -/
def pathParts (path : String) : List (List Char) :=
  (path.toList.map fun character => if character = '\\' then '/' else character).splitOn '/'

/-- The path of the parts that are neither empty nor a dot. -/
def joinParts (parts : List (List Char)) : String :=
  String.ofList (['/'].intercalate (parts.filter fun part => part ≠ [] ∧ part ≠ ['.']))

/-- The member that a path of a request names; the empty path is the root. -/
def sanitizeMemberPath (raw : String) : Except SourceTreeError String :=
  if '\x00' ∈ raw.toList then .error .pathRejected
  else if raw.toList.head? = some '/' ∨ raw.toList.head? = some '\\' then .error .pathRejected
  else if "..".toList ∈ pathParts raw then .error .pathRejected
  -- The history of the repository is never shown.
  else if ".git".toList ∈ pathParts raw then .error .pathRejected
  else .ok (joinParts (pathParts raw))

/-- The name of a member in the form of a sanitized path. -/
def canonicalArcname (name : String) : String := joinParts (pathParts name)

/-- The first member under a path. -/
def lookupMember (members : List SourceMember) (path : String) : Except SourceTreeError SourceMember :=
  -- The first member of that name, as the archive lists them.
  match members.find? fun member => canonicalArcname member.name = path with
  | some member => .ok member
  | none =>
      -- A path that only leads to others is a directory, and told apart from nothing.
      if members.any fun member => (path.toList ++ ['/']).isPrefixOf (canonicalArcname member.name).toList then
        .error (.directory path)
      else .error (.noSuchFile path)

/-- Whether some bytes are a text, and which one. -/
def detectEncoding (bytes : ByteArray) : FileEncoding × Option String :=
  if 0 ∈ bytes.data.toList then (.binary, none)
  else
    match String.fromUTF8? bytes with
    | some text => (.utf8, some text)
    | none => (.binary, none)

section Matches

/-- Whether a number becomes zero as a floating-point one. -/
def JsonNumber.isZero : JsonNumber → Bool
  | .integer value => value == 0
  | .decimal figures power =>
      -- Half of the smallest number above zero is rounded to zero.
      if 0 ≤ power then figures == 0 else decide (figures.natAbs * 2 ^ 1075 ≤ 10 ^ (-power).toNat)
  | .infinity _ | .nan => false

/-- Whether a value counts as true. -/
def isTruthy : PyJson JsonNumber → Bool
  -- Python's truth of a value read from JSON.
  | .null => false
  | .bool value => value
  | .num number => !number.isZero
  | .str text => !text.isEmpty
  | .arr items => !items.isEmpty
  | .obj fields => !fields.isEmpty

/-- A line number; the words true and false count as one and zero. -/
def lineNumber : Option (PyJson JsonNumber) → Option Int
  | some (.num (.integer value)) => some value
  | some (.bool value) => some (if value then 1 else 0)
  | _ => none

/-- The licence and the lines of an entry, when it names a licence and its lines are in order. -/
def matchSpan (entry : PyJson JsonNumber) : Option (PyText × Int × Int) :=
  -- `or`, so an empty expression falls back to the older field.
  let spdx := ((entry.get? "license_expression_spdx").filter isTruthy).or (entry.get? "spdx_license_expression")
  match spdx, lineNumber (entry.get? "start_line"), lineNumber (entry.get? "end_line") with
  | some (.str text), some first, some last =>
      -- A span without a licence, or one that ends before it starts, is not shown.
      if PyText.strip text = [] ∨ first < 1 ∨ last < first then none
      else some (PyText.strip text, first, last)
  | _, _, _ => none

/-- The score of an entry; the conversion of a large integer raises. -/
def matchScore (entry : PyJson JsonNumber) : Except ScancodeFault (Option JsonNumber) :=
  match entry.get? "score" with
  | some (.num (.integer value)) =>
      if floatOverflow ≤ value.natAbs then .error .overflowError else .ok (some (.integer value))
  | some (.num number) => .ok (some number)
  | _ => .ok none

/-- One licence match, or none for an entry that is not well formed. -/
def parseMatch (entry : PyJson JsonNumber) : Except ScancodeFault (Option LineMatch) :=
  match matchSpan entry with
  | none => .ok none
  | some (spdxId, startLine, endLine) => do
      let score ← matchScore entry
      return some ⟨spdxId, startLine, endLine, score⟩

/-- The path of an entry, where a backslash counts as a slash. -/
def canonicalCodes (path : PyText) : PyText :=
  [47].intercalate (((path.map fun code => if code = 92 then 47 else code).splitOn 47).filter fun part =>
    part ≠ [] ∧ part ≠ [46])

/-- The entries for the matches of one path. -/
def matchEntries (data : PyJson JsonNumber) (memberPath : String) : List (PyJson JsonNumber) :=
  (PyJson.asList (data.get? "files")).flatMap fun entry =>
    match entry.get? "path" with
    | some (.str path) =>
        -- Paths are compared in their canonical form.
        if canonicalCodes path = PyText.of memberPath then
          (PyJson.asList (entry.get? "license_detections")).flatMap fun detection =>
            PyJson.asList (detection.get? "matches")
        else []
    | _ => []

/-- The licence matches of one path in the results of the licence scan. -/
def matchesFromScancode (data : PyJson JsonNumber) (memberPath : String) :
    Except ScancodeFault (List LineMatch) := do
  let found ← (matchEntries data memberPath).mapM parseMatch
  return found.reduceOption

/-- Where the archive holds the results of the licence scan. -/
def scancodeMemberName : String := ".trustedoss/scancode.json"

/-- How far the results are read: to a number of bytes, and to a depth. -/
structure ScancodeLimits where
  maxResultBytes : Nat
  depth : Nat

/-- The licence matches of one path, from the results that the archive holds. -/
def lineMatchesForPath (members : List SourceMember) (limits : ScancodeLimits) (memberPath : String) :
    Except ScancodeFault (List LineMatch) :=
  match members.find? fun member => canonicalArcname member.name = scancodeMemberName with
  | none => .ok []
  | some member =>
      if member.kind ≠ .regular then .ok []
      else if limits.maxResultBytes < member.body.size then .ok []
      else
        match String.fromUTF8? member.body with
        | none => .ok []
        | some text =>
            -- Only a text that is not JSON is caught.
            match jsonLoads limits.depth text.toList with
            | .error .malformed => .ok []
            | .error .tooManyDigits => .error .valueError
            | .error .tooDeep => .error .recursionError
            | .ok data => matchesFromScancode data memberPath

end Matches

/-- Read one file of the preserved source. -/
def readFile (members : List SourceMember) (limits : ScancodeLimits) (cap : Nat) (rawPath : String) :
    Except ReadFileError FileContent := do
  let path ← (sanitizeMemberPath rawPath).mapError .refused
  if path = "" then throw (.refused .rootDirectory)
  let member ← (lookupMember members path).mapError .refused
  if member.kind = .directory then throw (.refused (.directory path))
  if member.kind ≠ .regular then throw (.refused (.irregular path member.kind))
  -- One byte more than is shown tells whether there is more.
  let read := member.body.extract 0 (cap + 1)
  let truncated := decide (cap < read.size)
  let shown := if truncated then read.extract 0 cap else read
  let (encoding, content) := detectEncoding shown
  let licenseMatches ← (lineMatchesForPath members limits path).mapError .escaped
  return { path, byteSize := member.body.size, truncated, encoding, content, licenseMatches }

end Trusca
