import Mathlib.Data.List.Basic
import Mathlib.Data.Option.Basic
import Trusca.Data.Segments

/-! Semantic versions, their order, and the ranges of versions that npm reads. -/

namespace Trusca

/-- A pre-release identifier. -/
inductive SemVerId where
  | number (value : Nat)
  | word (text : String)
  deriving Repr, DecidableEq

/-- A semantic version; build metadata takes no part in it. -/
structure SemVer where
  major : Nat
  minor : Nat
  patch : Nat
  pre : List SemVerId
  deriving Repr, DecidableEq

section Order

/-- Numbers come before words. -/
def SemVerId.lt : SemVerId → SemVerId → Bool
  | .number left, .number right => left < right
  | .number _, .word _ => true
  | .word _, .number _ => false
  | .word left, .word right => left < right

/-- The first difference decides, and then the shorter sequence comes first. -/
def preBefore : List SemVerId → List SemVerId → Bool
  | [], [] => false
  | [], _ :: _ => true
  | _ :: _, [] => false
  | left :: lefts, right :: rights => left.lt right || (left == right && preBefore lefts rights)

/-- Whether a version comes before another; a pre-release comes before its release. -/
def SemVer.lt (first second : SemVer) : Bool :=
  -- Major, minor and patch, and a pre-release comes before the version itself.
  first.major < second.major || (first.major == second.major &&
    (first.minor < second.minor || (first.minor == second.minor &&
      (first.patch < second.patch || (first.patch == second.patch &&
        match first.pre, second.pre with
        | [], _ => false
        | _ :: _, [] => true
        | lefts, rights => preBefore lefts rights)))))

/-- Whether two versions are pre-releases of one release. -/
def SemVer.samePrerelease (first second : SemVer) : Prop :=
  first.pre ≠ [] ∧ second.pre ≠ [] ∧
    first.major = second.major ∧ first.minor = second.minor ∧ first.patch = second.patch

/-- No identifiers come before themselves. -/
theorem preBefore_irrefl (ids : List SemVerId) : preBefore ids ids = false := by
  induction ids with
  | nil => rfl
  | cons id rest ih => cases id <;> simp [preBefore, SemVerId.lt, ih]

/-- No version is below itself. -/
theorem SemVer.lt_irrefl (version : SemVer) : version.lt version = false := by
  obtain ⟨major, minor, patch, pre⟩ := version
  cases pre with
  | nil => simp [SemVer.lt]
  | cons id rest => simp [SemVer.lt, preBefore_irrefl]

end Order

section Ranges

/-- The operators that a range may start with. -/
inductive RangeOperator where
  | bare
  | caret
  | tilde
  | ge
  | le
  | gt
  | lt
  | eq
  deriving Repr, DecidableEq

/-- An operator as it is written. -/
def RangeOperator.text : RangeOperator → String
  | .bare => ""
  | .caret => "^"
  | .tilde => "~"
  | .ge => ">="
  | .le => "<="
  | .gt => ">"
  | .lt => "<"
  | .eq => "="

/-- The operator that a text starts with, and what follows it. -/
def takeOperator : List Char → RangeOperator × List Char
  -- The two-character operators first.
  | '^' :: rest => (.caret, rest)
  | '~' :: rest => (.tilde, rest)
  | '>' :: '=' :: rest => (.ge, rest)
  | '<' :: '=' :: rest => (.le, rest)
  | '>' :: rest => (.gt, rest)
  | '<' :: rest => (.lt, rest)
  | '=' :: rest => (.eq, rest)
  | rest => (.bare, rest)

/-- A version whose last places may be open. -/
structure PartialVersion where
  major : Option Nat
  minor : Option Nat
  patch : Option Nat
  pre : List SemVerId
  deriving Repr, DecidableEq

/-- A version in a range with zeros in its open places. -/
def PartialVersion.floor (read : PartialVersion) : SemVer :=
  ⟨read.major.getD 0, read.minor.getD 0, read.patch.getD 0, read.pre⟩

/-- A range of one operator. -/
structure NpmRange where
  operator : RangeOperator
  version : PartialVersion
  deriving Repr, DecidableEq

/-- How a comparator bounds a version. -/
inductive Bound where
  | lt
  | le
  | gt
  | ge
  | eq
  deriving Repr, DecidableEq

/-- One bound of a range. -/
structure Comparator where
  bound : Bound
  version : SemVer
  deriving Repr, DecidableEq

/-- Whether a version is within a bound. -/
def Comparator.holds (comparator : Comparator) (version : SemVer) : Bool :=
  match comparator.bound with
  -- Only strict order is decided, and the other bounds are its negations.
  | .lt => version.lt comparator.version
  | .le => !comparator.version.lt version
  | .gt => comparator.version.lt version
  | .ge => !version.lt comparator.version
  | .eq => version == comparator.version

/-- The first version of a number of places, before all of its pre-releases. -/
def before (major minor patch : Nat) : Comparator := ⟨.lt, ⟨major, minor, patch, [.number 0]⟩⟩

/-- The bounds that a range stands for. -/
def NpmRange.comparators (range : NpmRange) : List Comparator :=
  match range.version.major, range.version.minor, range.version.patch with
  | none, _, _ =>
      match range.operator with
      | .gt | .lt => [before 0 0 0]
      | _ => []
  | some major, none, _ =>
      match range.operator with
      | .bare | .eq | .caret | .tilde => [⟨.ge, ⟨major, 0, 0, []⟩⟩, before (major + 1) 0 0]
      | .ge => [⟨.ge, ⟨major, 0, 0, []⟩⟩]
      | .gt => [⟨.ge, ⟨major + 1, 0, 0, []⟩⟩]
      | .lt => [before major 0 0]
      | .le => [before (major + 1) 0 0]
  | some major, some minor, none =>
      match range.operator with
      | .bare | .eq | .tilde => [⟨.ge, ⟨major, minor, 0, []⟩⟩, before major (minor + 1) 0]
      | .caret =>
          [⟨.ge, ⟨major, minor, 0, []⟩⟩,
            if major = 0 then before 0 (minor + 1) 0 else before (major + 1) 0 0]
      | .ge => [⟨.ge, ⟨major, minor, 0, []⟩⟩]
      | .gt => [⟨.ge, ⟨major, minor + 1, 0, []⟩⟩]
      | .lt => [before major minor 0]
      | .le => [before major (minor + 1) 0]
  | some major, some minor, some patch =>
      let version : SemVer := ⟨major, minor, patch, range.version.pre⟩
      match range.operator with
      | .bare | .eq => [⟨.eq, version⟩]
      | .tilde => [⟨.ge, version⟩, before major (minor + 1) 0]
      | .caret =>
          -- The leftmost place that is not zero stays as it is.
          [⟨.ge, version⟩,
            if major ≠ 0 then before (major + 1) 0 0
            else if minor ≠ 0 then before 0 (minor + 1) 0 else before 0 0 (patch + 1)]
      | .ge => [⟨.ge, version⟩]
      | .gt => [⟨.gt, version⟩]
      | .lt => [⟨.lt, version⟩]
      | .le => [⟨.le, version⟩]

/-- Whether a range admits a version; a pre-release is only admitted beside one of its own release. -/
def NpmRange.admits (range : NpmRange) (version : SemVer) : Bool :=
  range.comparators.all (·.holds version) &&
    (version.pre == [] || range.comparators.any fun comparator =>
      comparator.version.pre != [] && comparator.version.major == version.major &&
        comparator.version.minor == version.minor && comparator.version.patch == version.patch)

/-- The lower bound of a range, if it has one. -/
def NpmRange.lower (range : NpmRange) : Option SemVer :=
  (range.comparators.find? fun comparator =>
    comparator.bound == .ge || comparator.bound == .gt || comparator.bound == .eq).map Comparator.version

/-- The range of one operator and a whole version. -/
def NpmRange.whole (operator : RangeOperator) (version : SemVer) : NpmRange :=
  ⟨operator, ⟨some version.major, some version.minor, some version.patch, version.pre⟩⟩

/-- The first place in which two versions differ decides. -/
theorem SemVer.lt_major {first second : SemVer} (less : first.major < second.major) :
    first.lt second = true := by
  simp [SemVer.lt, less]

/-- With the same major number, the lesser minor one decides. -/
theorem SemVer.lt_minor {first second : SemVer} (major : first.major = second.major)
    (less : first.minor < second.minor) : first.lt second = true := by
  simp [SemVer.lt, major, less]

/-- With the same major and minor numbers, the lesser patch number decides. -/
theorem SemVer.lt_patch {first second : SemVer} (major : first.major = second.major)
    (minor : first.minor = second.minor) (less : first.patch < second.patch) :
    first.lt second = true := by
  simp [SemVer.lt, major, minor, less]

/-- Where the first bound is at the version itself, only the bounds are asked. -/
theorem NpmRange.admits_own {range : NpmRange} {version : SemVer} {bound : Bound} {more : List Comparator}
    (own : range.comparators = ⟨bound, version⟩ :: more) :
    range.admits version =
      ((⟨bound, version⟩ : Comparator).holds version && more.all (·.holds version)) := by
  have beside : (version.pre == [] || (⟨bound, version⟩ :: more : List Comparator).any fun comparator =>
      comparator.version.pre != [] && comparator.version.major == version.major &&
        comparator.version.minor == version.minor && comparator.version.patch == version.patch) =
      true := by
    cases empty : version.pre <;> simp [empty]
  rw [admits, own, beside, Bool.and_true, List.all_cons]

/-- A version is admitted by a range of its own, unless the operator leaves the version out. -/
theorem NpmRange.admits_whole (operator : RangeOperator) (version : SemVer) :
    (NpmRange.whole operator version).admits version = true ↔ operator ≠ .gt ∧ operator ≠ .lt := by
  -- A version lies in its own range unless the operator asks for a strictly greater or lesser one.
  have same := version.lt_irrefl
  cases operator with
  | caret =>
    rw [@admits_own (whole .caret version) version .ge [_] rfl]
    -- The place below which a caret stays is the first that is not zero.
    by_cases major : version.major = 0
    · by_cases minor : version.minor = 0
      · have next := @SemVer.lt_patch version ⟨0, 0, version.patch + 1, [.number 0]⟩ major minor
          (Nat.lt_succ_self _)
        simp [Comparator.holds, same, before, next, major, minor]
      · have next := @SemVer.lt_minor version ⟨0, version.minor + 1, 0, [.number 0]⟩ major
          (Nat.lt_succ_self _)
        simp [Comparator.holds, same, before, next, major, minor]
    · have next := @SemVer.lt_major version ⟨version.major + 1, 0, 0, [.number 0]⟩
        (Nat.lt_succ_self _)
      simp [Comparator.holds, same, before, next, major]
  | tilde =>
    have next := @SemVer.lt_minor version ⟨version.major, version.minor + 1, 0, [.number 0]⟩ rfl
      (Nat.lt_succ_self _)
    rw [@admits_own (whole .tilde version) version .ge [_] rfl]
    simp [Comparator.holds, same, before, next]
  | bare => simp [@admits_own (whole .bare version) version .eq [] rfl, Comparator.holds]
  | eq => simp [@admits_own (whole .eq version) version .eq [] rfl, Comparator.holds]
  | ge => simp [@admits_own (whole .ge version) version .ge [] rfl, Comparator.holds, same]
  | gt => simp [@admits_own (whole .gt version) version .gt [] rfl, Comparator.holds, same]
  | lt => simp [@admits_own (whole .lt version) version .lt [] rfl, Comparator.holds, same]
  | le => simp [@admits_own (whole .le version) version .le [] rfl, Comparator.holds, same]

/-- A range that is bounded above has no lower bound. -/
theorem NpmRange.lower_of_upper {range : NpmRange} (upper : range.operator = .lt ∨ range.operator = .le) :
    range.lower = none := by
  obtain ⟨operator, ⟨major, minor, patch, pre⟩⟩ := range
  obtain rfl | rfl := upper <;> cases major <;> cases minor <;> cases patch <;> rfl

/-- The lower bound of a range of a whole version is that version, where it has one. -/
theorem NpmRange.lower_whole (operator : RangeOperator) (version : SemVer) :
    (NpmRange.whole operator version).lower =
      if operator = .lt ∨ operator = .le then none else some version := by
  cases operator <;> simp [whole, lower, comparators]

end Ranges

section Reading

/-- A number of at most sixteen figures, without a leading zero. -/
def parseNumber (text : List Char) : Option Nat :=
  if !text.isEmpty && text.all Char.isDigit && (text.length == 1 || text.head? != some '0') &&
      text.length ≤ 16 then
    some (text.foldl (fun value figure => 10 * value + (figure.toNat - '0'.toNat)) 0)
  else none

/-- One place of a range: a number, or a wildcard, which leaves it open. -/
def parsePlace (text : List Char) : Option (Option Nat) :=
  if text == ['x'] || text == ['X'] || text == ['*'] then some none else (parseNumber text).map some

/-- Whether a text is an identifier. -/
def isIdentifier (text : List Char) : Bool :=
  !text.isEmpty && text.all fun character => character.isAlphanum || character == '-'

/-- A pre-release identifier; one of figures is a number. -/
def parseId (text : List Char) : Option SemVerId :=
  if !isIdentifier text then none
  else if text.all Char.isDigit then (parseNumber text).map .number
  else some (.word (String.ofList text))

/-- The pre-release of a version: nothing, or identifiers after a hyphen. -/
def parsePre (suffix : List Char) : Option (List SemVerId) :=
  if suffix.isEmpty then some [] else ((suffix.drop 1).splitOn '.').mapM parseId

/-- The places of a version, before any pre-release and build metadata. -/
def placesOf (text : List Char) : List (List Char) :=
  ((text.takeWhile (· != '+')).takeWhile (· != '-')).splitOn '.'

/-- A version in a range: up to three places, and after all three a pre-release and build metadata. -/
def parsePartial (text : List Char) : Option PartialVersion := do
  -- Build data is read and dropped, after the pre-release has been cut off.
  let build := text.dropWhile (· != '+')
  let suffix := (text.takeWhile (· != '+')).dropWhile (· != '-')
  guard (build.isEmpty || ((build.drop 1).splitOn '.').all isIdentifier)
  let pre ← parsePre suffix
  match placesOf text with
  -- One or two places stand for a range, and take no suffix.
  | [major] => if build.isEmpty && suffix.isEmpty then return ⟨← parsePlace major, none, none, []⟩ else none
  | [major, minor] =>
      if build.isEmpty && suffix.isEmpty then return ⟨← parsePlace major, ← parsePlace minor, none, []⟩
      else none
  | [major, minor, patch] => return ⟨← parsePlace major, ← parsePlace minor, ← parsePlace patch, pre⟩
  | _ => none

/-- The version that a text names: all three places, after an optional letter. -/
def npmVersion (text : String) : Option SemVer := do
  let characters := (strip text).toList
  let read ← parsePartial (if characters.head? = some 'v' then characters.tail else characters)
  return ⟨← read.major, ← read.minor, ← read.patch, read.pre⟩

/-- Characters that are skipped between the operator and the version of a range. -/
def isRangeFiller (character : Char) : Bool := character == 'v' || character == '=' || character == ' '

/-- The range of one operator that a text names; an empty text leaves everything open. -/
def npmRange (text : String) : Option NpmRange :=
  let characters := (strip text).toList
  if characters.isEmpty then some ⟨.bare, ⟨none, none, none, []⟩⟩
  else
    match takeOperator characters with
    | (operator, rest) => (parsePartial (rest.dropWhile isRangeFiller)).map (NpmRange.mk operator)

/-- The pre-release and what follows it, without build metadata. -/
def suffixOf (text : List Char) : List Char := (text.takeWhile (· != '+')).dropWhile (· != '-')

/-- What is read of one, of two and of three places. -/
theorem parsePartial_cases {text : List Char} {read : PartialVersion}
    (parsed : parsePartial text = some read) :
    (∃ major, placesOf text = [major] ∧ parsePlace major = some read.major ∧ read.minor = none ∧
        read.patch = none ∧ read.pre = [] ∧ suffixOf text = []) ∨
      (∃ major minor, placesOf text = [major, minor] ∧ parsePlace major = some read.major ∧
        parsePlace minor = some read.minor ∧ read.patch = none ∧ read.pre = [] ∧ suffixOf text = []) ∨
      ∃ major minor patch, placesOf text = [major, minor, patch] ∧ parsePlace major = some read.major ∧
        parsePlace minor = some read.minor ∧ parsePlace patch = some read.patch ∧
        parsePre (suffixOf text) = some read.pre := by
  simp only [parsePartial, Option.bind_eq_bind, Option.bind_eq_some_iff, Option.pure_def] at parsed
  obtain ⟨_, -, pre, ids, parsed⟩ := parsed
  -- As many places are written as one, two or three.
  split at parsed
  · rename_i major places
    split_ifs at parsed with plain
    obtain ⟨place, first, same⟩ := Option.bind_eq_some_iff.mp parsed
    cases same
    simp only [Bool.and_eq_true, List.isEmpty_iff] at plain
    exact .inl ⟨major, places, first, rfl, rfl, rfl, plain.2⟩
  · rename_i major minor places
    split_ifs at parsed with plain
    obtain ⟨place, first, parsed⟩ := Option.bind_eq_some_iff.mp parsed
    obtain ⟨second, next, same⟩ := Option.bind_eq_some_iff.mp parsed
    cases same
    simp only [Bool.and_eq_true, List.isEmpty_iff] at plain
    exact .inr (.inl ⟨major, minor, places, first, next, rfl, rfl, plain.2⟩)
  · rename_i major minor patch places
    obtain ⟨place, first, parsed⟩ := Option.bind_eq_some_iff.mp parsed
    obtain ⟨second, next, parsed⟩ := Option.bind_eq_some_iff.mp parsed
    obtain ⟨third, last, same⟩ := Option.bind_eq_some_iff.mp parsed
    cases same
    exact .inr (.inr ⟨major, minor, patch, places, first, next, last, ids⟩)
  · cases parsed

/-- The first place of what is read. -/
theorem place_of_parsePartial {text : List Char} {read : PartialVersion}
    (parsed : parsePartial text = some read) :
    ∃ major more, placesOf text = major :: more ∧ parsePlace major = some read.major := by
  obtain ⟨major, places, first, -⟩ | ⟨major, minor, places, first, -⟩ |
    ⟨major, minor, patch, places, first, -⟩ := parsePartial_cases parsed
  · exact ⟨major, _, places, first⟩
  · exact ⟨major, _, places, first⟩
  · exact ⟨major, _, places, first⟩

/-- What is read of a version starts with a figure or a wildcard. -/
theorem head_of_parsePartial {text : List Char} {read : PartialVersion}
    (parsed : parsePartial text = some read) :
    ∃ first rest, text = first :: rest ∧
      (first.isDigit = true ∨ first ∈ ['x', 'X', '*'] ∧ read.major = none) := by
  obtain ⟨major, more, places, place⟩ := place_of_parsePartial parsed
  -- The first place is one character of a wildcard, or figures.
  obtain ⟨first, rest, rfl, kind⟩ : ∃ first rest, major = first :: rest ∧
      (first.isDigit = true ∨ first ∈ ['x', 'X', '*'] ∧ read.major = none) := by
    unfold parsePlace at place
    split_ifs at place with wild
    · simp only [Bool.or_eq_true, beq_iff_eq] at wild
      have undecided := (Option.some.inj place).symm
      obtain (rfl | rfl) | rfl := wild <;> exact ⟨_, [], rfl, .inr ⟨by decide, undecided⟩⟩
    · obtain ⟨value, number, -⟩ := Option.map_eq_some_iff.mp place
      unfold parseNumber at number
      split_ifs at number with figures
      cases major with
      | nil => simp at figures
      | cons first rest =>
        simp only [List.all_cons, Bool.and_eq_true] at figures
        exact ⟨first, rest, rfl, .inl figures.1.1.2.1⟩
  -- The places stand at the front of the text.
  have core : ((text.takeWhile (· != '+')).takeWhile (· != '-')) = ['.'].intercalate ((first :: rest) :: more) := by
    rw [← places, placesOf, List.intercalate_splitOn]
  obtain ⟨after, front⟩ : ∃ after, text = first :: after := by
    have leads : ((text.takeWhile (· != '+')).takeWhile (· != '-')) <+: text :=
      (List.takeWhile_prefix _).trans (List.takeWhile_prefix _)
    rw [core] at leads
    obtain ⟨tail, whole⟩ := leads
    by_cases last : more = []
    · exact ⟨_, by rw [← whole, last, List.intercalate_singleton]; rfl⟩
    · exact ⟨_, by rw [← whole, List.intercalate_cons_of_ne_nil last]; rfl⟩
  exact ⟨first, after, front, kind⟩

/-- An operator is read off the front of what does not start with a part of one. -/
theorem takeOperator_append {operator : RangeOperator} {first : Char} {rest : List Char}
    (apart : first ∉ ['^', '~', '>', '<', '=']) :
    takeOperator (operator.text.toList ++ first :: rest) = (operator, first :: rest) := by
  simp only [List.mem_cons, List.not_mem_nil, or_false, not_or] at apart
  obtain ⟨caret, tilde, greater, less, equal⟩ := apart
  cases operator <;> simp [RangeOperator.text, takeOperator, caret, tilde, greater, less, equal]

end Reading

end Trusca
