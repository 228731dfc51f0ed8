import Mathlib.Algebra.Order.Group.Nat
import Mathlib.Algebra.Order.Sub.Basic
import Mathlib.Data.Char
import Mathlib.Data.List.TakeWhile
import Mathlib.Data.Nat.Cast.Order.Basic
import Trusca.Proofs.Upgrade.Version
import Trusca.Remediation.NpmRange

/-! A rewritten range asks for the target, and is not lowered by a target that is not lower. -/

namespace Trusca

section Inversion

variable {table : DigitTable} {pyRepr : String → String} {package sectionName currentRange target : String}

/-- What is read of a version keeps its text. -/
theorem raw_of_parseVersion {parsed : ParsedVersion} (read : parseVersion table target = .ok (some parsed)) :
    parsed.raw = strip target := by
  unfold parseVersion at read
  dsimp only at read
  split_ifs at read
  · cases read
  · cases read
  · -- Only the last branch gives a version, and it keeps the text it was read from.
    simp only [parseBody, bind_ok] at read
    obtain ⟨⟨part, isPrerelease, prerelease⟩, -, read⟩ := read
    split at read
    · cases read
    · split_ifs at read
      · cases read
      · obtain ⟨release, -, given⟩ := bind_ok.mp read
        obtain ⟨numbers, -, rfl⟩ := Option.map_eq_some_iff.mp (Except.ok.inj given)
        rfl

/-- How a new range comes about: a caret for a range with open places, and else the kept operator. -/
theorem rewriteEntry_cases {rewrite : EntryRewrite} {newRange : String}
    (rewritten : rewriteEntry table pyRepr package sectionName currentRange target = .ok rewrite)
    (given : rewrite.newRange = some newRange) :
    (isXRange (strip currentRange).toList = true ∧ newRange = "^" ++ strip target) ∨
      ∃ operator vPrefix core, simpleRange (strip currentRange).toList = some (operator, vPrefix, core) ∧
        newRange = operator.text ++ String.ofList vPrefix ++ strip target ∧
        ∃ current parsed, parseVersion table (String.ofList core) = .ok (some current) ∧
          parseVersion table target = .ok (some parsed) ∧
          satisfiesTarget operator current parsed = false := by
  simp only [rewriteEntry, bind_ok] at rewritten
  -- The branches in the order of the source; only the last two write a new range.
  obtain ⟨found, read, rewritten⟩ := rewritten
  cases found with
  | none =>
    cases rewritten
    cases given
  | some parsed =>
    have raw := raw_of_parseVersion read
    dsimp only at rewritten
    split_ifs at rewritten with tag foreign open_places
    · cases rewritten
      cases given
    · cases rewritten
      cases given
    · cases rewritten
      cases given
      -- An open place: the target under a caret.
      exact .inl ⟨open_places, by rw [raw]⟩
    · split at rewritten
      · cases rewritten
        cases given
      · rename_i operator vPrefix core simple
        obtain ⟨current, numbered, rewritten⟩ := bind_ok.mp rewritten
        cases current with
        | none =>
          cases rewritten
          cases given
        | some current =>
          dsimp only at rewritten
          split_ifs at rewritten with covered
          · cases rewritten
            cases given
          · -- A simple range that does not cover the target keeps its operator and its v.
            cases rewritten
            cases given
            exact .inr ⟨operator, vPrefix, core, simple, by rw [bumpForTarget, raw], current, parsed,
              numbered, read, Bool.not_eq_true _ ▸ covered⟩

end Inversion

section Reading

variable {currentRange target : String} {version : SemVer} {old : NpmRange}

/-- The places of a version that is read as a whole. -/
theorem parsePartial_of_version (named : npmVersion target = some version) :
    ∃ first rest, first.isDigit = true ∧
      parsePartial (first :: rest) = some ⟨some version.major, some version.minor, some version.patch,
        version.pre⟩ ∧
      ((strip target).toList = first :: rest ∨ (strip target).toList = 'v' :: first :: rest) := by
  simp only [npmVersion, Option.bind_eq_bind, Option.bind_eq_some_iff, Option.pure_def,
    Option.some.injEq] at named
  obtain ⟨⟨major?, minor?, patch?, pre⟩, parsed, major, rfl, minor, rfl, patch, rfl, rfl⟩ := named
  obtain ⟨first, rest, text, kind⟩ := head_of_parsePartial parsed
  have digit : first.isDigit = true := by
    obtain digit | ⟨-, unknown⟩ := kind
    · exact digit
    · cases unknown
  rw [text] at parsed
  refine ⟨first, rest, digit, parsed, ?_⟩
  split_ifs at text with letter
  · -- The letter in front is dropped once.
    right
    cases characters : (strip target).toList with
    | nil => simp [characters] at letter
    | cons head tail =>
      rw [characters] at letter text
      cases Option.some.inj letter
      exact congrArg _ text
  · exact .inl text

/-- A figure is neither an operator nor something that a range skips. -/
theorem digit_apart {first : Char} (digit : first.isDigit = true) :
    first ∉ ['^', '~', '>', '<', '='] ∧ isRangeFiller first = false ∧ isSpace first = false := by
  -- The figures lie from 48 to 57.
  have code : 48 ≤ first.toNat ∧ first.toNat ≤ 57 := by
    simp only [Char.isDigit, Bool.and_eq_true, decide_eq_true_eq, ge_iff_le, UInt32.le_iff_toNat_le] at digit
    exact digit
  refine ⟨?_, ?_, ?_⟩
  · -- Neither an operator nor a filler nor a blank lies there.
    intro listed
    simp only [List.mem_cons, List.not_mem_nil, or_false] at listed
    obtain rfl | rfl | rfl | rfl | rfl := listed <;> exact absurd code (by decide)
  · by_contra filler
    simp only [isRangeFiller, Bool.not_eq_false, Bool.or_eq_true, beq_iff_eq] at filler
    obtain (rfl | rfl) | rfl := filler <;> exact absurd code (by decide)
  · simp only [isSpace, Bool.or_eq_false_iff, Bool.and_eq_false_iff, decide_eq_false_iff_not,
      beq_eq_false_iff_ne]
    omega

/-- What an operator, a letter and a version are written as has no space around it. -/
theorem strip_bumped {operator : RangeOperator} {vPrefix : List Char}
    (letter : vPrefix = [] ∨ vPrefix = ['v']) (nonempty : (strip target).toList ≠ []) :
    strip (operator.text ++ String.ofList vPrefix ++ strip target) =
      operator.text ++ String.ofList vPrefix ++ strip target := by
  refine strip_eq_self ?_ ?_
  · intro character head
    simp only [String.toList_append, String.toList_ofList] at head
    -- The text starts with the operator, with the letter, or with the version.
    have starts : ∀ first ∈ operator.text.toList ++ vPrefix, ¬ isSpace first := by
      obtain rfl | rfl := letter <;> cases operator <;> decide
    cases front : operator.text.toList ++ vPrefix with
    | nil =>
      rw [front, List.nil_append] at head
      exact head_strip target character head
    | cons first rest =>
      rw [front, List.cons_append] at head
      obtain rfl := Option.mem_some.mp head
      exact starts first (front ▸ List.mem_cons_self)
  · intro character last
    simp only [String.toList_append] at last
    rw [List.getLast?_append_of_ne_nil _ nonempty] at last
    exact getLast_strip target character last

/-- A version under an operator is read as a range of that version. -/
theorem npmRange_bumped {operator : RangeOperator} {vPrefix : List Char}
    (letter : vPrefix = [] ∨ vPrefix = ['v']) (named : npmVersion target = some version) :
    npmRange (operator.text ++ String.ofList vPrefix ++ strip target) =
      some (NpmRange.whole operator version) := by
  obtain ⟨first, rest, digit, parsed, written⟩ := parsePartial_of_version named
  obtain ⟨apart, filler, -⟩ := digit_apart digit
  have nonempty : (strip target).toList ≠ [] := by
    obtain text | text := written <;> simp [text]
  -- What follows the operator is a run of the letter, and then the figure.
  have follows : ∃ letters, vPrefix ++ (strip target).toList = letters ++ first :: rest ∧
      ∀ mark ∈ letters, mark = 'v' := by
    obtain rfl | rfl := letter <;> obtain text | text := written
    · exact ⟨[], by simp [text], by simp⟩
    · exact ⟨['v'], by simp [text], by simp⟩
    · exact ⟨['v'], by simp [text], by simp⟩
    · exact ⟨['v', 'v'], by simp [text], by simp⟩
  obtain ⟨letters, text, marks⟩ := follows
  -- The letters are fillers, so npm starts to read at the figure.
  have skipped : (letters ++ first :: rest).dropWhile isRangeFiller = first :: rest := by
    have fillers : ∀ mark ∈ letters, isRangeFiller mark = true := by
      intro mark listed
      rw [marks mark listed]
      rfl
    rw [List.dropWhile_append_of_pos fillers, List.dropWhile_cons_of_neg (by simp [filler])]
  -- The operator ends where the letter or the figure stands.
  have split : takeOperator (operator.text.toList ++ (letters ++ first :: rest)) =
      (operator, letters ++ first :: rest) := by
    cases letters with
    | nil => exact takeOperator_append apart
    | cons mark more =>
      have same := marks mark List.mem_cons_self
      subst same
      exact takeOperator_append (by decide)
  -- Put together, the bumped text is the operator and the run.
  have whole : (operator.text ++ String.ofList vPrefix ++ strip target).toList =
      operator.text.toList ++ (letters ++ first :: rest) := by
    simp [← text]
  have some_text : (operator.text.toList ++ (letters ++ first :: rest)).isEmpty = false := by simp
  unfold npmRange
  rw [strip_bumped letter nonempty, whole]
  simp only [some_text, split, skipped, parsed, Bool.false_eq_true, if_false, Option.map_some,
    NpmRange.whole]

/-- The operator of a simple range is the one that npm reads, and its letter is a small one. -/
theorem operator_of_simpleRange {operator : RangeOperator} {vPrefix core : List Char}
    (simple : simpleRange (strip currentRange).toList = some (operator, vPrefix, core))
    (read : npmRange currentRange = some old) :
    old.operator = operator ∧ (vPrefix = [] ∨ vPrefix = ['v']) := by
  unfold simpleRange at simple
  unfold npmRange at read
  cases taken : takeOperator (strip currentRange).toList with
  | mk found rest =>
    simp only [taken] at simple read
    split_ifs at simple with shape
    simp only [Option.some.injEq, Prod.mk.injEq] at simple
    obtain ⟨rfl, rfl, rfl⟩ := simple
    split_ifs at read with blank
    · -- An empty text is no simple range.
      have none_left : rest = [] := by
        have text : (strip currentRange).toList = [] := by simpa using blank
        rw [text] at taken
        cases taken
        rfl
      subst none_left
      simp [takeVPrefix] at shape
    · obtain ⟨parsed, given, rfl⟩ := Option.map_eq_some_iff.mp read
      refine ⟨rfl, ?_⟩
      unfold takeVPrefix
      split
      · exact .inr rfl
      · -- npm reads no version after a capital letter.
        obtain ⟨first, more, text, kind⟩ := head_of_parsePartial given
        rw [List.dropWhile_cons_of_neg (by decide)] at text
        cases text
        obtain digit | ⟨listed, -⟩ := kind
        · exact absurd digit (by decide)
        · exact absurd listed (by decide)
      · exact .inl rfl

/-- A range with open places has no operator. -/
theorem operator_of_isXRange (wide : isXRange (strip currentRange).toList = true)
    (read : npmRange currentRange = some old) : old.operator = .bare := by
  -- The text starts with a figure.
  obtain ⟨first, rest, text, digit⟩ : ∃ first rest, (strip currentRange).toList = first :: rest ∧
      first.isDigit = true := by
    obtain ⟨place, more, places, figures⟩ : ∃ place more,
        (strip currentRange).toList.splitOn '.' = place :: more ∧ isFigures place = true := by
      unfold isXRange at wide
      split at wide
      · rename_i major places
        exact ⟨major, _, places, wide⟩
      · rename_i major minor places
        exact ⟨major, _, places, (Bool.and_eq_true_iff.mp wide).1⟩
      · rename_i major minor patch places
        exact ⟨major, _, places, (Bool.and_eq_true_iff.mp (Bool.and_eq_true_iff.mp wide).1).1⟩
      · cases wide
    -- The first place of a wide range is written in figures.
    cases place with
    | nil => simp [isFigures] at figures
    | cons first rest =>
      have whole : ['.'].intercalate ((strip currentRange).toList.splitOn '.') = (strip currentRange).toList :=
        List.intercalate_splitOn '.'
      simp only [isFigures, List.isEmpty_cons, Bool.not_false, List.all_cons, Bool.true_and,
        Bool.and_eq_true] at figures
      rw [places] at whole
      by_cases last : more = []
      · exact ⟨first, _, by rw [← whole, last, List.intercalate_singleton], figures.1⟩
      · exact ⟨first, _, by rw [← whole, List.intercalate_cons_of_ne_nil last]; rfl, figures.1⟩
  -- So no operator stands in front of it.
  have taken : takeOperator (first :: rest) = (.bare, first :: rest) :=
    @takeOperator_append .bare first rest (digit_apart digit).1
  unfold npmRange at read
  simp only [text, taken, List.isEmpty_cons, Bool.false_eq_true, if_false] at read
  obtain ⟨parsed, -, rfl⟩ := Option.map_eq_some_iff.mp read
  rfl

end Reading

section Comparison

variable {table : DigitTable}

/-- The number of a place is the one that npm reads. -/
theorem intOf_place {place : List Char} {value : Option Nat} {number : Nat}
    (read : parsePlace place = some value) (digits : isDigits table place = true)
    (taken : intOf table (place.take 18) = .ok number) : value = some number := by
  unfold parsePlace at read
  split_ifs at read with wild
  · -- A wildcard has no digit in it.
    simp only [Bool.or_eq_true, beq_iff_eq] at wild
    have no_digit : ∀ mark ∈ ['x', 'X', '*'], table.isDigit mark = false := by
      intro mark listed
      have kind : ∀ mark ∈ ['x', 'X', '*'], mark.toNat < 128 ∧ mark.isDigit = false := by decide
      rw [(table.ascii mark (kind mark listed).1).1, (kind mark listed).2]
    obtain (rfl | rfl) | rfl := wild <;> simp [isDigits, no_digit] at digits
  · obtain ⟨figures, numbered, rfl⟩ := Option.map_eq_some_iff.mp read
    -- Figures only, few enough, and the number they make.
    have shape : (place.all Char.isDigit = true ∧ place.length ≤ 16) ∧
        figures = place.foldl (fun value figure => 10 * value + (figure.toNat - '0'.toNat)) 0 := by
      unfold parseNumber at numbered
      split_ifs at numbered with plain
      simp only [Bool.and_eq_true, decide_eq_true_eq] at plain
      exact ⟨⟨plain.1.1.2, plain.2⟩, (Option.some.inj numbered).symm⟩
    obtain ⟨⟨all, short⟩, rfl⟩ := shape
    -- The two readers agree on each figure, and so on the number.
    have decimals (text : List Char) (figure : ∀ character ∈ text, character.isDigit = true) :
        text.mapM table.decimal = some (text.map fun character => character.toNat - '0'.toNat) := by
      induction text with
      | nil => rfl
      | cons character rest ih =>
        obtain ⟨here, later⟩ := List.forall_mem_cons.mp figure
        rw [List.mapM_cons, (decimal_figure here).2, ih later]
        rfl
    -- The cut at eighteen figures does not reach so far.
    rw [List.take_of_length_le (by omega), intOf, decimals place (List.all_eq_true.mp all)] at taken
    rw [← Except.ok.inj taken, List.foldl_map]

/-- The characters of a place are figures or a wildcard. -/
theorem place_chars {place : List Char} {value : Option Nat} (read : parsePlace place = some value) :
    place ≠ [] ∧ ∀ character ∈ place, character ≠ '_' ∧ character ≠ ':' := by
  unfold parsePlace at read
  split_ifs at read with wild
  · -- The open places are written x, X or a star.
    simp only [Bool.or_eq_true, beq_iff_eq] at wild
    obtain (rfl | rfl) | rfl := wild <;> decide
  · obtain ⟨figures, numbered, -⟩ := Option.map_eq_some_iff.mp read
    unfold parseNumber at numbered
    split_ifs at numbered with plain
    simp only [Bool.and_eq_true, Bool.not_eq_true', List.isEmpty_eq_false_iff, List.all_eq_true] at plain
    refine ⟨plain.1.1.1, fun character within => ?_⟩
    -- A numbered place has figures only.
    have figure := plain.1.1.2 character within
    exact ⟨fun same => absurd figure (by rw [same]; decide), fun same => absurd figure (by rw [same]; decide)⟩

/-- The segments of a release are the places that npm reads. -/
theorem releaseSegments_places {text : List Char} {segments : List (List Char)}
    (places : ∀ place ∈ text.splitOn '.', ∃ value, parsePlace place = some value)
    (found : releaseSegments table text = some segments) : segments = text.splitOn '.' := by
  -- The places of a version have neither an underscore nor a colon.
  have plain : ∀ character ∈ text, character ≠ '_' ∧ character ≠ ':' := by
    intro character within
    have whole : ['.'].intercalate (text.splitOn '.') = text := List.intercalate_splitOn '.'
    rw [← whole] at within
    obtain rfl | ⟨place, listed, inside⟩ := mem_intercalate within
    · decide
    · obtain ⟨value, read⟩ := places place listed
      exact (place_chars read).2 character inside
  have colon : text.contains ':' = false := by
    rw [← Bool.not_eq_true, List.contains_iff_mem]
    intro within
    exact (plain ':' within).2 rfl
  -- So splitting at all three marks is splitting at the points.
  have split : text.splitOnP (fun character => character == '.' || character == '_' || character == ':') =
      text.splitOn '.' := by
    rw [List.splitOn_eq_splitOnP]
    apply splitOnP_congr
    intro character within
    have no_bar := beq_eq_false_iff_ne.mpr (plain character within).1
    have no_colon := beq_eq_false_iff_ne.mpr (plain character within).2
    rw [no_bar, no_colon, Bool.or_false, Bool.or_false]
  unfold releaseSegments at found
  dsimp only at found
  rw [split, colon, if_neg Bool.false_ne_true] at found
  split_ifs at found
  -- And none of the places is dropped as empty.
  rw [← Option.some.inj found, List.filter_eq_self]
  intro place listed
  obtain ⟨value, read⟩ := places place listed
  simp [(place_chars read).1]

/-- The numbers of a release are those of its places, and every place has one. -/
theorem releaseNumbers_places {places : List (List Char)} {values : List (Option Nat)} {numbers : List Nat}
    (read : places.map parsePlace = values.map some)
    (found : releaseNumbers table places = .ok (some numbers)) : values = numbers.map some := by
  induction places generalizing values numbers with
  | nil =>
    cases found
    simpa using read.symm
  | cons place rest ih =>
    -- The first place is a number in both readings, and then the rest.
    obtain ⟨value, later, rfl, here, more⟩ := List.map_eq_cons_iff.mp read.symm
    simp only [releaseNumbers] at found
    split_ifs at found with digits
    · obtain ⟨number, taken, found⟩ := bind_ok.mp found
      obtain ⟨others, tail, given⟩ := bind_ok.mp found
      obtain ⟨values, rfl, rfl⟩ := Option.map_eq_some_iff.mp (Except.ok.inj given)
      rw [intOf_place here.symm digits taken, ih more.symm tail, List.map_cons]
    · -- Without digits the release ends, and no number would be left.
      cases found

/-- A pre-release is read of every suffix but the empty one. -/
theorem parsePre_nonempty {suffix : List Char} {pre : List SemVerId} (read : parsePre suffix = some pre) :
    suffix ≠ [] ↔ pre ≠ [] := by
  unfold parsePre at read
  split_ifs at read with blank
  · cases read
    simpa using blank
  · -- A suffix that is not empty has a first identifier.
    have some_text : suffix ≠ [] := by simpa using blank
    refine iff_of_true some_text ?_
    cases tokens : (suffix.drop 1).splitOn '.' with
    | nil => exact absurd tokens (List.splitOn_ne_nil _ _)
    | cons token rest =>
      rw [tokens, List.mapM_cons] at read
      obtain ⟨id, -, read⟩ := Option.bind_eq_some_iff.mp read
      obtain ⟨others, -, same⟩ := Option.bind_eq_some_iff.mp read
      cases same
      exact List.cons_ne_nil _ _

/-- What is compared of a version is what npm reads of it, up to the order of its pre-releases. -/
theorem parseBody_partial {text : List Char} {read : PartialVersion} {raw : String} {parsed : ParsedVersion}
    (partly : parsePartial text = some read)
    (whole : parseBody table (text.takeWhile (· != '+')) raw = .ok (some parsed)) :
    parsed.release.length ≤ 3 ∧
      padded parsed.release 3 = [read.floor.major, read.floor.minor, read.floor.patch] ∧
      (parsed.isPrerelease = true ↔ read.pre ≠ []) ∧
      read.major.isSome = true ∧ (read.patch.isSome = true → parsed.release.length = 3) ∧
      (read.minor = none → read.patch = none) ∧ (read.patch = none → read.pre = []) := by
  obtain ⟨segments, found, numbers, hyphen, _⟩ := parseBody_ok whole
  -- A suffix for npm is a hyphen for the portal.
  have start : (parsed.isPrerelease = true ↔ suffixOf text ≠ []) := by
    rw [hyphen, List.contains_iff_mem]
    unfold suffixOf
    rw [Ne, List.dropWhile_eq_nil_iff, not_forall]
    constructor
    · intro within
      exact ⟨'-', fun plain => absurd (plain within) (by decide)⟩
    · rintro ⟨mark, within⟩
      simp only [Classical.not_imp, bne_iff_ne, ne_eq, not_not] at within
      exact within.2 ▸ within.1
  -- Every place that npm reads is a number of the release.
  have numbered (values : List (Option Nat)) (short : values.length ≤ 3)
      (each : (placesOf text).map parsePlace = values.map some) : values = parsed.release.map some := by
    have same : segments = placesOf text := by
      refine releaseSegments_places (fun place listed => ?_) found
      have given : parsePlace place ∈ values.map some := each ▸ List.mem_map_of_mem listed
      obtain ⟨value, -, read⟩ := List.mem_map.mp given
      exact ⟨value, read.symm⟩
    have few : (placesOf text).length ≤ maxReleaseSegments := by
      have counts := congrArg List.length each
      rw [List.length_map, List.length_map] at counts
      exact counts.trans_le (short.trans (by decide))
    rw [same, List.take_of_length_le few] at numbers
    exact releaseNumbers_places each numbers
  -- One, two or three places, and the missing ones count as zero in both.
  obtain ⟨major, places, first, minor, patch, pre, none_after⟩ |
    ⟨major, minor, places, first, second, patch, pre, none_after⟩ |
    ⟨major, minor, patch, places, first, second, third, ids⟩ := parsePartial_cases partly
  · have values := numbered [read.major] (by simp) (by simp [places, first])
    obtain ⟨number, rest, release, here, more⟩ := List.map_eq_cons_iff.mp values.symm
    cases List.map_eq_nil_iff.mp more
    simp [release, padded, PartialVersion.floor, ← here, minor, patch, pre, start, none_after]
  · have values := numbered [read.major, read.minor] (by simp) (by simp [places, first, second])
    obtain ⟨number, rest, release, here, more⟩ := List.map_eq_cons_iff.mp values.symm
    obtain ⟨next, rest, rfl, there, more⟩ := List.map_eq_cons_iff.mp more
    cases List.map_eq_nil_iff.mp more
    simp [release, padded, PartialVersion.floor, ← here, ← there, patch, pre, start, none_after]
  · have values := numbered [read.major, read.minor, read.patch] (by simp)
      (by simp [places, first, second, third])
    obtain ⟨number, rest, release, here, more⟩ := List.map_eq_cons_iff.mp values.symm
    obtain ⟨next, rest, rfl, there, more⟩ := List.map_eq_cons_iff.mp more
    obtain ⟨last, rest, rfl, end_of, more⟩ := List.map_eq_cons_iff.mp more
    cases List.map_eq_nil_iff.mp more
    simp [release, padded, PartialVersion.floor, ← here, ← there, ← end_of, start, parsePre_nonempty ids]

/-- Two releases of three places compare place by place. -/
theorem places_of_compare {a b c x y z : Nat} (below : compareSequences Ord.compare [a, b, c] [x, y, z] = .lt) :
    a < x ∨ a = x ∧ (b < y ∨ b = y ∧ c < z) := by
  simp only [compareSequences, Ordering.then_eq_lt, Nat.compare_eq_lt, Nat.compare_eq_eq, reduceCtorEq,
    and_false, or_false] at below
  exact below

/-- The places of releases that compare alike are the same. -/
theorem places_of_compare_eq {a b c x y z : Nat}
    (alike : compareSequences Ord.compare [a, b, c] [x, y, z] = .eq) : a = x ∧ b = y ∧ c = z := by
  simp only [compareSequences, Ordering.then_eq_eq, Nat.compare_eq_eq] at alike
  exact ⟨alike.1, alike.2.1, alike.2.2.1⟩

/-- A version that compares above another one is not below it for npm, apart from two pre-releases of
one release. -/
theorem lt_of_compareVersions {text text' : List Char} {read read' : PartialVersion} {raw raw' : String}
    {current parsed : ParsedVersion} (partly : parsePartial text = some read)
    (partly' : parsePartial text' = some read') (whole : read'.patch.isSome = true)
    (body : parseBody table (text.takeWhile (· != '+')) raw = .ok (some current))
    (body' : parseBody table (text'.takeWhile (· != '+')) raw' = .ok (some parsed))
    (below : compareVersions current parsed = .lt)
    (apart : ¬ read'.floor.samePrerelease read.floor) :
    read'.floor.lt read.floor = false := by
  obtain ⟨short, places, pre, -, -, -, -⟩ := parseBody_partial partly body
  obtain ⟨-, places', pre', -, full, -, -⟩ := parseBody_partial partly' body'
  have width : max current.release.length parsed.release.length = 3 := by
    rw [full whole]
    exact max_eq_right short
  unfold compareVersions at below
  dsimp only at below
  rw [width, places, places'] at below
  split at below
  · rename_i alike
    obtain ⟨major, minor, patch⟩ := places_of_compare_eq alike
    -- The releases are the same, so one of the two is no pre-release.
    have target_final : read'.pre = [] := by
      by_contra early'
      have early : read.pre = [] := by
        by_contra early
        exact apart ⟨early', early, major.symm, minor.symm, patch.symm⟩
      have one : current.isPrerelease = false := by
        rw [← Bool.not_eq_true, pre, early]
        simp
      rw [one, pre'.mpr early'] at below
      cases below
    simp [SemVer.lt, major, minor, patch, show read'.floor.pre = [] from target_final]
  · have order := places_of_compare below
    simp only [SemVer.lt, Bool.or_eq_false_iff, Bool.and_eq_false_iff, decide_eq_false_iff_not,
      beq_eq_false_iff_ne]
    -- The first place that differs is higher in the target.
    obtain higher | ⟨major, higher | ⟨minor, higher⟩⟩ := order
    · exact ⟨by omega, .inl (by omega)⟩
    · exact ⟨by omega, .inr ⟨by omega, .inl (by omega)⟩⟩
    · exact ⟨by omega, .inr ⟨by omega, .inr ⟨by omega, .inl (by omega)⟩⟩⟩

/-- The lower bound of a range that is open above is its version, with zeros in the open places. -/
theorem lower_floor {operator : RangeOperator} {read : PartialVersion}
    (upward : operator ∈ [.caret, .tilde, .ge]) (major : read.major.isSome = true)
    (minor : read.minor = none → read.patch = none) (patch : read.patch = none → read.pre = []) :
    (NpmRange.mk operator read).lower = some read.floor := by
  obtain ⟨major?, minor?, patch?, pre⟩ := read
  obtain ⟨place, rfl⟩ := Option.isSome_iff_exists.mp major
  simp only [List.mem_cons, List.not_mem_nil, or_false] at upward
  -- By the places that are given; a missing one is zero under each of the three.
  cases minor? with
  | none =>
    cases minor rfl
    cases patch rfl
    obtain rfl | rfl | rfl := upward <;> rfl
  | some second =>
    cases patch? with
    | none =>
      cases patch rfl
      obtain rfl | rfl | rfl := upward <;> rfl
    | some third => obtain rfl | rfl | rfl := upward <;> rfl

/-- The characters of a version are no spaces. -/
theorem not_space_of_isCoreChar {character : Char} (core : isCoreChar character = true) :
    ¬ isSpace character := by
  -- They stand between the space and the end of ASCII.
  have code : 43 ≤ character.toNat ∧ character.toNat ≤ 122 := by
    simp only [isCoreChar, Bool.or_eq_true, beq_iff_eq] at core
    obtain ((letter | rfl) | rfl) | rfl := core
    · have code := code_of_isAlphanum letter
      omega
    · decide
    · decide
    · decide
  simp only [isSpace, Bool.or_eq_true, Bool.and_eq_true, decide_eq_true_eq, beq_iff_eq]
  omega

/-- A text that starts with a figure is read as it stands, up to its build metadata. -/
theorem versionBody_figure {first : Char} {rest : List Char} (digit : first.isDigit = true) :
    versionBody table (first :: rest) = (first :: rest).takeWhile (· != '+') := by
  have letter : (first == 'v' || first == 'V') = false := by
    by_contra letter
    simp only [Bool.not_eq_false, Bool.or_eq_true, beq_iff_eq] at letter
    obtain rfl | rfl := letter <;> exact absurd digit (by decide)
  cases rest with
  | nil => rfl
  | cons second more => simp only [versionBody, letter, Bool.false_and, Bool.false_eq_true, if_false]

/-- The body of a version that npm reads, after the optional letter. -/
theorem parseBody_of_target {target : String} {version : SemVer} {parsed : ParsedVersion}
    (named : npmVersion target = some version) (read : parseVersion table target = .ok (some parsed)) :
    ∃ text, parsePartial text =
        some ⟨some version.major, some version.minor, some version.patch, version.pre⟩ ∧
      parseBody table (text.takeWhile (· != '+')) (strip target) = .ok (some parsed) := by
  -- The target's version is written with a digit in front, perhaps behind a v.
  obtain ⟨first, rest, digit, partly, written⟩ := parsePartial_of_version named
  refine ⟨first :: rest, partly, ?_⟩
  -- Behind that v both readers have the same text.
  have body : versionBody table (strip target).toList = (first :: rest).takeWhile (· != '+') := by
    obtain text | text := written
    · rw [text, versionBody_figure digit]
    · rw [text]
      have figure := @decimal_figure table first digit
      simp [versionBody, figure.1]
  unfold parseVersion at read
  dsimp only at read
  rw [body] at read
  -- The blank and the overlong text are not read, so what was read is the body.
  split_ifs at read
  · cases read
  · cases read
  · exact read

/-- The body of the version in a simple range is what npm reads of it. -/
theorem parseBody_of_simpleRange {currentRange : String} {old : NpmRange} {operator : RangeOperator}
    {vPrefix core : List Char} {current : ParsedVersion}
    (simple : simpleRange (strip currentRange).toList = some (operator, vPrefix, core))
    (read : npmRange currentRange = some old)
    (numbered : parseVersion table (String.ofList core) = .ok (some current)) :
    parsePartial core = some old.version ∧
      parseBody table (core.takeWhile (· != '+')) (String.ofList core) = .ok (some current) := by
  obtain ⟨-, letter⟩ := operator_of_simpleRange simple read
  unfold simpleRange at simple
  unfold npmRange at read
  cases taken : takeOperator (strip currentRange).toList with
  | mk found rest =>
    simp only [taken] at simple read
    split_ifs at simple with shape
    simp only [Option.some.injEq, Prod.mk.injEq] at simple
    obtain ⟨rfl, front, after⟩ := simple
    rw [after] at shape
    -- The core begins with a figure.
    obtain ⟨first, more, rfl, digit⟩ : ∃ first more, core = first :: more ∧ first.isDigit = true := by
      cases core with
      | nil => simp at shape
      | cons first more => exact ⟨first, more, rfl, by simpa using (Bool.and_eq_true_iff.mp shape).1⟩
    have apart := (digit_apart digit).2
    -- npm skips the letter that the manifest writes in front.
    have skipped : rest.dropWhile isRangeFiller = first :: more := by
      have written : rest = vPrefix ++ first :: more := by
        rw [← front, ← after]
        unfold takeVPrefix
        split <;> rfl
      rw [written]
      obtain rfl | rfl := letter
      · exact List.dropWhile_cons_of_neg (by simp [apart.1])
      · exact (List.dropWhile_cons_of_pos (by decide)).trans (List.dropWhile_cons_of_neg (by simp [apart.1]))
    have partly : parsePartial (first :: more) = some old.version := by
      split_ifs at read with blank
      · -- An empty text is no simple range.
        rw [List.isEmpty_iff.mp blank] at taken
        cases taken
        cases skipped
      · obtain ⟨parsed, given, rfl⟩ := Option.map_eq_some_iff.mp read
        rw [← skipped, given]
    refine ⟨partly, ?_⟩
    -- The core has no blanks, so stripping leaves it.
    have spaceless : strip (String.ofList (first :: more)) = String.ofList (first :: more) := by
      have core := List.all_eq_true.mp (Bool.and_eq_true_iff.mp shape).2
      refine strip_eq_self (fun character head => ?_) (fun character last => ?_)
      · rw [String.toList_ofList] at head
        exact not_space_of_isCoreChar (core character (List.mem_of_mem_head? head))
      · rw [String.toList_ofList] at last
        exact not_space_of_isCoreChar (core character (List.mem_of_mem_getLast? last))
    -- And it is no empty body, so what was parsed is what `parseBody` gives.
    unfold parseVersion at numbered
    dsimp only at numbered
    rw [spaceless, String.toList_ofList, versionBody_figure digit] at numbered
    split_ifs at numbered
    · cases numbered
    · cases numbered
    · exact numbered

end Comparison

section Rewrite

variable {table : DigitTable} {pyRepr : String → String}
  {package sectionName currentRange target newRange : String} {warning : Option ManifestWarning}
  {version : SemVer} {old : NpmRange}

/-- A rewritten range is the range of the target under the kept operator, or under a caret in the place of
open places; where the kept operator asks for something to be raised, the target was above. -/
theorem rewriteEntry_range {rewrite : EntryRewrite} (named : npmVersion target = some version)
    (read : npmRange currentRange = some old)
    (rewritten : rewriteEntry table pyRepr package sectionName currentRange target = .ok rewrite)
    (given : rewrite.newRange = some newRange) :
    (old.operator = .bare ∧ npmRange newRange = some (NpmRange.whole .caret version)) ∨
      (npmRange newRange = some (NpmRange.whole old.operator version) ∧
        (old.operator ∈ [.caret, .tilde, .ge] → ∀ floor ∈ old.lower, ¬ version.samePrerelease floor →
          version.lt floor = false)) := by
  -- Two rewrites are left: an open place, and a simple range whose lower end is below.
  obtain ⟨wide, rfl⟩ | ⟨operator, vPrefix, core, simple, rfl, current, parsed, numbered, found, uncovered⟩ :=
    rewriteEntry_cases rewritten given
  · have caret : npmRange ("^" ++ strip target) = some (NpmRange.whole .caret version) :=
      @npmRange_bumped target version .caret [] (.inl rfl) named
    exact .inl ⟨operator_of_isXRange wide read, caret⟩
  · obtain ⟨rfl, letter⟩ := operator_of_simpleRange simple read
    refine .inr ⟨npmRange_bumped letter named, ?_⟩
    -- Where the operator bounds from below, the range's floor is the version it names.
    intro upward floor bound apart
    obtain ⟨partly, body⟩ := parseBody_of_simpleRange simple read numbered
    obtain ⟨text, whole, body'⟩ := parseBody_of_target named found
    obtain ⟨-, -, -, major, -, minor, patch⟩ := parseBody_partial partly body
    have lowest := lower_floor upward major minor patch
    cases Option.some.inj (lowest.symm.trans bound)
    -- The rewrite happens only if the target is not covered, so the floor is below it.
    have below : compareVersions current parsed = .lt := by
      simp only [List.mem_cons, List.not_mem_nil, or_false] at upward
      obtain kind | kind | kind := upward <;> simpa [satisfiesTarget, kind] using uncovered
    exact lt_of_compareVersions partly whole rfl body body' below apart

/-- A changed range asks for the target version unless it is a strict bound, which stays one, and it is
not lowered by a target that is not below; a caret, a tilde and an inclusive lower bound are never lowered,
except between the pre-releases of one release. -/
theorem rewriteEntry_admits (named : npmVersion target = some version)
    (read : npmRange currentRange = some old)
    (rewritten : rewriteEntry table pyRepr package sectionName currentRange target =
      .ok ⟨some newRange, warning, true⟩) :
    ∃ range, npmRange newRange = some range ∧
      (range.admits version = true ↔ old.operator ≠ .gt ∧ old.operator ≠ .lt) ∧
      ∀ floor ∈ old.lower,
        (version.lt floor = false ∨
          old.operator ∈ [.caret, .tilde, .ge] ∧ ¬ version.samePrerelease floor) →
        ∃ bound ∈ range.lower, bound.lt floor = false := by
  -- The range that is written names the target's version, under one operator.
  obtain ⟨bare, asked⟩ | ⟨asked, raised⟩ := rewriteEntry_range named read rewritten rfl
  · refine ⟨_, asked, by simp [NpmRange.admits_whole, bare], ?_⟩
    intro floor bound above
    refine ⟨version, by simp [NpmRange.lower_whole], ?_⟩
    obtain above | ⟨upward, -⟩ := above
    · exact above
    · rw [bare] at upward
      simp at upward
  · refine ⟨_, asked, NpmRange.admits_whole _ _, ?_⟩
    -- Its own bound is the version, and the old floor is not above it.
    intro floor bound above
    have raising : version.lt floor = false := by
      obtain above | ⟨upward, apart⟩ := above
      · exact above
      · exact raised upward floor bound apart
    refine ⟨version, ?_, raising⟩
    rw [NpmRange.lower_whole, if_neg]
    · rfl
    · -- An upper operator has no floor, so there was none to compare with.
      intro upper
      rw [NpmRange.lower_of_upper upper] at bound
      cases bound

/-- A caret range is rewritten to one that admits the target. -/
theorem rewriteEntry_admits_caret :
    rewriteEntry asciiDigits id "lodash" "dependencies" "^1.2.3" "1.3.0" =
        .ok ⟨some "^1.3.0", none, true⟩ ∧
      ∃ range, npmRange "^1.3.0" = some range ∧
        (range.admits ⟨1, 3, 0, []⟩ = true ↔ (RangeOperator.caret ≠ .gt ∧ RangeOperator.caret ≠ .lt)) ∧
        ∀ floor ∈ (NpmRange.whole .caret ⟨1, 2, 3, []⟩).lower,
          (SemVer.lt ⟨1, 3, 0, []⟩ floor = false ∨
            RangeOperator.caret ∈ [.caret, .tilde, .ge] ∧ ¬ SemVer.samePrerelease ⟨1, 3, 0, []⟩ floor) →
          ∃ bound ∈ range.lower, bound.lt floor = false := by
  have rewritten : rewriteEntry asciiDigits id "lodash" "dependencies" "^1.2.3" "1.3.0" =
      .ok ⟨some "^1.3.0", none, true⟩ := by decide +kernel
  have named : npmVersion "1.3.0" = some ⟨1, 3, 0, []⟩ := by decide +kernel
  have read : npmRange "^1.2.3" = some (NpmRange.whole .caret ⟨1, 2, 3, []⟩) := by decide +kernel
  exact ⟨rewritten, rewriteEntry_admits named read rewritten⟩

/-- A strict bound on the target does not ask for it. -/
theorem rewriteEntry_strict_excludes :
    npmVersion "1.3.0" = some ⟨1, 3, 0, []⟩ ∧
      rewriteEntry asciiDigits id "lodash" "dependencies" ">1.2.3" "1.3.0" =
        .ok ⟨some ">1.3.0", none, true⟩ ∧
      ∃ range, npmRange ">1.3.0" = some range ∧ range.admits ⟨1, 3, 0, []⟩ = false := by
  refine ⟨by decide +kernel, by decide +kernel, NpmRange.whole .gt ⟨1, 3, 0, []⟩, by decide +kernel, rfl⟩

end Rewrite

end Trusca
