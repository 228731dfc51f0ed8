import Trusca.Data.Outcome
import Trusca.Upgrade.Version

/-! The order of versions, and what their texts say about it. -/

namespace Trusca

section Sequences

open Std

variable {α : Type} {order : α → α → Ordering}

/-- Sequences are compared in lexicographic order. -/
theorem compareSequences_eq (order : α → α → Ordering) (first second : List α) :
    compareSequences order first second = List.compareLex order first second := by
  fun_induction compareSequences order first second with
  | case1 => exact List.compareLex_nil_nil.symm
  | case2 => exact List.compareLex_nil_cons.symm
  | case3 => exact List.compareLex_cons_nil.symm
  | case4 left lefts right rights ih => rw [List.compareLex_cons_cons, ih]

/-- What follows two sequences of one length alike does not matter. -/
theorem compareLex_append [ReflCmp order] {first second : List α}
    (lengths : first.length = second.length) (rest : List α) :
    List.compareLex order (first ++ rest) (second ++ rest) = List.compareLex order first second := by
  -- The common end is compared last, and is equal to itself.
  induction first generalizing second with
  | nil =>
    obtain rfl := List.length_eq_zero_iff.mp lengths.symm
    rw [List.compareLex_nil_nil]
    exact ReflCmp.compare_self
  | cons left lefts ih =>
    obtain ⟨right, rights, rfl⟩ := List.exists_cons_of_length_eq_add_one lengths.symm
    rw [List.cons_append, List.cons_append, List.compareLex_cons_cons, List.compareLex_cons_cons,
      ih (by simpa using lengths)]

/-- Two sequences of one length compare as their numbers do where they first differ. -/
theorem compareLex_of_place {first second : List Nat} (lengths : first.length = second.length)
    {index : Nat} (before : ∀ earlier < index, first.getD earlier 0 = second.getD earlier 0)
    (lower : first.getD index 0 < second.getD index 0) :
    List.compareLex compare first second = .lt := by
  induction first generalizing second index with
  | nil =>
    obtain rfl := List.length_eq_zero_iff.mp lengths.symm
    simp at lower
  | cons left lefts ih =>
    obtain ⟨right, rights, rfl⟩ := List.exists_cons_of_length_eq_add_one lengths.symm
    rw [List.compareLex_cons_cons, Ordering.then_eq_lt]
    -- At the place itself the lists differ, before it their heads agree.
    cases index with
    | zero => exact .inl (Nat.compare_eq_lt.mpr (by simpa using lower))
    | succ index =>
      have same : left = right := by simpa using before 0 (by omega)
      refine .inr ⟨Nat.compare_eq_eq.mpr same, ih (by simpa using lengths) ?_ (by simpa using lower)⟩
      intro earlier below
      simpa using before (earlier + 1) (by omega)

/-- A padded release has the width asked for. -/
theorem length_padded {release : List Nat} {width : Nat} (within : release.length ≤ width) :
    (padded release width).length = width := by
  simp only [padded, List.length_append, List.length_replicate]
  omega

/-- Padding changes no place, as the missing ones count as zero. -/
theorem getD_padded (release : List Nat) (width index : Nat) :
    (padded release width).getD index 0 = release.getD index 0 := by
  simp only [padded, List.getD_eq_getElem?_getD, List.getElem?_append, List.getElem?_replicate]
  split
  · rfl
  · next beyond =>
    rw [List.getElem?_eq_none (by omega)]
    split <;> rfl

/-- Releases compare alike at every width that has room for both. -/
theorem compareLex_padded {first second : List Nat} {width : Nat} (one : first.length ≤ width)
    (two : second.length ≤ width) :
    List.compareLex compare (padded first width) (padded second width) =
      List.compareLex compare (padded first (max first.length second.length))
        (padded second (max first.length second.length)) := by
  -- A wider padding only adds zeros, the same number to both.
  have wider (release : List Nat) (within : release.length ≤ max first.length second.length) :
      padded release width = padded release (max first.length second.length) ++
        List.replicate (width - max first.length second.length) 0 := by
    rw [padded, padded, List.append_assoc, List.replicate_append_replicate]
    congr 2
    omega
  rw [wider first (by omega), wider second (by omega), compareLex_append]
  rw [length_padded (by omega), length_padded (by omega)]

end Sequences

section Order

open Std

instance : TransCmp PrereleaseSegment.compare where
  eq_swap {left right} := by
    cases left with
    | number =>
      cases right with
      | number => exact OrientedOrd.eq_swap (α := Nat)
      | word => rfl
    | word =>
      cases right with
      | number => rfl
      | word => exact OrientedOrd.eq_swap (α := String)
  isLE_trans {left middle right} := by
    intro below above
    -- Numbers come before words, so only three of one kind need an argument.
    cases left with
    | number =>
      cases middle with
      | number =>
        cases right with
        | number => exact TransOrd.isLE_trans (α := Nat) below above
        | word => rfl
      | word =>
        cases right with
        | number => cases above
        | word => rfl
    | word =>
      cases middle with
      | number => cases below
      | word =>
        cases right with
        | number => cases above
        | word => exact TransOrd.isLE_trans (α := String) below above

instance : Ord PrereleaseSegment := ⟨PrereleaseSegment.compare⟩

instance : TransOrd PrereleaseSegment := inferInstanceAs (TransCmp PrereleaseSegment.compare)

/-- The order of versions whose releases have zeros after them up to a width. -/
def compareAt (width : Nat) : ParsedVersion → ParsedVersion → Ordering :=
  compareLex (compareOn fun version => padded version.release width)
    (compareLex (fun first second => compareOn ParsedVersion.isPrerelease second first)
      (compareOn ParsedVersion.prerelease))

instance (width : Nat) : TransCmp (compareAt width) := by
  unfold compareAt
  infer_instance

/-- Versions compare alike at every width that has room for both. -/
theorem compareVersions_eq {first second : ParsedVersion} {width : Nat}
    (one : first.release.length ≤ width) (two : second.release.length ≤ width) :
    compareVersions first second = compareAt width first second := by
  simp only [compareVersions, compareSequences_eq, compareAt, compareLex, compareOn,
    List.compare_eq_compareLex]
  rw [← compareLex_padded one two]
  -- Release first; then the code's two tests on the flag, then the tokens.
  cases List.compareLex compare (padded first.release width) (padded second.release width) with
  | lt => rfl
  | gt => rfl
  | eq =>
    cases first.isPrerelease <;> cases second.isPrerelease <;> rfl

variable {first second third : ParsedVersion}

/-- A version is equal to itself. -/
theorem compareVersions_self (version : ParsedVersion) : compareVersions version version = .eq := by
  rw [compareVersions_eq le_rfl le_rfl]
  exact ReflCmp.compare_self

/-- Comparing the other way around turns the answer around. -/
theorem compareVersions_swap (first second : ParsedVersion) :
    compareVersions second first = (compareVersions first second).swap := by
  rw [compareVersions_eq (le_max_right first.release.length _) (le_max_left _ _),
    compareVersions_eq (le_max_left _ second.release.length) (le_max_right _ _)]
  exact OrientedCmp.eq_swap

/-- Being at most another version is transitive. -/
theorem compareVersions_trans (below : (compareVersions first second).isLE)
    (above : (compareVersions second third).isLE) : (compareVersions first third).isLE := by
  -- One width has room for all three.
  have room : ∃ width, first.release.length ≤ width ∧ second.release.length ≤ width ∧
      third.release.length ≤ width :=
    ⟨first.release.length + second.release.length + third.release.length, by omega, by omega, by omega⟩
  obtain ⟨width, one, two, three⟩ := room
  rw [compareVersions_eq one two] at below
  rw [compareVersions_eq two three] at above
  rw [compareVersions_eq one three]
  exact TransCmp.isLE_trans below above

/-- Of two versions one is at most the other. -/
theorem compareVersions_total (first second : ParsedVersion) :
    (compareVersions first second).isLE ∨ (compareVersions second first).isLE := by
  rw [compareVersions_swap first second]
  cases compareVersions first second <;> simp

/-- A place of a release; what is not written is zero. -/
def ParsedVersion.place (version : ParsedVersion) (index : Nat) : Nat := version.release.getD index 0

/-- Versions compare as their releases do where they first differ. -/
theorem compareVersions_of_place {index : Nat}
    (before : ∀ earlier < index, first.place earlier = second.place earlier)
    (lower : first.place index < second.place index) : compareVersions first second = .lt := by
  rw [compareVersions_eq (le_max_left _ second.release.length) (le_max_right _ _), compareAt,
    -- The releases decide, so the tail of the comparison is not reached.
    compareLex, Ordering.then_eq_lt]
  left
  refine @compareLex_of_place _ _ ?_ index (fun earlier below => ?_) ?_
  · rw [length_padded (le_max_left _ _), length_padded (le_max_right _ _)]
  · rw [getD_padded, getD_padded]
    exact before earlier below
  · rw [getD_padded, getD_padded]
    exact lower

/-- Versions with the same places compare as their pre-releases do. -/
theorem compareVersions_of_places (same : ∀ index, first.place index = second.place index) :
    compareVersions first second =
      (compare second.isPrerelease first.isPrerelease).then
        (compare first.prerelease second.prerelease) := by
  -- Padded to one width, two lists with equal places are equal.
  have equal : padded first.release (max first.release.length second.release.length) =
      padded second.release (max first.release.length second.release.length) := by
    have lengths := (length_padded (le_max_left first.release.length second.release.length)).trans
      (length_padded (le_max_right first.release.length second.release.length)).symm
    refine List.ext_getElem lengths fun index here there => ?_
    have place := same index
    simp only [ParsedVersion.place] at place
    rw [← getD_padded first.release, ← getD_padded second.release] at place
    rw [List.getD_eq_getElem?_getD, List.getD_eq_getElem?_getD, List.getElem?_eq_getElem here,
      List.getElem?_eq_getElem there] at place
    exact place
  rw [compareVersions_eq (le_max_left _ second.release.length) (le_max_right _ _), compareAt,
    compareLex, compareOn, equal, ReflOrd.compare_self (α := List Nat)]
  rfl

end Order

section Texts

variable {table : DigitTable}

/-- How a version is parted from its pre-release. -/
theorem splitPrerelease_ok {body part : List Char} {isPrerelease : Bool}
    {prerelease : List PrereleaseSegment}
    (split : splitPrerelease table body = .ok (part, isPrerelease, prerelease)) :
    part = body.takeWhile (· != '-') ∧ isPrerelease = body.contains '-' ∧
      (isPrerelease = false → prerelease = []) := by
  unfold splitPrerelease at split
  split_ifs at split with hyphen
  · -- A hyphen: what stands before it, with the mark of a pre-release.
    obtain ⟨segments, -, same⟩ := bind_ok.mp split
    cases same
    exact ⟨rfl, hyphen.symm, nofun⟩
  · cases split
    have plain : '-' ∉ body := by simpa using hyphen
    -- None: the cut at the hyphen is the whole body.
    refine ⟨(List.takeWhile_eq_self_iff.mpr ?_).symm, by simpa using plain, fun _ => rfl⟩
    intro character within
    rw [bne_iff_ne]
    rintro rfl
    exact plain within

/-- What is read of the body of a version. -/
theorem parseBody_ok {body : List Char} {raw : String} {parsed : ParsedVersion}
    (read : parseBody table body raw = .ok (some parsed)) :
    ∃ segments, releaseSegments table (body.takeWhile (· != '-')) = some segments ∧
      releaseNumbers table (segments.take maxReleaseSegments) = .ok (some parsed.release) ∧
      parsed.isPrerelease = body.contains '-' ∧
      (parsed.isPrerelease = false → parsed.prerelease = []) := by
  simp only [parseBody, bind_ok] at read
  obtain ⟨⟨part, isPrerelease, prerelease⟩, split, read⟩ := read
  obtain ⟨rfl, rfl, plain⟩ := splitPrerelease_ok split
  dsimp only at read
  -- No release segment reads as `None`, and so does a release that is no number.
  split at read
  · cases read
  · rename_i segments found
    split_ifs at read
    · cases read
    · obtain ⟨release, numbers, given⟩ := bind_ok.mp read
      obtain ⟨values, rfl, rfl⟩ := Option.map_eq_some_iff.mp (Except.ok.inj given)
      exact ⟨segments, found, numbers, rfl, plain⟩

/-- Figures have their decimal values. -/
theorem decimal_figure {character : Char} (figure : character.isDigit = true) :
    table.isDigit character = true ∧ table.decimal character = some (character.toNat - '0'.toNat) := by
  have small : character.toNat < 128 := by
    simp only [Char.isDigit, Bool.and_eq_true, decide_eq_true_eq, ge_iff_le, UInt32.le_iff_toNat_le] at figure
    have high : character.toNat ≤ 57 := figure.2
    omega
  obtain ⟨digit, value⟩ := table.ascii character small
  rw [digit, value, if_pos figure]
  exact ⟨figure, rfl⟩

/-- The segments of a version text that are compared, an epoch first. -/
def versionSegments (table : DigitTable) (text : String) : List (List Char) :=
  ((releaseSegments table ((versionBody table (strip text).toList).takeWhile (· != '-'))).getD []).take
    maxReleaseSegments

/-- The number that digits write. -/
def numberOf (table : DigitTable) (digits : List Char) : Nat :=
  digits.foldl (fun value digit => 10 * value + (table.decimal digit).getD 0) 0

/-- A number is read off digits that all have a decimal value. -/
theorem intOf_ok {digits : List Char} {number : Nat} :
    intOf table digits = .ok number ↔
      (∀ digit ∈ digits, (table.decimal digit).isSome) ∧ number = numberOf table digits := by
  -- Digit by digit; one that has no decimal value makes the whole of it unreadable.
  have values : digits.mapM table.decimal =
      if ∀ digit ∈ digits, (table.decimal digit).isSome then
        some (digits.map fun digit => (table.decimal digit).getD 0) else none := by
    induction digits with
    | nil => rfl
    | cons digit rest ih =>
      rw [List.mapM_cons, ih]
      cases found : table.decimal digit with
      | none => simp [found]
      | some value =>
        by_cases later : ∀ other ∈ rest, (table.decimal other).isSome
        · rw [if_pos later, if_pos (List.forall_mem_cons.mpr ⟨by simp [found], later⟩)]
          simp [found]
        · rw [if_neg later, if_neg fun all => later (List.forall_mem_cons.mp all).2]
          rfl
  rw [intOf, values]
  -- With all of them read, the number is the fold of their values.
  split_ifs with decimals
  · simp only [List.foldl_map, Except.ok.injEq, numberOf]
    exact ⟨fun same => ⟨decimals, same.symm⟩, fun both => both.2.symm⟩
  · simp [decimals]

/-- A number is read when each of its digits is decimal. -/
theorem intOf_reads {digits : List Char} :
    (∃ number, intOf table digits = .ok number) ↔ ∀ digit ∈ digits, (table.decimal digit).isSome := by
  simp only [intOf_ok]
  exact ⟨fun ⟨_, decimals, _⟩ => decimals, fun decimals => ⟨_, decimals, rfl⟩⟩

/-- The numbers of a release are those of its segments, cut after eighteen digits. -/
theorem releaseNumbers_ok {segments : List (List Char)} {numbers : List Nat}
    (read : releaseNumbers table segments = .ok (some numbers)) :
    numbers = segments.map fun segment => numberOf table (segment.take 18) := by
  -- Along the segments, each cut to its first eighteen digits.
  induction segments generalizing numbers with
  | nil =>
    cases read
    rfl
  | cons segment rest ih =>
    rw [releaseNumbers] at read
    split_ifs at read
    · obtain ⟨number, here, read⟩ := bind_ok.mp read
      obtain ⟨later, there, read⟩ := bind_ok.mp read
      obtain ⟨others, rfl, rfl⟩ := Option.map_eq_some_iff.mp (Except.ok.inj read)
      rw [List.map_cons, (intOf_ok.mp here).2, ih there]
    · cases read

/-- What is read of a version text. -/
theorem parseVersion_ok {text : String} {version : ParsedVersion}
    (read : parseVersion table text = .ok (some version)) :
    version.release =
        (versionSegments table text).map (fun segment => numberOf table (segment.take 18)) ∧
      version.isPrerelease = (versionBody table (strip text).toList).contains '-' ∧
      (version.isPrerelease = false → version.prerelease = []) := by
  unfold parseVersion at read
  dsimp only at read
  -- A text that is no version and an empty body both give `None`.
  split_ifs at read
  · cases read
  · cases read
  · obtain ⟨segments, found, numbers, marked, plain⟩ := parseBody_ok read
    refine ⟨?_, marked, plain⟩
    rw [versionSegments, found]
    exact releaseNumbers_ok numbers

/-- A place of the release that a text writes, by the first eighteen digits of its segment; what is not
written is zero. -/
def textPlace (table : DigitTable) (text : String) (index : Nat) : Nat :=
  numberOf table (((versionSegments table text).getD index []).take 18)

/-- A place of a version that is read is the one its text has. -/
theorem place_of_parseVersion {text : String} {version : ParsedVersion}
    (read : parseVersion table text = .ok (some version)) (index : Nat) :
    version.place index = textPlace table text index := by
  rw [ParsedVersion.place, (parseVersion_ok read).1, textPlace]
  simp only [List.getD_eq_getElem?_getD, List.getElem?_map]
  cases (versionSegments table text)[index]? with
  | none => rfl
  | some segment => rfl

/-- How versions compare, and how the order follows what their texts say. -/
structure FaithfulOrder (table : DigitTable) : Prop where
  reflexive : ∀ version, compareVersions version version = .eq
  antisymmetric : ∀ first second,
    compareVersions second first = (compareVersions first second).swap
  transitive : ∀ first second third, (compareVersions first second).isLE →
    (compareVersions second third).isLE → (compareVersions first third).isLE
  total : ∀ first second,
    (compareVersions first second).isLE ∨ (compareVersions second first).isLE
  /-- The first place that differs decides, with zeros where nothing is written. -/
  places : ∀ text text' first second, parseVersion table text = .ok (some first) →
    parseVersion table text' = .ok (some second) → ∀ index,
      (∀ earlier < index, textPlace table text earlier = textPlace table text' earlier) →
      textPlace table text index < textPlace table text' index →
      compareVersions first second = .lt
  /-- A place is the number that its segment writes, up to eighteen digits. -/
  numbers : ∀ text index, ((versionSegments table text).getD index []).length ≤ 18 →
    textPlace table text index = numberOf table ((versionSegments table text).getD index [])
  /-- Releases with the same places are equal. -/
  releases : ∀ text text' first second, parseVersion table text = .ok (some first) →
    parseVersion table text' = .ok (some second) →
      (∀ index, textPlace table text index = textPlace table text' index) →
      first.isPrerelease = false → second.isPrerelease = false →
      compareVersions first second = .eq
  /-- A pre-release comes before its release. -/
  prereleases : ∀ text text' first second, parseVersion table text = .ok (some first) →
    parseVersion table text' = .ok (some second) →
      (∀ index, textPlace table text index = textPlace table text' index) →
      first.isPrerelease = true → second.isPrerelease = false →
      compareVersions first second = .lt

/-- Versions are in a total preorder that follows the numbers of their segments, up to eighteen digits
each and sixteen segments, and puts a pre-release before its release. -/
theorem compareVersions_faithful (table : DigitTable) : FaithfulOrder table where
  reflexive := compareVersions_self
  antisymmetric := compareVersions_swap
  transitive _ _ _ := compareVersions_trans
  total := compareVersions_total
  -- The first place that differs decides, wherever the texts have it.
  places := by
    intro text text' first second read read' index before lower
    refine @compareVersions_of_place _ _ index (fun earlier below => ?_) ?_
    · rw [place_of_parseVersion read, place_of_parseVersion read']
      exact before earlier below
    · rw [place_of_parseVersion read, place_of_parseVersion read']
      exact lower
  numbers := by
    intro text index short
    rw [textPlace, List.take_of_length_le short]
  -- Alike at every place, two releases tie.
  releases := by
    intro text text' first second read read' same final final'
    have places : ∀ index, first.place index = second.place index := fun index => by
      rw [place_of_parseVersion read, place_of_parseVersion read', same]
    rw [compareVersions_of_places places, final, final', (parseVersion_ok read).2.2 final,
      (parseVersion_ok read').2.2 final']
    rfl
  -- And a pre-release is below the release it leads to.
  prereleases := by
    intro text text' first second read read' same early final
    have places : ∀ index, first.place index = second.place index := fun index => by
      rw [place_of_parseVersion read, place_of_parseVersion read', same]
    rw [compareVersions_of_places places, early, final]
    rfl

end Texts

/-- A number of nineteen digits comes before a smaller one of eighteen, and a version of epoch zero
differs from the same version without an epoch. -/
theorem compareVersions_cut :
    (∃ long short, parseVersion asciiDigits "1000000000000000000" = .ok (some long) ∧
      parseVersion asciiDigits "999999999999999999" = .ok (some short) ∧
      numberOf asciiDigits "999999999999999999".toList <
        numberOf asciiDigits "1000000000000000000".toList ∧
      compareVersions long short = .lt) ∧
    ∃ plain zero, parseVersion asciiDigits "2.3" = .ok (some plain) ∧
      parseVersion asciiDigits "0:2.3" = .ok (some zero) ∧ compareVersions zero plain = .lt := by
  refine ⟨⟨⟨[100000000000000000], false, [], "1000000000000000000"⟩,
    ⟨[999999999999999999], false, [], "999999999999999999"⟩, ?_⟩,
    ⟨[2, 3], false, [], "2.3"⟩, ⟨[0, 2, 3], false, [], "0:2.3"⟩, ?_⟩
  · decide +kernel
  · decide +kernel

end Trusca
