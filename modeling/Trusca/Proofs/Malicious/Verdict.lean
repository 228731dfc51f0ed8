import Trusca.Malicious.Catalog
import Trusca.Proofs.Upgrade.Version

/-! When a package of the catalogue of malicious packages is cleared. -/

namespace Trusca

section Keys

variable {table : DigitTable}

/-- The runs of digits that the segments of a version begin with, up to the first segment without one. -/
def keyRuns (table : DigitTable) (segments : List (List Char)) : List (List Char) :=
  (segments.map fun segment => segment.takeWhile table.isDigit).takeWhile fun digits => !digits.isEmpty

/-- Whether the leading numbers of a version text can be read. -/
def ReadsKey (table : DigitTable) (text : String) : Prop :=
  ∀ digits ∈ keyRuns table (text.toList.splitOn '.'),
    digits.length ≤ maxStrDigits ∧ ∀ digit ∈ digits, (table.decimal digit).isSome

/-- Digits are read when they are decimal and not too many, as the number they write. -/
theorem readInt_ok {digits : List Char} {number : Nat} :
    readInt table digits = .ok number ↔
      (digits.length ≤ maxStrDigits ∧ ∀ digit ∈ digits, (table.decimal digit).isSome) ∧
        number = numberOf table digits := by
  rw [readInt]
  split_ifs with long
  · refine ⟨nofun, fun ⟨⟨short, _⟩, _⟩ => absurd long (by omega)⟩
  · rw [intOf_ok, and_iff_right (show digits.length ≤ maxStrDigits by omega)]

/-- The numbers that the segments of a version begin with. -/
def keyNumbers (table : DigitTable) (text : List Char) : List Nat :=
  (keyRuns table (text.splitOn '.')).map (numberOf table)

/-- The numbers of the segments are read exactly when each of the runs is. -/
theorem segmentKeys_ok {segments : List (List Char)} {numbers : List Nat} :
    segmentKeys table segments = .ok numbers ↔
      (∀ digits ∈ keyRuns table segments,
        digits.length ≤ maxStrDigits ∧ ∀ digit ∈ digits, (table.decimal digit).isSome) ∧
        numbers = (keyRuns table segments).map (numberOf table) := by
  -- Along the segments, which end for the key at the first one without leading digits.
  induction segments generalizing numbers with
  | nil =>
    refine ⟨fun read => ⟨nofun, ?_⟩, fun ⟨_, same⟩ => by rw [same]; rfl⟩
    cases read
    rfl
  | cons segment rest ih =>
    rw [segmentKeys, keyRuns, List.map_cons]
    split_ifs with none_left
    · rw [List.takeWhile_cons_of_neg (by simpa using none_left)]
      refine ⟨fun read => ⟨nofun, ?_⟩, fun ⟨_, same⟩ => by rw [same]; rfl⟩
      cases read
      rfl
    · rw [List.takeWhile_cons_of_pos (by simpa using none_left), List.forall_mem_cons, List.map_cons,
        ← keyRuns]
      simp only [bind_ok, readInt_ok, ih]
      -- One more segment: its digits are read, and then the rest of them.
      constructor
      · rintro ⟨number, ⟨here, rfl⟩, later, ⟨there, rfl⟩, same⟩
        cases same
        exact ⟨⟨here, there⟩, rfl⟩
      · rintro ⟨⟨here, there⟩, rfl⟩
        exact ⟨_, ⟨here, rfl⟩, _, ⟨there, rfl⟩, rfl⟩

/-- A version has a key when its numbers are read, and then it is those numbers. -/
theorem versionKey_ok {text : String} {numbers : List Nat} :
    versionKey table text = .ok numbers ↔
      ReadsKey table text ∧ numbers = keyNumbers table text.toList := segmentKeys_ok

/-- A version has a key when its numbers are read. -/
theorem versionKey_reads {text : String} :
    (∃ numbers, versionKey table text = .ok numbers) ↔ ReadsKey table text := by
  simp only [versionKey_ok]
  exact ⟨fun ⟨_, reads, _⟩ => reads, fun reads => ⟨_, reads, rfl⟩⟩

end Keys

section ReleaseOrder

/-- The numbers that the segments of a version are made of, up to the first that is no number, and what
stands behind them: the rest of that segment, and the segments that follow it. -/
def releaseAndTail (table : DigitTable) : List (List Char) → List (List Char) × List (List Char)
  | [] => ([], [])
  | segment :: rest =>
      let digits := segment.takeWhile table.isDigit
      let after := segment.dropWhile table.isDigit
      if digits.isEmpty then ([], segment :: rest)
      else if after.isEmpty then
        let (numbers, tail) := releaseAndTail table rest
        (digits :: numbers, tail)
      else ([digits], after :: rest)

/-- The release that a version text names: its numbers, and the identifiers behind them. Whatever stands
behind the numbers, build metadata apart, makes it a pre-release. -/
def releaseOf (table : DigitTable) (text : String) : ParsedVersion :=
  let (numbers, tail) := releaseAndTail table ((text.toList.takeWhile (· != '+')).splitOn '.')
  let tokens := (tail.flatMap fun part => part.splitOn '-').filter fun token => !token.isEmpty
  { release := numbers.map (numberOf table)
    isPrerelease := !tail.isEmpty
    prerelease := tokens.map fun token =>
      if isDigits table token then .number (numberOf table token) else .word (String.ofList token)
    raw := text }

/-- Whether a version text is numbers with dots between them. -/
def IsFinalRelease (table : DigitTable) (text : String) : Prop :=
  '+' ∉ text.toList ∧ (releaseAndTail table (text.toList.splitOn '.')).2 = []

/-- Whether a version comes before another one in the order of releases. -/
def EarlierRelease (table : DigitTable) (first second : String) : Prop :=
  compareVersions (releaseOf table first) (releaseOf table second) = .lt

/-- Whether a version, though earlier, begins its segments with numbers that are not below those of the
other one: what follows a number in its segment does not count, and the numbers that the segments behind
its release begin with, of its pre-release and of its build metadata, do. -/
def Misread (table : DigitTable) (first second : String) : Prop :=
  EarlierRelease table first second ∧ keyNumbers table first.toList ≠ [] ∧
    keyNumbers table second.toList ≠ [] ∧
    (compareSequences Ord.compare (keyNumbers table second.toList) (keyNumbers table first.toList)).isLE

/-- Zeros come before whatever has their length. -/
theorem compareLex_zeros (numbers : List Nat) :
    (List.compareLex compare (List.replicate numbers.length 0) numbers).isLE := by
  induction numbers with
  | nil => rfl
  | cons number rest ih =>
    rw [List.length_cons, List.replicate_succ, List.compareLex_cons_cons,
      Ordering.isLE_then_iff_and]
    exact ⟨Nat.isLE_compare.mpr (Nat.zero_le number), .inr ih⟩

/-- Numbers that come before others still do so with zeros after both. -/
theorem compareLex_padded_isLE {first second : List Nat} {width : Nat} (one : first.length ≤ width)
    (two : second.length ≤ width) (below : (List.compareLex compare first second).isLE) :
    (List.compareLex compare (padded first width) (padded second width)).isLE := by
  -- Along the shorter list; behind its end there are zeros.
  induction first generalizing second width with
  | nil =>
    have zeros := compareLex_zeros (padded second width)
    rw [length_padded two] at zeros
    exact zeros
  | cons left lefts ih =>
    cases second with
    | nil =>
      rw [List.compareLex_cons_nil] at below
      cases below
    -- Both have a segment left: the comparison goes by the first pair and then by the rest.
    | cons right rights =>
      obtain ⟨width, rfl⟩ := Nat.exists_eq_add_one_of_ne_zero (show width ≠ 0 by simp at one; omega)
      have shift (number : Nat) (numbers : List Nat) :
          padded (number :: numbers) (width + 1) = number :: padded numbers width := by simp [padded]
      rw [List.compareLex_cons_cons, Ordering.isLE_then_iff_and] at below
      rw [shift, shift, List.compareLex_cons_cons, Ordering.isLE_then_iff_and]
      exact ⟨below.1, below.2.imp_right fun rest => ih (by simpa using one) (by simpa using two) rest⟩

/-- Where nothing stands behind the numbers of a version, they are all that its segments begin with. -/
theorem keyRuns_eq_release {table : DigitTable} {segments : List (List Char)}
    (final : (releaseAndTail table segments).2 = []) :
    keyRuns table segments = (releaseAndTail table segments).1 := by
  induction segments with
  | nil => rfl
  | cons segment rest ih =>
    -- A segment that is no number would stand behind the release.
    simp only [releaseAndTail] at final ⊢
    split at final
    · cases final
    · next some_number =>
      split at final
      · next whole =>
        simp only [some_number, whole, Bool.false_eq_true, if_true, if_false] at final ⊢
        rw [keyRuns, List.map_cons, List.takeWhile_cons_of_pos (by simpa using some_number), ← ih final,
          keyRuns]
      · cases final

/-- Such a version is the release of the numbers that its segments begin with. -/
theorem releaseOf_final {table : DigitTable} {text : String} (final : IsFinalRelease table text) :
    releaseOf table text = ⟨keyNumbers table text.toList, false, [], text⟩ := by
  have whole : text.toList.takeWhile (· != '+') = text.toList := by
    refine List.takeWhile_eq_self_iff.mpr fun character within => ?_
    rw [bne_iff_ne]
    rintro rfl
    exact final.1 within
  rw [releaseOf, whole, keyNumbers, keyRuns_eq_release final.2]
  simp [final.2]

/-- A version that is numbers with dots between them is not misread against another such one. -/
theorem not_misread {table : DigitTable} {first second : String} (final : IsFinalRelease table first)
    (final' : IsFinalRelease table second) : ¬Misread table first second := by
  -- A final release is the numbers of its key, so an earlier release has the smaller key.
  rintro ⟨early, _, _, below⟩
  rw [EarlierRelease, releaseOf_final final, releaseOf_final final',
    compareVersions_eq (le_max_left _ _) (le_max_right _ _), compareAt, compareLex,
    Ordering.then_eq_lt] at early
  rw [compareSequences_eq] at below
  have padded_below := compareLex_padded_isLE (le_max_right (keyNumbers table first.toList).length _)
    (le_max_left _ _) below
  -- The numbers differ first, and the padding cannot turn that round.
  rcases early with early | ⟨_, early⟩
  · rw [compareOn, List.compare_eq_compareLex, ← Std.OrientedCmp.gt_iff_lt] at early
    rw [early] at padded_below
    cases padded_below
  · cases early

end ReleaseOrder

namespace MaliciousIndex

variable (index : MaliciousIndex) (table : DigitTable) {purl : String} {version : Option String}
  {fixed : String}

/-- Whether an advisory is about a package. -/
def Lists (purl : String) : Prop := ∃ advisory, index.packages.lookup (basePurl purl) = some advisory

/-- Whether the advisory names versions and the version is another one. -/
def RulesOut (purl : String) (version : Option String) : Prop :=
  ∃ pinned installed, index.versions.lookup (basePurl purl) = some pinned ∧ pinned ≠ [] ∧
    version = some installed ∧ installed ∉ pinned

/-- Whether a version is compared with the release at which the compromise of its package ended. -/
def Compares (purl : String) (version : Option String) (fixed : String) : Prop :=
  index.Lists purl ∧ ¬index.RulesOut purl version ∧ version.isSome ∧
    index.fixedBefore.lookup (basePurl purl) = some fixed ∧ fixed ≠ ""

variable {index}

/-- A package is compared with one fixed version at most. -/
theorem compares_unique {other : String} (one : index.Compares purl version fixed)
    (two : index.Compares purl version other) : fixed = other := by
  obtain ⟨_, _, _, here, _⟩ := one
  obtain ⟨_, _, _, there, _⟩ := two
  exact Option.some.inj (here.symm.trans there)

/-- The pins of an advisory as the verdict reads them. -/
theorem rulesOut_iff {installed : String} : index.RulesOut purl (some installed) ↔
    (!((index.versions.lookup (basePurl purl)).getD []).isEmpty &&
      !((index.versions.lookup (basePurl purl)).getD []).contains installed) = true := by
  rw [RulesOut]
  cases index.versions.lookup (basePurl purl) with
  | none => simp
  | some pinned => simp

variable (index)

/-- The verdict where a version is compared. -/
theorem verdictFor_compares {installed : String} (compares : index.Compares purl (some installed) fixed) :
    ∃ advisory, index.packages.lookup (basePurl purl) = some advisory ∧
      index.verdictFor table purl (some installed) = (do
        let installedKey ← versionKey table installed
        let fixedKey ← versionKey table fixed
        if !installedKey.isEmpty && !fixedKey.isEmpty &&
            (compareSequences Ord.compare fixedKey installedKey).isLE then
          return ⟨.clear, none, "osv.dev@" ++ index.snapshot⟩
        else return ⟨.flagged, some advisory, "osv.dev@" ++ index.snapshot⟩) := by
  obtain ⟨⟨advisory, listed⟩, kept, _, found, some_text⟩ := compares
  refine ⟨advisory, listed, ?_⟩
  rw [rulesOut_iff] at kept
  simp only [verdictFor, listed, kept, found, some_text, Bool.false_eq_true, if_false]

/-- Where nothing is compared, a package is cleared when no advisory is about it or its version is
ruled out. -/
theorem verdictFor_settled (settled : ¬∃ fixed, index.Compares purl version fixed) :
    ∃ verdict, index.verdictFor table purl version = .ok verdict ∧
      (verdict.state = .clear ↔ ¬index.Lists purl ∨ index.RulesOut purl version) := by
  unfold verdictFor
  dsimp only
  -- By whether the package is listed, the version given, and the version ruled out.
  cases listed : index.packages.lookup (basePurl purl) with
  | none =>
    refine ⟨_, rfl, ?_⟩
    simp [Lists, listed]
  | some advisory =>
    have lists : index.Lists purl := ⟨advisory, listed⟩
    cases version with
    | none =>
      refine ⟨_, rfl, ?_⟩
      simp [lists, RulesOut]
    | some installed =>
      dsimp only
      split
      · next out =>
        refine ⟨_, rfl, ?_⟩
        simp [rulesOut_iff.mpr out]
      · next kept =>
        rw [← rulesOut_iff] at kept
        -- What is left is listed and not ruled out, and it is flagged as soon as nothing is compared.
        have flagged : MaliciousState.flagged = .clear ↔
            ¬index.Lists purl ∨ index.RulesOut purl (some installed) := by simp [lists, kept]
        cases found : index.fixedBefore.lookup (basePurl purl) with
        | none => exact ⟨_, rfl, flagged⟩
        | some fixed =>
          -- A fixed version with a text would be compared, which was excluded.
          have empty : fixed = "" := by
            by_contra some_text
            exact settled ⟨fixed, lists, kept, rfl, found, some_text⟩
          simp only [empty, if_true]
          exact ⟨_, rfl, flagged⟩

/-- What excuses a package: no advisory is about it, or its version is ruled out, or the version is not
earlier than the release at which the compromise ended. -/
def Excuses (purl : String) (version : Option String) : Prop :=
  ¬index.Lists purl ∨ index.RulesOut purl version ∨
    ∃ installed fixed, version = some installed ∧
      index.fixedBefore.lookup (basePurl purl) = some fixed ∧ fixed ≠ "" ∧
      ¬EarlierRelease table installed fixed

/-- A package is cleared only when something excuses it, and flagged otherwise. -/
def FailsClosed (purl : String) (version : Option String) : Prop :=
  (∀ verdict, index.verdictFor table purl version = .ok verdict → verdict.state = .clear →
    index.Excuses table purl version) ∧
  (¬index.Excuses table purl version →
    ∃ verdict, index.verdictFor table purl version = .ok verdict ∧ verdict.state = .flagged)

/-- A version that is compared is excused exactly when it is not earlier. -/
theorem excuses_iff {installed : String} (compares : index.Compares purl (some installed) fixed) :
    index.Excuses table purl (some installed) ↔ ¬EarlierRelease table installed fixed := by
  obtain ⟨lists, kept, _, found, some_text⟩ := compares
  constructor
  · -- Listed and not ruled out, so only the comparison is left to excuse it.
    rintro (absent | out | ⟨_, other, same, there, _, late⟩)
    · exact absurd lists absent
    · exact absurd out kept
    · cases same
      cases found.symm.trans there
      exact late
  · exact fun late => .inr (.inr ⟨installed, fixed, rfl, found, some_text, late⟩)

/-- The verdict fails closed exactly when an earlier version than the end of the compromise can be read
and is not misread. -/
theorem verdictFor_fails_closed (index : MaliciousIndex) (table : DigitTable) (purl : String)
    (version : Option String) :
    index.FailsClosed table purl version ↔
      ∀ installed fixed, version = some installed → index.Compares purl version fixed →
        EarlierRelease table installed fixed →
          ReadsKey table installed ∧ ReadsKey table fixed ∧ ¬Misread table installed fixed := by
  -- Only where the two versions are compared the verdict depends on the keys.
  by_cases compares : ∃ fixed, index.Compares purl version fixed
  · obtain ⟨fixed, compares⟩ := compares
    obtain ⟨installed, rfl⟩ := Option.isSome_iff_exists.mp compares.2.2.1
    obtain ⟨advisory, _, verdict⟩ := index.verdictFor_compares table compares
    rw [FailsClosed, excuses_iff index table compares, not_not]
    constructor
    · -- Failing closed: an early version has to be flagged, so both keys are read.
      rintro ⟨cleared, flagged⟩ _ other same again early
      cases same
      cases compares_unique compares again
      obtain ⟨answer, given, state⟩ := flagged early
      have read := given
      simp only [verdict, bind_ok, versionKey_ok] at read
      obtain ⟨_, ⟨one, rfl⟩, _, ⟨two, rfl⟩, rest⟩ := read
      -- A misread pair would compare as at or above, and the answer would be clear.
      refine ⟨one, two, fun ⟨_, some_number, some_other, below⟩ => ?_⟩
      rw [if_pos (by simp [some_number, some_other, below])] at rest
      cases rest
      cases state
    · -- Conversely, keys that are read right put an early version below, and it is flagged.
      intro reads
      have early_flagged : EarlierRelease table installed fixed →
          index.verdictFor table purl (some installed) =
            .ok ⟨.flagged, some advisory, "osv.dev@" ++ index.snapshot⟩ := by
        intro early
        obtain ⟨one, two, right⟩ := reads installed fixed rfl compares early
        rw [verdict]
        simp only [bind_ok, versionKey_ok]
        refine ⟨_, ⟨one, rfl⟩, _, ⟨two, rfl⟩, if_neg fun clears => right ?_⟩
        simp only [Bool.and_eq_true, Bool.not_eq_true', List.isEmpty_eq_false_iff] at clears
        exact ⟨early, clears.1.1, clears.1.2, clears.2⟩
      refine ⟨fun answer given clear early => ?_, fun early => ⟨_, early_flagged early, rfl⟩⟩
      rw [early_flagged early] at given
      cases given
      cases clear
  · -- Nothing is compared: the verdict says what the index settles, and there is nothing to misread.
    obtain ⟨answer, settled, states⟩ := index.verdictFor_settled table compares
    refine iff_of_true ⟨fun other given clear => ?_, fun excused => ⟨answer, settled, ?_⟩⟩
      fun installed fixed _ again => absurd ⟨fixed, again⟩ compares
    · cases settled.symm.trans given
      exact (states.mp clear).imp_right .inl
    · cases state : answer.state with
      | flagged => rfl
      | clear => exact absurd ((states.mp state).imp_right .inl) excused

end MaliciousIndex

/-- A pre-release comes before its release, be it marked by a hyphen, by letters or by a segment. -/
example : ["2.0.0-rc1", "2.0.0rc1", "2.0.0.rc1"].all fun text =>
    compareVersions (releaseOf asciiDigits text) (releaseOf asciiDigits "2.0.0") == .lt := by
  decide +kernel

/-- A pre-release of the release at which the compromise ended is cleared. -/
theorem verdictFor_clears_prerelease : ¬MaliciousIndex.FailsClosed
    ⟨"2026-08-03", [("pkg:npm/fsevents", "MAL-2023-462")], [], [("pkg:npm/fsevents", "2.0.0")]⟩
    asciiDigits "pkg:npm/fsevents@2.0.0-rc1" (some "2.0.0-rc1") := by
  rintro ⟨cleared, _⟩
  -- The key of 2.0.0-rc1 is (2, 0, 0), so the verdict clears it, though its release is earlier.
  have computed : MaliciousIndex.verdictFor asciiDigits
      ⟨"2026-08-03", [("pkg:npm/fsevents", "MAL-2023-462")], [], [("pkg:npm/fsevents", "2.0.0")]⟩
      "pkg:npm/fsevents@2.0.0-rc1" (some "2.0.0-rc1") = .ok ⟨.clear, none, "osv.dev@2026-08-03"⟩ ∧
      basePurl "pkg:npm/fsevents@2.0.0-rc1" = "pkg:npm/fsevents" ∧
      compareVersions (releaseOf asciiDigits "2.0.0-rc1") (releaseOf asciiDigits "2.0.0") = .lt := by
    decide +kernel
  obtain ⟨verdict, package, early⟩ := computed
  -- None of the three excuses is there: listed, not ruled out, and the release is before the fix.
  rcases cleared _ verdict rfl with absent | ⟨_, _, pinned, _⟩ | ⟨_, _, same, found, _, late⟩
  · exact absent ⟨"MAL-2023-462", by rw [package]; rfl⟩
  · cases pinned
  · cases same
    rw [package] at found
    cases found
    exact late early

end Trusca
