import Trusca.Proofs.Malicious.Verdict
import Trusca.Scan.Stamping

/-! Which version texts the catalogues can read, and what an unreadable one does to a scan. -/

namespace Trusca

section Readers

variable {table : DigitTable}

/-- Whether the digits that are read of a text all have a decimal value; eighteen of them are read. -/
def DecimalCut (table : DigitTable) (digits : List Char) : Prop :=
  ∀ digit ∈ digits.take 18, (table.decimal digit).isSome

/-- The pre-release identifiers of a version that are read. -/
def prereleaseTokens (body : List Char) : List (List Char) :=
  if body.contains '-' then
    (((((body.dropWhile (· != '-')).drop 1).splitOnP fun character =>
      character == '.' || character == '-').filter fun token => !token.isEmpty).take 8).map
        fun token => token.map lowerChar
  else []

/-- Whether the numbers of a version text can be read: its numeric identifiers, and its segments up to
the first that is no number. -/
def ReadsVersion (table : DigitTable) (text : String) : Prop :=
  let body := versionBody table (strip text).toList
  isVersionText (strip text) = true → body ≠ [] →
    (∀ token ∈ prereleaseTokens body, isDigits table token = true → DecimalCut table token) ∧
      ∀ segments, releaseSegments table (body.takeWhile (· != '-')) = some segments →
        ∀ segment ∈ (segments.take maxReleaseSegments).takeWhile (isDigits table),
          DecimalCut table segment

/-- A segment of a pre-release is read when its digits are decimal. -/
theorem coercePrereleaseSegment_reads {token : List Char} :
    (∃ segment, coercePrereleaseSegment table token = .ok segment) ↔
      (isDigits table token = true → DecimalCut table token) := by
  rw [coercePrereleaseSegment, DecimalCut, ← intOf_reads]
  split_ifs with digits
  · cases intOf table (token.take 18) with
    | error reason => simp [Except.map, digits]
    | ok number => simp [Except.map]
  · simp [digits]

/-- The numbers of a release are read when each of its segments is decimal. -/
theorem releaseNumbers_reads {segments : List (List Char)} :
    (∃ numbers, releaseNumbers table segments = .ok numbers) ↔
      ∀ segment ∈ segments.takeWhile (isDigits table), DecimalCut table segment := by
  -- Over the segments; the loop stops at the first one that is no number.
  induction segments with
  | nil => simp [releaseNumbers]
  | cons segment rest ih =>
    rw [releaseNumbers]
    split_ifs with digits
    · rw [List.takeWhile_cons_of_pos digits, List.forall_mem_cons, ← ih, DecimalCut, ← intOf_reads]
      simp only [bind_ok]
      constructor
      · rintro ⟨_, number, here, numbers, there, _⟩
        exact ⟨⟨number, here⟩, numbers, there⟩
      · rintro ⟨⟨number, here⟩, numbers, there⟩
        exact ⟨_, number, here, numbers, there, rfl⟩
    · rw [List.takeWhile_cons_of_neg digits]
      simp

/-- The pre-release of a version can be read exactly when its numeric identifiers can. -/
theorem splitPrerelease_reads {body : List Char} :
    (∃ parts, splitPrerelease table body = .ok parts) ↔
      ∀ token ∈ prereleaseTokens body, isDigits table token = true → DecimalCut table token := by
  -- Only a text with a hyphen has tokens to coerce.
  rw [splitPrerelease, prereleaseTokens]
  split_ifs with hyphen
  · simp only [bind_ok, ← coercePrereleaseSegment_reads, List.forall_mem_map]
    rw [← mapM_ok]
    constructor
    · rintro ⟨_, segments, read, _⟩
      exact ⟨segments, read⟩
    · rintro ⟨segments, read⟩
      exact ⟨_, segments, read, rfl⟩
  · simp [pure, Except.pure]

/-- The body of a version is read exactly when its pre-release and its segments are. -/
theorem parseBody_reads {body : List Char} {raw : String} :
    (∃ read, parseBody table body raw = .ok read) ↔
      (∀ token ∈ prereleaseTokens body, isDigits table token = true → DecimalCut table token) ∧
        ∀ segments, releaseSegments table (body.takeWhile (· != '-')) = some segments →
          ∀ segment ∈ (segments.take maxReleaseSegments).takeWhile (isDigits table),
            DecimalCut table segment := by
  -- The pre-release is split off first, and then the release is read segment by segment.
  simp only [parseBody, bind_ok]
  rw [← splitPrerelease_reads]
  -- A body that was read has been through both.
  constructor
  · rintro ⟨read, ⟨part, isPrerelease, prerelease⟩, split, rest⟩
    refine ⟨⟨_, split⟩, fun segments found => ?_⟩
    obtain ⟨rfl, _, _⟩ := splitPrerelease_ok split
    simp only [found] at rest
    -- No segment is left: there is nothing to be read, and the version is none.
    split_ifs at rest with none_left
    · rw [List.isEmpty_iff] at none_left
      simp [none_left]
    · obtain ⟨numbers, given, _⟩ := bind_ok.mp rest
      exact releaseNumbers_reads.mp ⟨numbers, given⟩
  · -- Conversely, with both readable nothing raises.
    rintro ⟨⟨⟨part, isPrerelease, prerelease⟩, split⟩, segments_read⟩
    obtain ⟨rfl, _, _⟩ := splitPrerelease_ok split
    cases found : releaseSegments table (body.takeWhile (· != '-')) with
    | none => exact ⟨none, _, split, by simp only [found]; rfl⟩
    | some segments =>
      by_cases none_left : segments.isEmpty = true
      · exact ⟨none, _, split, by simp only [found, none_left, if_true]; rfl⟩
      · obtain ⟨numbers, given⟩ := releaseNumbers_reads.mpr (segments_read segments found)
        refine ⟨numbers.map fun numbers => ⟨numbers, isPrerelease, prerelease, raw⟩, _, split, ?_⟩
        simp only [found, none_left, Bool.false_eq_true, if_false]
        exact bind_ok.mpr ⟨numbers, given, rfl⟩

/-- A version text is read, as a version or as none, exactly when its numbers can be. -/
theorem parseVersion_reads {text : String} :
    (∃ read, parseVersion table text = .ok read) ↔ ReadsVersion table text := by
  -- A text that is no version and an empty body both read, as `None`.
  rw [parseVersion, ReadsVersion]
  dsimp only
  by_cases version : isVersionText (strip text) = true
  · simp only [version, Bool.not_true, Bool.false_eq_true, if_false, forall_const]
    by_cases empty : versionBody table (strip text).toList = []
    · simp [empty]
    · simp only [List.isEmpty_iff, empty, if_false, ne_eq, not_false_eq_true, forall_const]
      exact parseBody_reads
  · simp [version]

end Readers

section Evaluators

variable {table : DigitTable} {fromIsoFormat : String → Option CalendarDate}

/-- Whether the end-of-life catalogue can read what it compares: the version of a component and the
newest patch of its cycle, where it has them. -/
def EolEvaluator.Reads (evaluator : EolEvaluator) (table : DigitTable) (purl version : String) : Prop :=
  ∀ rule cycle entry latest, evaluator.matchEntry purl version = some (rule, some (cycle, some entry)) →
    entry.latest = some latest → latest ≠ "" → ReadsVersion table version ∧ ReadsVersion table latest

/-- The currency of a version is told when the version and the latest one are read. -/
theorem evaluateCurrency_reads {version : String} {entry : EolEntry} :
    (∃ currency, evaluateCurrency table fromIsoFormat version entry = .ok currency) ↔
      ∀ latest, entry.latest = some latest → latest ≠ "" →
        ReadsVersion table version ∧ ReadsVersion table latest := by
  rw [evaluateCurrency]
  -- Without a latest version nothing is parsed.
  cases entry.latest with
  | none => simp
  | some latest =>
    simp only [Option.some.injEq, forall_eq', ← parseVersion_reads]
    split_ifs with empty
    · simp [empty]
    · simp only [empty, ne_eq, not_false_eq_true, forall_const, bind_ok]
      -- Both versions are parsed before they are compared, so both have to be readable.
      constructor
      · rintro ⟨_, installed, here, newest, there, _⟩
        exact ⟨⟨installed, here⟩, newest, there⟩
      · -- And then nothing can raise, whatever the comparison says.
        rintro ⟨⟨installed, here⟩, newest, there⟩
        cases installed with
        | none => exact ⟨_, none, here, newest, there, rfl⟩
        | some installed =>
          cases newest with
          | none => exact ⟨_, some installed, here, none, there, rfl⟩
          | some newest =>
            by_cases behind : compareVersions installed newest = .lt
            · exact ⟨_, some installed, here, some newest, there, by simp only [behind, if_true]; rfl⟩
            · exact ⟨_, some installed, here, some newest, there, by simp only [behind, if_false]; rfl⟩

/-- The end-of-life catalogue gives a verdict, or none, exactly when it can read what it compares. -/
theorem evaluate_reads {evaluator : EolEvaluator} {purl version : String} :
    (∃ verdict, evaluator.evaluate table fromIsoFormat purl version = .ok verdict) ↔
      evaluator.Reads table purl version := by
  rw [EolEvaluator.evaluate, EolEvaluator.Reads]
  -- Only a matched cycle reads any version.
  rcases evaluator.matchEntry purl version with _ | ⟨rule, _ | ⟨cycle, _ | entry⟩⟩
  · simp
  · simp
  · simp
  · have currency := @evaluateCurrency_reads table fromIsoFormat version entry
    simp only [Option.some.injEq, Prod.mk.injEq, and_imp, bind_ok]
    constructor
    · -- The currency is read first, and what comes after it never raises.
      rintro ⟨_, parts, read, _⟩ _ _ _ latest rfl rfl rfl
      exact currency.mp ⟨parts, read⟩ latest
    · intro reads
      obtain ⟨⟨state, latest, released⟩, read⟩ := currency.mpr fun latest =>
        reads rule cycle entry latest rfl rfl rfl
      -- The end of life is an answer, a date, or neither; a date that does not parse is no error.
      cases ends : entry.eol with
      | answer ended => exact ⟨_, _, read, rfl⟩
      | other => exact ⟨_, _, read, rfl⟩
      | date text =>
        cases dated : fromIsoFormat text with
        | none => exact ⟨_, _, read, by simp only [dated]; rfl⟩
        | some date => exact ⟨_, _, read, by simp only [dated]; rfl⟩

/-- Whether the catalogue of malicious packages can read what it compares: a version that no pin rules
out and the release at which the compromise ended, where there is one. -/
def MaliciousIndex.Reads (index : MaliciousIndex) (table : DigitTable) (purl version : String) : Prop :=
  ∀ fixed, index.Compares purl (some version) fixed → ReadsKey table version ∧ ReadsKey table fixed

/-- The catalogue of malicious packages gives a verdict exactly when it can read what it compares. -/
theorem verdictFor_reads {index : MaliciousIndex} {purl version : String} :
    (∃ verdict, index.verdictFor table purl (some version) = .ok verdict) ↔
      index.Reads table purl version := by
  rw [MaliciousIndex.Reads]
  -- Keys are only read for a listed package with a boundary.
  by_cases compares : ∃ fixed, index.Compares purl (some version) fixed
  · obtain ⟨fixed, compares⟩ := compares
    obtain ⟨advisory, listed, verdict⟩ := index.verdictFor_compares table compares
    rw [verdict]
    simp only [← versionKey_reads, bind_ok]
    -- Both keys were read, whichever boundary is asked for: there is one.
    constructor
    · rintro ⟨_, installed, here, boundary, there, _⟩ other again
      cases index.compares_unique compares again
      exact ⟨⟨installed, here⟩, boundary, there⟩
    · -- And with both keys the comparison answers.
      intro reads
      obtain ⟨⟨installed, here⟩, boundary, there⟩ := reads fixed compares
      by_cases clears : (!installed.isEmpty && !boundary.isEmpty &&
          (compareSequences Ord.compare boundary installed).isLE) = true
      · exact ⟨_, installed, here, boundary, there, if_pos clears⟩
      · exact ⟨_, installed, here, boundary, there, if_neg clears⟩
  · -- Nothing is compared, so nothing is read.
    obtain ⟨verdict, settled, _⟩ := index.verdictFor_settled table compares
    exact iff_of_true ⟨verdict, settled⟩ fun fixed again => absurd ⟨fixed, again⟩ compares

end Evaluators

section Run

variable {table : DigitTable} {fromIsoFormat : String → Option CalendarDate}

/-- Whether every component was assessed by both catalogues. -/
def AllAssessed (stamps : List ComponentStamps) : Prop :=
  ∀ stamp ∈ stamps, stamp.eol.isSome ∧ stamp.malicious.isSome

/-- Whether both catalogues can read what they compare of a component. -/
def SbomComponent.Readable (component : SbomComponent) (table : DigitTable) (evaluator : EolEvaluator)
    (index : MaliciousIndex) : Prop :=
  evaluator.Reads table component.purl component.version ∧
    index.Reads table component.purl component.pinnedVersion

/-- An outcome is there when it is a result. -/
theorem toOption_isSome {ε α : Type} {outcome : Except ε α} :
    outcome.toOption.isSome ↔ ∃ result, outcome = .ok result := by
  cases outcome <;> simp [Except.toOption]

variable (table fromIsoFormat)

/-- A component is assessed by both catalogues exactly when both can read it. -/
theorem stampComponent_assessed (evaluator : EolEvaluator) (index : MaliciousIndex)
    (component : SbomComponent) :
    ((stampComponent table fromIsoFormat ⟨some evaluator, some index⟩ component).2.eol.isSome ∧
      (stampComponent table fromIsoFormat ⟨some evaluator, some index⟩ component).2.malicious.isSome) ↔
        component.Readable table evaluator index := by
  have life := @evaluate_reads table fromIsoFormat evaluator component.purl component.version
  rw [SbomComponent.Readable, ← life, ← verdictFor_reads]
  simp only [stampComponent, Option.map_some, Option.bind_some, toOption_isSome]

/-- Evaluators that can read a component are used again. -/
theorem stampComponent_kept {evaluator : EolEvaluator} {index : MaliciousIndex}
    {component : SbomComponent} (readable : component.Readable table evaluator index) :
    (stampComponent table fromIsoFormat ⟨some evaluator, some index⟩ component).1 =
      ⟨some evaluator, some index⟩ := by
  obtain ⟨verdict, life⟩ :=
    (@evaluate_reads table fromIsoFormat evaluator component.purl component.version).mpr readable.1
  obtain ⟨malice, known⟩ := verdictFor_reads.mpr readable.2
  simp only [stampComponent, Option.map_some, Option.bind_some, life, known]
  rfl

/-- Every component of a scan is assessed by both catalogues exactly when both can read all of them. -/
theorem stampComponents_assessed (evaluator : EolEvaluator) (index : MaliciousIndex)
    (components : List SbomComponent) :
    AllAssessed (stampComponents table fromIsoFormat ⟨some evaluator, some index⟩ components).2 ↔
      ∀ component ∈ components, component.Readable table evaluator index := by
  -- A component that cannot be read stops the loop, so the rest goes only after `readable`.
  induction components with
  | nil => simp [stampComponents, AllAssessed]
  | cons component rest ih =>
    rw [AllAssessed, stampComponents, List.forall_mem_cons, List.forall_mem_cons,
      stampComponent_assessed]
    refine and_congr_right fun readable => ?_
    rw [stampComponent_kept table fromIsoFormat readable]
    exact ih

/-- The version readers return, and a scan assesses all of its components, exactly when the digits that
are read have decimal values and no run of them that is compared with a fix is too long. -/
theorem readers_return (table : DigitTable) (fromIsoFormat : String → Option CalendarDate) :
    (∀ text, (∃ read, parseVersion table text = .ok read) ↔ ReadsVersion table text) ∧
    (∀ text, (∃ key, versionKey table text = .ok key) ↔ ReadsKey table text) ∧
    (∀ (evaluator : EolEvaluator) purl version,
      (∃ verdict, evaluator.evaluate table fromIsoFormat purl version = .ok verdict) ↔
        evaluator.Reads table purl version) ∧
    ∀ evaluator index components,
      AllAssessed (stampComponents table fromIsoFormat ⟨some evaluator, some index⟩ components).2 ↔
        ∀ component ∈ components, component.Readable table evaluator index :=
  ⟨fun _ => parseVersion_reads, fun _ => versionKey_reads, fun _ _ _ => evaluate_reads,
    stampComponents_assessed table fromIsoFormat⟩

end Run

/-- The digits of ASCII and the superscripts of Latin, which have no decimal value. -/
def latinDigits : DigitTable where
  isDigit character := character.isDigit || character == '²' || character == '³' || character == '¹'
  decimal character := if character.isDigit then some (character.toNat - '0'.toNat) else none
  decimal_isDigit := by
    intro character value found
    split_ifs at found with digit
    simp [digit]
  ascii character small := by
    refine ⟨?_, rfl⟩
    have plain : character ≠ '²' ∧ character ≠ '³' ∧ character ≠ '¹' := by
      refine ⟨?_, ?_, ?_⟩ <;> rintro rfl <;> exact absurd small (by decide)
    rw [beq_false_of_ne plain.1, beq_false_of_ne plain.2.1, beq_false_of_ne plain.2.2, Bool.or_false,
      Bool.or_false, Bool.or_false]

/-- A superscript in one version makes every reader fail, and a malicious package after it is not
assessed. -/
theorem readers_raise :
    parseVersion latinDigits "1.²" = .error (.invalidLiteral "²") ∧
      versionKey latinDigits "1.²" = .error (.invalidLiteral "²") ∧
      (stampComponents latinDigits (fun _ => none)
        ⟨some ⟨[⟨"pkg:npm/react@", "react", .major⟩],
            ⟨"2026-01-01", [("react", [⟨"1", .other, some "1.9", none⟩])]⟩, 0⟩,
          some ⟨"2026-01-01", [("pkg:npm/fsevents", "MAL-1"), ("pkg:npm/evil", "MAL-2")], [],
            [("pkg:npm/fsevents", "2.0.0")]⟩⟩
        [⟨"pkg:npm/react@1.²", "1.²"⟩, ⟨"pkg:npm/fsevents@1.²", "1.²"⟩,
          ⟨"pkg:npm/evil@1.0.0", "1.0.0"⟩]).2.getLast? = some ⟨none, none⟩ := by
  decide +kernel

end Trusca
