import Mathlib.Tactic
import Trusca.Data.Segments
import Trusca.Sbom.Convert
import Trusca.Sbom.Spdx

/-! What is left of the fields of an SPDX package on the lines that they are written on. -/

namespace Trusca

/-- A text as it is read from the line that it is written on. -/
def readBack (text : String) : String := strip (firstLine text)

/-- The empty text is read back as it is. -/
theorem readBack_empty : readBack "" = "" := by decide +kernel

/-- A text on one line is read back without the space around it. -/
theorem readBack_oneLine {text : String} (one : isOneLine text.toList) : readBack text = strip text := by
  rw [readBack, firstLine, splitlines_oneLine one]
  simp

/-- The value of an external reference on its line. -/
def SpdxExternalRef.value (ref : SpdxExternalRef) : String :=
  ref.referenceCategory ++ " " ++ ref.referenceType ++ " " ++ ref.referenceLocator

section PackageUrls

variable {text rest : List Char} {word purl : String}

/-- Whether a text starts, after the name of the category or not, with the word `purl` and a package URL. -/
def NamesPurl (text purl : String) : Prop :=
  ∃ others, splitWords text.toList = "PACKAGE-MANAGER".toList :: "purl".toList :: purl.toList :: others ∨
    splitWords text.toList = "purl".toList :: purl.toList :: others

/-- What follows a word and its spaces is left when the text starts with that word. -/
theorem afterText_afterSpaces (token : isToken word) :
    (afterText word text).bind afterSpaces = some rest ↔
      text.takeWhile (fun character => !isSpace character) = word.toList ∧
        text.dropWhile (fun character => !isSpace character) ≠ [] ∧
        rest = (text.dropWhile fun character => !isSpace character).dropWhile isSpace := by
  simp only [isToken, Bool.and_eq_true, List.all_eq_true] at token
  constructor
  · -- The word matches and a blank follows, so the word ends right there.
    intro found
    obtain ⟨after, follows, spaces⟩ := Option.bind_eq_some_iff.mp found
    simp only [afterText, Option.ite_none_right_eq_some, Option.some_inj] at follows
    obtain ⟨front, rfl⟩ := follows
    simp only [afterSpaces, Option.ite_none_right_eq_some, Option.some_inj] at spaces
    obtain ⟨blank, rfl⟩ := spaces
    obtain ⟨after, rfl⟩ := List.isPrefixOf_iff_prefix.mp front
    rw [List.drop_left] at blank ⊢
    -- At the end of the text no blank follows.
    cases after with
    | nil => cases blank
    | cons space after =>
      have stops : isSpace space = true := by simpa using blank
      rw [List.takeWhile_append_of_pos token.2, List.dropWhile_append_of_pos token.2]
      simp [stops]
  · -- Read back: the run of letters is the word, and what is behind it starts with a blank.
    rintro ⟨front, more, rfl⟩
    have parts := List.takeWhile_append_dropWhile (p := fun character => !isSpace character) (l := text)
    rw [front] at parts
    -- What stops a run of letters is a blank.
    have stopped : (text.dropWhile fun character => !isSpace character).head?.any isSpace := by
      cases left : text.dropWhile fun character => !isSpace character with
      | nil => exact absurd left more
      | cons first rest =>
        have stopped := List.dropWhile_get_zero_not (fun character => !isSpace character) text
          (by simp [left])
        simpa [left] using stopped
    generalize text.dropWhile (fun character => !isSpace character) = after at parts stopped
    subst parts
    simp [afterText, afterSpaces, stopped]

/-- The words of a text that does not start with a space. -/
theorem splitWords_eq_cons {first : List Char} {others : List (List Char)}
    (start : ∀ character ∈ text.head?, ¬ isSpace character) :
    splitWords text = first :: others ↔
      first ≠ [] ∧ text.takeWhile (fun character => !isSpace character) = first ∧
        splitWords (text.dropWhile fun character => !isSpace character) = others := by
  -- The text starts with a word, unless it is empty.
  cases text with
  | nil =>
    simp only [splitWords, List.nil_eq, reduceCtorEq, List.takeWhile_nil, false_iff]
    rintro ⟨filled, empty, -⟩
    exact filled empty
  | cons character text =>
    have plain : ¬ isSpace character := start character rfl
    have word : (character :: text).takeWhile (fun character => !isSpace character) ≠ [] := by
      simp [plain]
    rw [splitWords_takeWhile word, List.cons.injEq]
    constructor
    · rintro ⟨rfl, later⟩
      exact ⟨word, rfl, later⟩
    · rintro ⟨-, front, later⟩
      exact ⟨front, later⟩

/-- What follows the first word does not start with a space once the spaces are dropped. -/
theorem head_dropWhile_isSpace (text : List Char) :
    ∀ character ∈ (text.dropWhile isSpace).head?, ¬ isSpace character := by
  intro character head
  cases left : text.dropWhile isSpace with
  | nil => simp [left] at head
  | cons first rest =>
    -- What is left starts with a character that stopped the run.
    have stopped := List.dropWhile_get_zero_not isSpace text (by simp [left])
    simp only [left, List.head?_cons, Option.mem_some_iff] at head
    subst head
    simpa [left] using stopped

/-- The word after `purl` is the second of a text whose first is `purl`. -/
theorem wordAfterPurl_eq_some (start : ∀ character ∈ text.head?, ¬ isSpace character) :
    wordAfterPurl text = some purl ↔
      ∃ others, splitWords text = "purl".toList :: purl.toList :: others := by
  -- The reader asks for the mark, blanks, and a word that is not empty.
  have token : isToken "purl" := by decide
  have unfolded : wordAfterPurl text = ((afterText "purl" text).bind afterSpaces).bind fun rest =>
      if (rest.takeWhile fun character => !isSpace character).isEmpty then none
      else some (String.ofList (rest.takeWhile fun character => !isSpace character)) := by
    simp [wordAfterPurl, Option.bind_assoc]
  rw [unfolded, Option.bind_eq_some_iff]
  constructor
  · -- The mark is the first word and the purl the second.
    rintro ⟨rest, follows, word⟩
    obtain ⟨front, more, rfl⟩ := (afterText_afterSpaces token).mp follows
    simp only [List.isEmpty_iff, Option.ite_none_left_eq_some, Option.some_inj] at word
    obtain ⟨some_word, rfl⟩ := word
    have words := splitWords_takeWhile some_word
    rw [splitWords_dropWhile] at words
    simp only [String.toList_ofList]
    exact ⟨_, (splitWords_eq_cons start).mpr ⟨by decide, front, words⟩⟩
  · -- Conversely the second word is what stands behind the blanks.
    rintro ⟨others, words⟩
    obtain ⟨-, front, later⟩ := (splitWords_eq_cons start).mp words
    rw [← splitWords_dropWhile] at later
    obtain ⟨filled, word, -⟩ := (splitWords_eq_cons (head_dropWhile_isSpace _)).mp later
    -- There is something behind the mark, since a second word is there.
    refine ⟨_, (afterText_afterSpaces token).mpr ⟨front, ?_, rfl⟩, ?_⟩
    · intro none_left
      rw [none_left] at word
      exact filled word.symm
    · simp only [word, List.isEmpty_iff, filled, if_false, String.ofList_toList]

/-- The package URL that a line gives is the one that its words name. -/
theorem tvPurl_eq_some {value : String} (start : ∀ character ∈ value.toList.head?, ¬ isSpace character) :
    tvPurl value = some purl ↔ NamesPurl value purl := by
  have token : isToken "PACKAGE-MANAGER" := by decide
  -- Behind the category stand the two words, whatever the gap between them.
  have managed : ((afterText "PACKAGE-MANAGER" value.toList).bind afterSpaces).bind wordAfterPurl = some purl ↔
      ∃ others, splitWords value.toList =
        "PACKAGE-MANAGER".toList :: "purl".toList :: purl.toList :: others := by
    rw [Option.bind_eq_some_iff]
    constructor
    · rintro ⟨rest, follows, named⟩
      obtain ⟨front, more, rfl⟩ := (afterText_afterSpaces token).mp follows
      obtain ⟨others, words⟩ := (wordAfterPurl_eq_some (head_dropWhile_isSpace _)).mp named
      rw [splitWords_dropWhile] at words
      exact ⟨others, (splitWords_eq_cons start).mpr ⟨by decide, front, words⟩⟩
    · rintro ⟨others, words⟩
      obtain ⟨-, front, later⟩ := (splitWords_eq_cons start).mp words
      rw [← splitWords_dropWhile] at later
      refine ⟨_, (afterText_afterSpaces token).mpr ⟨front, ?_, rfl⟩,
        (wordAfterPurl_eq_some (head_dropWhile_isSpace _)).mpr ⟨others, later⟩⟩
      intro none_left
      simp [none_left, splitWords] at later
  -- The reader tries the category first, then the word at the start.
  have unfolded : tvPurl value =
      (((afterText "PACKAGE-MANAGER" value.toList).bind afterSpaces).bind wordAfterPurl).or
        (wordAfterPurl value.toList) := by
    simp [tvPurl, Option.bind_assoc]
  rw [unfolded, Option.or_eq_some_iff, managed, wordAfterPurl_eq_some start, NamesPurl]
  constructor
  · rintro (⟨others, words⟩ | ⟨-, others, words⟩)
    · exact ⟨others, .inl words⟩
    · exact ⟨others, .inr words⟩
  · -- The second way is only tried where the first finds nothing.
    rintro ⟨others, words | words⟩
    · exact .inl ⟨others, words⟩
    · refine .inr ⟨?_, others, words⟩
      -- A line has one first word.
      rw [Option.bind_eq_none_iff]
      intro rest follows
      obtain ⟨front, -⟩ := (afterText_afterSpaces token).mp follows
      obtain ⟨-, other, -⟩ := (splitWords_eq_cons start).mp words
      rw [front] at other
      exact absurd other (by decide)

/-- Whether a reference states a package URL. -/
def SpdxExternalRef.statesPurl (ref : SpdxExternalRef) : Bool :=
  ref.referenceType == "purl" && ref.referenceLocator != ""

/-- The package URL that a reference gives in JSON is the one that it states. -/
theorem findSome_jsonPurl (refs : List SpdxExternalRef) :
    (refs.findSome? fun ref => jsonPurl ref.toJson) =
      (refs.find? SpdxExternalRef.statesPurl).map SpdxExternalRef.referenceLocator := by
  induction refs with
  | nil => rfl
  | cons ref rest ih =>
    -- A reference states a purl by its type, and the empty locator states none.
    have given : jsonPurl ref.toJson = if ref.statesPurl then some ref.referenceLocator else none := by
      by_cases typed : ref.referenceType = "purl" <;> by_cases blank : ref.referenceLocator = "" <;>
        simp [jsonPurl, SpdxExternalRef.toJson, Json.get?, Json.asText, SpdxExternalRef.statesPurl, Option.filter,
          typed, blank]
    rw [List.findSome?_cons, List.find?_cons, given, ih]
    cases ref.statesPurl <;> rfl

/-- The first line that names a package URL names the one that is stated first, and none does when none is
stated. -/
def PurlSurvives (refs : List SpdxExternalRef) : Prop :=
  match refs.find? SpdxExternalRef.statesPurl with
  | none => ∀ ref ∈ refs, ∀ purl, ¬ NamesPurl (readBack ref.value) purl
  | some stated =>
      ∃ before named after, refs = before ++ named :: after ∧
        NamesPurl (readBack named.value) stated.referenceLocator ∧
        ∀ ref ∈ before, ∀ purl, ¬ NamesPurl (readBack ref.value) purl

/-- The purl read from a line is the one that the line names. -/
theorem tvPurl_readBack {value : String} :
    tvPurl (readBack value) = some purl ↔ NamesPurl (readBack value) purl :=
  tvPurl_eq_some (head_strip _)

/-- No purl is read from a line that names none. -/
theorem tvPurl_readBack_none {value : String} :
    tvPurl (readBack value) = none ↔ ∀ purl, ¬ NamesPurl (readBack value) purl := by
  simp only [Option.eq_none_iff_forall_ne_some, ne_eq, tvPurl_readBack]

/-- The package URL is read from the lines as it is from JSON exactly when it survives them. -/
theorem purlSurvives_iff (refs : List SpdxExternalRef) :
    ((refs.findSome? fun ref => tvPurl (readBack ref.value)) = refs.findSome? fun ref => jsonPurl ref.toJson) ↔
      PurlSurvives refs := by
  rw [findSome_jsonPurl, PurlSurvives]
  cases refs.find? SpdxExternalRef.statesPurl with
  | none => simp only [Option.map_none, List.findSome?_eq_none_iff, tvPurl_readBack_none]
  | some stated =>
    simp only [Option.map_some, List.findSome?_eq_some_iff, tvPurl_readBack, tvPurl_readBack_none]

/-- The package URL of a reference to a package manager is on its line when it is one word. -/
theorem namesPurl_packageManager (token : isToken purl) :
    NamesPurl (readBack ("PACKAGE-MANAGER" ++ " " ++ "purl" ++ " " ++ purl)) purl := by
  have first : isToken "PACKAGE-MANAGER" := by decide
  have second : isToken "purl" := by decide
  rw [readBack_oneLine (isOneLine_three first second token), strip_three first token]
  exact ⟨[], .inl (splitWords_three first second token)⟩

/-- The package URL survives when the first reference that states one is to a package manager, has one word,
and no line before it names another. -/
theorem PurlSurvives.of_packageManager {before after : List SpdxExternalRef} {purl : String}
    (token : isToken purl) (earlier : ∀ ref ∈ before, ref.statesPurl = false ∧
      ∀ other, ¬ NamesPurl (readBack ref.value) other) :
    PurlSurvives (before ++ ⟨"PACKAGE-MANAGER", "purl", purl⟩ :: after) := by
  have filled : purl ≠ "" := by
    rintro rfl
    cases token
  -- No reference before it states one, so this is the first.
  have stated : (before ++ ⟨"PACKAGE-MANAGER", "purl", purl⟩ :: after).find? SpdxExternalRef.statesPurl =
      some ⟨"PACKAGE-MANAGER", "purl", purl⟩ := by
    rw [List.find?_append, List.find?_eq_none.mpr fun ref member => by simp [(earlier ref member).1]]
    simp [SpdxExternalRef.statesPurl, filled]
  rw [PurlSurvives, stated]
  -- And no line before it names one.
  exact ⟨before, _, after, rfl, namesPurl_packageManager token, fun ref member => (earlier ref member).2⟩

/-- A package URL alone survives its line exactly when it is one word. -/
theorem purlSurvives_single (purl : String) (filled : purl ≠ "") :
    PurlSurvives [⟨"PACKAGE-MANAGER", "purl", purl⟩] ↔ isToken purl := by
  constructor
  · intro survives
    have stated : SpdxExternalRef.statesPurl ⟨"PACKAGE-MANAGER", "purl", purl⟩ := by
      simp [SpdxExternalRef.statesPurl, filled]
    simp only [PurlSurvives, List.find?_cons, stated] at survives
    -- The reference names the purl as one of its words.
    obtain ⟨before, named, after, -, ⟨others, words⟩, -⟩ := survives
    have member : purl.toList ∈ splitWords (readBack named.value).toList := by
      rcases words with words | words <;> simp [words]
    -- So it is a word itself.
    have word := isToken_of_mem_splitWords member
    rwa [String.ofList_toList] at word
  · exact fun token => @PurlSurvives.of_packageManager [] [] purl token (by simp)

end PackageUrls

section Licences

/-- Whether a text names a licence: it is not blank, and in no case `NOASSERTION` or `NONE`. -/
def NamesLicense (text : String) : Prop :=
  String.ofList ((strip text).toList.flatMap upperChars) ∉ noLicense

instance (text : String) : Decidable (NamesLicense text) := inferInstanceAs (Decidable (_ ∉ _))

/-- The licence that counts, that of the concluded field or else that of the declared one, has its first line
for itself; or the first line of the concluded field names none, and that of the declared one the same. -/
def LicenseSurvives (concluded declared : Option String) : Prop :=
  (∀ text ∈ concluded, NamesLicense text → readBack text = strip text ∨
    ¬ NamesLicense (firstLine text) ∧ ∃ other ∈ declared, readBack other = strip text) ∧
  ((∀ text ∈ concluded, ¬ NamesLicense text) →
    ∀ text ∈ declared, NamesLicense text → readBack text = strip text)

instance (concluded declared : Option String) : Decidable (LicenseSurvives concluded declared) :=
  inferInstanceAs (Decidable (_ ∧ _))

/-- A break stays what it is in upper case. -/
theorem upperChars_break {character : Char} (breaks : isLineBreak character) :
    upperChars character = [character] := by
  simp only [isLineBreak, Bool.or_eq_true, Bool.and_eq_true, decide_eq_true_eq, beq_iff_eq] at breaks
  -- A line break is no small letter, so upper-casing leaves it.
  have kept : character.toUpper = character := by
    unfold Char.toUpper
    split
    · rename_i small
      have low : 97 ≤ character.toNat := UInt32.le_iff_toNat_le.mp small.1
      have high : character.toNat ≤ 122 := UInt32.le_iff_toNat_le.mp small.2
      omega
    · rfl
  unfold upperChars
  split <;> first | omega | rw [kept]

/-- A text that names no licence is on one line, but for the space around it. -/
theorem isOneLine_of_not_namesLicense {text : String} (none : ¬ NamesLicense text) :
    isOneLine (strip text).toList := by
  rw [NamesLicense, not_not] at none
  have plain : ∀ word ∈ noLicense, isOneLine word.toList := by decide
  -- The words for no licence are on one line.
  have upper := plain _ none
  simp only [isOneLine, String.toList_ofList, List.all_flatMap, List.all_eq_true, Bool.not_eq_true'] at upper ⊢
  intro character inside
  by_contra breaks
  rw [Bool.not_eq_false] at breaks
  -- A break in the text would be one in its upper case.
  have same := upper character inside character (by simp [upperChars_break breaks])
  exact absurd (same.symm.trans breaks) (by decide)

/-- A text on one line, but for the space around it, is on its first line, or nothing is. -/
theorem readBack_of_isOneLine_strip {text : String} (one : isOneLine (strip text).toList) :
    readBack text = strip text ∨ readBack text = "" := by
  obtain ⟨front, back, parts, before, after⟩ := strip_around text
  rw [readBack, firstLine_eq_takeWhile, parts]
  by_cases plain : ∀ character ∈ front, !isLineBreak character
  · left
    rw [List.takeWhile_append_of_pos plain, List.takeWhile_append_of_pos (List.all_eq_true.mp one),
      strip_spaces_append before,
      strip_append_spaces fun character taken => after character (List.takeWhile_subset _ taken),
      String.ofList_toList, strip_strip]
  · -- The first line ends within the spaces in front.
    right
    have cut : (front.takeWhile fun character => !isLineBreak character).length ≠ front.length := by
      intro whole
      have same := (List.takeWhile_prefix fun character => !isLineBreak character).eq_of_length whole
      exact plain (List.takeWhile_eq_self_iff.mp same)
    rw [List.takeWhile_append, if_neg cut]
    exact strip_append_spaces (fun character taken => before character (List.takeWhile_subset _ taken)) []

/-- The first line of a text that names no licence names none. -/
theorem not_namesLicense_firstLine {text : String} (none : ¬ NamesLicense text) :
    ¬ NamesLicense (firstLine text) := by
  have read := readBack_of_isOneLine_strip (isOneLine_of_not_namesLicense none)
  rw [readBack] at read
  rcases read with same | blank
  · rwa [NamesLicense, same]
  · rw [NamesLicense, blank]
    decide

/-- The licence that a field gives. -/
def pickLicense (text : String) : Option String := if NamesLicense text then some (strip text) else none

/-- The licences of a component are those of the first field that gives one. -/
theorem licenseEntries_inj {isWordChar : Char → Bool} {first second third fourth : Option String} :
    licenseEntries isWordChar [first, second] = licenseEntries isWordChar [third, fourth] ↔
      (first.bind pickLicense).or (second.bind pickLicense) =
        (third.bind pickLicense).or (fourth.bind pickLicense) := by
  -- A licence is read where the text names one and not a word for none.
  have chosen (candidate : Option String) : ((candidate.map strip).filter fun value =>
      !noLicense.contains (String.ofList (value.toList.flatMap upperChars))) = candidate.bind pickLicense := by
    cases candidate with
    | none => rfl
    | some text => by_cases named : NamesLicense text <;> simp_all [pickLicense, NamesLicense, Option.filter]
  -- So the entry is the first of the two that is read, told by its form.
  have entries (first second : Option String) : licenseEntries isWordChar [first, second] =
      ((first.bind pickLicense).or (second.bind pickLicense)).toList.map fun value =>
        if hasExpressionToken isWordChar false value.toList then .expression value else .id value := by
    unfold licenseEntries
    simp only [List.findSome?_cons, List.findSome?_nil, chosen]
    cases first.bind pickLicense <;> cases second.bind pickLicense <;> simp
    all_goals split <;> rfl
  rw [entries, entries]
  -- Entries of one text are alike, and the form depends on the text alone.
  cases (first.bind pickLicense).or (second.bind pickLicense) <;>
    cases (third.bind pickLicense).or (fourth.bind pickLicense) <;> simp
  constructor
  · intro same
    split_ifs at same <;> simpa using same
  · rintro rfl
    rfl

/-- The licences are read from the lines as they are from JSON exactly when they survive them. -/
theorem licenseSurvives_iff {isWordChar : Char → Bool} (concluded declared : Option String) :
    licenseEntries isWordChar [concluded.map readBack, declared.map readBack] =
        licenseEntries isWordChar [concluded, declared] ↔
      LicenseSurvives concluded declared := by
  -- The line read back names a licence when the first line does.
  have line (text : String) : pickLicense (readBack text) =
      if NamesLicense (firstLine text) then some (readBack text) else none := by
    have names : NamesLicense (readBack text) ↔ NamesLicense (firstLine text) := by
      unfold NamesLicense readBack
      rw [strip_strip]
    have again : strip (readBack text) = readBack text := strip_strip _
    rw [pickLicense, again, if_congr names rfl rfl]
  -- What the declared field gives when the concluded one gives nothing.
  have second (text : String) : pickLicense (readBack text) = pickLicense text ↔
      (NamesLicense text → readBack text = strip text) := by
    by_cases named : NamesLicense text
    · rw [line, pickLicense, if_pos named]
      by_cases first : NamesLicense (firstLine text)
      · simp [first, named]
      · simp only [first, if_false, reduceCtorEq, named, forall_const, false_iff]
        intro same
        rw [NamesLicense, ← readBack, same] at first
        exact first named
    · rw [line, if_neg (not_namesLicense_firstLine named), pickLicense, if_neg named]
      simp [named]
  rw [licenseEntries_inj, LicenseSurvives]
  cases concluded with
  -- Without a concluded field the declared one is all there is.
  | none =>
    cases declared with
    | none => simp
    | some other => simpa using second other
  | some text =>
    by_cases named : NamesLicense text
    · -- The concluded field counts.
      have chosen : pickLicense text = some (strip text) := if_pos named
      by_cases first : NamesLicense (firstLine text)
      · have read : pickLicense (readBack text) = some (readBack text) := by rw [line, if_pos first]
        simp [chosen, read, named, first]
      · have read : pickLicense (readBack text) = none := by rw [line, if_neg first]
        have lost : readBack text ≠ strip text := by
          intro same
          rw [NamesLicense, ← readBack, same] at first
          exact first named
        -- The first line names none, so the declared field would have to stand in with the same text.
        cases declared with
        | none => simp [chosen, read, named, lost]
        | some other =>
          have given : pickLicense (readBack other) = some (strip text) ↔ readBack other = strip text := by
            rw [line]
            constructor
            · intro found
              split at found
              · exact Option.some_inj.mp found
              · cases found
            · intro same
              have counts : NamesLicense (firstLine other) := by rwa [NamesLicense, ← readBack, same]
              rw [if_pos counts, same]
          simp [chosen, read, named, first, lost, given]
    · -- The concluded field names none before or after, so the declared one decides.
      have absent : pickLicense text = none := if_neg named
      have read : pickLicense (readBack text) = none := by
        rw [line, if_neg (not_namesLicense_firstLine named)]
      cases declared with
      | none => simp [absent, read, named]
      | some other => simpa [absent, read, named] using second other

end Licences

end Trusca
