import Mathlib.Data.List.Basic
import Mathlib.Data.List.DropRight
import Mathlib.Data.List.TakeWhile
import Trusca.Data.Text

/-! Texts of lines: where a text is broken into lines, and the tag and the value of a line. -/

namespace Trusca

/-- The characters at which a text is broken. -/
def isLineBreak (character : Char) : Bool :=
  let code := character.toNat
  (10 ≤ code && code ≤ 13) || (28 ≤ code && code ≤ 30) || code == 0x85 || code == 0x2028 ||
    code == 0x2029

/-- A character before the first of the lines that follow it. -/
def consLine (character : Char) : List (List Char) → List (List Char)
  | [] => [[character]]
  | line :: rest => (character :: line) :: rest

/-- The lines of a text; the pair of a carriage return and a line feed is one break. -/
def splitlines : List Char → List (List Char)
  | [] => []
  | '\r' :: '\n' :: rest => [] :: splitlines rest
  | character :: rest =>
      if isLineBreak character then [] :: splitlines rest else consLine character (splitlines rest)

/-- A text without a break. -/
def isOneLine (text : List Char) : Bool := text.all fun character => !isLineBreak character

section Splitlines

/-- A line break in front leaves an empty first line. -/
theorem splitlines_cons_break {character : Char} {rest : List Char} (breaks : isLineBreak character)
    (single : character = '\r' → rest.head? ≠ some '\n') :
    splitlines (character :: rest) = [] :: splitlines rest := by
  rw [splitlines.eq_3, if_pos breaks]
  rintro after rfl rfl
  exact single rfl rfl

/-- A plain character in front is put before the first line. -/
theorem splitlines_cons_char {character : Char} {rest : List Char} (plain : ¬ isLineBreak character) :
    splitlines (character :: rest) = consLine character (splitlines rest) := by
  rw [splitlines.eq_3, if_neg plain]
  rintro after rfl rfl
  exact plain (by decide)

/-- A character is put before the first of the lines, whatever lines follow. -/
theorem consLine_append {character : Char} {first second : List (List Char)} (nonempty : first ≠ []) :
    consLine character (first ++ second) = consLine character first ++ second := by
  cases first with
  | nil => exact absurd rfl nonempty
  | cons line rest => rfl

/-- A text that is not empty has a line. -/
theorem splitlines_ne_nil {text : List Char} (nonempty : text ≠ []) : splitlines text ≠ [] := by
  cases text with
  | nil => exact absurd rfl nonempty
  | cons character rest =>
    -- A break ends a line, any other character goes on one; either way there is a line.
    unfold splitlines
    split
    · rename_i same
      cases same
    · simp
    · split
      · simp
      · unfold consLine
        split <;> simp

/-- What ends in a line feed is broken apart from what follows it. -/
theorem splitlines_append (first second : List Char) :
    splitlines (first ++ '\n' :: second) = splitlines (first ++ ['\n']) ++ splitlines second := by
  induction first using splitlines.induct with
  -- An empty first text: only the feed is left of it.
  | case1 =>
    have feed : splitlines ['\n'] = [[]] := by decide
    rw [List.nil_append, splitlines_cons_break (by decide) (by simp), List.nil_append, feed]
    rfl
  | case2 rest ih =>
    simp only [List.cons_append, splitlines.eq_2, ih]
  | case3 character rest unpaired breaks ih =>
    cases rest with
    | nil =>
      -- A carriage return at the end of the first text is one break with the line feed.
      by_cases carriage : character = '\r'
      · subst carriage
        rfl
      · -- Any other break ends a line on its own.
        rw [List.cons_append, List.cons_append,
          splitlines_cons_break breaks fun same => absurd same carriage, ih,
          splitlines_cons_break breaks fun same => absurd same carriage]
        rfl
    | cons next rest =>
      -- The pair of return and feed is excluded here, so this break stands alone.
      have single : character = '\r' → next ≠ '\n' := by
        rintro rfl rfl
        exact unpaired rest rfl rfl
      have step (tail : List Char) : splitlines (character :: (next :: rest ++ tail)) =
          [] :: splitlines (next :: rest ++ tail) :=
        splitlines_cons_break breaks (by simpa using single)
      calc splitlines (character :: (next :: rest ++ '\n' :: second))
          = [] :: (splitlines (next :: rest ++ ['\n']) ++ splitlines second) := by rw [step, ih]
        _ = splitlines (character :: (next :: rest ++ ['\n'])) ++ splitlines second := by
            rw [step]
            rfl
  -- A plain character joins the line that follows.
  | case4 character rest unpaired plain ih =>
    rw [List.cons_append, List.cons_append, splitlines_cons_char plain, ih, splitlines_cons_char plain,
      consLine_append (splitlines_ne_nil (by simp))]

/-- A text without a break stands in front of the first line of what follows it. -/
theorem splitlines_oneLine_append {first second line : List Char} {rest : List (List Char)}
    (plain : isOneLine first) (lines : splitlines second = line :: rest) :
    splitlines (first ++ second) = (first ++ line) :: rest := by
  induction first with
  | nil => simpa using lines
  | cons character first ih =>
    simp only [isOneLine, List.all_cons, Bool.and_eq_true, Bool.not_eq_true'] at plain
    rw [List.cons_append, splitlines_cons_char (by simp [plain.1]), ih (by simpa [isOneLine] using plain.2)]
    rfl

/-- A text without a break is one line. -/
theorem splitlines_oneLine {text : List Char} (plain : isOneLine text) :
    splitlines (text ++ ['\n']) = [text] := by
  have feed : splitlines ['\n'] = [[]] := by decide
  simpa using splitlines_oneLine_append plain feed

/-- The lines of a text that is written line by line. -/
theorem splitlines_flatMap (lines : List (List Char)) :
    splitlines (lines.flatMap fun line => line ++ ['\n']) =
      lines.flatMap fun line => splitlines (line ++ ['\n']) := by
  induction lines with
  | nil => rfl
  | cons line rest ih =>
    rw [List.flatMap_cons, List.flatMap_cons, List.append_assoc, List.cons_append, List.nil_append,
      splitlines_append, ih]

end Splitlines

section Strip

/-- Stripping drops the white space in front, and then the white space behind. -/
theorem toList_strip (text : String) :
    (strip text).toList = (text.toList.dropWhile isSpace).rdropWhile isSpace := by
  simp [strip, List.rdropWhile]

/-- A text is not blank when one of its characters is no space. -/
theorem strip_ne_empty_iff {text : String} :
    strip text ≠ "" ↔ ∃ character ∈ text.toList, ¬ isSpace character := by
  rw [ne_eq, ← String.toList_inj, toList_strip, String.toList_empty]
  have blank : (text.toList.dropWhile isSpace).rdropWhile isSpace = [] ↔
      ∀ character ∈ text.toList, isSpace character := by
    rw [List.rdropWhile_eq_nil_iff]
    constructor
    · intro spaces
      -- What is left after the leading spaces would start with something else.
      cases left : text.toList.dropWhile isSpace with
      | nil => exact List.dropWhile_eq_nil_iff.mp left
      | cons character rest =>
        have first := List.dropWhile_get_zero_not isSpace text.toList (by simp [left])
        have space := spaces character (by simp [left])
        simp [left, space] at first
    · intro spaces
      rw [List.dropWhile_eq_nil_iff.mpr spaces]
      simp
  rw [blank]
  simp

/-- A space in front is stripped. -/
theorem strip_cons_space {space : Char} (blank : isSpace space) (text : List Char) :
    strip (String.ofList (space :: text)) = strip (String.ofList text) := by
  simp [strip, blank]

/-- Spaces in front are stripped. -/
theorem strip_spaces_append {front : List Char} (spaces : ∀ character ∈ front, isSpace character)
    (text : List Char) : strip (String.ofList (front ++ text)) = strip (String.ofList text) := by
  induction front with
  | nil => rfl
  | cons space front ih =>
    rw [List.cons_append, strip_cons_space (spaces space List.mem_cons_self)]
    exact ih fun character member => spaces character (List.mem_cons_of_mem _ member)

/-- Spaces behind a text are stripped. -/
theorem strip_append_spaces {back : List Char} (spaces : ∀ character ∈ back, isSpace character)
    (text : List Char) : strip (String.ofList (text ++ back)) = strip (String.ofList text) := by
  rw [← String.toList_inj, toList_strip, toList_strip, String.toList_ofList, String.toList_ofList]
  by_cases blank : text.dropWhile isSpace = []
  · -- Nothing but spaces is left of either text.
    have all := List.dropWhile_eq_nil_iff.mp blank
    rw [blank, List.dropWhile_append_of_pos all, List.dropWhile_eq_nil_iff.mpr spaces]
  · have kept : (text ++ back).dropWhile isSpace = text.dropWhile isSpace ++ back := by
      rw [List.dropWhile_append, if_neg (by simpa using blank)]
    rw [kept, List.rdropWhile, List.reverse_append,
      List.dropWhile_append_of_pos fun character member => spaces character (List.mem_reverse.mp member)]
    rfl

/-- A text is left as it is when it neither starts nor ends with a space. -/
theorem strip_eq_self {text : String} (start : ∀ character ∈ text.toList.head?, ¬ isSpace character)
    (finish : ∀ character ∈ text.toList.getLast?, ¬ isSpace character) : strip text = text := by
  rw [← String.toList_inj, toList_strip]
  -- Nothing is stripped at the start, since no blank stands there.
  have left : text.toList.dropWhile isSpace = text.toList := by
    cases characters : text.toList with
    | nil => rfl
    | cons character rest =>
      rw [characters] at start
      exact List.dropWhile_cons_of_neg (start character rfl)
  -- Nor at the end.
  rw [left, List.rdropWhile_eq_self_iff]
  intro nonempty
  exact finish _ (List.getLast?_eq_getLast_of_ne_nil nonempty)

/-- A text is what is left of it when it is stripped, with spaces around. -/
theorem strip_around (text : String) :
    ∃ front back, text.toList = front ++ ((strip text).toList ++ back) ∧
      (∀ character ∈ front, isSpace character) ∧ ∀ character ∈ back, isSpace character := by
  refine ⟨text.toList.takeWhile isSpace, (text.toList.dropWhile isSpace).rtakeWhile isSpace, ?_,
    fun character => List.mem_takeWhile_imp, fun character => List.mem_rtakeWhile_imp⟩
  rw [toList_strip, List.rdropWhile_append_rtakeWhile, List.takeWhile_append_dropWhile]

/-- What is stripped has nothing left to strip. -/
theorem strip_strip (text : String) : strip (strip text) = strip text := by
  rw [← String.toList_inj, toList_strip (strip text), toList_strip text]
  have start : ((text.toList.dropWhile isSpace).rdropWhile isSpace).dropWhile isSpace =
      (text.toList.dropWhile isSpace).rdropWhile isSpace := by
    rw [List.dropWhile_eq_self_iff]
    intro nonempty
    -- What is left starts as the text without its leading spaces does.
    have shorter := List.rdropWhile_prefix isSpace (text.toList.dropWhile isSpace)
    rw [shorter.getElem nonempty]
    exact List.dropWhile_get_zero_not isSpace text.toList (nonempty.trans_le shorter.length_le)
  rw [start, List.rdropWhile_idempotent]

end Strip

/-- The tag and the value of a line: what stands before and after the first colon. -/
def tagValue (line : List Char) : String × String :=
  (strip (String.ofList (line.takeWhile (· != ':'))),
    strip (String.ofList ((line.dropWhile (· != ':')).drop 1)))

/-- A line with a tag and a value. -/
def tagLine (tag value : String) : String := tag ++ ": " ++ value

section TagValue

/-- A tag has no colon, no break and no space around it. -/
def isTag (tag : String) : Bool :=
  isOneLine tag.toList && tag.toList.all (· != ':') && strip tag == tag

/-- The tag of a line is read back, with the first line of its value. -/
theorem tagValue_append {tag : String} (plain : isTag tag) (value : List Char) :
    tagValue (tag.toList ++ ':' :: ' ' :: value) = (tag, strip (String.ofList value)) := by
  simp only [isTag, Bool.and_eq_true, List.all_eq_true, beq_iff_eq] at plain
  obtain ⟨⟨-, colons⟩, stripped⟩ := plain
  -- The tag is what stands before the first colon.
  have before : (tag.toList ++ ':' :: ' ' :: value).takeWhile (· != ':') = tag.toList := by
    rw [List.takeWhile_append_of_pos colons]
    simp
  have after : (tag.toList ++ ':' :: ' ' :: value).dropWhile (· != ':') = ':' :: ' ' :: value := by
    rw [List.dropWhile_append_of_pos colons]
    simp
  -- Behind the colon is the value, with the blank in front that is stripped.
  rw [tagValue, before, after, String.ofList_toList, stripped]
  exact congrArg _ (strip_cons_space (by decide) value)

/-- The tags and values of the lines that a written line is read as. -/
def linePairs (line : String) : List (String × String) :=
  (splitlines (line.toList ++ ['\n'])).map tagValue

/-- The tags and values of what is read after the first line of a value. -/
def laterPairs (value : String) : List (String × String) :=
  (splitlines (value.toList ++ ['\n'])).tail.map tagValue

/-- The first line of a value. -/
def firstLine (value : String) : String :=
  String.ofList ((splitlines (value.toList ++ ['\n'])).head?.getD [])

/-- A written line is read as its tag with the first line of its value, and then what follows. -/
theorem linePairs_tagLine {tag : String} (plain : isTag tag) (value : String) :
    linePairs (tagLine tag value) = (tag, strip (firstLine value)) :: laterPairs value := by
  obtain ⟨line, rest, lines⟩ : ∃ line rest, splitlines (value.toList ++ ['\n']) = line :: rest :=
    List.exists_cons_of_ne_nil (splitlines_ne_nil (by simp))
  -- The tag and its colon are on one line.
  have one : isOneLine (tag.toList ++ [':', ' ']) := by
    simp only [isTag, isOneLine, Bool.and_eq_true] at plain ⊢
    rw [List.all_append, plain.1.1]
    decide
  -- So the first line of the value is joined to them, and its other lines follow.
  have whole := splitlines_oneLine_append one lines
  simp only [List.append_assoc, List.cons_append, List.nil_append] at whole
  have written : (tagLine tag value).toList ++ ['\n'] =
      tag.toList ++ ':' :: ' ' :: (value.toList ++ ['\n']) := by
    simp [tagLine]
  rw [linePairs, written, whole, List.map_cons, tagValue_append plain, laterPairs, firstLine, lines]
  rfl

/-- The first line of a value ends before its first break. -/
theorem firstLine_eq_takeWhile (value : String) :
    firstLine value = String.ofList (value.toList.takeWhile fun character => !isLineBreak character) := by
  have plain : isOneLine (value.toList.takeWhile fun character => !isLineBreak character) :=
    List.all_eq_true.mpr fun character => List.mem_takeWhile_imp
  -- What follows starts with a break, so its first line is empty.
  have feed : ∀ rest : List Char, (∀ character ∈ rest.head?, isLineBreak character) →
      ∃ lines, splitlines (rest ++ ['\n']) = [] :: lines := by
    intro rest breaks
    cases rest with
    | nil => exact ⟨[], by decide⟩
    | cons character rest =>
      -- A return and a feed are one break, all others stand alone.
      by_cases paired : character = '\r' ∧ (rest ++ ['\n']).head? = some '\n'
      · obtain ⟨rfl, next⟩ := paired
        cases rest with
        | nil => exact ⟨splitlines [], rfl⟩
        | cons other rest =>
          obtain rfl : other = '\n' := by simpa using next
          exact ⟨splitlines (rest ++ ['\n']), rfl⟩
      · exact ⟨_, splitlines_cons_break (breaks character rfl) fun carriage next => paired ⟨carriage, next⟩⟩
  -- What is dropped starts where the predicate stopped, at a break.
  obtain ⟨lines, rest⟩ := feed (value.toList.dropWhile fun character => !isLineBreak character) <| by
    intro character head
    cases left : value.toList.dropWhile fun character => !isLineBreak character with
    | nil => simp [left] at head
    | cons first after =>
      have stopped := List.dropWhile_get_zero_not (fun character => !isLineBreak character) value.toList
        (by simp [left])
      simp only [left, List.head?_cons, Option.mem_some_iff] at head
      subst head
      simpa [left] using stopped
  have whole := splitlines_oneLine_append plain rest
  rw [← List.append_assoc, List.takeWhile_append_dropWhile, List.append_nil] at whole
  rw [firstLine, whole]
  rfl

end TagValue

section Words

/-- The words of a text: its longest parts without white space. -/
def splitWords : List Char → List (List Char)
  | [] => []
  | character :: rest =>
      if isSpace character then splitWords rest
      else if rest.head?.all isSpace then [character] :: splitWords rest
      else consLine character (splitWords rest)

/-- A text that is one word. -/
def isToken (text : String) : Bool := text != "" && text.toList.all fun character => !isSpace character

/-- A word is one line. -/
theorem isOneLine_of_isToken {text : String} (token : isToken text) : isOneLine text.toList := by
  simp only [isToken, Bool.and_eq_true, List.all_eq_true, Bool.not_eq_true'] at token
  simp only [isOneLine, List.all_eq_true, Bool.not_eq_true']
  intro character within
  have nonspace := token.2 character within
  simp only [isSpace, isLineBreak, Bool.or_eq_false_iff, Bool.and_eq_false_iff, decide_eq_false_iff_not,
    beq_eq_false_iff_ne] at nonspace ⊢
  omega

/-- A word that ends at white space is the first of the words. -/
theorem splitWords_append {word rest : List Char} (nonempty : word ≠ [])
    (plain : word.all fun character => !isSpace character) (ends : rest.head?.all isSpace) :
    splitWords (word ++ rest) = word :: splitWords rest := by
  induction word with
  | nil => exact absurd rfl nonempty
  | cons character word ih =>
    simp only [List.all_cons, Bool.and_eq_true, Bool.not_eq_true'] at plain
    -- The first letter goes on a word.
    rw [List.cons_append, splitWords, if_neg (by simp [plain.1])]
    -- It ends the word if nothing or a blank is next.
    cases word with
    | nil => rw [List.nil_append, if_pos ends]
    | cons next word =>
      -- The letter behind it is no blank, so the word goes on.
      have more : ¬ (next :: word ++ rest).head?.all isSpace := by
        have second := plain.2
        simp only [List.all_cons, Bool.and_eq_true, Bool.not_eq_true'] at second
        simp [second.1]
      rw [if_neg more, ih (by simp) plain.2]
      rfl

/-- White space in front makes no word. -/
theorem splitWords_space {space : Char} {rest : List Char} (blank : isSpace space) :
    splitWords (space :: rest) = splitWords rest := by
  rw [splitWords, if_pos blank]

/-- The words of a text are not empty and have no space in them. -/
theorem isToken_of_mem_splitWords {text word : List Char} (member : word ∈ splitWords text) :
    isToken (String.ofList word) := by
  have plain : ∀ word ∈ splitWords text, word ≠ [] ∧ ∀ character ∈ word, ¬ isSpace character := by
    clear member
    induction text with
    | nil => simp [splitWords]
    | cons character rest ih =>
      intro word member
      rw [splitWords] at member
      -- A blank starts no word; a letter before a blank is a word, and any other goes on with one.
      split_ifs at member with blank ends
      · exact ih word member
      · rcases List.mem_cons.mp member with rfl | later
        · simp [blank]
        · exact ih word later
      · -- The character goes on the first word of the rest.
        cases words : splitWords rest with
        | nil =>
          obtain rfl : word = [character] := by simpa [words, consLine] using member
          simp [blank]
        | cons first others =>
          rw [words] at ih member
          rcases List.mem_cons.mp member with rfl | later
          · have kept := (ih first List.mem_cons_self).2
            simpa [blank] using kept
          · exact ih word (List.mem_cons_of_mem _ later)
  -- A token is what is known of the words, written for texts.
  obtain ⟨filled, letters⟩ := plain word member
  simp only [isToken, Bool.and_eq_true, bne_iff_ne, String.toList_ofList, List.all_eq_true]
  refine ⟨?_, fun character inside => by simp [letters character inside]⟩
  rw [ne_eq, ← String.toList_inj, String.toList_ofList]
  exact filled

/-- Spaces in front of a text add no word. -/
theorem splitWords_dropWhile (text : List Char) : splitWords (text.dropWhile isSpace) = splitWords text := by
  induction text with
  | nil => rfl
  | cons character rest ih =>
    by_cases blank : isSpace character
    · rw [List.dropWhile_cons_of_pos blank, ih, splitWords_space blank]
    · rw [List.dropWhile_cons_of_neg blank]

/-- What is left of a text after its first word has the other words. -/
theorem splitWords_takeWhile {text : List Char}
    (word : text.takeWhile (fun character => !isSpace character) ≠ []) :
    splitWords text = text.takeWhile (fun character => !isSpace character) ::
      splitWords (text.dropWhile fun character => !isSpace character) := by
  conv_lhs => rw [← List.takeWhile_append_dropWhile (p := fun character => !isSpace character) (l := text)]
  refine splitWords_append word (List.all_eq_true.mpr fun character => List.mem_takeWhile_imp) ?_
  -- The word ends at a space or with the text.
  cases left : text.dropWhile fun character => !isSpace character with
  | nil => rfl
  | cons first rest =>
    have stopped := List.dropWhile_get_zero_not (fun character => !isSpace character) text (by simp [left])
    simpa [left] using stopped

section Three

variable {first second third : String}

/-- The characters of three texts with spaces between them. -/
theorem toList_three : (first ++ " " ++ second ++ " " ++ third).toList =
    first.toList ++ ' ' :: (second.toList ++ ' ' :: third.toList) := by
  simp

/-- A word is not empty. -/
theorem toList_ne_nil_of_isToken {text : String} (token : isToken text) : text.toList ≠ [] := by
  simp only [isToken, Bool.and_eq_true, bne_iff_ne] at token
  simpa using token.1

/-- Three words with spaces between them stand on one line. -/
theorem isOneLine_three (one : isToken first) (two : isToken second) (three : isToken third) :
    isOneLine (first ++ " " ++ second ++ " " ++ third).toList := by
  have a := isOneLine_of_isToken one
  have b := isOneLine_of_isToken two
  have c := isOneLine_of_isToken three
  have space : isLineBreak ' ' = false := by decide
  -- Three words and two blanks, none of them a line break.
  rw [toList_three]
  unfold isOneLine at a b c ⊢
  rw [List.all_append, List.all_cons, List.all_append, List.all_cons, a, b, c, space]
  rfl

/-- Three words with spaces between them have no space around them. -/
theorem strip_three (one : isToken first) (three : isToken third) :
    strip (first ++ " " ++ second ++ " " ++ third) = first ++ " " ++ second ++ " " ++ third := by
  have a := toList_ne_nil_of_isToken one
  have c := toList_ne_nil_of_isToken three
  simp only [isToken, Bool.and_eq_true, List.all_eq_true, Bool.not_eq_true'] at one three
  -- The first letter is of the first word, and the last of the third.
  refine strip_eq_self ?_ ?_
  · intro character head
    rw [toList_three, List.head?_append_of_ne_nil _ a] at head
    simpa using one.2 character (List.mem_of_mem_head? head)
  · intro character last
    rw [toList_three, List.getLast?_append_of_ne_nil _ (by simp), List.getLast?_cons_of_ne_nil (by simp),
      List.getLast?_append_of_ne_nil _ (by simp), List.getLast?_cons_of_ne_nil c] at last
    simpa using three.2 character (List.mem_of_getLast? last)

/-- Three words with spaces between them are read back as three words. -/
theorem splitWords_three (one : isToken first) (two : isToken second) (three : isToken third) :
    splitWords (first ++ " " ++ second ++ " " ++ third).toList =
      [first.toList, second.toList, third.toList] := by
  have a := toList_ne_nil_of_isToken one
  have b := toList_ne_nil_of_isToken two
  have c := toList_ne_nil_of_isToken three
  simp only [isToken, Bool.and_eq_true] at one two three
  -- Word by word from the front; the last one ends with the text.
  have last : splitWords third.toList = [third.toList] := by
    simpa [splitWords] using @splitWords_append third.toList [] c three.2 rfl
  rw [toList_three, splitWords_append a one.2 rfl, splitWords_space (by decide),
    splitWords_append b two.2 rfl, splitWords_space (by decide), last]

end Three

end Words

end Trusca
