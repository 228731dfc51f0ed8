import Mathlib.Data.List.Basic
import Mathlib.Data.List.Infix
import Trusca.Data.Text

/-! Patterns of literal texts and wildcards, and the search for them in a text. -/

namespace Trusca

/-- A piece of a pattern. -/
inductive PatternPiece where
  /-- A text as it is written. -/
  | text (letters : String)
  /-- Any characters within a line. -/
  | anything
  /-- The edge of a word. -/
  | edge
  /-- The start of the text. -/
  | start
  /-- The end of the text, or a line break at its end. -/
  | stop
  /-- None of these texts further on in the line; those that are marked count as whole words only. -/
  | notAhead (texts : List (String × Bool))
  deriving Repr, DecidableEq

/-- The pieces of a pattern: texts with anything between them. -/
def row : List String → List PatternPiece
  | [] => []
  | [letters] => [.text letters]
  | letters :: next :: more => .text letters :: .anything :: row (next :: more)

section Search

variable (word : Char → Bool)

/-- Whether a word starts or ends between two characters. -/
def isEdge (previous : Option Char) (rest : List Char) : Bool :=
  previous.elim false word != rest.head?.elim false word

/-- Whether something is found here, or further on in the line. -/
def anywhere (found : Option Char → List Char → Bool) : Option Char → List Char → Bool
  | previous, [] => found previous []
  | previous, character :: rest =>
      found previous (character :: rest) || (character != '\n' && anywhere found (some character) rest)

/-- Whether a text stands here, as a whole word if that is asked for. -/
def standsAt (letters : List Char) (whole : Bool) (previous : Option Char) (rest : List Char) : Bool :=
  letters.isPrefixOf rest &&
    (!whole || isEdge word previous rest &&
      isEdge word (letters.getLast?.or previous) (rest.drop letters.length))

/-- Whether the pieces stand here, one behind the other. -/
def matchesAt : List PatternPiece → Option Char → List Char → Bool
  | [], _, _ => true
  -- The letters themselves, and the next piece sees the last of them.
  | .text letters :: pieces, previous, rest =>
      letters.toList.isPrefixOf rest &&
        matchesAt pieces (letters.toList.getLast?.or previous) (rest.drop letters.toList.length)
  | .anything :: pieces, previous, rest => anywhere (matchesAt pieces) previous rest
  | .edge :: pieces, previous, rest => isEdge word previous rest && matchesAt pieces previous rest
  | .start :: pieces, previous, rest => previous.isNone && matchesAt pieces previous rest
  -- The end, or the one newline that `$` admits.
  | .stop :: pieces, previous, rest => (rest == [] || rest == ['\n']) && matchesAt pieces previous rest
  | .notAhead texts :: pieces, previous, rest =>
      !(texts.any fun text => anywhere (standsAt word text.1.toList text.2) previous rest) &&
        matchesAt pieces previous rest

/-- Whether the pieces stand here or anywhere further on. -/
def searchFrom (pieces : List PatternPiece) : Option Char → List Char → Bool
  | previous, [] => matchesAt word pieces previous []
  | previous, character :: rest =>
      matchesAt word pieces previous (character :: rest) || searchFrom pieces (some character) rest

/-- Whether one of several alternatives stands anywhere in a text. -/
def search (pattern : List (List PatternPiece)) (text : List Char) : Bool :=
  pattern.any fun pieces => searchFrom word pieces none text

end Search

section Rows

/-- Texts that stand from here on, one behind the other in a line. -/
def InRow : List String → List Char → Prop
  | [], _ => True
  | [letters], rest => letters.toList <+: rest
  | letters :: next :: more, rest =>
      ∃ gap after, rest = letters.toList ++ gap ++ after ∧ '\n' ∉ gap ∧ InRow (next :: more) after

/-- Texts that stand somewhere, one behind the other in a line. -/
def Mentions (texts : List String) (text : List Char) : Prop :=
  ∃ before after, text = before ++ after ∧ InRow texts after

variable {word : Char → Bool}

/-- What is looked for anywhere is found behind some gap within the line. -/
theorem anywhere_iff {found : Option Char → List Char → Bool} {holds : List Char → Prop}
    (sound : ∀ previous rest, found previous rest = true ↔ holds rest) (previous : Option Char)
    (rest : List Char) :
    anywhere found previous rest = true ↔
      ∃ gap after, rest = gap ++ after ∧ '\n' ∉ gap ∧ holds after := by
  -- The gap is what is skipped, one character at a time.
  induction rest generalizing previous with
  | nil =>
    rw [anywhere, sound]
    constructor
    · -- Nothing is left to skip.
      intro here
      exact ⟨[], [], rfl, by simp, here⟩
    · intro split
      obtain ⟨gap, after, parts, -, here⟩ := split
      rw [(List.append_eq_nil_iff.mp parts.symm).2] at here
      exact here
  | cons character rest ih =>
    rw [anywhere, Bool.or_eq_true, Bool.and_eq_true, sound, ih, bne_iff_ne]
    constructor
    · intro found
      -- What is found stands here, or behind one more character of the gap.
      obtain here | ⟨inline, gap, after, rfl, clear, later⟩ := found
      · exact ⟨[], character :: rest, rfl, by simp, here⟩
      · refine ⟨character :: gap, after, rfl, ?_, later⟩
        simp [clear, inline.symm]
    · intro split
      obtain ⟨gap, after, parts, clear, later⟩ := split
      cases gap with
      | nil =>
        rw [List.nil_append] at parts
        exact .inl (parts ▸ later)
      | cons skipped gap =>
        obtain ⟨rfl, rfl⟩ := List.cons_eq_cons.mp parts
        simp only [List.mem_cons, not_or] at clear
        exact .inr ⟨fun same => clear.1 same.symm, gap, after, rfl, clear.2, later⟩

/-- The pieces of a row stand where its texts do. -/
theorem matchesAt_row (texts : List String) (previous : Option Char) (rest : List Char) :
    matchesAt word (row texts) previous rest = true ↔ InRow texts rest := by
  -- Each text of the row but the last has a gap behind it.
  induction texts generalizing previous rest with
  | nil => simp [row, matchesAt, InRow]
  | cons letters more ih =>
    cases more with
    | nil => simp [row, matchesAt, InRow]
    | cons next more =>
      rw [row, matchesAt, matchesAt, Bool.and_eq_true, anywhere_iff ih, InRow]
      constructor
      · -- A text that stands here is taken off, and the search goes on behind it.
        intro stands
        obtain ⟨front, gap, after, behind, clear, later⟩ := stands
        obtain ⟨tail, rfl⟩ := List.isPrefixOf_iff_prefix.mp front
        rw [List.drop_left] at behind
        exact ⟨gap, after, by rw [behind, List.append_assoc], clear, later⟩
      · intro stands
        obtain ⟨gap, after, rfl, clear, later⟩ := stands
        rw [List.append_assoc]
        refine ⟨List.isPrefixOf_iff_prefix.mpr (List.prefix_append _ _), gap, after, ?_, clear, later⟩
        rw [List.drop_left]

/-- A search succeeds exactly when the pieces match behind some beginning of the text. -/
theorem searchFrom_iff {pieces : List PatternPiece} {holds : List Char → Prop}
    (sound : ∀ previous rest, matchesAt word pieces previous rest = true ↔ holds rest)
    (previous : Option Char) (text : List Char) :
    searchFrom word pieces previous text = true ↔ ∃ before after, text = before ++ after ∧ holds after := by
  -- What stands before the match is skipped, one character at a time.
  induction text generalizing previous with
  | nil =>
    rw [searchFrom, sound]
    constructor
    · intro here
      exact ⟨[], [], rfl, here⟩
    · intro split
      obtain ⟨before, after, parts, here⟩ := split
      rw [(List.append_eq_nil_iff.mp parts.symm).2] at here
      exact here
  | cons character text ih =>
    rw [searchFrom, Bool.or_eq_true, sound, ih]
    constructor
    · intro found
      -- The match is here, or later.
      obtain here | ⟨before, after, rfl, later⟩ := found
      · exact ⟨[], character :: text, rfl, here⟩
      · exact ⟨character :: before, after, rfl, later⟩
    · intro split
      obtain ⟨before, after, parts, later⟩ := split
      cases before with
      | nil =>
        rw [List.nil_append] at parts
        exact .inl (parts ▸ later)
      | cons skipped before =>
        obtain ⟨rfl, rfl⟩ := List.cons_eq_cons.mp parts
        exact .inr ⟨before, after, rfl, later⟩

/-- A search for rows finds the texts that mention one of them. -/
theorem search_rows (rows : List (List String)) (text : List Char) :
    search word (rows.map row) text = true ↔ ∃ texts ∈ rows, Mentions texts text := by
  simp only [search, List.any_map, List.any_eq_true, Function.comp_apply]
  exact exists_congr fun texts => and_congr_right fun _ => searchFrom_iff (matchesAt_row texts) none text

end Rows

section Images

/-- The characters that a piece spells out. -/
def PatternPiece.letters : PatternPiece → List Char
  | .text letters => letters.toList
  | .notAhead texts => texts.flatMap fun text => text.1.toList
  | _ => []

/-- A change of characters that a search cannot tell, as long as a pattern spells none of the
characters that are changed. -/
structure Unnoticed (word : Char → Bool) (image : Char → Char) (letters : List Char) : Prop where
  words : ∀ character, word (image character) = word character
  lines : ∀ character, image character = '\n' ↔ character = '\n'
  spelled : ∀ letter ∈ letters, ∀ character, image character = letter ↔ character = letter

variable {word : Char → Bool} {image : Char → Char} {letters : List Char}

/-- A change that some letters do not notice is not noticed by fewer of them. -/
theorem Unnoticed.mono {fewer : List Char} (unnoticed : Unnoticed word image letters)
    (subset : ∀ letter ∈ fewer, letter ∈ letters) : Unnoticed word image fewer :=
  ⟨unnoticed.words, unnoticed.lines, fun letter member => unnoticed.spelled letter (subset letter member)⟩

/-- A change that keeps words apart keeps their edges. -/
theorem isEdge_map (words : ∀ character, word (image character) = word character)
    (previous : Option Char) (rest : List Char) :
    isEdge word (previous.map image) (rest.map image) = isEdge word previous rest := by
  cases previous <;> cases rest <;> simp [isEdge, words]

/-- Letters that a change leaves alone begin the changed text exactly when they begin the text. -/
theorem isPrefixOf_map (spelled : ∀ letter ∈ letters, ∀ character, image character = letter ↔ character = letter)
    (rest : List Char) : letters.isPrefixOf (rest.map image) = letters.isPrefixOf rest := by
  induction letters generalizing rest with
  | nil => simp
  | cons letter letters ih =>
    -- Letter by letter: the image of a character is the letter only if it is the letter.
    obtain ⟨here, later⟩ := List.forall_mem_cons.mp spelled
    cases rest with
    | nil => rfl
    | cons character rest =>
      rw [List.map_cons, List.isPrefixOf_cons_cons, List.isPrefixOf_cons_cons, ih later]
      congr 1
      rw [Bool.eq_iff_iff, beq_iff_eq, beq_iff_eq, eq_comm, here, eq_comm]

/-- The character before the place behind some letters. -/
theorem map_or_getLast? (spelled : ∀ letter ∈ letters, ∀ character, image character = letter ↔ character = letter)
    (previous : Option Char) :
    letters.getLast?.or (previous.map image) = (letters.getLast?.or previous).map image := by
  cases last : letters.getLast? with
  | none => rfl
  | some letter =>
    have same := (spelled letter (List.mem_of_getLast? last) letter).mpr rfl
    simp [same]

/-- What does not notice a change is found anywhere in the changed text as in the text. -/
theorem anywhere_map {found : Option Char → List Char → Bool}
    (lines : ∀ character, image character = '\n' ↔ character = '\n')
    (same : ∀ previous rest, found (previous.map image) (rest.map image) = found previous rest)
    (previous : Option Char) (rest : List Char) :
    anywhere found (previous.map image) (rest.map image) = anywhere found previous rest := by
  induction rest generalizing previous with
  | nil => exact same previous []
  | cons character rest ih =>
    -- A search stops at line breaks, and those are kept.
    have line : (image character != '\n') = (character != '\n') := by
      rw [Bool.eq_iff_iff, bne_iff_ne, bne_iff_ne, ne_eq, ne_eq, lines]
    have here := same previous (character :: rest)
    rw [List.map_cons] at here
    rw [List.map_cons, anywhere, anywhere, line, here, ← ih]
    rfl

/-- A piece stands in the changed text where it stands in the text, when it does not notice the change. -/
theorem standsAt_map (unnoticed : Unnoticed word image letters) (whole : Bool) (previous : Option Char)
    (rest : List Char) :
    standsAt word letters whole (previous.map image) (rest.map image) =
      standsAt word letters whole previous rest := by
  rw [standsAt, standsAt, isPrefixOf_map unnoticed.spelled, isEdge_map unnoticed.words, ← List.map_drop,
    map_or_getLast? unnoticed.spelled, isEdge_map unnoticed.words]

/-- Pieces that do not notice a change match the changed text where they match the text. -/
theorem matchesAt_map {pieces : List PatternPiece}
    (unnoticed : ∀ piece ∈ pieces, Unnoticed word image piece.letters) (previous : Option Char)
    (rest : List Char) :
    matchesAt word pieces (previous.map image) (rest.map image) = matchesAt word pieces previous rest := by
  induction pieces generalizing previous rest with
  | nil => rfl
  | cons piece pieces ih =>
    obtain ⟨here, later⟩ := List.forall_mem_cons.mp unnoticed
    have next := ih later
    cases piece with
    | text letters =>
      have spelled : ∀ letter ∈ letters.toList, ∀ character, image character = letter ↔ character = letter :=
        here.spelled
      -- Letters match the image just where they match the text.
      rw [matchesAt, matchesAt, isPrefixOf_map spelled, ← List.map_drop, map_or_getLast? spelled, next]
    -- The other pieces look at line ends, words and places, which the image keeps.
    | anything => exact anywhere_map here.lines next previous rest
    | edge => rw [matchesAt, matchesAt, isEdge_map here.words, next]
    | start =>
      rw [matchesAt, matchesAt, next]
      cases previous <;> rfl
    | stop =>
      have line : (rest.map image == ['\n']) = (rest == ['\n']) := by
        rw [Bool.eq_iff_iff, beq_iff_eq, beq_iff_eq]
        cases rest with
        | nil => simp
        | cons character rest => cases rest <;> simp [here.lines]
      have blank : (rest.map image == []) = (rest == []) := by cases rest <;> rfl
      rw [matchesAt, matchesAt, next, line, blank]
    | notAhead texts =>
      rw [matchesAt, matchesAt, next]
      congr 2
      rw [Bool.eq_iff_iff, List.any_eq_true, List.any_eq_true]
      refine exists_congr fun text => and_congr_right fun listed => ?_
      -- Each of the texts spells letters of the piece.
      have own : Unnoticed word image text.1.toList :=
        here.mono fun letter member => List.mem_flatMap.mpr ⟨text, listed, member⟩
      rw [anywhere_map own.lines (standsAt_map own text.2)]

/-- A search for pieces that do not notice a change finds them in the changed text as in the text. -/
theorem searchFrom_map {pieces : List PatternPiece}
    (unnoticed : ∀ piece ∈ pieces, Unnoticed word image piece.letters) (previous : Option Char)
    (text : List Char) :
    searchFrom word pieces (previous.map image) (text.map image) = searchFrom word pieces previous text := by
  induction text generalizing previous with
  | nil => exact matchesAt_map unnoticed previous []
  | cons character text ih =>
    have here := matchesAt_map unnoticed previous (character :: text)
    rw [List.map_cons] at here
    rw [List.map_cons, searchFrom, searchFrom, here, ← ih]
    rfl

/-- A change that is not noticed does not change what is found. -/
theorem search_map {pattern : List (List PatternPiece)}
    (unnoticed : ∀ pieces ∈ pattern, ∀ piece ∈ pieces, Unnoticed word image piece.letters)
    (text : List Char) : search word pattern (text.map image) = search word pattern text := by
  rw [Bool.eq_iff_iff, search, search, List.any_eq_true, List.any_eq_true]
  refine exists_congr fun pieces => and_congr_right fun listed => ?_
  rw [← searchFrom_map (unnoticed pieces listed) none text]
  rfl

end Images

section Agreement

variable {word word' : Char → Bool} {allowed : Char → Prop}

/-- The pieces that are texts of allowed characters, and the edges of words. -/
def PatternPiece.Plain (allowed : Char → Prop) : PatternPiece → Prop
  | .text letters => ∀ letter ∈ letters.toList, allowed letter
  | .edge => True
  | _ => False

instance [DecidablePred allowed] (piece : PatternPiece) : Decidable (piece.Plain allowed) :=
  match piece with
  | .text letters => List.decidableBAll allowed letters.toList
  | .edge => .isTrue trivial
  | .anything | .start | .stop | .notAhead _ => .isFalse id

/-- Two notions of a word that agree on a text find the same edges in it. -/
theorem isEdge_agree (agree : ∀ character, allowed character → word character = word' character)
    {previous : Option Char} {rest : List Char} (before : ∀ character ∈ previous, allowed character)
    (here : ∀ character ∈ rest, allowed character) :
    isEdge word previous rest = isEdge word' previous rest := by
  -- Left and right of the edge there is one allowed character at most.
  have left : previous.elim false word = previous.elim false word' := by
    cases previous with
    | none => rfl
    | some character => exact agree character (before character rfl)
  have right : rest.head?.elim false word = rest.head?.elim false word' := by
    cases rest with
    | nil => rfl
    | cons character rest => exact agree character (here character List.mem_cons_self)
  rw [isEdge, isEdge, left, right]

/-- Words that agree on the characters that are there make no difference to plain pieces. -/
theorem matchesAt_agree (agree : ∀ character, allowed character → word character = word' character)
    {pieces : List PatternPiece} (plain : ∀ piece ∈ pieces, piece.Plain allowed)
    {previous : Option Char} {rest : List Char} (before : ∀ character ∈ previous, allowed character)
    (here : ∀ character ∈ rest, allowed character) :
    matchesAt word pieces previous rest = matchesAt word' pieces previous rest := by
  -- Only an edge asks what a character is, and all the characters it may see are allowed.
  induction pieces generalizing previous rest with
  | nil => rfl
  | cons piece pieces ih =>
    obtain ⟨first, more⟩ := List.forall_mem_cons.mp plain
    cases piece with
    | text letters =>
      rw [matchesAt, matchesAt, ih more]
      · -- The character before the next piece is the last of this one, or the one before both.
        intro character last
        cases ends : letters.toList.getLast? with
        | none =>
          rw [ends, Option.none_or] at last
          exact before character last
        | some letter =>
          rw [ends, Option.some_or] at last
          cases last
          exact first character (List.mem_of_getLast? ends)
      · exact fun character member => here character (List.mem_of_mem_drop member)
    | edge => rw [matchesAt, matchesAt, isEdge_agree agree before here, ih more before here]
    | anything => exact first.elim
    | start => exact first.elim
    | stop => exact first.elim
    | notAhead texts => exact first.elim

/-- A search for plain pieces depends on the words of the allowed characters only. -/
theorem search_agree (agree : ∀ character, allowed character → word character = word' character)
    {pattern : List (List PatternPiece)} (plain : ∀ pieces ∈ pattern, ∀ piece ∈ pieces, piece.Plain allowed)
    {text : List Char} (here : ∀ character ∈ text, allowed character) :
    search word pattern text = search word' pattern text := by
  have from_here {pieces : List PatternPiece} (listed : pieces ∈ pattern) {previous : Option Char}
      (before : ∀ character ∈ previous, allowed character) :
      searchFrom word pieces previous text = searchFrom word' pieces previous text := by
    -- Wherever the search starts, the character before it is allowed.
    induction text generalizing previous with
    | nil => exact matchesAt_agree agree (plain pieces listed) before here
    | cons character text ih =>
      obtain ⟨first, more⟩ := List.forall_mem_cons.mp here
      rw [searchFrom, searchFrom, matchesAt_agree agree (plain pieces listed) before here]
      have later := @ih more (some character) (by
        intro other same
        cases same
        exact first)
      rw [later]
  -- Patterns that stand side by side are searched for one by one.
  rw [search, search, Bool.eq_iff_iff, List.any_eq_true, List.any_eq_true]
  refine exists_congr fun pieces => and_congr_right fun listed => ?_
  rw [from_here listed (by simp)]

end Agreement

section Spelled

variable {word : Char → Bool}

/-- Whether the texts of a piece are ASCII. -/
def PatternPiece.isAscii : PatternPiece → Bool
  | .text letters => isAsciiText letters
  | .notAhead texts => texts.all fun text => isAsciiText text.1
  | _ => true

/-- Whether a piece is an ASCII text or an edge. -/
def PatternPiece.isAsciiWord : PatternPiece → Bool
  | .text letters => isAsciiText letters
  | .edge => true
  | _ => false

/-- A piece of ASCII word characters is plain with respect to ASCII. -/
theorem PatternPiece.plain_of_asciiWord {piece : PatternPiece} (ascii : piece.isAsciiWord) :
    piece.Plain fun character => character.toNat < 128 := by
  cases piece with
  | text letters => exact fun letter spelt => lt_of_ascii ascii spelt
  | edge => trivial
  | anything => cases ascii
  | start => cases ascii
  | stop => cases ascii
  | notAhead texts => cases ascii

/-- A piece of ASCII word characters is one of ASCII. -/
theorem PatternPiece.ascii_of_asciiWord {piece : PatternPiece} (ascii : piece.isAsciiWord) :
    piece.isAscii := by
  cases piece with
  | text letters => exact ascii
  | notAhead texts => cases ascii
  | anything | edge | start | stop => rfl

variable (word) in
/-- Whether the pieces stand here, with their texts read off their bytes. -/
def matchesAscii : List PatternPiece → Option Char → List Char → Bool
  | [], _, _ => true
  -- As above, on texts that are ASCII and lower-cased beforehand.
  | .text letters :: pieces, previous, rest =>
      (asciiLetters letters).isPrefixOf rest &&
        matchesAscii pieces ((asciiLetters letters).getLast?.or previous)
          (rest.drop (asciiLetters letters).length)
  | .anything :: pieces, previous, rest => anywhere (matchesAscii pieces) previous rest
  | .edge :: pieces, previous, rest => isEdge word previous rest && matchesAscii pieces previous rest
  | .start :: pieces, previous, rest => previous.isNone && matchesAscii pieces previous rest
  | .stop :: pieces, previous, rest =>
      (rest == [] || rest == ['\n']) && matchesAscii pieces previous rest
  | .notAhead texts :: pieces, previous, rest =>
      !(texts.any fun text => anywhere (standsAt word (asciiLetters text.1) text.2) previous rest) &&
        matchesAscii pieces previous rest

variable (word) in
/-- Whether the pieces stand here or further on, with their texts read off their bytes. -/
def searchAsciiFrom (pieces : List PatternPiece) : Option Char → List Char → Bool
  | previous, [] => matchesAscii word pieces previous []
  | previous, character :: rest =>
      matchesAscii word pieces previous (character :: rest) || searchAsciiFrom pieces (some character) rest

variable (word) in
/-- The search with the texts of the pattern read off their bytes. -/
def searchAscii (pattern : List (List PatternPiece)) (text : List Char) : Bool :=
  pattern.any fun pieces => searchAsciiFrom word pieces none text

/-- Pieces of ASCII match as the decision on ASCII texts says. -/
theorem matchesAt_ascii {pieces : List PatternPiece} (ascii : pieces.all PatternPiece.isAscii) :
    matchesAt word pieces = matchesAscii word pieces := by
  -- Only what is spelled out as text differs between the two readings.
  induction pieces with
  | nil => rfl
  | cons piece pieces ih =>
    obtain ⟨here, more⟩ := Bool.and_eq_true_iff.mp ascii
    funext previous rest
    cases piece with
    | text letters => rw [matchesAt, matchesAscii, ih more, toList_ascii here]
    | notAhead texts =>
      have spelled : (texts.any fun text => anywhere (standsAt word text.1.toList text.2) previous rest) =
          texts.any fun text => anywhere (standsAt word (asciiLetters text.1) text.2) previous rest := by
        rw [Bool.eq_iff_iff, List.any_eq_true, List.any_eq_true]
        refine exists_congr fun text => and_congr_right fun listed => ?_
        rw [toList_ascii (List.all_eq_true.mp here text listed)]
      rw [matchesAt, matchesAscii, ih more, spelled]
    | anything => rw [matchesAt, matchesAscii, ih more]
    | edge => rw [matchesAt, matchesAscii, ih more]
    | start => rw [matchesAt, matchesAscii, ih more]
    | stop => rw [matchesAt, matchesAscii, ih more]

/-- A search for ASCII texts is found by reading them off their bytes. -/
theorem search_ascii {pattern : List (List PatternPiece)}
    (ascii : pattern.all fun pieces => pieces.all PatternPiece.isAscii) (text : List Char) :
    search word pattern text = searchAscii word pattern text := by
  rw [search, searchAscii, Bool.eq_iff_iff, List.any_eq_true, List.any_eq_true]
  -- Alternative by alternative, at every place of the text.
  refine exists_congr fun pieces => and_congr_right fun listed => ?_
  have same := @matchesAt_ascii word _ (List.all_eq_true.mp ascii pieces listed)
  have whole (previous : Option Char) :
      searchFrom word pieces previous text = searchAsciiFrom word pieces previous text := by
    induction text generalizing previous with
    | nil => rw [searchFrom, searchAsciiFrom, same]
    | cons character text ih => rw [searchFrom, searchAsciiFrom, same, ih]
  rw [whole]

end Spelled

end Trusca
