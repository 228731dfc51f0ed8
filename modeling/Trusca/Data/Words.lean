import Trusca.Data.Segments

/-! Texts of words: the words between the spaces of a text, and texts cut into words, gaps and brackets. -/

namespace Trusca

section Words

/-- The words of a text, which stand between spaces. -/
def wordsOf (text : List Char) : List (List Char) := (text.splitOn ' ').filter (· ≠ [])

/-- A space parts the words on its two sides. -/
theorem wordsOf_space (before after : List Char) :
    wordsOf (before ++ ' ' :: after) = wordsOf before ++ wordsOf after := by
  rw [wordsOf, List.splitOn_append_cons_self, List.filter_append]
  rfl

/-- A text without spaces is one word. -/
theorem wordsOf_word {word : List Char} (nonempty : word ≠ []) (plain : ' ' ∉ word) :
    wordsOf word = [word] := by
  rw [wordsOf, List.splitOn_eq_singleton plain, List.filter_cons_of_pos (by simpa using nonempty),
    List.filter_nil]

/-- The empty text has no words. -/
@[simp] theorem wordsOf_nil : wordsOf [] = [] := rfl

/-- Spaces after a text add no word. -/
theorem wordsOf_append_spaces (text : List Char) (count : Nat) :
    wordsOf (text ++ List.replicate count ' ') = wordsOf text := by
  induction count generalizing text with
  | zero => rw [List.replicate_zero, List.append_nil]
  | succ count ih =>
    rw [List.replicate_succ, wordsOf_space]
    have rest := ih []
    rw [List.nil_append] at rest
    rw [rest, wordsOf_nil, List.append_nil]

/-- Spaces before a text add no word. -/
theorem wordsOf_spaces_append (text : List Char) (count : Nat) :
    wordsOf (List.replicate count ' ' ++ text) = wordsOf text := by
  induction count with
  | zero => rfl
  | succ count ih =>
    rw [List.replicate_succ, List.cons_append]
    have parted := wordsOf_space [] (List.replicate count ' ' ++ text)
    rw [List.nil_append, wordsOf_nil, List.nil_append] at parted
    rw [parted, ih]

/-- A word after a space, or at the front, is the last word. -/
theorem wordsOf_append_word {text word : List Char} (ended : ∀ last ∈ text.getLast?, last = ' ')
    (nonempty : word ≠ []) (plain : ' ' ∉ word) : wordsOf (text ++ word) = wordsOf text ++ [word] := by
  -- The text is empty, or it ends in a blank that closes its last word.
  rcases List.eq_nil_or_concat text with rfl | ⟨front, last, rfl⟩
  · rw [List.nil_append, wordsOf_word nonempty plain]
    rfl
  · have space := ended last (by simp)
    subst space
    rw [List.concat_eq_append]
    rw [List.append_assoc, List.singleton_append, wordsOf_space, wordsOf_word nonempty plain]
    have front_words := wordsOf_append_spaces front 1
    rw [List.replicate_one] at front_words
    rw [front_words]

/-- A text that starts with something else than a space has a word. -/
theorem wordsOf_ne_nil {text : List Char} {character : Char} (within : character ∈ text)
    (other : character ≠ ' ') : wordsOf text ≠ [] := by
  intro none_left
  have whole : [' '].intercalate (text.splitOn ' ') = text := List.intercalate_splitOn ' '
  -- A character of the text is a blank between two words, or a letter of one.
  rw [← whole] at within
  obtain space | ⟨segment, listed, inside⟩ := mem_intercalate within
  · exact other space
  · -- No word is left, so every segment between two blanks is empty.
    have dropped := List.filter_eq_nil_iff.mp none_left segment listed
    have blank : segment = [] := by simpa using dropped
    rw [blank] at inside
    cases inside

end Words

section Strip

variable {text : List Char}

/-- A text whose only white space is the space. -/
def PlainSpaces (text : List Char) : Prop := ∀ character ∈ text, isSpace character = true → character = ' '

/-- A text with plain spaces is its stripped text with spaces around. -/
theorem PlainSpaces.strip_around (plain : PlainSpaces text) :
    ∃ before after, text =
      List.replicate before ' ' ++ ((strip (String.ofList text)).toList ++ List.replicate after ' ') := by
  -- The blanks in front are plain ones, and so are those at the end.
  have front : text.takeWhile isSpace = List.replicate (text.takeWhile isSpace).length ' ' := by
    refine List.eq_replicate_of_mem fun character taken => ?_
    exact plain character (List.takeWhile_subset _ taken) (List.mem_takeWhile_imp taken)
  have back : (text.dropWhile isSpace).rtakeWhile isSpace =
      List.replicate ((text.dropWhile isSpace).rtakeWhile isSpace).length ' ' := by
    refine List.eq_replicate_of_mem fun character taken => ?_
    have within : character ∈ text := by
      refine List.dropWhile_subset isSpace ?_
      exact (List.rtakeWhile_suffix isSpace _).subset taken
    exact plain character within (List.mem_rtakeWhile_imp taken)
  refine ⟨(text.takeWhile isSpace).length, ((text.dropWhile isSpace).rtakeWhile isSpace).length, ?_⟩
  rw [toList_strip, String.toList_ofList, ← front, ← back, List.rdropWhile_append_rtakeWhile,
    List.takeWhile_append_dropWhile]

/-- Stripping keeps the words. -/
theorem PlainSpaces.wordsOf_strip (plain : PlainSpaces text) :
    wordsOf (strip (String.ofList text)).toList = wordsOf text := by
  obtain ⟨before, after, around⟩ := plain.strip_around
  have words : wordsOf (List.replicate before ' ' ++
      ((strip (String.ofList text)).toList ++ List.replicate after ' ')) =
      wordsOf (strip (String.ofList text)).toList := by
    rw [wordsOf_spaces_append, wordsOf_append_spaces]
  rw [← words, ← around]

/-- Of a text with one word, that word is left. -/
theorem PlainSpaces.strip_eq_word (plain : PlainSpaces text) {word : List Char}
    (single : wordsOf text = [word]) : strip (String.ofList text) = String.ofList word := by
  -- Stripping leaves the words, and no space at either end.
  have words := plain.wordsOf_strip.trans single
  have start := head_strip (String.ofList text)
  have finish := getLast_strip (String.ofList text)
  rw [← String.toList_inj, String.toList_ofList]
  generalize (strip (String.ofList text)).toList = stripped at words start finish
  by_cases inner : ' ' ∈ stripped
  · -- A space inside would have a word on each side.
    obtain ⟨before, after, rfl⟩ := List.append_of_mem inner
    have left : wordsOf before ≠ [] := by
      cases before with
      | nil => exact absurd (by decide) (start ' ' rfl)
      | cons first rest =>
        refine wordsOf_ne_nil List.mem_cons_self ?_
        rintro rfl
        exact start ' ' rfl (by decide)
    have right : wordsOf after ≠ [] := by
      rcases List.eq_nil_or_concat after with rfl | ⟨front, last, rfl⟩
      · exact absurd (by decide) (finish ' ' (by simp))
      · have other : last ≠ ' ' := by
          rintro rfl
          exact finish ' ' (by simp [List.getLast?_cons]) (by decide)
        exact wordsOf_ne_nil (by simp) other
    have both := congrArg List.length ((wordsOf_space before after).symm.trans words)
    have one := List.length_pos_iff.mpr left
    have two := List.length_pos_iff.mpr right
    rw [List.length_append, List.length_singleton] at both
    omega
  · -- Without a space inside, what is left is a single word.
    cases stripped with
    | nil => cases words
    | cons first rest =>
      rw [wordsOf_word (List.cons_ne_nil _ _) inner] at words
      exact List.singleton_inj.mp words

/-- A text without words is stripped to nothing. -/
theorem PlainSpaces.strip_eq_nil (plain : PlainSpaces text) (none_left : wordsOf text = []) :
    strip (String.ofList text) = "" := by
  have words := plain.wordsOf_strip.trans none_left
  have start := head_strip (String.ofList text)
  rw [← String.toList_inj]
  -- Stripped of its blanks the text would start with a letter, and that would be a word.
  cases stripped : (strip (String.ofList text)).toList with
  | nil => rfl
  | cons first rest =>
    rw [stripped] at words start
    refine absurd words (wordsOf_ne_nil List.mem_cons_self ?_)
    rintro rfl
    exact start ' ' rfl (by decide)

end Strip

section Atoms

/-- What a text of words is made of. -/
inductive TextAtom where
  /-- One space, and as many more. -/
  | gap (more : Nat)
  | word (characters : List Char)
  | bracket (character : Char)
  deriving Repr, DecidableEq

/-- The text of an atom. -/
def TextAtom.text : TextAtom → List Char
  | .gap more => List.replicate (more + 1) ' '
  | .word characters => characters
  | .bracket character => [character]

/-- The text that atoms stand for. -/
def render (atoms : List TextAtom) : List Char := atoms.flatMap TextAtom.text

/-- Whether a character is a bracket. -/
def isBracket (character : Char) : Bool := character == '(' || character == ')'

/-- A text without spaces and brackets. -/
def IsWord (characters : List Char) : Prop :=
  characters ≠ [] ∧ ∀ character ∈ characters, character ≠ ' ' ∧ isBracket character = false

/-- Atoms that a text is cut into: no two gaps and no two words follow each other. -/
def Proper : List TextAtom → Prop
  | [] => True
  | .gap _ :: rest => (∀ more, rest.head? ≠ some (.gap more)) ∧ Proper rest
  | .word characters :: rest => IsWord characters ∧ (∀ other, rest.head? ≠ some (.word other)) ∧ Proper rest
  | .bracket character :: rest => isBracket character = true ∧ Proper rest

/-- No atoms make the empty text. -/
@[simp] theorem render_nil : render [] = [] := rfl

/-- Atoms are written one after the other. -/
@[simp] theorem render_cons (atom : TextAtom) (atoms : List TextAtom) :
    render (atom :: atoms) = atom.text ++ render atoms := rfl

/-- A text can be cut. -/
theorem exists_atoms (text : List Char) : ∃ atoms, Proper atoms ∧ render atoms = text := by
  induction text with
  | nil => exact ⟨[], trivial, rfl⟩
  | cons character rest ih =>
    -- The pieces of the rest take the character in front.
    obtain ⟨atoms, proper, rfl⟩ := ih
    by_cases space : character = ' '
    · -- The space starts a gap or widens the one that is there.
      subst space
      by_cases wide : ∃ count more, atoms = .gap count :: more
      · obtain ⟨count, more, rfl⟩ := wide
        exact ⟨.gap (count + 1) :: more, proper, by simp [TextAtom.text, List.replicate_succ]⟩
      · refine ⟨.gap 0 :: atoms, ⟨?_, proper⟩, rfl⟩
        intro count head
        obtain ⟨more, rfl⟩ := List.head?_eq_some_iff.mp head
        exact wide ⟨count, more, rfl⟩
    · by_cases bracket : isBracket character = true
      · exact ⟨.bracket character :: atoms, ⟨bracket, proper⟩, rfl⟩
      · -- The character starts a word or stands at the front of the one that is there.
        have single : character ≠ ' ' ∧ isBracket character = false := ⟨space, by simpa using bracket⟩
        by_cases long : ∃ characters more, atoms = .word characters :: more
        · obtain ⟨characters, more, rfl⟩ := long
          obtain ⟨⟨-, each⟩, rest⟩ := proper
          exact ⟨.word (character :: characters) :: more,
            ⟨⟨List.cons_ne_nil _ _, List.forall_mem_cons.mpr ⟨single, each⟩⟩, rest⟩, rfl⟩
        · refine ⟨.word [character] :: atoms, ⟨⟨List.cons_ne_nil _ _, by simpa using single⟩, ?_, proper⟩, rfl⟩
          intro characters head
          obtain ⟨more, rfl⟩ := List.head?_eq_some_iff.mp head
          exact long ⟨characters, more, rfl⟩

end Atoms

end Trusca
