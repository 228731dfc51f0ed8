import Mathlib.Data.List.Chain
import Trusca.Data.Words
import Trusca.License.Obligations
import Trusca.Proofs.License.Grammar

/-! The operands that the splitter finds are those that the parser reads, as long as the operators are in
capitals between spaces; and the stored obligations cover them, as long as no kind has two texts. -/

namespace Trusca

open Store

section Lexer

/-- The token of an atom. -/
def TextAtom.token? : TextAtom → Option SpdxToken
  | .gap _ => none
  | .word characters => some (wordToken characters)
  | .bracket character => some (if character == '(' then .lparen else .rparen)

/-- A word that was read before a gap, a bracket or the end. -/
def flushed (word : List Char) : List SpdxToken := if word.isEmpty then [] else [wordToken word]

/-- A word is read character by character. -/
theorem lexFrom_word {word : List Char} (plain : ∀ character ∈ word, character ≠ ' ' ∧ isBracket character = false)
    (rest before : List Char) : lexFrom (word ++ rest) before = lexFrom rest (before ++ word) := by
  induction word generalizing before with
  | nil => rw [List.nil_append, List.append_nil]
  | cons character word ih =>
    -- A letter is neither a blank nor a bracket, so it goes on the word.
    obtain ⟨⟨space, bracket⟩, later⟩ := List.forall_mem_cons.mp plain
    simp only [isBracket, Bool.or_eq_false_iff, beq_eq_false_iff_ne] at bracket
    rw [List.cons_append, lexFrom]
    simp only [beq_iff_eq, space, bracket.1, bracket.2, if_false]
    rw [ih later, List.append_assoc, List.singleton_append]

/-- A gap ends a word and adds no token. -/
theorem lexFrom_gap (count : Nat) (rest before : List Char) :
    lexFrom (List.replicate (count + 1) ' ' ++ rest) before = flushed before ++ lexFrom rest [] := by
  induction count generalizing before with
  | zero => rfl
  | succ count ih =>
    rw [List.replicate_succ, List.cons_append, lexFrom, ih []]
    rfl

/-- The tokens of a text are those of its atoms. -/
theorem lexFrom_render {atoms : List TextAtom} (proper : Proper atoms) {before : List Char}
    (ended : before = [] ∨ ∀ other, atoms.head? ≠ some (.word other)) :
    lexFrom (render atoms) before = flushed before ++ atoms.filterMap TextAtom.token? := by
  -- Along the atoms, with the letters of an unfinished word carried along.
  induction atoms generalizing before with
  | nil => simp [render, lexFrom, flushed]
  | cons atom rest ih =>
    cases atom with
    | gap count =>
      rw [render_cons, TextAtom.text, lexFrom_gap, ih proper.2 (.inl rfl)]
      rfl
    | bracket character =>
      obtain ⟨bracket, proper⟩ := proper
      rw [render_cons, TextAtom.text, List.singleton_append, lexFrom, ih proper (.inl rfl)]
      simp only [isBracket, Bool.or_eq_true, beq_iff_eq] at bracket
      obtain rfl | rfl := bracket <;> rfl
    -- A word is read letter by letter; none is unfinished before it.
    | word characters =>
      obtain ⟨⟨nonempty, plain⟩, apart, proper⟩ := proper
      obtain rfl | single := ended
      · rw [render_cons, TextAtom.text, lexFrom_word plain, List.nil_append, ih proper (.inr apart)]
        simp [flushed, nonempty, TextAtom.token?]
      · exact absurd rfl (single characters)

end Lexer

section Splitter

/-- What follows an operator that stands before a gap. -/
def operatorAhead : List TextAtom → Option (List TextAtom)
  | .word characters :: .gap _ :: rest => if splitOperators.contains characters then some rest else none
  | _ => none

/-- An operator ahead is a splitting word with a gap behind it. -/
theorem operatorAhead_some {atoms after : List TextAtom} (ahead : operatorAhead atoms = some after) :
    ∃ word count, atoms = .word word :: .gap count :: after ∧ word ∈ splitOperators := by
  unfold operatorAhead at ahead
  split at ahead
  · rename_i word count rest
    split_ifs at ahead with known
    cases ahead
    exact ⟨word, count, rfl, List.contains_iff_mem.mp known⟩
  · cases ahead

/-- The words of the pieces of a text, with those of the piece being read. -/
def pieceWords : List TextAtom → List (List Char) → List (List (List Char))
  | [], piece => [piece]
  | .bracket _ :: rest, piece => piece :: pieceWords rest []
  | .word characters :: rest, piece => pieceWords rest (piece ++ [characters])
  | .gap _ :: rest, piece =>
      match _ahead : operatorAhead rest with
      | some after => piece :: pieceWords after []
      | none => pieceWords rest piece
termination_by atoms => atoms.length
decreasing_by
  all_goals simp_wf
  obtain ⟨word, count, rfl, -⟩ := operatorAhead_some _ahead
  simp only [List.length_cons]
  omega

/-- A gap before an operator ends the piece. -/
theorem pieceWords_gap_some {rest after : List TextAtom} (ahead : operatorAhead rest = some after) (count : Nat)
    (piece : List (List Char)) : pieceWords (.gap count :: rest) piece = piece :: pieceWords after [] := by
  rw [pieceWords]
  -- The operator ahead is the one that was found.
  split
  · rename_i other same
    rw [ahead] at same
    cases same
    rfl
  · rename_i other
    rw [ahead] at other
    cases other

/-- A gap before anything else goes on with the piece. -/
theorem pieceWords_gap_none {rest : List TextAtom} (ahead : operatorAhead rest = none) (count : Nat)
    (piece : List (List Char)) : pieceWords (.gap count :: rest) piece = pieceWords rest piece := by
  rw [pieceWords]
  split
  · rename_i other same
    rw [ahead] at same
    cases same
  · rfl

/-- How an operator with white space on both sides is found. -/
theorem operatorGap_some {text after : List Char} (found : operatorGap text = some after) :
    ∃ word ∈ splitOperators, ∃ space more, isSpace space = true ∧
      text.dropWhile isSpace = word ++ space :: more ∧ after = (space :: more).dropWhile isSpace := by
  -- First the operator word that leads, then the blank the source asks for behind it.
  unfold operatorGap at found
  split_ifs at found
  obtain ⟨word, first, found⟩ := Option.bind_eq_some_iff.mp found
  dsimp only at found
  split_ifs at found with spaced
  have leads : word.isPrefixOf (text.dropWhile isSpace) = true := by simpa using List.find?_some first
  obtain ⟨rest, split⟩ := List.isPrefixOf_iff_prefix.mp leads
  -- At the end of the text there is no blank, so there is no operator either.
  cases rest with
  | nil =>
    rw [← split, List.append_nil, List.drop_length] at spaced
    simp at spaced
  | cons space more =>
    rw [← split, List.drop_left] at spaced found
    exact ⟨word, List.mem_of_find?_eq_some first, space, more, by simpa using spaced, split.symm,
      (Option.some.inj found).symm⟩

/-- The first word of a text that starts with one. -/
theorem takeWhile_word {word rest : List Char} (plain : ∀ character ∈ word, character ≠ ' ' ∧ isBracket character = false)
    (ended : ∀ first ∈ rest.head?, first = ' ' ∨ isBracket first = true) :
    (word ++ rest).takeWhile (fun character => character != ' ' && !isBracket character) = word := by
  rw [List.takeWhile_append_of_pos fun character within => by simp [plain character within]]
  -- The run ends where a blank or a bracket stands.
  cases rest with
  | nil => simp
  | cons first rest =>
    rw [List.takeWhile_cons_of_neg, List.append_nil]
    obtain rfl | bracket := ended first rfl
    · decide
    · simp [bracket]

/-- What does not follow a word starts with no letter. -/
theorem head_render {atoms : List TextAtom} (proper : Proper atoms)
    (apart : ∀ other, atoms.head? ≠ some (.word other)) :
    ∀ first ∈ (render atoms).head?, first = ' ' ∨ isBracket first = true := by
  intro first head
  -- What is rendered starts with its first atom.
  cases atoms with
  | nil => cases head
  | cons atom rest =>
    cases atom with
    | gap count =>
      rw [render_cons, TextAtom.text, List.replicate_succ] at head
      cases head
      exact .inl rfl
    | bracket character =>
      cases head
      exact .inr proper.1
    | word characters => exact absurd rfl (apart characters)

/-- After a gap stands no white space. -/
theorem dropWhile_render {atoms : List TextAtom} (proper : Proper atoms)
    (apart : ∀ more, atoms.head? ≠ some (.gap more)) (plain : PlainSpaces (render atoms)) :
    (render atoms).dropWhile isSpace = render atoms := by
  -- A first character that is a blank would be a gap, and the atoms start with none.
  cases whole : render atoms with
  | nil => rfl
  | cons first rest =>
    refine List.dropWhile_cons_of_neg ?_
    intro blank
    have space := plain first (by rw [whole]; exact List.mem_cons_self) blank
    subst space
    cases atoms with
    | nil => cases whole
    | cons atom others =>
      cases atom with
      | gap count => exact apart count rfl
      -- Brackets and the letters of a word are not blanks.
      | bracket character =>
        cases whole
        exact absurd proper.1 (by decide)
      | word characters =>
        obtain ⟨⟨nonempty, each⟩, -⟩ := proper
        cases characters with
        | nil => exact nonempty rfl
        | cons letter letters =>
          cases whole
          exact (each ' ' List.mem_cons_self).1 rfl

/-- Operators are words. -/
theorem splitOperators_word : ∀ word ∈ splitOperators, ∀ character ∈ word,
    character ≠ ' ' ∧ isBracket character = false := by
  decide

/-- After a gap, the splitter finds the operator that stands before another gap. -/
theorem operatorGap_render {atoms : List TextAtom} (proper : Proper atoms)
    (apart : ∀ more, atoms.head? ≠ some (.gap more)) (plain : PlainSpaces (render atoms)) (count : Nat) :
    operatorGap (List.replicate (count + 1) ' ' ++ render atoms) = (operatorAhead atoms).map render := by
  -- A gap of blanks is dropped as a whole.
  have dropped : (List.replicate (count + 1) ' ' ++ render atoms).dropWhile isSpace = render atoms := by
    rw [List.dropWhile_append_of_pos, dropWhile_render proper apart plain]
    intro character listed
    rw [List.eq_of_mem_replicate listed]
    decide
  cases ahead : operatorAhead atoms with
  -- No operator ahead, so an operator found would have to stand in the text as a word.
  | none =>
    rw [Option.map_none, Option.eq_none_iff_forall_ne_some]
    intro after found
    obtain ⟨word, known, space, more, blank, split, -⟩ := operatorGap_some found
    rw [dropped] at split
    have plain_space : space = ' ' := plain space (by rw [split]; simp) blank
    subst plain_space
    -- The operator is the first word of the atoms.
    have first := @takeWhile_word word (' ' :: more) (splitOperators_word word known) (by simp)
    rw [← split] at first
    have some_word : word ≠ [] := (by decide : ∀ word ∈ splitOperators, word ≠ []) word known
    cases atoms with
    | nil => exact absurd (congrArg List.length split) (by simp)
    | cons atom rest =>
      cases atom with
      | gap wide => exact apart wide rfl
      | bracket character =>
        have none_read : (render (.bracket character :: rest)).takeWhile
            (fun character => character != ' ' && !isBracket character) = [] :=
          List.takeWhile_cons_of_neg (by simp [proper.1])
        exact some_word (first.symm.trans none_read)
      | word characters =>
        obtain ⟨⟨-, each⟩, single, proper⟩ := proper
        have ended := head_render proper single
        have same : characters = word := (takeWhile_word each ended).symm.trans first
        subst same
        rw [render_cons, TextAtom.text, List.append_cancel_left_eq] at split
        -- Only a gap starts with a space.
        cases rest with
        | nil => cases split
        | cons next others =>
          cases next with
          | gap wide => simp [operatorAhead, known] at ahead
          | bracket character =>
            cases split
            exact absurd proper.1 (by decide)
          | word characters => exact single characters rfl
  | some after =>
    -- An operator ahead with a gap behind it: the search finds this one.
    obtain ⟨word, wide, rfl, known⟩ := operatorAhead_some ahead
    obtain ⟨⟨-, each⟩, -, alone, proper⟩ := proper
    have written : render (.word word :: .gap wide :: after) =
        word ++ (List.replicate (wide + 1) ' ' ++ render after) := rfl
    have found : splitOperators.find? (·.isPrefixOf (render (.word word :: .gap wide :: after))) =
        some word := by
      have leads : word <+: render (.word word :: .gap wide :: after) := List.prefix_append _ _
      cases first : splitOperators.find? (·.isPrefixOf (render (.word word :: .gap wide :: after))) with
      | none =>
        have missed := List.find?_eq_none.mp first word known
        exact absurd (List.isPrefixOf_iff_prefix.mpr leads) missed
      | some other =>
        have also : other.isPrefixOf (render (.word word :: .gap wide :: after)) = true := by
          simpa using List.find?_some first
        -- No operator starts with another one.
        have distinct : ∀ one ∈ splitOperators, ∀ two ∈ splitOperators, one <+: two → one = two := by
          decide
        have listed := List.mem_of_find?_eq_some first
        obtain shorter | longer :=
          List.prefix_or_prefix_of_prefix (List.isPrefixOf_iff_prefix.mp also) leads
        · rw [distinct other listed word known shorter]
        · rw [distinct word known other listed longer]
    -- The gap behind the operator is dropped as well.
    have spaces : (List.replicate (wide + 1) ' ' ++ render after).dropWhile isSpace = render after := by
      have later : PlainSpaces (render after) := by
        intro character within
        exact plain character (by rw [written]; simp [within])
      rw [List.dropWhile_append_of_pos, dropWhile_render proper alone later]
      intro character listed
      rw [List.eq_of_mem_replicate listed]
      decide
    unfold operatorGap
    rw [dropped, if_pos (by simp [List.replicate_succ, isSpace])]
    dsimp only
    rw [found, Option.bind_some, written, List.drop_left, if_pos (by simp [List.replicate_succ, isSpace]),
      spaces]
    rfl

/-- One step of the splitter. -/
theorem splitCompoundFrom_cons (fuel : Nat) (character : Char) (rest piece : List Char) :
    splitCompoundFrom (fuel + 1) (character :: rest) piece =
      if character == '(' || character == ')' then piece :: splitCompoundFrom fuel rest []
      else
        match operatorGap (character :: rest) with
        | some after => piece :: splitCompoundFrom fuel after []
        | none => splitCompoundFrom fuel rest (piece ++ [character]) := by
  rfl

/-- A word is taken into the piece character by character. -/
theorem splitCompoundFrom_word {word : List Char} (letters : ∀ character ∈ word, isSpace character = false ∧ isBracket character = false)
    (fuel : Nat) (rest piece : List Char) :
    splitCompoundFrom (word.length + fuel) (word ++ rest) piece =
      splitCompoundFrom fuel rest (piece ++ word) := by
  induction word generalizing piece with
  | nil => rw [List.length_nil, Nat.zero_add, List.nil_append, List.append_nil]
  | cons character word ih =>
    -- No operator can start at a letter.
    obtain ⟨⟨space, bracket⟩, later⟩ := List.forall_mem_cons.mp letters
    have no_gap : operatorGap (character :: (word ++ rest)) = none := by simp [operatorGap, space]
    rw [List.length_cons, Nat.add_right_comm, List.cons_append, splitCompoundFrom_cons]
    rw [if_neg (by simpa [isBracket] using bracket), no_gap]
    dsimp only
    rw [ih later, List.append_assoc, List.singleton_append]

/-- A gap without an operator behind it is taken into the piece. -/
theorem splitCompoundFrom_gap {rest : List Char} {count : Nat}
    (no_gap : ∀ more < count, operatorGap (List.replicate (more + 1) ' ' ++ rest) = none)
    (fuel : Nat) (piece : List Char) :
    splitCompoundFrom (count + fuel) (List.replicate count ' ' ++ rest) piece =
      splitCompoundFrom fuel rest (piece ++ List.replicate count ' ') := by
  induction count generalizing piece with
  | zero => rw [Nat.zero_add, List.replicate_zero, List.nil_append, List.append_nil]
  | succ count ih =>
    -- At each of these blanks no operator starts, so the blank goes on the piece.
    have here := no_gap count (Nat.lt_succ_self count)
    rw [List.replicate_succ, List.cons_append] at here ⊢
    rw [Nat.add_right_comm, splitCompoundFrom_cons, if_neg (by decide), here]
    dsimp only
    rw [ih fun more less => no_gap more (less.trans (Nat.lt_succ_self count)), List.append_assoc,
      List.singleton_append]

/-- The splitter finds the pieces that the atoms show. -/
theorem wordsOf_splitCompoundFrom {atoms : List TextAtom} (proper : Proper atoms)
    (plain : PlainSpaces (render atoms)) {fuel : Nat} (enough : (render atoms).length ≤ fuel)
    {piece : List Char}
    (ended : (∀ last ∈ piece.getLast?, last = ' ') ∨ ∀ other, atoms.head? ≠ some (.word other)) :
    (splitCompoundFrom fuel (render atoms) piece).map wordsOf = pieceWords atoms (wordsOf piece) := by
  -- An operator is skipped together with its gaps, so the induction is on the number of atoms.
  induction size : atoms.length using Nat.strong_induction_on generalizing atoms fuel piece with
  | _ size ih =>
    subst size
    cases atoms with
    | nil =>
      rw [pieceWords]
      cases fuel <;> rfl
    | cons atom rest =>
      have later : PlainSpaces (render rest) := by
        intro character within
        exact plain character (by rw [render_cons]; exact List.mem_append_right _ within)
      cases atom with
      -- A bracket closes the piece, and the next one starts empty.
      | bracket character =>
        obtain ⟨bracket, proper⟩ := proper
        rw [render_cons, TextAtom.text, List.singleton_append] at enough ⊢
        obtain ⟨fuel, rfl⟩ : ∃ more, fuel = more + 1 := ⟨fuel - 1, by simp at enough; omega⟩
        rw [pieceWords, splitCompoundFrom_cons, if_pos (by simpa [isBracket] using bracket), List.map_cons]
        rw [ih rest.length (by simp) proper later (by simpa using enough) (.inl (by simp)) rfl]
        rfl
      -- A word goes to the piece letter by letter, none of which splits.
      | word characters =>
        obtain ⟨⟨nonempty, each⟩, apart, proper⟩ := proper
        -- The piece ends in a blank, as two words never stand together.
        have open_piece : ∀ last ∈ piece.getLast?, last = ' ' := by
          obtain open_piece | single := ended
          · exact open_piece
          · exact absurd rfl (single characters)
        have letters : ∀ character ∈ characters, isSpace character = false ∧ isBracket character = false := by
          intro character within
          refine ⟨?_, (each character within).2⟩
          by_contra blank
          exact (each character within).1 (plain character (by simp [TextAtom.text, within]) (by simpa using blank))
        rw [render_cons, TextAtom.text] at enough ⊢
        obtain ⟨fuel, rfl⟩ : ∃ more, fuel = characters.length + more :=
          ⟨fuel - characters.length, by simp at enough; omega⟩
        rw [splitCompoundFrom_word letters, pieceWords,
          ← wordsOf_append_word open_piece nonempty fun inside => (each ' ' inside).1 rfl]
        exact ih rest.length (by simp) proper later (by simp at enough; omega) (.inr apart) rfl
      -- A gap splits only when an operator with gaps follows it.
      | gap count =>
        obtain ⟨apart, proper⟩ := proper
        have ahead := operatorGap_render proper apart later
        rw [render_cons, TextAtom.text] at enough ⊢
        cases found : operatorAhead rest with
        | none =>
          rw [found, Option.map_none] at ahead
          obtain ⟨fuel, rfl⟩ : ∃ more, fuel = (count + 1) + more :=
            ⟨fuel - (count + 1), by simp at enough; omega⟩
          -- Otherwise its blanks join the piece, and leave its words as they are.
          rw [splitCompoundFrom_gap fun more _ => ahead more]
          have words := wordsOf_append_spaces piece (count + 1)
          have next : (splitCompoundFrom fuel (render rest) (piece ++ List.replicate (count + 1) ' ')).map
              wordsOf = pieceWords rest (wordsOf (piece ++ List.replicate (count + 1) ' ')) :=
            ih rest.length (by simp) proper later (by simp at enough; omega)
              (.inl (by simp [List.replicate_succ'])) rfl
          rw [next, words, pieceWords_gap_none found]
        -- The piece ends here, and the operator goes with the gaps on both sides.
        | some after =>
          have here := ahead count
          rw [found, Option.map_some] at here
          obtain ⟨fuel, rfl⟩ : ∃ more, fuel = more + 1 := ⟨fuel - 1, by simp at enough; omega⟩
          obtain ⟨word, wide, rfl, -⟩ := operatorAhead_some found
          obtain ⟨-, -, -, proper⟩ := proper
          have last : PlainSpaces (render after) := by
            intro character within
            exact later character (by simp [within])
          have rest_pieces : (splitCompoundFrom fuel (render after) []).map wordsOf =
              pieceWords after (wordsOf []) := by
            refine ih after.length (by simp; omega) proper last ?_ (.inl (by simp)) rfl
            simp [TextAtom.text] at enough
            omega
          rw [List.replicate_succ, List.cons_append] at here ⊢
          rw [splitCompoundFrom_cons, if_neg (by decide), here]
          dsimp only
          rw [List.map_cons, rest_pieces, pieceWords_gap_some found]
          rfl

/-- The characters of a piece are those of the text. -/
theorem mem_splitCompoundFrom {fuel : Nat} {text piece found : List Char}
    (listed : found ∈ splitCompoundFrom fuel text piece) :
    ∀ character ∈ found, character ∈ text ∨ character ∈ piece := by
  -- Along the text as far as the fuel goes; each character is of the text or of the piece before.
  induction fuel generalizing text piece with
  | zero =>
    rw [List.mem_singleton.mp listed]
    exact fun character within => .inr within
  | succ fuel ih =>
    cases text with
    | nil =>
      rw [List.mem_singleton.mp listed]
      exact fun character within => .inr within
    | cons first rest =>
      rw [splitCompoundFrom_cons] at listed
      split_ifs at listed with bracket
      · -- A bracket ends the piece, and the next one starts empty.
        rcases List.mem_cons.mp listed with rfl | later
        · exact fun character within => .inr within
        · intro character within
          obtain inside | absent := ih later character within
          · exact .inl (List.mem_cons_of_mem _ inside)
          · cases absent
      · -- An operator ends it as well, and what is behind the operator is part of the text.
        split at listed
        · rename_i after gap
          obtain ⟨word, -, space, more, -, split, rfl⟩ := operatorGap_some gap
          rcases List.mem_cons.mp listed with rfl | later
          · exact fun character within => .inr within
          · intro character within
            obtain inside | absent := ih later character within
            · have tail : character ∈ word ++ space :: more :=
                List.mem_append_right _ (List.dropWhile_subset _ inside)
              rw [← split] at tail
              exact .inl (List.dropWhile_subset _ tail)
            · cases absent
        · -- Any other character goes on the piece.
          intro character within
          obtain inside | taken := ih listed character within
          · exact .inl (List.mem_cons_of_mem _ inside)
          · rcases List.mem_append.mp taken with before | last
            · exact .inr before
            · exact .inl (List.mem_cons.mpr (.inl (List.mem_singleton.mp last)))

end Splitter

section Spacing

/-- Whether the operators of a text are in capitals and stand between spaces, with the word being read and
whether a space stands before it. -/
def operatorsSpacedFrom : List Char → List Char → Bool → Bool
  | [], word, _ => (operatorOf word).isNone
  | character :: rest, word, before =>
      if character == ' ' then
        ((operatorOf word).isNone || (splitOperators.contains word && before)) && operatorsSpacedFrom rest [] true
      else if isBracket character then (operatorOf word).isNone && operatorsSpacedFrom rest [] false
      else operatorsSpacedFrom rest (word ++ [character]) before

/-- Whether every operator of an expression is in capitals and stands between spaces. -/
def operatorsSpaced (expression : String) : Bool := operatorsSpacedFrom expression.toList [] false

/-- Whether atoms start with a gap. -/
def startsWithGap : List TextAtom → Bool
  | .gap _ :: _ => true
  | _ => false

/-- The same of the atoms of a text. -/
def spacedAtoms : List TextAtom → Bool → Bool
  | [], _ => true
  | .gap _ :: rest, _ => spacedAtoms rest true
  | .bracket _ :: rest, _ => spacedAtoms rest false
  | .word word :: rest, before =>
      ((operatorOf word).isNone || (splitOperators.contains word && before && startsWithGap rest)) &&
        spacedAtoms rest false

/-- A plain word is only taken in. -/
theorem operatorsSpacedFrom_word {word : List Char}
    (plain : ∀ character ∈ word, character ≠ ' ' ∧ isBracket character = false) (rest taken : List Char)
    (before : Bool) :
    operatorsSpacedFrom (word ++ rest) taken before = operatorsSpacedFrom rest (taken ++ word) before := by
  induction word generalizing taken with
  | nil => rw [List.nil_append, List.append_nil]
  | cons character word ih =>
    obtain ⟨⟨space, bracket⟩, later⟩ := List.forall_mem_cons.mp plain
    rw [List.cons_append, operatorsSpacedFrom]
    simp only [beq_iff_eq, space, bracket, if_false, Bool.false_eq_true]
    rw [ih later, List.append_assoc, List.singleton_append]

/-- A gap settles whether the word before it is an operator that stands between gaps. -/
theorem operatorsSpacedFrom_gap (count : Nat) (rest taken : List Char) (before : Bool) :
    operatorsSpacedFrom (List.replicate (count + 1) ' ' ++ rest) taken before =
      (((operatorOf taken).isNone || (splitOperators.contains taken && before)) &&
        operatorsSpacedFrom rest [] true) := by
  induction count generalizing taken before with
  | zero => rfl
  | succ count ih =>
    rw [List.replicate_succ, List.cons_append, operatorsSpacedFrom, ih []]
    rfl

/-- The spacing of a text is that of its atoms. -/
theorem operatorsSpacedFrom_render {atoms : List TextAtom} (proper : Proper atoms) (before : Bool) :
    operatorsSpacedFrom (render atoms) [] before = spacedAtoms atoms before := by
  induction atoms generalizing before with
  | nil => rfl
  | cons atom rest ih =>
    cases atom with
    -- A gap ends no operator, as it starts none.
    | gap count =>
      rw [render_cons, TextAtom.text, operatorsSpacedFrom_gap, ih proper.2]
      rfl
    -- A bracket is an end like the blank, for the operator before it.
    | bracket character =>
      obtain ⟨bracket, proper⟩ := proper
      have other : character ≠ ' ' := by
        rintro rfl
        exact absurd bracket (by decide)
      rw [render_cons, TextAtom.text, List.singleton_append, operatorsSpacedFrom]
      simp [bracket, other, spacedAtoms, operatorOf, ih proper false]
    -- A word is an operator by its letters, and is spaced when a gap follows.
    | word word =>
      obtain ⟨⟨-, each⟩, apart, proper⟩ := proper
      rw [render_cons, TextAtom.text, operatorsSpacedFrom_word each, List.nil_append, spacedAtoms,
        ← ih proper false]
      -- What ends the word decides whether it may be an operator.
      cases rest with
      | nil => simp [startsWithGap, operatorsSpacedFrom, operatorOf]
      | cons next others =>
        cases next with
        | gap count =>
          simp only [render_cons, TextAtom.text, operatorsSpacedFrom_gap, startsWithGap, Bool.and_true]
          rfl
        | bracket character =>
          have other : character ≠ ' ' := by
            rintro rfl
            exact absurd proper.1 (by decide)
          simp [TextAtom.text, operatorsSpacedFrom, startsWithGap, proper.1, other, operatorOf]
        | word characters => exact absurd rfl (apart characters)

/-- Two tokens that may follow each other: no two licences and no two operators do. -/
def SpdxToken.mayFollow : SpdxToken → SpdxToken → Prop
  | .id _, .id _ => False
  | .operator _, .operator _ => False
  | _, _ => True

/-- The tokens of an expression alternate, and it starts and ends with a licence or a bracket. -/
theorem Derives.alternates {level : Option SpdxOperator} {tokens : List SpdxToken} {tree : SpdxExpr}
    {depth : Nat} (derived : Derives level tokens tree depth) :
    tokens ≠ [] ∧ tokens.IsChain SpdxToken.mayFollow ∧ (∀ op, tokens.head? ≠ some (.operator op)) ∧
      ∀ op, tokens.getLast? ≠ some (.operator op) := by
  induction derived with
  -- A name alone begins and ends with itself.
  | id name => exact ⟨List.cons_ne_nil _ _, .singleton _, by simp, by simp⟩
  | paren _ ih =>
    obtain ⟨-, chain, -, -⟩ := ih
    refine ⟨List.cons_ne_nil _ _, ?_, by simp, by simp [List.getLast?_cons]⟩
    -- Everything may stand beside a bracket.
    refine List.isChain_cons.mpr ⟨fun next _ => trivial, ?_⟩
    refine chain.append (.singleton _) fun last _ next head => ?_
    cases head
    cases last <;> trivial
  | operand _ ih => exact ih
  -- Two operands and an operator: what ends the left and starts the right is no operator.
  | @joined op left right _ _ _ _ _ _ ihLeft ihRight =>
    obtain ⟨some_left, chain, start, finish⟩ := ihLeft
    obtain ⟨some_right, chain', start', finish'⟩ := ihRight
    refine ⟨by simp, ?_, ?_, ?_⟩
    · refine chain.append (List.isChain_cons.mpr ⟨fun next head => ?_, chain'⟩) fun last ends next head => ?_
      · cases next with
        | operator other => exact absurd head (start' other)
        | _ => trivial
      · cases head
        cases last with
        | operator other => exact absurd ends (finish other)
        | _ => trivial
    · -- The ends of the whole are the left one's start and the right one's end.
      intro other head
      rw [List.head?_append_of_ne_nil _ some_left] at head
      exact start other head
    · intro other ends
      rw [List.getLast?_append_of_ne_nil _ (List.cons_ne_nil _ _), List.getLast?_cons] at ends
      obtain ⟨last, ended⟩ := Option.ne_none_iff_exists'.mp (List.getLast?_eq_none_iff.not.mpr some_right)
      rw [ended] at ends
      cases ends
      exact finish' other ended

end Spacing

section Pieces

/-- The words of a text that are no operators. -/
def idWords (atoms : List TextAtom) : List (List Char) :=
  atoms.filterMap fun atom =>
    match atom with
    | .word word => if (operatorOf word).isNone then some word else none
    | _ => none

/-- An operator in capitals is one for the parser too. -/
theorem operatorOf_split {word : List Char} (known : word ∈ splitOperators) : operatorOf word ≠ none :=
  (by decide : ∀ word ∈ splitOperators, operatorOf word ≠ none) word known

/-- A word that is no operator is a licence. -/
theorem token_of_id {word : List Char} (plain : operatorOf word = none) :
    wordToken word = .id (String.ofList word) := by
  simp [wordToken, plain]

/-- A word that is an operator is read as one. -/
theorem token_of_operator {word : List Char} (known : operatorOf word ≠ none) :
    ∃ op, wordToken word = .operator op := by
  obtain ⟨op, found⟩ := Option.ne_none_iff_exists'.mp known
  exact ⟨op, by simp [wordToken, found]⟩

/-- Where the operators are spaced, every piece is at most one licence, and the licences are all there. -/
theorem pieceWords_spaced {atoms : List TextAtom} (proper : Proper atoms) {before : Bool}
    (spaced : spacedAtoms atoms before = true) {previous : SpdxToken}
    (chain : (previous :: atoms.filterMap TextAtom.token?).IsChain SpdxToken.mayFollow)
    {piece : List (List Char)} (state : piece = [] ∨ ∃ word name, piece = [word] ∧ previous = .id name)
    (opening : ∀ word, atoms.head? = some (.word word) → operatorOf word = none) :
    (pieceWords atoms piece).flatten = piece ++ idWords atoms ∧
      ∀ words ∈ pieceWords atoms piece, words.length ≤ 1 := by
  -- Up to here a piece holds one licence at most.
  have short : piece.length ≤ 1 := by
    obtain rfl | ⟨word, name, rfl, -⟩ := state <;> simp
  induction size : atoms.length using Nat.strong_induction_on
    generalizing atoms before previous piece with
  | _ size ih =>
    subst size
    cases atoms with
    | nil =>
      rw [pieceWords]
      exact ⟨by simp [idWords], by simpa using short⟩
    | cons atom rest =>
      cases atom with
      | bracket character =>
        -- A bracket is followed by no spaced operator, so the rest opens well.
        have fresh : ∀ word, rest.head? = some (.word word) → operatorOf word = none := by
          intro word head
          obtain ⟨more, rfl⟩ := List.head?_eq_some_iff.mp head
          simpa [spacedAtoms] using (Bool.and_eq_true_iff.mp spaced).1
        obtain ⟨whole, each⟩ := ih rest.length (by simp) proper.2 spaced
          (List.isChain_cons_cons.mp chain).2 (.inl rfl) fresh (by simp) rfl
        rw [pieceWords]
        refine ⟨?_, ?_⟩
        · rw [List.flatten_cons, whole]
          rfl
        · intro words listed
          rcases List.mem_cons.mp listed with rfl | later
          · exact short
          · exact each words later
      | word word =>
        obtain ⟨-, apart, proper⟩ := proper
        have plain := opening word rfl
        -- The word is a licence, and joins the tokens as one.
        have tokens : (TextAtom.word word :: rest).filterMap TextAtom.token? =
            .id (String.ofList word) :: rest.filterMap TextAtom.token? := by
          rw [← token_of_id plain]
          rfl
        rw [tokens] at chain
        obtain ⟨follows, chain⟩ := List.isChain_cons_cons.mp chain
        -- A second licence in one piece would follow the first directly.
        obtain rfl | ⟨other, name, rfl, rfl⟩ := state
        · obtain ⟨whole, each⟩ := ih rest.length (by simp) proper (Bool.and_eq_true_iff.mp spaced).2 chain
            (.inr ⟨word, _, rfl, rfl⟩) (fun other head => absurd head (apart other)) (by simp) rfl
          rw [pieceWords, List.nil_append]
          refine ⟨?_, each⟩
          rw [whole]
          simp [idWords, plain]
        · exact absurd follows id
      | gap count =>
        obtain ⟨apart, proper⟩ := proper
        have own : idWords (.gap count :: rest) = idWords rest := rfl
        cases found : operatorAhead rest with
        | none =>
          -- Without an operator ahead the piece goes on, with what it holds.
          have fresh : ∀ word, rest.head? = some (.word word) → operatorOf word = none := by
            intro word head
            obtain ⟨more, rfl⟩ := List.head?_eq_some_iff.mp head
            by_contra known
            have gapped : splitOperators.contains word = true ∧ startsWithGap more = true := by
              have either := (Bool.and_eq_true_iff.mp spaced).1
              simpa [known] using either
            cases more with
            | nil => cases gapped.2
            | cons next others =>
              cases next with
              | gap wide => simp [operatorAhead, List.contains_iff_mem.mp gapped.1] at found
              | _ => cases gapped.2
          rw [pieceWords_gap_none found, own]
          exact ih rest.length (by simp) proper spaced chain state fresh short rfl
        | some after =>
          obtain ⟨word, wide, rfl, known⟩ := operatorAhead_some found
          obtain ⟨-, -, -, proper⟩ := proper
          -- The operator is a token of its own, and what follows it is none.
          obtain ⟨op, token⟩ := token_of_operator (operatorOf_split known)
          have tokens : (TextAtom.gap count :: .word word :: .gap wide :: after).filterMap TextAtom.token? =
              .operator op :: after.filterMap TextAtom.token? := by
            rw [← token]
            rfl
          rw [tokens] at chain
          have later := (List.isChain_cons_cons.mp chain).2
          have fresh : ∀ word, after.head? = some (.word word) → operatorOf word = none := by
            intro other head
            obtain ⟨more, rfl⟩ := List.head?_eq_some_iff.mp head
            by_contra second
            obtain ⟨op', token'⟩ := token_of_operator second
            have follows := (List.isChain_cons_cons.mp later).1
            rw [token'] at follows
            exact follows
          obtain ⟨whole, each⟩ := ih after.length (by simp; omega) proper
            (Bool.and_eq_true_iff.mp spaced).2 later (.inl rfl) fresh (by simp) rfl
          rw [pieceWords_gap_some found]
          refine ⟨?_, ?_⟩
          · -- The licences of the pieces in order, with none of the operators.
            rw [List.flatten_cons, whole]
            simp [idWords, Option.isNone_iff_eq_none, operatorOf_split known]
          · intro words listed
            rcases List.mem_cons.mp listed with rfl | more
            · exact short
            · exact each words more

/-- A word of the piece being read stays in a piece. -/
theorem mem_pieceWords {atoms : List TextAtom} {piece : List (List Char)} {word : List Char}
    (taken : word ∈ piece) : ∃ words ∈ pieceWords atoms piece, word ∈ words := by
  -- On the number of atoms, since an operator ahead takes several of them at once.
  induction size : atoms.length using Nat.strong_induction_on generalizing atoms piece with
  | _ size ih =>
    subst size
    cases atoms with
    | nil => exact ⟨piece, by rw [pieceWords]; exact List.mem_singleton_self _, taken⟩
    | cons atom rest =>
      cases atom with
      | bracket character => exact ⟨piece, by rw [pieceWords]; exact List.mem_cons_self, taken⟩
      | word other =>
        rw [pieceWords]
        exact ih rest.length (by simp) (List.mem_append_left _ taken) rfl
      | gap count =>
        -- A gap before a plain word goes on; one before an operator ends the piece here.
        cases found : operatorAhead rest with
        | none =>
          rw [pieceWords_gap_none found]
          exact ih rest.length (by simp) taken rfl
        | some after => exact ⟨piece, by rw [pieceWords_gap_some found]; exact List.mem_cons_self, taken⟩

/-- An operator that is not spaced stays in a piece. -/
theorem pieceWords_unspaced {atoms : List TextAtom} {before : Bool}
    (unspaced : spacedAtoms atoms before = false) (piece : List (List Char)) :
    ∃ words ∈ pieceWords atoms piece, ∃ word ∈ words, operatorOf word ≠ none := by
  -- On the number of atoms; the flag says whether a gap stood right before.
  induction size : atoms.length using Nat.strong_induction_on generalizing atoms before piece with
  | _ size ih =>
    subst size
    cases atoms with
    | nil => cases unspaced
    | cons atom rest =>
      cases atom with
      | bracket character =>
        have later : spacedAtoms rest false = false := unspaced
        obtain ⟨words, listed, bad⟩ := ih rest.length (by simp) later [] rfl
        exact ⟨words, by rw [pieceWords]; exact List.mem_cons_of_mem _ listed, bad⟩
      | word word =>
        rw [pieceWords]
        -- A plain word goes on the piece; an operator that is not spaced stays in it.
        by_cases plain : operatorOf word = none
        · have later : spacedAtoms rest false = false := by simpa [spacedAtoms, plain] using unspaced
          exact ih rest.length (by simp) later _ rfl
        · obtain ⟨words, listed, inside⟩ := @mem_pieceWords rest (piece ++ [word]) word (by simp)
          exact ⟨words, listed, word, inside, plain⟩
      | gap count =>
        cases found : operatorAhead rest with
        | none =>
          have later : spacedAtoms rest true = false := unspaced
          rw [pieceWords_gap_none found]
          exact ih rest.length (by simp) later _ rfl
        -- A spaced operator ends the piece, and the unspaced one comes later.
        | some after =>
          obtain ⟨word, wide, rfl, known⟩ := operatorAhead_some found
          have later : spacedAtoms after true = false := by
            simpa [spacedAtoms, startsWithGap, known] using unspaced
          obtain ⟨words, listed, bad⟩ := ih after.length (by simp; omega) later [] rfl
          exact ⟨words, by rw [pieceWords_gap_some found]; exact List.mem_cons_of_mem _ listed, bad⟩

/-- Words of atoms are words. -/
theorem isWord_of_idWords {atoms : List TextAtom} (proper : Proper atoms) {word : List Char}
    (listed : word ∈ idWords atoms) : IsWord word ∧ operatorOf word = none := by
  -- Along the atoms; gaps and brackets are not words.
  induction atoms with
  | nil => cases listed
  | cons atom rest ih =>
    cases atom with
    | gap count => exact ih proper.2 listed
    | bracket character => exact ih proper.2 listed
    | word other =>
      obtain ⟨own, -, proper⟩ := proper
      -- An operator is left out, every other word is listed.
      by_cases plain : operatorOf other = none
      · have here : idWords (.word other :: rest) = other :: idWords rest := by simp [idWords, plain]
        rw [here] at listed
        rcases List.mem_cons.mp listed with rfl | later
        · exact ⟨own, plain⟩
        · exact ih proper later
      · have here : idWords (.word other :: rest) = idWords rest := by
          simp [idWords, Option.isNone_iff_eq_none, plain]
        rw [here] at listed
        exact ih proper listed

/-- The licences that the lexer reads are the words that are no operators. -/
theorem names_render {atoms : List TextAtom} (proper : Proper atoms) :
    (lexFrom (render atoms) []).filterMap SpdxToken.name? = (idWords atoms).map String.ofList := by
  rw [lexFrom_render proper (.inl rfl)]
  simp only [flushed, List.isEmpty_nil, if_true, List.nil_append, List.filterMap_filterMap, idWords,
    List.map_filterMap]
  refine List.filterMap_congr fun atom _ => ?_
  -- Atom by atom: only a word has a name, and only if it is no operator.
  cases atom with
  | gap count => rfl
  | bracket character =>
    simp only [TextAtom.token?, Option.bind_some]
    split_ifs <;> rfl
  | word word =>
    simp only [TextAtom.token?, Option.bind_some, wordToken]
    cases found : operatorOf word <;> rfl

/-- The operands that the splitter finds. -/
theorem mem_spdxIds {expression name : String} (nonempty : expression ≠ "") :
    name ∈ spdxIdsForExpression expression ↔
      name ≠ "" ∧ ∃ piece ∈ splitCompoundFrom expression.length expression.toList [],
        strip (String.ofList piece) = name := by
  rw [spdxIdsForExpression, if_neg nonempty]
  -- The pieces, stripped, and without the empty ones.
  have cut : name ∈ (splitCompound expression).filter (· != "") ↔
      name ≠ "" ∧ ∃ piece ∈ splitCompoundFrom expression.length expression.toList [],
        strip (String.ofList piece) = name := by
    rw [List.mem_filter, splitCompound, List.mem_map, and_comm, bne_iff_ne]
  rw [← cut]
  -- The dedupe keeps every name once.
  constructor
  · exact mem_of_mem_distinctOn _
  · intro listed
    obtain ⟨found, selected, same⟩ := exists_mem_distinctOn id listed
    rw [id, id] at same
    exact same ▸ selected

/-- In an expression that is read, with plain spaces, the splitter finds the licences that the parser
resolves exactly when every operator is in capitals between spaces. -/
theorem spdxIds_exact {expression : String} {tree : SpdxExpr}
    (read : parseExpression (some expression) = .ok tree) (plain : PlainSpaces expression.toList) :
    (∀ name, name ∈ spdxIdsForExpression expression ↔ name ∈ tree.ids) ↔
      operatorsSpaced expression = true := by
  obtain ⟨some_text, -, -, -, depth, -, derived⟩ := parseExpression_ok.mp read
  -- A text that is read is not empty, and is written by proper atoms.
  have nonempty : expression ≠ "" := by
    rintro rfl
    exact some_text rfl
  obtain ⟨atoms, proper, written⟩ := exists_atoms expression.toList
  have ids : tree.ids = (idWords atoms).map String.ofList := by
    rw [derived.ids, tokensOf, ← written, names_render proper]
  rw [← written] at plain
  -- The pieces of the text are those of the atoms, and have no blanks but plain ones.
  have pieces : (splitCompoundFrom expression.length expression.toList []).map wordsOf =
      pieceWords atoms [] := by
    rw [← written]
    exact wordsOf_splitCompoundFrom proper plain (by rw [written]; exact le_rfl) (.inl (by simp))
  have plain_piece : ∀ piece ∈ splitCompoundFrom expression.length expression.toList [],
      PlainSpaces piece := by
    intro piece cut character within
    obtain inside | absent := mem_splitCompoundFrom cut character within
    · rw [← written] at inside
      exact plain character inside
    · cases absent
  have spacing : operatorsSpaced expression = spacedAtoms atoms false := by
    rw [operatorsSpaced, ← written, operatorsSpacedFrom_render proper]
  rw [spacing, ids]
  constructor
  · -- If the ids are exact, every operator is spaced: otherwise a piece keeps one.
    intro same
    by_contra unspaced
    obtain ⟨words, listed, word, inside, known⟩ := pieceWords_unspaced (by simpa using unspaced) []
    rw [← pieces, List.mem_map] at listed
    obtain ⟨piece, cut, rfl⟩ := listed
    -- The piece is no licence: it is an operator, or has more than one word.
    have stripped := (plain_piece piece cut).wordsOf_strip
    have some_word : strip (String.ofList piece) ≠ "" := by
      intro blank
      rw [blank] at stripped
      rw [← stripped] at inside
      cases inside
    have named := (same _).mp ((mem_spdxIds nonempty).mpr ⟨some_word, piece, cut, rfl⟩)
    obtain ⟨license, among, text⟩ := List.mem_map.mp named
    obtain ⟨⟨letters, each⟩, no_operator⟩ := isWord_of_idWords proper among
    rw [← text, String.toList_ofList, wordsOf_word letters fun space => (each ' ' space).1 rfl] at stripped
    rw [← stripped, List.mem_singleton] at inside
    exact known (inside ▸ no_operator)
  · -- If they are spaced, each piece is one licence or empty.
    intro spaced name
    have chain : (.lparen :: atoms.filterMap TextAtom.token?).IsChain SpdxToken.mayFollow := by
      have tokens : tokensOf expression = atoms.filterMap TextAtom.token? := by
        rw [tokensOf, ← written, lexFrom_render proper (.inl rfl)]
        rfl
      rw [← tokens]
      exact List.isChain_cons.mpr ⟨fun next _ => trivial, derived.alternates.2.1⟩
    have opening : ∀ word, atoms.head? = some (.word word) → operatorOf word = none := by
      intro word head
      obtain ⟨more, rfl⟩ := List.head?_eq_some_iff.mp head
      simpa [spacedAtoms] using (Bool.and_eq_true_iff.mp spaced).1
    obtain ⟨whole, short⟩ := pieceWords_spaced proper spaced chain (.inl rfl) opening
    rw [List.nil_append, ← pieces] at whole
    rw [← pieces] at short
    have single : ∀ piece ∈ splitCompoundFrom expression.length expression.toList [],
        ∀ word ∈ wordsOf piece, wordsOf piece = [word] := by
      intro piece cut word inside
      have one := short _ (List.mem_map_of_mem cut)
      obtain ⟨only, same⟩ := List.length_eq_one_iff.mp
        (le_antisymm one (List.length_pos_of_mem inside))
      rw [same, List.mem_singleton] at inside
      rw [same, inside]
    rw [mem_spdxIds nonempty, ← whole, List.mem_map]
    constructor
    · -- An id that is listed is the one word of its piece.
      rintro ⟨named, piece, cut, rfl⟩
      obtain ⟨word, inside⟩ : ∃ word, word ∈ wordsOf piece := by
        refine List.exists_mem_of_ne_nil _ fun none_left => ?_
        exact named ((plain_piece piece cut).strip_eq_nil none_left)
      refine ⟨word, List.mem_flatten.mpr ⟨_, List.mem_map_of_mem cut, inside⟩, ?_⟩
      exact ((plain_piece piece cut).strip_eq_word (single piece cut word inside)).symm
    · -- A licence of the tree is a word of a piece, which it fills.
      rintro ⟨word, listed, rfl⟩
      obtain ⟨words, among, inside⟩ := List.mem_flatten.mp listed
      obtain ⟨piece, cut, rfl⟩ := List.mem_map.mp among
      have letters : word ≠ [] := by simpa using (List.mem_filter.mp inside).2
      refine ⟨?_, piece, cut, (plain_piece piece cut).strip_eq_word (single piece cut word inside)⟩
      rw [Ne, ← String.toList_inj, String.toList_ofList]
      exact letters

end Pieces

end Trusca
