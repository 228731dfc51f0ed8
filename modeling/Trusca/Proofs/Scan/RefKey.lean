import Mathlib.Data.Char
import Mathlib.Data.List.DropRight
import Mathlib.Data.List.Infix
import Trusca.Scan.RefKey

/-! The key of a ref is canonical, unless the ref hides another one or counts its requests in other figures
than those of ASCII. -/

namespace Trusca

section Forms

/-- The form of a key. -/
structure KeyForm (text : List Char) : Prop where
  short : text.length ≤ maxRefLength
  characters : ∀ character ∈ text, isRefCharacter character
  plain : ¬ "..".toList <:+: text
  front : text.head? ≠ some '/'
  back : text.getLast? ≠ some '/'

variable (table : DigitTable)

/-- A key that has its form and is its own key. -/
def CanonicalKey (key : String) : Prop := KeyForm key.toList ∧ normalizeRef table (some key) = some key

/-- The start of a ref of some kind. -/
def IsRefStart (start : List Char) : Prop :=
  start = refHeads.toList ∨ start = refTags.toList ∨
    ∃ digits, digits ≠ [] ∧ (∀ digit ∈ digits, table.isDecimal digit) ∧
      (start = refPull.toList ++ digits ++ ['/'] ∨ start = refMerge.toList ++ digits ++ ['/'])

/-- Whether a text is a ref by its start, with more than slashes behind it. -/
def StartsAsRef (text : List Char) : Prop :=
  ∃ start more, text = start ++ more ∧ IsRefStart table start ∧ ∃ character ∈ more, character ≠ '/'

/-- A ref whose request is counted in figures, and which hides no other ref behind its start or slashes. -/
structure SpelledOnce (text : List Char) : Prop where
  figures : ∀ start, start = refPull ∨ start = refMerge → ∀ digits rest,
    text = start.toList ++ digits ++ '/' :: rest → (∀ digit ∈ digits, table.isDecimal digit) →
      ∀ digit ∈ digits, digit.isDigit
  single : ∀ start slashes rest, text = start ++ slashes ++ rest →
    start = [] ∨ start = refHeads.toList ∨ start = refTags.toList →
      (∀ slash ∈ slashes, slash = '/') → start ++ slashes ≠ [] → ¬ StartsAsRef table rest

end Forms

section Characters

/-- Letters and figures are ASCII characters. -/
theorem toNat_of_isAlphanum {character : Char} (listed : character.isAlphanum) : character.toNat < 128 := by
  have code := code_of_isAlphanum listed
  omega

/-- A character of a reference is ASCII. -/
theorem toNat_of_isRefCharacter {character : Char} (listed : isRefCharacter character) :
    character.toNat < 128 := by
  simp only [isRefCharacter, Bool.or_eq_true, beq_iff_eq] at listed
  obtain ((((alphanum | rfl) | rfl) | rfl) | rfl) | rfl := listed
  · exact toNat_of_isAlphanum alphanum
  all_goals decide

/-- The characters of keys are no spaces and no control characters. -/
theorem plain_of_isRefCharacter {character : Char} (listed : isRefCharacter character) :
    ¬ isSpace character ∧ hasControlByte [character] = false ∧ character ≠ '\n' := by
  have every : ∀ number < 128, isRefCharacter (Char.ofNat number) →
      ¬ isSpace (Char.ofNat number) ∧ hasControlByte [Char.ofNat number] = false ∧
        Char.ofNat number ≠ '\n' := by decide
  have own := every character.toNat (toNat_of_isRefCharacter listed)
  rw [Char.ofNat_toNat] at own
  exact own listed

/-- A text of reference characters has no control byte. -/
theorem hasControlByte_of_refCharacters {text : List Char}
    (listed : ∀ character ∈ text, isRefCharacter character) : hasControlByte text = false := by
  unfold hasControlByte
  rw [List.any_eq_false]
  intro character member
  have plain := (plain_of_isRefCharacter (listed character member)).2.1
  simpa [hasControlByte] using plain

/-- A text is allowed when all its characters are, as long as it does not end in a line break. -/
theorem refAllowed_iff {text : List Char} (inline : text.getLast? ≠ some '\n') :
    refAllowed text ↔ text ≠ [] ∧ ∀ character ∈ text, isRefCharacter character := by
  simp [refAllowed, inline]

/-- A text of key characters without space at its ends is left as it is. -/
theorem strip_refCharacters {text : List Char} (listed : ∀ character ∈ text, isRefCharacter character) :
    strip (String.ofList text) = String.ofList text := by
  refine strip_eq_self ?_ ?_
  · intro character head
    rw [String.toList_ofList] at head
    exact (plain_of_isRefCharacter (listed character (List.mem_of_mem_head? head))).1
  · intro character last
    rw [String.toList_ofList] at last
    exact (plain_of_isRefCharacter (listed character (List.mem_of_mem_getLast? last))).1

end Characters

section Starts

variable {table : DigitTable} {start : String} {text rest digits : List Char}

/-- A start is dropped off a text that begins with it. -/
theorem dropStart_eq_some : dropStart start text = some rest ↔ text = start.toList ++ rest := by
  unfold dropStart
  rw [← String.length_toList]
  constructor
  · -- Dropped is what is in front of the rest.
    intro found
    split_ifs at found with starts
    obtain ⟨tail, rfl⟩ := List.isPrefixOf_iff_prefix.mp starts
    rw [List.drop_left] at found
    rw [Option.some.inj found]
  · rintro rfl
    rw [if_pos (List.isPrefixOf_iff_prefix.mpr (List.prefix_append _ _)), List.drop_left]

/-- A slash is no digit. -/
theorem isDecimal_slash : table.isDecimal '/' = false := by
  unfold DigitTable.isDecimal
  rw [(table.ascii '/' (by decide)).2]
  rfl

/-- The digits of a request stand between its start and the next slash. -/
theorem numberBehind_eq_some :
    numberBehind table start text = some digits ↔
      digits ≠ [] ∧ (∀ digit ∈ digits, table.isDecimal digit) ∧
        ∃ rest, text = start.toList ++ digits ++ '/' :: rest := by
  -- The digits are the longest run behind the start, and a slash has to follow.
  constructor
  · intro found
    unfold numberBehind at found
    cases behind : dropStart start text with
    | none => simp [behind] at found
    | some tail =>
      simp only [behind] at found
      split_ifs at found with stands
      simp only [Bool.and_eq_true, Bool.not_eq_true', beq_iff_eq, List.isEmpty_eq_false_iff] at stands
      obtain ⟨some_digit, slash⟩ := stands
      obtain rfl := Option.some.inj found
      refine ⟨some_digit, fun digit => List.mem_takeWhile_imp, (tail.dropWhile table.isDecimal).tail, ?_⟩
      rw [dropStart_eq_some.mp behind, List.append_assoc, ← List.eq_cons_of_mem_head? slash,
        List.takeWhile_append_dropWhile]
  · -- Read back, the run ends at that slash.
    rintro ⟨some_digit, decimal, rest, rfl⟩
    have behind : dropStart start (start.toList ++ digits ++ '/' :: rest) = some (digits ++ '/' :: rest) :=
      dropStart_eq_some.mpr (List.append_assoc _ _ _)
    have taken : (digits ++ '/' :: rest).takeWhile table.isDecimal = digits := by
      rw [List.takeWhile_append_of_pos decimal, List.takeWhile_cons_of_neg (by simp [isDecimal_slash]),
        List.append_nil]
    have dropped : (digits ++ '/' :: rest).dropWhile table.isDecimal = '/' :: rest := by
      rw [List.dropWhile_append_of_pos decimal, List.dropWhile_cons_of_neg (by simp [isDecimal_slash])]
    unfold numberBehind
    rw [behind]
    simp only [taken, dropped]
    exact if_pos (by simpa using some_digit)

/-- Nothing but slashes is taken off the ends of a text. -/
theorem stripSlashes_split (text : List Char) :
    ∃ front back, text = front ++ stripSlashes text ++ back ∧ (∀ slash ∈ front, slash = '/') ∧
      ∀ slash ∈ back, slash = '/' := by
  refine ⟨text.takeWhile (· == '/'), (text.dropWhile (· == '/')).rtakeWhile (· == '/'), ?_, ?_, ?_⟩
  · rw [List.append_assoc, stripSlashes, List.rdropWhile_append_rtakeWhile, List.takeWhile_append_dropWhile]
  · intro slash member
    simpa using List.mem_takeWhile_imp member
  · intro slash member
    simpa using List.mem_rtakeWhile_imp member

/-- A stripped text does not begin with a slash. -/
theorem stripSlashes_head (text : List Char) : (stripSlashes text).head? ≠ some '/' := by
  intro slash
  -- The first character is that of the text without its slashes in front.
  have before := List.eq_cons_of_mem_head? slash
  obtain ⟨tail, split⟩ := List.rdropWhile_prefix (· == '/') (text.dropWhile (· == '/'))
  have same : (text.dropWhile (· == '/')).head? = some '/' := by
    rw [← split, List.head?_append, show (text.dropWhile (· == '/')).rdropWhile (· == '/') =
      '/' :: (stripSlashes text).tail from before]
    rfl
  have other := List.head?_dropWhile_not (· == '/') text
  rw [same] at other
  cases other

/-- A stripped text does not end in a slash. -/
theorem stripSlashes_last (text : List Char) : (stripSlashes text).getLast? ≠ some '/' := by
  intro slash
  have nonempty : stripSlashes text ≠ [] := by rintro empty; simp [empty] at slash
  refine List.rdropWhile_last_not (· == '/') (text.dropWhile (· == '/')) nonempty ?_
  rw [List.getLast?_eq_some_getLast nonempty, Option.some.injEq] at slash
  exact beq_iff_eq.mpr slash

/-- Slashes behind a text that ends otherwise are dropped. -/
theorem rdropWhile_slashes {body back : List Char} (behind : ∀ slash ∈ back, slash = '/')
    (last : body.getLast? ≠ some '/') : (body ++ back).rdropWhile (· == '/') = body := by
  -- Slash by slash from the end; in front of them stands the body.
  induction back using List.reverseRecOn with
  | nil =>
    rw [List.append_nil, List.rdropWhile_eq_self_iff]
    intro nonempty slash
    exact last (by rw [List.getLast?_eq_some_getLast nonempty, beq_iff_eq.mp slash])
  | append_singleton back slash ih =>
    rw [← List.append_assoc, List.rdropWhile_concat_pos]
    · exact ih fun other member => behind other (List.mem_append_left _ member)
    · exact beq_iff_eq.mpr (behind slash (List.mem_append_right _ List.mem_cons_self))

/-- Slashes around a text that neither begins nor ends in one are stripped. -/
theorem stripSlashes_slashes {front body back : List Char} (before : ∀ slash ∈ front, slash = '/')
    (behind : ∀ slash ∈ back, slash = '/') (head : body.head? ≠ some '/') (last : body.getLast? ≠ some '/') :
    stripSlashes (front ++ body ++ back) = body := by
  -- An empty body leaves slashes only.
  cases body with
  | nil =>
    have all : ∀ slash ∈ front ++ [] ++ back, (slash == '/') = true := by
      simpa [or_imp, forall_and] using ⟨before, behind⟩
    rw [stripSlashes, List.dropWhile_eq_nil_iff.mpr all, List.rdropWhile_nil]
  -- The body starts and ends with something else, so the strips stop there.
  | cons first rest =>
    have plain : ¬ (first == '/') = true := fun slash => head (congrArg some (beq_iff_eq.mp slash))
    rw [stripSlashes, List.append_assoc, List.dropWhile_append_of_pos fun slash member =>
        beq_iff_eq.mpr (before slash member), List.cons_append,
      @List.dropWhile_cons_of_neg _ (· == '/') first (rest ++ back) plain, ← List.cons_append]
    exact rdropWhile_slashes behind last

/-- A text that neither begins nor ends in a slash is left as it is. -/
theorem stripSlashes_self (front : text.head? ≠ some '/') (back : text.getLast? ≠ some '/') :
    stripSlashes text = text := by
  simpa using @stripSlashes_slashes [] text [] (by simp) (by simp) front back

end Starts

section Keys

variable {table : DigitTable} {text key rest : List Char}

/-- A ref start does not begin with a slash. -/
theorem IsRefStart.head {start : List Char} (starts : IsRefStart table start) : start.head? = some 'r' := by
  obtain rfl | rfl | ⟨digits, -, -, rfl | rfl⟩ := starts
  · rfl
  · rfl
  all_goals rw [List.append_assoc]; rfl

/-- A text that starts as a reference does so whatever follows. -/
theorem StartsAsRef.append (starts : StartsAsRef table text) (back : List Char) :
    StartsAsRef table (text ++ back) := by
  obtain ⟨start, more, rfl, named, character, member, other⟩ := starts
  exact ⟨start, more ++ back, List.append_assoc _ _ _, named, character, List.mem_append_left _ member, other⟩

/-- Slashes at its end are not what makes a text a ref. -/
theorem StartsAsRef.of_append {back : List Char} (slashes : ∀ slash ∈ back, slash = '/')
    (last : text.getLast? ≠ some '/') (starts : StartsAsRef table (text ++ back)) : StartsAsRef table text := by
  obtain ⟨start, more, split, named, character, member, other⟩ := starts
  obtain ⟨middle, rfl, rfl⟩ | ⟨middle, rfl, rfl⟩ := List.append_eq_append_iff.mp split
  · -- Behind the start would be nothing but slashes.
    exact absurd (slashes character (List.mem_append_right _ member)) other
  · refine ⟨start, middle, rfl, named, character, ?_, other⟩
    obtain within | behind := List.mem_append.mp member
    · exact within
    · exact absurd (slashes character behind) other

/-- What is left of a ref whose start and slashes are taken off. -/
theorem dropRefStart_split (text : List Char) :
    ∃ start, (start = [] ∨ start = refHeads.toList ∨ start = refTags.toList) ∧ text = start ++ dropRefStart text ∧
      (start = [] → dropStart refHeads text = none ∧ dropStart refTags text = none) := by
  unfold dropRefStart
  -- The start of a head, of a tag, or neither of them.
  cases heads : dropStart refHeads text with
  | some rest =>
    refine ⟨refHeads.toList, .inr (.inl rfl), dropStart_eq_some.mp heads, fun empty => ?_⟩
    exact absurd empty (by decide)
  | none =>
    cases tags : dropStart refTags text with
    | some rest =>
      refine ⟨refTags.toList, .inr (.inr rfl), dropStart_eq_some.mp tags, fun empty => ?_⟩
      exact absurd empty (by decide)
    | none => exact ⟨[], .inl rfl, rfl, fun _ => ⟨rfl, rfl⟩⟩

/-- The key of a branch is its stripped name, when that is an allowed one. -/
theorem branchKey_eq_some :
    branchKey text = some key ↔ key = stripSlashes (dropRefStart text) ∧ key ≠ [] ∧ ¬ "..".toList <:+: key ∧
      refAllowed key := by
  simp only [branchKey]
  constructor
  · -- Each of the three refusals, read the other way round.
    intro found
    split_ifs at found with empty refused
    obtain rfl := Option.some.inj found
    rw [not_or, not_not] at refused
    exact ⟨rfl, by simpa using empty, refused⟩
  · rintro ⟨rfl, nonempty, plain, allowed⟩
    rw [if_neg (by simpa using nonempty), if_neg (by rw [not_or, not_not]; exact ⟨plain, allowed⟩)]

/-- A text that begins with the start of a ref loses it. -/
theorem StartsAsRef.shorter (starts : StartsAsRef table text) (found : refKey table text = some key) :
    key.length < text.length := by
  -- By the three forms of a key: of a pull request, of a merge request, of a branch.
  obtain ⟨start, more, split, named, -⟩ := starts
  unfold refKey at found
  split_ifs at found
  split at found
  · -- The start is longer than the mark the key puts in its place.
    next number taken =>
    obtain ⟨-, -, rest, rfl⟩ := numberBehind_eq_some.mp taken
    rw [← Option.some.inj found]
    have lengths : refPull.toList.length = 10 ∧ "pr-".toList.length = 3 := by decide
    simp only [List.length_append, List.length_cons, lengths]
    omega
  · next notPull =>
    split at found
    · next number taken =>
      obtain ⟨-, -, rest, rfl⟩ := numberBehind_eq_some.mp taken
      rw [← Option.some.inj found]
      have lengths : refMerge.toList.length = 20 ∧ "mr-".toList.length = 3 := by decide
      simp only [List.length_append, List.length_cons, lengths]
      omega
    · next notMerge =>
      -- A branch key loses its start and the slashes around it.
      have body : key = stripSlashes (dropRefStart text) := (branchKey_eq_some.mp found).1
      have smaller : (stripSlashes (dropRefStart text)).length ≤ (dropRefStart text).length := by
        obtain ⟨front, back, parts, -⟩ := stripSlashes_split (dropRefStart text)
        conv_rhs => rw [parts]
        simp only [List.length_append]
        omega
      have taken : (dropRefStart text).length < text.length := by
        obtain ⟨own, kind, parts, bare⟩ := dropRefStart_split text
        -- Something is taken away, since a text that starts as a ref has one of the four starts.
        have nonempty : own ≠ [] := by
          intro empty
          obtain ⟨noHeads, noTags⟩ := bare empty
          obtain rfl | rfl | ⟨digits, some_digit, decimal, rfl | rfl⟩ := named
          · exact absurd (dropStart_eq_some.mpr split) (by simp [noHeads])
          · exact absurd (dropStart_eq_some.mpr split) (by simp [noTags])
          · exact absurd (numberBehind_eq_some.mpr ⟨some_digit, decimal, more, by simpa using split⟩)
              (by simp [notPull])
          · exact absurd (numberBehind_eq_some.mpr ⟨some_digit, decimal, more, by simpa using split⟩)
              (by simp [notMerge])
        have positive := List.length_pos_iff.mpr nonempty
        conv_rhs => rw [parts]
        rw [List.length_append]
        omega
      rw [body]
      omega

/-- A text in the form of a key that does not start as a ref is its own key. -/
theorem KeyForm.fixed (form : KeyForm text) (nonempty : text ≠ []) (plain : ¬ StartsAsRef table text) :
    refKey table text = some text := by
  -- Whatever follows a start would end in no slash.
  have other {start rest : List Char} (named : IsRefStart table start) : text ≠ start ++ rest := by
    rintro rfl
    refine plain ⟨start, rest, rfl, named, ?_⟩
    cases last : rest.getLast? with
    | none =>
      rw [List.getLast?_eq_none_iff.mp last, List.append_nil] at form
      obtain rfl | rfl | ⟨digits, -, -, rfl | rfl⟩ := named
      · exact absurd rfl form.back
      · exact absurd rfl form.back
      all_goals exact absurd List.getLast?_concat form.back
    | some character =>
      refine ⟨character, List.mem_of_getLast? last, fun slash => form.back ?_⟩
      rw [List.getLast?_append, last, slash]
      rfl
  -- No number stands behind a start either.
  have number {start : String} (kind : start = refPull ∨ start = refMerge) :
      numberBehind table start text = none := by
    rw [Option.eq_none_iff_forall_ne_some]
    intro digits taken
    obtain ⟨some_digit, decimal, rest, split⟩ := numberBehind_eq_some.mp taken
    have named : IsRefStart table (start.toList ++ digits ++ ['/']) := by
      refine .inr (.inr ⟨digits, some_digit, decimal, ?_⟩)
      obtain rfl | rfl := kind
      · exact .inl rfl
      · exact .inr rfl
    exact other named (by simpa using split)
  have start {name : String} (named : IsRefStart table name.toList) : dropStart name text = none := by
    rw [Option.eq_none_iff_forall_ne_some]
    exact fun rest taken => other named (dropStart_eq_some.mp taken)
  -- The last character is no line feed, so the expression matches the whole.
  have inline : text.getLast? ≠ some '\n' := fun last =>
    (plain_of_isRefCharacter (form.characters _ (List.mem_of_getLast? last))).2.2 rfl
  have whole : dropRefStart text = text := by
    rw [dropRefStart, start (.inl rfl), start (.inr (.inl rfl))]
    rfl
  have allowed : refAllowed text := (refAllowed_iff inline).mpr ⟨nonempty, form.characters⟩
  -- The branch key is the text, as no start and no slash is taken off.
  have own : branchKey text = some text := by
    rw [branchKey_eq_some, whole, stripSlashes_self form.front form.back]
    exact ⟨rfl, nonempty, form.plain, allowed⟩
  unfold refKey
  rw [number (.inl rfl), number (.inr rfl), own, hasControlByte_of_refCharacters form.characters]
  simp [nonempty, Nat.not_lt.mpr form.short]

end Keys

section Canonical

variable {table : DigitTable} {text key digits : List Char}

/-- A text in the form of a key is its own key exactly when it does not start as a ref. -/
theorem KeyForm.canonical_iff (form : KeyForm text) (nonempty : text ≠ []) :
    normalizeRef table (some (String.ofList text)) = some (String.ofList text) ↔ ¬ StartsAsRef table text := by
  unfold normalizeRef
  simp only [strip_refCharacters form.characters, String.toList_ofList]
  constructor
  · -- A ref would have given a shorter key.
    intro same starts
    obtain ⟨key, found, written⟩ := Option.map_eq_some_iff.mp same
    rw [String.ofList_inj] at written
    have shorter := starts.shorter found
    rw [written] at shorter
    omega
  · -- Anything else of this form stays as it is.
    intro plain
    rw [form.fixed nonempty plain]
    rfl

/-- One start is taken off a text, and none when the text begins with a slash. -/
theorem dropRefStart_eq {start slashes rest : List Char} (split : text = start ++ slashes ++ rest)
    (kind : start = [] ∨ start = refHeads.toList ∨ start = refTags.toList)
    (all : ∀ slash ∈ slashes, slash = '/') (taken : start ++ slashes ≠ []) :
    dropRefStart text = slashes ++ rest := by
  -- A start that does not lead the text is not dropped.
  have none_of {name : String} (other : ∀ rest, text ≠ name.toList ++ rest) : dropStart name text = none := by
    rw [Option.eq_none_iff_forall_ne_some]
    exact fun rest found => other rest (dropStart_eq_some.mp found)
  subst split
  unfold dropRefStart
  rw [List.append_assoc] at none_of ⊢
  -- No start at all, or one of the two: what is left are the slashes and the rest.
  obtain rfl | rfl | rfl := kind
  · cases slashes with
    | nil => exact absurd rfl taken
    | cons slash slashes =>
      obtain rfl := all slash List.mem_cons_self
      rw [none_of (by simp [refHeads]), none_of (by simp [refTags])]
      rfl
  · rw [dropStart_eq_some.mpr rfl]
  · rw [none_of (by simp [refHeads, refTags]), dropStart_eq_some.mpr rfl]
    rfl

/-- What a branch key is taken from has no other ref behind its start and slashes. -/
theorem branchKey_single_iff (notPull : numberBehind table refPull text = none)
    (notMerge : numberBehind table refMerge text = none) (found : branchKey text = some key) :
    ¬ StartsAsRef table key ↔
      ∀ start slashes rest, text = start ++ slashes ++ rest →
        start = [] ∨ start = refHeads.toList ∨ start = refTags.toList →
          (∀ slash ∈ slashes, slash = '/') → start ++ slashes ≠ [] → ¬ StartsAsRef table rest := by
  -- The text is a start, slashes, the key, and slashes.
  obtain ⟨rfl, -⟩ := branchKey_eq_some.mp found
  obtain ⟨start, kind, parts, bare⟩ := dropRefStart_split text
  obtain ⟨front, back, pieces, before, behind⟩ := stripSlashes_split (dropRefStart text)
  have whole : text = start ++ front ++ (stripSlashes (dropRefStart text) ++ back) := by
    conv_lhs => rw [parts, pieces]
    simp only [List.append_assoc]
  constructor
  · intro plain other slashes rest split kind' all taken starts
    -- The rest is the key with the slashes at its end.
    obtain ⟨none_front, tail, pieces', front_slashes, tail_slashes⟩ := stripSlashes_split rest
    have empty : none_front = [] := by
      obtain ⟨own, more, rfl, named, -⟩ := starts
      cases none_front with
      | nil => rfl
      | cons slash _ =>
        have first := congrArg List.head? pieces'
        rw [List.head?_append, named.head, front_slashes slash List.mem_cons_self] at first
        cases first
    rw [empty, List.nil_append] at pieces'
    -- What is left of the rest is the key that the whole text gives.
    have own : stripSlashes (dropRefStart text) = stripSlashes rest := by
      rw [dropRefStart_eq split kind' all taken]
      conv_lhs => rw [pieces', ← List.append_assoc]
      exact stripSlashes_slashes all tail_slashes (stripSlashes_head rest) (stripSlashes_last rest)
    rw [own] at plain
    rw [pieces'] at starts
    exact plain (starts.of_append tail_slashes (stripSlashes_last rest))
  · intro single starts
    -- Nothing in front of the key: it would begin as a reference, and all four starts are excluded.
    by_cases untouched : start ++ front = []
    · obtain ⟨rfl, rfl⟩ := List.append_eq_nil_iff.mp untouched
      obtain ⟨noHeads, noTags⟩ := bare rfl
      obtain ⟨own, more, split, named, -⟩ := starts
      rw [List.nil_append, List.nil_append, split, List.append_assoc] at whole
      obtain rfl | rfl | ⟨digits, some_digit, decimal, rfl | rfl⟩ := named
      · exact absurd (dropStart_eq_some.mpr whole) (by simp [noHeads])
      · exact absurd (dropStart_eq_some.mpr whole) (by simp [noTags])
      · exact absurd (numberBehind_eq_some.mpr ⟨some_digit, decimal, more ++ back, by simpa using whole⟩)
          (by simp [notPull])
      · exact absurd (numberBehind_eq_some.mpr ⟨some_digit, decimal, more ++ back, by simpa using whole⟩)
          (by simp [notMerge])
    · -- Something in front: then the key stands alone in a rest of the text.
      exact single start front _ whole kind before untouched (starts.append back)

/-- An ASCII character that is decimal is a digit. -/
theorem isDigit_of_isDecimal {digit : Char} (decimal : table.isDecimal digit) (small : digit.toNat < 128) :
    digit.isDigit := by
  unfold DigitTable.isDecimal at decimal
  rw [(table.ascii digit small).2] at decimal
  by_contra other
  simp [other] at decimal

/-- The key of a request has the form of a key exactly when its digits are figures. -/
theorem requestKey_form_iff {lead : List Char} (kind : lead = "pr-".toList ∨ lead = "mr-".toList)
    (short : digits.length + 3 ≤ maxRefLength) (decimal : ∀ digit ∈ digits, table.isDecimal digit)
    (some_digit : digits ≠ []) :
    KeyForm (lead ++ digits) ↔ ∀ digit ∈ digits, digit.isDigit := by
  -- The digits of other scripts are decimal as well, and a key has to be ASCII.
  constructor
  · intro form digit member
    have listed := form.characters digit (List.mem_append_right _ member)
    exact isDigit_of_isDecimal (decimal digit member) (toNat_of_isRefCharacter listed)
  · -- Figures have neither point nor slash, so the rest of the form holds.
    intro figures
    have noDot : '.' ∉ digits := fun member => absurd (figures _ member) (by decide)
    have noSlash : '/' ∉ digits := fun member => absurd (figures _ member) (by decide)
    have leadPlain : '.' ∉ lead ∧ (∀ character ∈ lead, isRefCharacter character) ∧ lead.length = 3 ∧
        lead.head? ≠ some '/' ∧ lead ≠ [] := by
      obtain rfl | rfl := kind <;> decide
    obtain ⟨dotless, listed, three, head, nonempty⟩ := leadPlain
    refine ⟨by rw [List.length_append]; omega, ?_, ?_, ?_, ?_⟩
    · intro character member
      obtain before | digit := List.mem_append.mp member
      · exact listed character before
      · have alphanum : character.isAlphanum := by simp [Char.isAlphanum, figures character digit]
        simp [isRefCharacter, alphanum]
    · intro dots
      have member : '.' ∈ lead ++ digits := dots.subset (by decide)
      exact (List.mem_append.mp member).elim dotless noDot
    · rwa [List.head?_append_of_ne_nil _ nonempty]
    · rw [List.getLast?_append_of_ne_nil _ some_digit]
      exact fun last => noSlash (List.mem_of_getLast? last)

/-- The key of a request is canonical exactly when the request is spelled in figures. -/
theorem requestKey_canonical_iff {start : String} {lead : List Char}
    (kind : start = refPull ∧ lead = "pr-".toList ∨ start = refMerge ∧ lead = "mr-".toList)
    (short : text.length ≤ maxRefLength) (taken : numberBehind table start text = some digits) :
    CanonicalKey table (String.ofList (lead ++ digits)) ↔ SpelledOnce table text := by
  obtain ⟨some_digit, decimal, rest, split⟩ := numberBehind_eq_some.mp taken
  have lead_kind : lead = "pr-".toList ∨ lead = "mr-".toList := kind.imp And.right And.right
  -- The key is shorter than the text it comes from.
  have fits : digits.length + 3 ≤ maxRefLength := by
    have lengths : refPull.toList.length = 10 ∧ refMerge.toList.length = 20 := by decide
    rw [split] at short
    obtain ⟨rfl, -⟩ | ⟨rfl, -⟩ := kind <;>
      simp only [List.length_append, List.length_cons, lengths] at short <;> omega
  have form := requestKey_form_iff lead_kind fits decimal some_digit
  unfold CanonicalKey
  rw [String.toList_ofList]
  constructor
  · rintro ⟨own, -⟩
    have figures := form.mp own
    refine ⟨?_, ?_⟩
    · -- The digits of another reading are the same digits.
      intro start' named digits' rest' split' decimal' digit member
      have same : start' = start := by
        rw [split] at split'
        obtain ⟨rfl, -⟩ | ⟨rfl, -⟩ := kind <;> obtain rfl | rfl := named <;>
          first
          | rfl
          | simp [refPull, refMerge] at split'
      subst same
      have found := numberBehind_eq_some.mpr ⟨List.ne_nil_of_mem member, decimal', rest', split'⟩
      rw [taken] at found
      exact figures digit (Option.some.inj found ▸ member)
    · intro start' slashes rest' split' named all nonempty
      -- A request begins with no slash, and not as a branch or a tag.
      exfalso
      rw [split] at split'
      obtain rfl | rfl | rfl := named
      · cases slashes with
        | nil => exact nonempty rfl
        | cons slash slashes =>
          obtain rfl := all slash List.mem_cons_self
          obtain ⟨rfl, -⟩ | ⟨rfl, -⟩ := kind <;> simp [refPull, refMerge] at split'
      · obtain ⟨rfl, -⟩ | ⟨rfl, -⟩ := kind <;> simp [refPull, refMerge, refHeads] at split'
      · obtain ⟨rfl, -⟩ | ⟨rfl, -⟩ := kind <;> simp [refPull, refMerge, refTags] at split'
  · -- Conversely, a key that starts with its own lead starts as no reference.
    intro once
    have named : start = refPull ∨ start = refMerge := kind.imp And.left And.left
    have own := form.mpr (once.figures start named digits rest split decimal)
    have nonempty : lead ++ digits ≠ [] := fun empty => some_digit (List.append_eq_nil_iff.mp empty).2
    refine ⟨own, (own.canonical_iff nonempty).mpr ?_⟩
    rintro ⟨start', more, split', begins, -⟩
    have head := congrArg List.head? split'
    rw [List.head?_append, List.head?_append, begins.head] at head
    obtain rfl | rfl := lead_kind <;> cases head

/-- A key is canonical exactly when its ref is spelled once. -/
theorem normalizeRef_canonical_iff {raw result : String} (normalized : normalizeRef table (some raw) = some result) :
    CanonicalKey table result ↔ SpelledOnce table (strip raw).toList := by
  obtain ⟨key, found, rfl⟩ := Option.map_eq_some_iff.mp normalized
  -- The normalised text is one of the three keys, after the control characters are refused.
  generalize (strip raw).toList = text at found ⊢
  unfold refKey at found
  split_ifs at found with unfit control
  -- The text is within the length the source admits.
  have short : text.length ≤ maxRefLength := by
    simp only [Bool.or_eq_true, decide_eq_true_eq, not_or, Nat.not_lt] at unfit
    exact unfit.2
  split at found
  · -- A pull or merge request has its canonical form as soon as it is one.
    next number taken =>
    obtain rfl := Option.some.inj found
    exact requestKey_canonical_iff (.inl ⟨rfl, rfl⟩) short taken
  · next notPull =>
    split at found
    · next number taken =>
      obtain rfl := Option.some.inj found
      exact requestKey_canonical_iff (.inr ⟨rfl, rfl⟩) short taken
    · -- A branch key: the text around it is what the two strips took.
      next notMerge =>
      have single := branchKey_single_iff notPull notMerge found
      obtain ⟨body, nonempty, plain, allowed⟩ := branchKey_eq_some.mp found
      obtain ⟨start, -, parts, -⟩ := dropRefStart_split text
      obtain ⟨front, back, pieces, -⟩ := stripSlashes_split (dropRefStart text)
      have whole : text = start ++ front ++ key ++ back := by
        conv_lhs => rw [parts, pieces, ← body]
        simp only [List.append_assoc]
      -- The key's letters are letters of the text, so no line break ends it.
      have within : key ⊆ text := by
        rw [whole]
        intro character member
        simp [member]
      have inline : key.getLast? ≠ some '\n' := by
        intro last
        have newline := within (List.mem_of_getLast? last)
        exact control (List.any_eq_true.mpr ⟨'\n', newline, by decide⟩)
      have smaller : key.length ≤ text.length := by
        conv_rhs => rw [whole]
        simp only [List.length_append]
        omega
      -- The key itself is well formed.
      have form : KeyForm key := by
        refine ⟨by omega, ((refAllowed_iff inline).mp allowed).2, plain, ?_, ?_⟩
        · exact body ▸ stripSlashes_head _
        · exact body ▸ stripSlashes_last _
      unfold CanonicalKey
      rw [String.toList_ofList, form.canonical_iff nonempty, single]
      -- And it is canonical if and only if the text was spelled this one way.
      constructor
      · rintro ⟨-, alone⟩
        refine ⟨?_, alone⟩
        -- A text that reads as a request's would not be a branch.
        intro start' named digits' rest' split decimal digit member
        have number := numberBehind_eq_some.mpr ⟨List.ne_nil_of_mem member, decimal, rest', split⟩
        obtain rfl | rfl := named
        · simp [notPull] at number
        · simp [notMerge] at number
      · intro once
        exact ⟨form, once.single⟩

/-- The main branch keeps its name however it is spelled. -/
theorem normalizeRef_canonical_main :
    normalizeRef asciiDigits (some "refs/heads/main") = some "main" ∧
      SpelledOnce asciiDigits (strip "refs/heads/main").toList := by
  have key : normalizeRef asciiDigits (some "refs/heads/main") = some "main" := by decide +kernel
  refine ⟨key, (normalizeRef_canonical_iff key).mp ⟨⟨?_, ?_, ?_, ?_, ?_⟩, ?_⟩⟩ <;> decide +kernel

/-- The digits of ASCII, and one of another script. -/
def easternDigits : DigitTable where
  isDigit character := character.isDigit || character == '٣'
  decimal character :=
    if character.isDigit then some (character.toNat - '0'.toNat)
    else if character = '٣' then some 3 else none
  decimal_isDigit := by
    intro character value found
    split_ifs at found with digit eastern
    · simp [digit]
    · simp [eastern]
  ascii := by
    intro character small
    have other : character ≠ '٣' := by
      rintro rfl
      exact absurd small (by decide)
    simp [other]

/-- A branch that is named like another ref has two keys, and a request in other figures a key of its own. -/
theorem normalizeRef_respelled :
    (normalizeRef easternDigits (some "refs/heads/refs/heads/main") = some "refs/heads/main" ∧
      normalizeRef easternDigits (some "refs/heads/main") = some "main") ∧
      normalizeRef easternDigits (some "refs/pull/٣/merge") = some "pr-٣" ∧ isRefCharacter '٣' = false := by
  decide +kernel

end Canonical

end Trusca
