import Mathlib.Data.List.Basic

/-! The string operations of the source language that the services rely on. -/

namespace Trusca

/-- What holds of all characters of a list is decided along the list, not over every character there is. -/
instance (priority := high) decidableCharacters {holds : Char → Prop} [DecidablePred holds]
    {text : List Char} : Decidable (∀ character ∈ text, holds character) := List.decidableBAll holds text

/-- Whether a character counts as white space when text is stripped. -/
def isSpace (character : Char) : Bool :=
  let code := character.toNat
  (9 ≤ code && code ≤ 13) || (28 ≤ code && code ≤ 32) || code == 0x85 || code == 0xA0 ||
    code == 0x1680 || (0x2000 ≤ code && code ≤ 0x200A) || code == 0x2028 || code == 0x2029 ||
    code == 0x202F || code == 0x205F || code == 0x3000

/-- A letter or figure has the code of one of ASCII's letters or figures. -/
theorem code_of_isAlphanum {character : Char} (listed : character.isAlphanum = true) :
    (65 ≤ character.toNat ∧ character.toNat ≤ 90 ∨ 97 ≤ character.toNat ∧ character.toNat ≤ 122) ∨
      48 ≤ character.toNat ∧ character.toNat ≤ 57 := by
  -- The three ranges are those of the definitions, as comparisons of code points.
  obtain letter | figure := Bool.or_eq_true_iff.mp listed
  · obtain upper | lower := Bool.or_eq_true_iff.mp letter
    · exact .inl (.inl (of_decide_eq_true upper))
    · obtain ⟨low, high⟩ := Bool.and_eq_true_iff.mp lower
      exact .inl (.inr ⟨of_decide_eq_true low, of_decide_eq_true high⟩)
  · obtain ⟨low, high⟩ := Bool.and_eq_true_iff.mp figure
    exact .inr ⟨of_decide_eq_true low, of_decide_eq_true high⟩

/-- The text without white space at its ends. -/
def strip (text : String) : String :=
  String.ofList (((text.toList.dropWhile isSpace).reverse.dropWhile isSpace).reverse)

/-- The lower case of a character, as far as comparisons with ASCII texts can tell: the Kelvin sign
is the only letter outside ASCII whose lower case lies in it. -/
def lowerChar (character : Char) : Char :=
  if character.toNat == 0x212A then 'k' else character.toLower

/-- The text in lower case. -/
def lower (text : String) : String := String.ofList (text.toList.map lowerChar)

/-- The most digits that the language reads as one number. -/
def maxStrDigits : Nat := 4300

/-- The last place at which a pattern stands in a text. -/
def rfind (text pattern : List Char) : Option Nat :=
  (List.range (text.length + 1)).reverse.find? fun place => pattern.isPrefixOf (text.drop place)

/-- A pattern that is found ends within the text. -/
theorem le_of_rfind {text pattern : List Char} {place : Nat}
    (found : rfind text pattern = some place) : place + pattern.length ≤ text.length ∨ pattern = [] := by
  -- The pattern stands at the place, so what is left there is at least as long.
  have stands := List.find?_some found
  obtain ⟨after, split⟩ := List.isPrefixOf_iff_prefix.mp stands
  have lengths := congrArg List.length split
  simp only [List.length_append, List.length_drop] at lengths
  cases pattern with
  | nil => exact .inr rfl
  | cons _ _ =>
    simp only [List.length_cons] at lengths ⊢
    omega

/-- The last number below a bound with a property. -/
theorem find?_range_reverse {holds : Nat → Bool} {bound last : Nat} (below : last < bound)
    (here : holds last = true) (after : ∀ later, last < later → later < bound → holds later = false) :
    (List.range bound).reverse.find? holds = some last := by
  induction bound with
  | zero => omega
  | succ bound ih =>
    rw [List.range_succ, List.reverse_append, List.reverse_singleton, List.singleton_append,
      List.find?_cons]
    -- From the end: the largest number is asked first.
    by_cases same : last = bound
    · rw [← same, here]
    · rw [after bound (by omega) (by omega)]
      exact ih (by omega) fun later above under => after later above (by omega)

/-- A character is found where it stands last. -/
theorem rfind_append {mark : Char} {front back : List Char} (plain : mark ∉ back) :
    rfind (front ++ mark :: back) [mark] = some front.length := by
  refine find?_range_reverse (by rw [List.length_append, List.length_cons]; omega) (by simp) fun later above _ => ?_
  -- What follows the mark begins with no other one.
  obtain ⟨step, rfl⟩ := Nat.exists_eq_add_of_lt above
  rw [show front.length + step + 1 = front.length + (step + 1) by omega, ← List.drop_drop,
    List.drop_left, List.drop_succ_cons, ← Bool.not_eq_true, List.isPrefixOf_iff_prefix]
  rintro ⟨rest, split⟩
  have member : mark ∈ back.drop step := by rw [← split]; simp
  exact plain (List.mem_of_mem_drop member)

/-- A character that is not in a text is not found. -/
theorem rfind_absent {mark : Char} {text : List Char} (plain : mark ∉ text) :
    rfind text [mark] = none := by
  rw [rfind, List.find?_eq_none]
  rintro place _ stands
  obtain ⟨rest, split⟩ := List.isPrefixOf_iff_prefix.mp stands
  have member : mark ∈ text.drop place := by rw [← split]; simp
  exact plain (List.mem_of_mem_drop member)

/-- A character that is in a text stands last somewhere. -/
theorem exists_last {mark : Char} {text : List Char} (member : mark ∈ text) :
    ∃ front back, text = front ++ mark :: back ∧ mark ∉ back := by
  obtain ⟨back, front, split, plain⟩ := List.eq_append_cons_of_mem (List.mem_reverse.mpr member)
  refine ⟨front.reverse, back.reverse, ?_, by simpa using plain⟩
  rw [← List.reverse_reverse text, split]
  simp

/-- A pattern is found exactly where it stands in a text. -/
theorem rfind_eq_none {text pattern : List Char} : rfind text pattern = none ↔ ¬ pattern <:+: text := by
  rw [rfind, List.find?_eq_none]
  constructor
  · -- An occurrence would be one of the places that are asked.
    rintro absent ⟨before, after, split⟩
    have stands : pattern.isPrefixOf (text.drop before.length) = true := by
      rw [List.isPrefixOf_iff_prefix, ← split, List.append_assoc, List.drop_left]
      exact List.prefix_append _ _
    have below : before.length < text.length + 1 := by
      rw [← split, List.length_append, List.length_append]
      omega
    exact absent before.length (List.mem_reverse.mpr (List.mem_range.mpr below)) stands
  · -- And a place where it stands is an occurrence.
    intro absent place _ stands
    have inside := (List.isPrefixOf_iff_prefix.mp stands).isInfix
    exact absent (inside.trans (List.drop_suffix place text).isInfix)

/-- A pattern is found where it stands last. -/
theorem rfind_last {front back : List Char} {first : Char} {pattern : List Char}
    (last : ¬ first :: pattern <:+: pattern ++ back) :
    rfind (front ++ (first :: pattern ++ back)) (first :: pattern) = some front.length := by
  refine find?_range_reverse (by rw [List.length_append]; omega) (by simp) fun later above _ => ?_
  obtain ⟨step, rfl⟩ := Nat.exists_eq_add_of_lt above
  rw [show front.length + step + 1 = front.length + (step + 1) by omega, ← List.drop_drop,
    List.drop_left, List.cons_append, List.drop_succ_cons, ← Bool.not_eq_true, List.isPrefixOf_iff_prefix]
  intro stands
  exact last (stands.isInfix.trans (List.drop_suffix step _).isInfix)

/-- What ends in a mark and begins a text is the text up to its first mark. -/
theorem prefix_mark {front back word : List Char} {mark : Char} (plain : mark ∉ front) (foreign : mark ∉ word) :
    word ++ [mark] <+: front ++ mark :: back ↔ word = front := by
  induction front generalizing word with
  -- Along the front, which the word has to use up before the mark.
  | nil =>
    cases word with
    | nil => simp
    | cons letter word =>
      have different := (List.ne_and_not_mem_of_not_mem_cons foreign).1
      simp [List.cons_prefix_cons, different.symm]
  | cons first front ih =>
    obtain ⟨different, plain⟩ := List.ne_and_not_mem_of_not_mem_cons plain
    cases word with
    | nil => simp [List.cons_prefix_cons, different]
    | cons letter word =>
      rw [List.cons_append, List.cons_append, List.cons_prefix_cons,
        ih plain (List.not_mem_of_not_mem_cons foreign), List.cons.injEq]

/-- A pattern that ends in a mark stands before the first mark, or behind it. -/
theorem infix_mark_end {front back word : List Char} {mark : Char} (plain : mark ∉ front)
    (foreign : mark ∉ word) :
    word ++ [mark] <:+: front ++ mark :: back ↔ word <:+ front ∨ word ++ [mark] <:+: back := by
  induction front with
  -- At the mark itself the word ends, or it occurs behind.
  | nil =>
    rw [List.nil_append, List.infix_cons_iff, List.suffix_nil]
    exact or_congr_left (prefix_mark plain foreign)
  | cons first front ih =>
    -- One letter more in front: the word starts here, or it occurs later.
    have start := @prefix_mark (first :: front) back word mark plain foreign
    rw [List.cons_append, List.infix_cons_iff, ← List.cons_append, start,
      ih (List.not_mem_of_not_mem_cons plain), ← or_assoc, List.suffix_cons_iff]

/-- A pattern that begins with a mark stands at the first mark, or behind it. -/
theorem infix_mark_start {front back word : List Char} {mark : Char} (plain : mark ∉ front) :
    mark :: word <:+: front ++ mark :: back ↔ word <+: back ∨ mark :: word <:+: back := by
  induction front with
  | nil => rw [List.nil_append, List.infix_cons_iff, List.cons_prefix_cons]; simp
  | cons first front ih =>
    obtain ⟨different, plain⟩ := List.ne_and_not_mem_of_not_mem_cons plain
    rw [List.cons_append, List.infix_cons_iff, List.cons_prefix_cons, ih plain]
    simp [different]

section Ascii

/-- The characters of an ASCII text, read off its bytes. -/
def asciiLetters (text : String) : List Char :=
  text.toByteArray.data.toList.map fun byte => Char.ofNat byte.toNat

/-- Whether all bytes of a text are ASCII. -/
def isAsciiText (text : String) : Bool := text.toByteArray.data.toList.all (· < 128)

/-- A character of ASCII is its own byte. -/
theorem utf8EncodeChar_ascii {byte : UInt8} (small : byte < 128) :
    String.utf8EncodeChar (Char.ofNat byte.toNat) = [byte] := by
  have each : ∀ number < 128, String.utf8EncodeChar (Char.ofNat number) = [UInt8.ofNat number] := by
    decide
  have read := each byte.toNat (UInt8.lt_iff_toNat_lt.mp small)
  rwa [UInt8.ofNat_toNat] at read

/-- The characters of an ASCII text are its bytes. Finding them so takes one step for each byte, where
decoding looks every byte up in the whole text. -/
theorem toList_ascii {text : String} (ascii : isAsciiText text) : text.toList = asciiLetters text := by
  -- An ASCII character is one byte, so the bytes are the letters.
  have bytes : (asciiLetters text).flatMap String.utf8EncodeChar = text.toByteArray.data.toList := by
    rw [asciiLetters, List.flatMap_map]
    refine (List.flatMap_congr fun byte member => ?_).trans (List.flatMap_singleton' _)
    exact utf8EncodeChar_ascii (of_decide_eq_true (List.all_eq_true.mp ascii byte member))
  -- And a text is given by its bytes.
  have same : text = String.ofList (asciiLetters text) := by
    apply String.toByteArray_inj.mp
    apply ByteArray.ext
    apply Array.ext'
    change _ = ((asciiLetters text).flatMap String.utf8EncodeChar).toByteArray.data.toList
    rw [bytes, List.toList_data_toByteArray]
  rw [same, String.toList_ofList, ← same]

/-- The characters of an ASCII text are below the bound of ASCII. -/
theorem lt_of_ascii {text : String} (ascii : isAsciiText text) {character : Char}
    (member : character ∈ text.toList) : character.toNat < 128 := by
  rw [toList_ascii ascii, asciiLetters, List.mem_map] at member
  obtain ⟨byte, listed, rfl⟩ := member
  have small := UInt8.lt_iff_toNat_lt.mp (of_decide_eq_true (List.all_eq_true.mp ascii byte listed))
  have valid : byte.toNat.isValidChar := .inl (Nat.lt_trans small (by decide))
  rw [Char.ofNat, dif_pos valid]
  exact small

end Ascii

end Trusca
