import Trusca.Data.Outcome
import Trusca.Data.PyJson

/-! Reading a JSON text the way the language's own decoder does. -/

namespace Trusca

/-- A number of a JSON text: an integer as it is, and another number before it is rounded to a floating-point
one, as the integer that its figures make and the power of ten that it is taken times. -/
inductive JsonNumber where
  | integer (value : Int)
  | decimal (figures power : Int)
  | infinity (negative : Bool)
  | nan
  deriving Repr, DecidableEq

/-- Why a text is not read. -/
inductive JsonFault where
  /-- The text is not JSON. -/
  | malformed
  /-- An integer has more figures than the language converts. -/
  | tooManyDigits
  /-- Arrays and objects stand inside of each other deeper than the interpreter recurses. -/
  | tooDeep
  deriving Repr, DecidableEq

section Scalars

/-- Whether a character may stand between the parts of a text. -/
def isJsonSpace (character : Char) : Bool :=
  character == ' ' || character == '\t' || character == '\n' || character == '\r'

/-- A text without the space at its start. -/
def skipSpace (text : List Char) : List Char := text.dropWhile isJsonSpace

/-- The value of a hexadecimal digit. -/
def hexValue (character : Char) : Option Nat :=
  let code := character.toNat
  if 48 ≤ code ∧ code ≤ 57 then some (code - 48)
  else if 97 ≤ code ∧ code ≤ 102 then some (code - 87)
  else if 65 ≤ code ∧ code ≤ 70 then some (code - 55)
  else none

/-- The number of four hexadecimal digits. -/
def codeUnit (digits : List Char) : Option Nat := do
  let values ← digits.mapM hexValue
  return values.foldl (fun number value => 16 * number + value) 0

/-- What a character behind a backslash stands for. -/
def escapeMeaning (character : Char) : Option Nat :=
  (['"', '\\', '/', 'b', 'f', 'n', 'r', 't'].zip [34, 92, 47, 8, 12, 10, 13, 9]).lookup character

/-- The code points up to the closing quote of a text, halves of pairs one by one. -/
def readString : List Char → Option (PyText × List Char)
  | [] => none
  | '"' :: rest => some ([], rest)
  | '\\' :: 'u' :: a :: b :: c :: d :: rest => do
      let unit ← codeUnit [a, b, c, d]
      let (text, rest) ← readString rest
      return (unit :: text, rest)
  | '\\' :: mark :: rest => do
      let code ← escapeMeaning mark
      let (text, rest) ← readString rest
      return (code :: text, rest)
  | character :: rest =>
      -- Control characters must be escaped.
      if character.toNat < 32 then none
      else do
        let (text, rest) ← readString rest
        return (character.toNat :: text, rest)

/-- The two halves of a pair, one behind the other, are one code point; a half without its other one stays. -/
def joinPairs : PyText → PyText
  | high :: low :: rest =>
      if 0xD800 ≤ high ∧ high ≤ 0xDBFF ∧ 0xDC00 ≤ low ∧ low ≤ 0xDFFF then
        (0x10000 + (high - 0xD800) * 0x400 + (low - 0xDC00)) :: joinPairs rest
      else high :: joinPairs (low :: rest)
  | text => text

/-- The number that figures stand for. -/
def figuresValue (figures : List Char) : Nat :=
  figures.foldl (fun value figure => 10 * value + (figure.toNat - 48)) 0

/-- The figures behind a mark, where there are some; the text is left alone where there are none. -/
def figuresBehind (marks : List Char) (text : List Char) : List Char × List Char :=
  match text with
  | mark :: rest =>
      -- The mark only counts with a figure behind it.
      if mark ∈ marks ∧ rest.takeWhile Char.isDigit ≠ [] then
        (rest.takeWhile Char.isDigit, rest.dropWhile Char.isDigit)
      else ([], text)
  | [] => ([], text)

/-- The exponent at the start of a text, if one is written there. -/
def readExponent (text : List Char) : Option Int × List Char :=
  match text with
  | mark :: rest =>
      -- A sign is optional, and its figures are not.
      let (negative, figures) :=
        match rest with
        | '-' :: figures => (true, figures)
        | '+' :: figures => (false, figures)
        | _ => (false, rest)
      if mark ∈ ['e', 'E'] ∧ figures.takeWhile Char.isDigit ≠ [] then
        let value : Int := figuresValue (figures.takeWhile Char.isDigit)
        (some (if negative then -value else value), figures.dropWhile Char.isDigit)
      else (none, text)
  | [] => (none, text)

/-- The number at the start of a text. -/
def readNumber (text : List Char) : Except JsonFault (JsonNumber × List Char) :=
  let (negative, digits) :=
    match text with
    | '-' :: rest => (true, rest)
    | _ => (false, text)
  -- Nothing follows a leading zero.
  let whole := if digits.head? = some '0' then ['0'] else digits.takeWhile Char.isDigit
  if whole = [] then .error .malformed
  else
    let (fraction, rest) := figuresBehind ['.'] (digits.drop whole.length)
    let (exponent, rest) := readExponent rest
    let sign : Int := if negative then -1 else 1
    if fraction = [] ∧ exponent = none then
      if maxStrDigits < whole.length then .error .tooManyDigits
      else .ok (.integer (sign * figuresValue whole), rest)
    else .ok (.decimal (sign * figuresValue (whole ++ fraction)) (exponent.getD 0 - fraction.length), rest)

/-- The words that stand for a value. -/
def jsonWords : List (List Char × PyJson JsonNumber) :=
  [("null".toList, .null), ("true".toList, .bool true), ("false".toList, .bool false),
    ("NaN".toList, .num .nan), ("Infinity".toList, .num (.infinity false)),
    ("-Infinity".toList, .num (.infinity true))]

/-- The word at the start of a text, with the rest. -/
def readWord (text : List Char) : Option (PyJson JsonNumber × List Char) :=
  (jsonWords.find? fun word => word.1.isPrefixOf text).map fun word => (word.2, text.drop word.1.length)

end Scalars

section Containers

variable {α : Type} (readItem : List Char → Except JsonFault (α × List Char))

/-- The items up to the bracket that closes them; every round reads at least one character. -/
def readItems (close : Char) : Nat → List Char → Except JsonFault (List α × List Char)
  | 0, _ => .error .malformed
  | rounds + 1, text => do
      let (item, rest) ← readItem text
      -- A comma and another item, or the bracket that ends the list.
      match skipSpace rest with
      | [] => .error .malformed
      | mark :: rest =>
          if mark = close then return ([item], rest)
          else if mark = ',' then
            let (items, rest) ← readItems close rounds (skipSpace rest)
            return (item :: items, rest)
          else .error .malformed

/-- What stands between two brackets, behind the opening one. -/
def readBracket (close : Char) (text : List Char) : Except JsonFault (List α × List Char) :=
  match skipSpace text with
  | [] => .error .malformed
  | mark :: rest =>
      if mark = close then .ok ([], rest)
      else readItems readItem close (mark :: rest).length (mark :: rest)

/-- A key and the value behind it. -/
def readField (text : List Char) : Except JsonFault ((PyText × α) × List Char) :=
  match text with
  -- A key is a text, with a colon behind it.
  | '"' :: rest =>
      match readString rest with
      | none => .error .malformed
      | some (key, rest) =>
          match skipSpace rest with
          | ':' :: rest => do
              let (value, rest) ← readItem (skipSpace rest)
              return ((joinPairs key, value), rest)
          | _ => .error .malformed
  | _ => .error .malformed

/-- The value at the start of a text. What stands inside of an array or an object is read by a function of its
own, unless there is no room for it. -/
def readOne (readInner : Option (List Char → Except JsonFault (PyJson JsonNumber × List Char)))
    (text : List Char) : Except JsonFault (PyJson JsonNumber × List Char) :=
  match readWord text with
  -- The words stand for themselves, so the first character decides among the rest.
  | some (value, rest) => .ok (value, rest)
  | none =>
      match text with
      | '"' :: rest =>
          match readString rest with
          | none => .error .malformed
          | some (text, rest) => .ok (.str (joinPairs text), rest)
      | '[' :: rest =>
          match readInner with
          -- The depth is used up: the reader stops here, whatever follows.
          | none => .error .tooDeep
          | some readItem => do
              let (items, rest) ← readBracket readItem ']' rest
              return (.arr items, rest)
      | '{' :: rest =>
          match readInner with
          | none => .error .tooDeep
          | some readItem => do
              let (fields, rest) ← readBracket (readField readItem) '}' rest
              -- The last value of a repeated key wins.
              return (.obj (buildDict fields), rest)
      | _ => do
          let (number, rest) ← readNumber text
          return (.num number, rest)

/-- The value at the start of a text, with arrays and objects inside of each other as often as there is room. -/
def readValue : Nat → List Char → Except JsonFault (PyJson JsonNumber × List Char)
  | 0 => readOne none
  | room + 1 => readOne (some (readValue room))

/-- The document that a text holds. -/
def jsonLoads (room : Nat) (text : List Char) : Except JsonFault (PyJson JsonNumber) :=
  -- A byte order mark is refused.
  if text.head? = some (Char.ofNat 0xFEFF) then .error .malformed
  else do
    let (value, rest) ← readValue room (skipSpace text)
    if skipSpace rest = [] then .ok value else .error .malformed

end Containers

section Rounds

/-- Skipping space makes a text no longer. -/
theorem length_skipSpace (text : List Char) : (skipSpace text).length ≤ text.length :=
  (List.dropWhile_suffix _).length_le

/-- A text that is read is at least its closing quote. -/
theorem readString_shorter {text rest : List Char} {codes : PyText} (read : readString text = some (codes, rest)) :
    rest.length < text.length := by
  -- Every escape and every plain character takes something off before the rest is read.
  fun_induction readString text generalizing codes rest with
  | case1 => cases read
  | case2 rest' =>
    cases read
    simp
  | case3 a b c d rest' ih =>
    -- A code point in four figures takes six characters off.
    simp only [bind, Option.bind_eq_some_iff, pure, Option.some.injEq, Prod.exists] at read
    obtain ⟨_, _, _, _, inner, same⟩ := read
    have shorter := ih inner
    rw [(Prod.mk.inj same).2] at shorter
    simp only [List.length_cons]
    omega
  | case4 mark rest' _ ih =>
    -- A short escape takes two characters off.
    simp only [bind, Option.bind_eq_some_iff, pure, Option.some.injEq, Prod.exists] at read
    obtain ⟨_, _, _, _, inner, same⟩ := read
    have shorter := ih inner
    rw [(Prod.mk.inj same).2] at shorter
    simp only [List.length_cons]
    omega
  | case5 => cases read
  | case6 character rest' _ _ _ _ ih =>
    -- A plain character takes one off.
    simp only [bind, Option.bind_eq_some_iff, pure, Option.some.injEq, Prod.exists] at read
    obtain ⟨_, _, inner, same⟩ := read
    have shorter := ih inner
    rw [(Prod.mk.inj same).2] at shorter
    simp only [List.length_cons]
    omega

/-- Reading figures behind a mark makes a text no longer. -/
theorem length_figuresBehind (marks text : List Char) : (figuresBehind marks text).2.length ≤ text.length := by
  unfold figuresBehind
  split
  · -- The mark and then the figures are taken off, if the mark is there at all.
    next mark rest =>
    split
    · have shorter := (@List.dropWhile_suffix _ rest Char.isDigit).length_le
      simp only [List.length_cons]
      omega
    · exact le_rfl
  · exact le_rfl

/-- Reading an exponent makes a text no longer. -/
theorem length_readExponent (text : List Char) : (readExponent text).2.length ≤ text.length := by
  unfold readExponent
  split
  · next mark rest =>
    split
    rename_i negative figures sign
    -- A sign takes one character more.
    have inner : figures.length ≤ rest.length := by
      split at sign <;> cases sign <;> simp
    have shorter := (@List.dropWhile_suffix _ figures Char.isDigit).length_le
    -- Without figures behind the mark nothing is taken.
    split
    · simp only [List.length_cons]
      omega
    · exact le_rfl
  · exact le_rfl

/-- A number that is read has a figure. -/
theorem readNumber_shorter {text rest : List Char} {number : JsonNumber}
    (read : readNumber text = .ok (number, rest)) : rest.length < text.length := by
  unfold readNumber at read
  split at read
  rename_i negative digits sign
  -- The sign is the only thing in front of the figures.
  have inner : digits.length ≤ text.length := by
    split at sign <;> cases sign <;> simp
  extract_lets whole at read
  split at read
  · cases read
  · next some_figure =>
    -- Without a figure there is no number, so at least one character is taken.
    have figures : 0 < whole.length := List.length_pos_iff.mpr some_figure
    have some_digit : 0 < digits.length := by
      by_contra none_left
      have empty : digits = [] := List.eq_nil_of_length_eq_zero (by omega)
      exact some_figure (by simp [whole, empty])
    -- What may follow the figures makes the text no longer.
    have back := length_figuresBehind ['.'] (digits.drop whole.length)
    have behind := length_readExponent (figuresBehind ['.'] (digits.drop whole.length)).2
    rw [List.length_drop] at back
    have last : (readExponent (figuresBehind ['.'] (digits.drop whole.length)).2).2.length < text.length := by
      omega
    -- Whether it is read as a whole number or not, the rest is the same.
    dsimp only at read
    split at read
    · split at read
      · cases read
      · cases read
        exact last
    · cases read
      exact last

/-- The words are not empty. -/
theorem readWord_shorter {text rest : List Char} {value : PyJson JsonNumber}
    (read : readWord text = some (value, rest)) : rest.length < text.length := by
  obtain ⟨word, found, same⟩ := Option.map_eq_some_iff.mp read
  have starts := List.find?_some found
  -- None of the words is empty.
  have long : 0 < word.1.length := by
    have every : ∀ word ∈ jsonWords, 0 < word.1.length := by decide
    exact every word (List.mem_of_find?_eq_some found)
  have fits := (List.isPrefixOf_iff_prefix.mp starts).length_le
  rw [← (Prod.mk.inj same).2, List.length_drop]
  omega

/-- Whatever reads an item takes at least one character off a text. -/
def Shortens {α : Type} (readItem : List Char → Except JsonFault (α × List Char)) : Prop :=
  ∀ text item rest, readItem text = .ok (item, rest) → rest.length < text.length

variable {α : Type} {readItem : List Char → Except JsonFault (α × List Char)}

/-- Items that are read take at least one character off a text. -/
theorem readItems_shorter (shortens : Shortens readItem) {close : Char} {rounds : Nat} {text rest : List Char}
    {items : List α} (read : readItems readItem close rounds text = .ok (items, rest)) :
    rest.length < text.length := by
  -- One round reads one item and the mark behind it.
  induction rounds generalizing text items rest with
  | zero => cases read
  | succ rounds ih =>
    rw [readItems] at read
    obtain ⟨⟨item, back⟩, here, read⟩ := bind_ok.mp read
    have shorter := shortens _ _ _ here
    have spaced := length_skipSpace back
    dsimp only at read
    split at read
    · cases read
    · next mark after skipped =>
      rw [skipped, List.length_cons] at spaced
      -- The mark closes the list, or another item follows it.
      split at read
      · cases read
        omega
      · split at read
        · obtain ⟨⟨more, last⟩, later, same⟩ := bind_ok.mp read
          have rests := ih later
          have behind := length_skipSpace after
          obtain rfl : last = rest := (Prod.mk.inj (Except.ok.inj same)).2
          omega
        · cases read

/-- Further rounds than a text has characters change nothing: they are never reached. -/
theorem readItems_rounds (shortens : Shortens readItem) (blank : readItem [] = .error .malformed) {close : Char}
    {rounds more : Nat} {text : List Char} (enough : text.length ≤ rounds) (enough' : text.length ≤ more) :
    readItems readItem close rounds text = readItems readItem close more text := by
  induction rounds generalizing more text with
  | zero =>
    -- Where there is no round left, there is no text left, which is no item.
    obtain rfl : text = [] := List.eq_nil_of_length_eq_zero (by omega)
    cases more with
    | zero => rfl
    | succ more => rw [readItems, readItems, blank]; rfl
  | succ rounds ih =>
    cases more with
    | zero =>
      obtain rfl : text = [] := List.eq_nil_of_length_eq_zero (by omega)
      rw [readItems, readItems, blank]
      rfl
    | succ more =>
      rw [readItems, readItems]
      -- A failed item ends both loops alike.
      cases here : readItem text with
      | error fault => rfl
      | ok read =>
        obtain ⟨item, back⟩ := read
        -- The item has shortened the text, so both sides have rounds left for the rest.
        have shorter := shortens _ _ _ here
        have spaced := length_skipSpace back
        simp only [bind, Except.bind]
        split
        · rfl
        · next mark after skipped =>
          have behind := length_skipSpace after
          rw [skipped, List.length_cons] at spaced
          rw [@ih more (skipSpace after) (by omega) (by omega)]

/-- What stands between brackets takes at least the closing one off a text. -/
theorem readBracket_shorter (shortens : Shortens readItem) {close : Char} {text rest : List Char}
    {items : List α} (read : readBracket readItem close text = .ok (items, rest)) :
    rest.length < text.length := by
  have spaced := length_skipSpace text
  unfold readBracket at read
  split at read
  · cases read
  · next mark after skipped =>
    rw [skipped, List.length_cons] at spaced
    -- The bracket is closed at once, or items come first.
    split at read
    · cases read
      omega
    · -- The items have shortened the text, and the bracket was one character of it.
      have inner := readItems_shorter shortens read
      rw [List.length_cons] at inner
      omega

/-- A field takes at least one character off a text when its value does. -/
theorem readField_shorter (shortens : Shortens readItem) : Shortens (readField readItem) := by
  intro text field rest read
  unfold readField at read
  -- A field is a quoted name, a colon and a value, each of which takes something off.
  split at read
  · next behind =>
    split at read
    · cases read
    · next key after found =>
      have quoted := readString_shorter found
      have spaced := length_skipSpace after
      split at read
      · next value skipped =>
        obtain ⟨⟨item, last⟩, inner, same⟩ := bind_ok.mp read
        have shorter := shortens _ _ _ inner
        have behind_colon := length_skipSpace value
        rw [skipped, List.length_cons] at spaced
        cases same
        rw [List.length_cons]
        omega
      · cases read
  · cases read

/-- A value takes at least one character off a text when what stands inside of it does. -/
theorem readOne_shorter {readInner : Option (List Char → Except JsonFault (PyJson JsonNumber × List Char))}
    (shortens : ∀ readItem ∈ readInner, Shortens readItem) : Shortens (readOne readInner) := by
  intro text value rest read
  unfold readOne at read
  -- The first character decides what is read: a word, a text, a list, an object or a number.
  split at read
  · next word =>
    cases read
    exact readWord_shorter word
  · -- A text: its quotation mark goes, and what `readString` takes.
    split at read
    · split at read
      · cases read
      · next found =>
        cases read
        have inner := readString_shorter found
        rw [List.length_cons]
        omega
    · -- A list and an object: the bracket goes, and what stands in it.
      split at read
      · cases read
      · obtain ⟨⟨items, last⟩, inner, same⟩ := bind_ok.mp read
        have shorter := readBracket_shorter (shortens _ rfl) inner
        cases same
        rw [List.length_cons]
        omega
    · split at read
      · cases read
      · obtain ⟨⟨fields, last⟩, inner, same⟩ := bind_ok.mp read
        have shorter := readBracket_shorter (readField_shorter (shortens _ rfl)) inner
        cases same
        rw [List.length_cons]
        omega
    · -- Anything else is a number.
      obtain ⟨⟨number, last⟩, inner, same⟩ := bind_ok.mp read
      cases same
      exact readNumber_shorter inner

/-- A value takes at least one character off a text, however deep it is. -/
theorem readValue_shorter (room : Nat) : Shortens (readValue room) := by
  induction room with
  | zero => exact readOne_shorter fun _ absent => absurd absent (by simp)
  | succ room ih => exact readOne_shorter fun _ same => Option.some.inj same ▸ ih

/-- The rounds that the items of a bracket are given suffice: more of them would read the same. -/
theorem readItems_enough (room : Nat) {close : Char} {more : Nat} {text : List Char} (further : text.length ≤ more) :
    readItems (readValue room) close more text = readItems (readValue room) close text.length text ∧
      readItems (readField (readValue room)) close more text =
        readItems (readField (readValue room)) close text.length text := by
  have blank : readValue room [] = .error .malformed := by cases room <;> rfl
  exact ⟨readItems_rounds (readValue_shorter room) blank further le_rfl,
    readItems_rounds (readField_shorter (readValue_shorter room)) rfl further le_rfl⟩

end Rounds

end Trusca
