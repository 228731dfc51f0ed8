import Mathlib.Data.List.Infix
import Trusca.Data.Json
import Trusca.Data.Text
import Trusca.Store.Items

/-! JSON values whose texts are sequences of code points, surrogates among them, and the text they are
written as. -/

namespace Trusca

open Store

/-- A text as the numbers of its code points; a text of characters has no surrogate among them. -/
abbrev PyText := List Nat

/-- A literal as a text. -/
def PyText.of (text : String) : PyText := text.toList.map Char.toNat

/-- Whether a code point counts as white space when text is stripped. -/
def isSpaceCode (code : Nat) : Bool :=
  (9 ≤ code && code ≤ 13) || (28 ≤ code && code ≤ 32) || code == 0x85 || code == 0xA0 ||
    code == 0x1680 || (0x2000 ≤ code && code ≤ 0x200A) || code == 0x2028 || code == 0x2029 ||
    code == 0x202F || code == 0x205F || code == 0x3000

/-- The text without white space at its ends. -/
def PyText.strip (text : PyText) : PyText :=
  ((text.dropWhile isSpaceCode).reverse.dropWhile isSpaceCode).reverse

/-- Whether a code point is half of a pair. -/
def isSurrogate (code : Nat) : Bool := 0xD800 ≤ code && code ≤ 0xDFFF

/-- The text of characters with these code points; a half of a pair is no character. -/
def PyText.text? (text : PyText) : Option String :=
  if text.any isSurrogate then none else some (String.ofList (text.map Char.ofNat))

/-- A character is no half of a pair. -/
theorem isSurrogate_toNat (character : Char) : isSurrogate character.toNat = false := by
  have valid : character.toNat < 0xD800 ∨ 0xDFFF < character.toNat ∧ character.toNat < 0x110000 := character.valid
  simp only [isSurrogate, Bool.and_eq_false_iff, decide_eq_false_iff_not]
  omega

/-- A literal is read back from its code points. -/
@[simp] theorem PyText.text?_of (text : String) : (PyText.of text).text? = some text := by
  have whole : (PyText.of text).any isSurrogate = false := by
    rw [PyText.of, List.any_map, List.any_eq_false]
    exact fun character _ => Bool.eq_false_iff.mp (isSurrogate_toNat character)
  rw [PyText.text?, whole, PyText.of, List.map_map]
  simp [Function.comp_def]

/-- Literals with the same code points are the same. -/
@[simp] theorem PyText.of_inj {first second : String} : PyText.of first = PyText.of second ↔ first = second := by
  constructor
  · intro same
    exact Option.some.inj ((PyText.text?_of first).symm.trans (same ▸ PyText.text?_of second))
  · exact fun same => same ▸ rfl

/-- A literal is stripped of the same characters. -/
theorem PyText.strip_of (text : String) : PyText.strip (PyText.of text) = PyText.of (Trusca.strip text) := by
  have codes : isSpaceCode ∘ Char.toNat = isSpace := rfl
  rw [PyText.strip, PyText.of, PyText.of, Trusca.strip, String.toList_ofList, List.dropWhile_map, codes,
    ← List.map_reverse, List.dropWhile_map, codes, List.map_reverse]

/-- A JSON value over some numbers; the fields of an object stand in the order of their insertion. -/
inductive PyJson (ν : Type) where
  | null
  | bool (value : Bool)
  | num (value : ν)
  | str (text : PyText)
  | arr (items : List (PyJson ν))
  | obj (fields : List (PyText × PyJson ν))

variable {ν : Type}

/-- The value under a key; absent for other values than objects. -/
def PyJson.get? (value : PyJson ν) (key : String) : Option (PyJson ν) :=
  match value with
  | .obj fields => (fields.find? fun field => field.1 == PyText.of key).map Prod.snd
  | _ => none

/-- Whether a value is a text that equals a literal. -/
def PyJson.isText (value : Option (PyJson ν)) (text : String) : Bool :=
  match value with
  | some (.str own) => own == PyText.of text
  | _ => false

/-- The items of a list; nothing for other values. -/
def PyJson.asList : Option (PyJson ν) → List (PyJson ν)
  | some (.arr items) => items
  | _ => []

mutual

/-- A value with distinct keys that is written and read back: its texts are sequences of code points. -/
def Json.decoded : Json → PyJson Rat
  | .null => .null
  | .bool value => .bool value
  | .num value => .num value
  | .str text => .str (PyText.of text)
  | .arr items => .arr (Json.decodedItems items)
  | .obj fields => .obj (Json.decodedFields fields)

/-- Items that are written and read back. -/
def Json.decodedItems : List Json → List (PyJson Rat)
  | [] => []
  | item :: rest => item.decoded :: Json.decodedItems rest

/-- Fields that are written and read back. -/
def Json.decodedFields : List (String × Json) → List (PyText × PyJson Rat)
  | [] => []
  | (key, value) :: rest => (PyText.of key, value.decoded) :: Json.decodedFields rest

end

/-- Items are read back one by one. -/
theorem Json.decodedItems_eq (items : List Json) : Json.decodedItems items = items.map Json.decoded := by
  induction items with
  | nil => rfl
  | cons item rest ih => rw [Json.decodedItems, ih, List.map_cons]

/-- Fields are read back one by one. -/
theorem Json.decodedFields_eq (fields : List (String × Json)) :
    Json.decodedFields fields = fields.map fun field => (PyText.of field.1, field.2.decoded) := by
  induction fields with
  | nil => rfl
  | cons field rest ih => rw [Json.decodedFields, ih, List.map_cons]

/-- A key finds in what is read back what it finds in what is written. -/
@[simp] theorem Json.get?_decoded (value : Json) (key : String) :
    value.decoded.get? key = (value.get? key).map Json.decoded := by
  cases value with
  -- Only an object has keys; field by field the decoded key is the key's text.
  | obj fields =>
    rw [Json.decoded, PyJson.get?, Json.get?, Json.decodedFields_eq]
    induction fields with
    | nil => rfl
    | cons field rest ih =>
      rw [List.map_cons, List.find?_cons, List.find?_cons]
      by_cases same : field.1 = key
      · simp [same]
      · -- Texts that differ have different code points.
        have apart : (PyText.of field.1 == PyText.of key) = false := by simpa using same
        have apart' : (field.1 == key) = false := by simpa using same
        rw [apart, apart']
        exact ih
  | _ => rfl

/-- The dictionary after one assignment for each field. -/
def buildDict (fields : List (PyText × PyJson ν)) : List (PyText × PyJson ν) :=
  fields.foldl (fun soFar field => put soFar field.1 field.2) []

/-- Induction over a value, through the items and the fields inside it. -/
theorem PyJson.nested {holds : PyJson ν → Prop} (null : holds .null) (bool : ∀ value, holds (.bool value))
    (num : ∀ value, holds (.num value)) (str : ∀ text, holds (.str text))
    (arr : ∀ items, (∀ item ∈ items, holds item) → holds (.arr items))
    (obj : ∀ fields : List (PyText × PyJson ν), (∀ field ∈ fields, holds field.2) → holds (.obj fields)) :
    ∀ value, holds value
  | .null => null
  | .bool value => bool value
  | .num value => num value
  | .str text => str text
  | .arr items => arr items fun item _ => PyJson.nested null bool num str arr obj item
  | .obj fields => obj fields fun field _ => PyJson.nested null bool num str arr obj field.2
termination_by value => sizeOf value
decreasing_by
  · have smaller := List.sizeOf_lt_of_mem ‹_›
    simp only [PyJson.arr.sizeOf_spec]
    omega
  · have smaller := List.sizeOf_lt_of_mem ‹_›
    cases field
    simp only [Prod.mk.sizeOf_spec, PyJson.obj.sizeOf_spec] at smaller ⊢
    omega

section Texts

mutual

/-- The texts of a value at any depth, keys among them. -/
def PyJson.texts : PyJson ν → List PyText
  | .str text => [text]
  | .arr items => PyJson.itemTexts items
  | .obj fields => PyJson.fieldTexts fields
  | .null | .bool _ | .num _ => []

/-- The texts of items. -/
def PyJson.itemTexts : List (PyJson ν) → List PyText
  | [] => []
  | item :: rest => item.texts ++ PyJson.itemTexts rest

/-- The texts of fields. -/
def PyJson.fieldTexts : List (PyText × PyJson ν) → List PyText
  | [] => []
  | (key, value) :: rest => key :: value.texts ++ PyJson.fieldTexts rest

end

/-- The texts of items are those of each of them. -/
theorem PyJson.itemTexts_eq (items : List (PyJson ν)) :
    PyJson.itemTexts items = items.flatMap PyJson.texts := by
  induction items with
  | nil => rfl
  | cons item rest ih => rw [PyJson.itemTexts, ih, List.flatMap_cons]

/-- The texts of fields are the keys and the texts of the values. -/
theorem PyJson.fieldTexts_eq (fields : List (PyText × PyJson ν)) :
    PyJson.fieldTexts fields = fields.flatMap fun field => field.1 :: field.2.texts := by
  induction fields with
  | nil => rfl
  | cons field rest ih => rw [PyJson.fieldTexts, ih, List.flatMap_cons]

end Texts

section Dumps

/-- A hexadecimal digit. -/
def hexDigitOf (digit : Nat) : Nat :=
  if digit < 10 then 48 + digit else 87 + digit

/-- How a code point is written inside a text, without a detour to ASCII. -/
def escapeCodePoint (code : Nat) : PyText :=
  -- The quotation mark and the backslash, then the controls with a letter of their own.
  if code = 34 then [92, 34]
  else if code = 92 then [92, 92]
  else if code = 10 then [92, 110]
  else if code = 13 then [92, 114]
  else if code = 9 then [92, 116]
  else if code = 12 then [92, 102]
  else if code = 8 then [92, 98]
  -- Any other control is written with four hexadecimal figures.
  else if code < 32 then [92, 117, 48, 48, hexDigitOf (code / 16), hexDigitOf (code % 16)]
  else [code]

/-- A text in quotes. -/
def quoteText (text : PyText) : PyText := 34 :: text.flatMap escapeCodePoint ++ [34]

variable (repr : ν → PyText)

mutual

/-- The text a value is written as; the numbers are written by a function of their own. -/
def PyJson.dumps : PyJson ν → PyText
  -- The words and brackets by their code points.
  | .null => [110, 117, 108, 108]
  | .bool true => [116, 114, 117, 101]
  | .bool false => [102, 97, 108, 115, 101]
  | .num value => repr value
  | .str text => quoteText text
  | .arr items => 91 :: PyJson.dumpItems items ++ [93]
  | .obj fields => 123 :: PyJson.dumpFields fields ++ [125]

/-- Items with commas between them. -/
def PyJson.dumpItems : List (PyJson ν) → PyText
  | [] => []
  | [item] => item.dumps
  | item :: next :: rest => item.dumps ++ 44 :: 32 :: PyJson.dumpItems (next :: rest)

/-- Fields with commas between them. -/
def PyJson.dumpFields : List (PyText × PyJson ν) → PyText
  | [] => []
  | [(key, value)] => quoteText key ++ 58 :: 32 :: value.dumps
  | (key, value) :: next :: rest =>
      quoteText key ++ 58 :: 32 :: value.dumps ++ 44 :: 32 :: PyJson.dumpFields (next :: rest)

end

end Dumps

section Infixes

/-- A mark that a pattern does not hold separates the places where it can stand. -/
theorem infix_append_cons {α : Type} {pattern before after : List α} {mark : α} (foreign : mark ∉ pattern) :
    pattern <:+: before ++ mark :: after ↔ pattern <:+: before ∨ pattern <:+: after := by
  constructor
  · intro within
    -- The pattern starts here or further behind, and where it starts here it ends before the mark.
    induction before with
    | nil =>
      rw [List.nil_append, List.infix_cons_iff] at within
      obtain first | later := within
      · cases pattern with
        | nil => exact .inl (List.nil_infix)
        | cons letter rest => exact absurd (List.cons_prefix_cons.mp first).1 (by grind)
      · exact .inr later
    | cons letter rest ih =>
      rw [List.cons_append, List.infix_cons_iff] at within
      obtain first | later := within
      · -- A prefix that does not hold the mark ends before it.
        refine .inl ?_
        obtain short | long := List.prefix_or_prefix_of_prefix first
          (List.prefix_append (letter :: rest) (mark :: after))
        · exact short.isInfix
        · obtain ⟨more, rfl⟩ := long
          rw [← List.cons_append] at first
          cases more with
          | nil => simp
          | cons mark' more =>
            have same := (List.cons_prefix_cons.mp ((List.prefix_append_right_inj _).mp first)).1
            exact absurd (by simp [same]) foreign
      · obtain here | behind := ih later
        · exact .inl (here.trans (List.suffix_cons _ _).isInfix)
        · exact .inr behind
  · rintro (here | behind)
    · exact here.trans (List.prefix_append _ _).isInfix
    · exact behind.trans ((List.suffix_cons _ _).trans (List.suffix_append _ _)).isInfix

end Infixes

end Trusca
