import Mathlib.Data.List.Basic

/-! Percent-encoding of texts: what it writes, and that it can be told apart. -/

namespace Trusca

/-- One hexadecimal digit. -/
def hexDigit (value : Nat) : Char :=
  if value < 10 then Char.ofNat ('0'.toNat + value) else Char.ofNat ('A'.toNat + (value - 10))

/-- Whether a character is written as it is: letters, figures, four marks and the given ones. -/
def isKept (safe : List Char) (character : Char) : Bool :=
  character.isAlphanum || "_.-~".toList.contains character || safe.contains character

/-- How one byte is written. -/
def quoteByte (safe : List Char) (byte : UInt8) : List Char :=
  if byte.toNat < 128 ∧ isKept safe (Char.ofNat byte.toNat) then [Char.ofNat byte.toNat]
  else ['%', hexDigit (byte.toNat / 16), hexDigit (byte.toNat % 16)]

/-- The text with every byte that is not kept percent-encoded. -/
def quote (safe : List Char) (text : String) : String :=
  String.ofList (text.toUTF8.data.toList.flatMap (quoteByte safe))

section Laws

variable {safe : List Char} {text : String}

/-- A hexadecimal digit is a letter or a figure. -/
theorem hexDigit_isAlphanum {value : Nat} (small : value < 16) : (hexDigit value).isAlphanum := by
  revert value
  decide

/-- Different values have different hexadecimal digits. -/
theorem hexDigit_injective {first second : Nat} (one : first < 16) (two : second < 16)
    (same : hexDigit first = hexDigit second) : first = second := by
  have digits : ∀ first < 16, ∀ second < 16, hexDigit first = hexDigit second → first = second := by
    decide
  exact digits first one second two same

/-- A code of ASCII is read back from its character. -/
theorem toNat_ofNat {code : Nat} (small : code < 128) : (Char.ofNat code).toNat = code := by
  have codes : ∀ code < 128, (Char.ofNat code).toNat = code := by decide
  exact codes code small

/-- A quoted text has only kept characters and percent signs. -/
theorem mem_quote {character : Char} (member : character ∈ (quote safe text).toList) :
    character = '%' ∨ isKept safe character = true := by
  rw [quote, String.toList_ofList] at member
  obtain ⟨byte, _, written⟩ := List.mem_flatMap.mp member
  have size := byte.toNat_lt
  rw [quoteByte] at written
  -- A byte that is kept is its own character.
  split_ifs at written with kept
  · rw [List.mem_singleton.mp written]
    exact .inr kept.2
  · -- Any other is a percent sign and two digits, which are kept themselves.
    have digit (value : Nat) (small : value < 16) : isKept safe (hexDigit value) = true := by
      simp [isKept, hexDigit_isAlphanum small]
    simp only [List.mem_cons, List.not_mem_nil, or_false] at written
    rcases written with rfl | rfl | rfl
    · exact .inl rfl
    · exact .inr (digit _ (by omega))
    · exact .inr (digit _ (by omega))

/-- The first byte can be told from what follows it. -/
theorem quoteByte_append (percent : isKept safe '%' = false) {first second : UInt8}
    {rest others : List Char} (same : quoteByte safe first ++ rest = quoteByte safe second ++ others) :
    first = second ∧ rest = others := by
  have sizes := And.intro first.toNat_lt second.toNat_lt
  -- A byte that is kept is not the sign that starts an escaped one.
  have not_percent (byte : UInt8) (kept : isKept safe (Char.ofNat byte.toNat) = true) :
      Char.ofNat byte.toNat ≠ '%' := by
    intro sign
    rw [sign, percent] at kept
    cases kept
  rw [quoteByte, quoteByte] at same
  -- Either both bytes are kept or both are escaped.
  split_ifs at same with one two two
  · obtain ⟨head, tail⟩ := List.cons.inj same
    refine ⟨UInt8.toNat_inj.mp ?_, tail⟩
    have codes := congrArg Char.toNat head
    rwa [toNat_ofNat one.1, toNat_ofNat two.1] at codes
  · exact absurd (List.cons.inj same).1 (not_percent first one.2)
  · exact absurd (List.cons.inj same).1.symm (not_percent second two.2)
  · -- The two hexadecimal digits are the quotient and the remainder of the byte.
    simp only [List.cons_append, List.nil_append, List.cons.injEq, true_and] at same
    obtain ⟨high, low, tail⟩ := same
    have quotient := hexDigit_injective (by omega) (by omega) high
    have remainder := hexDigit_injective (by omega) (by omega) low
    exact ⟨UInt8.toNat_inj.mp (by omega), tail⟩

/-- Texts that are quoted alike are the same. -/
theorem quote_injective (percent : isKept safe '%' = false) : Function.Injective (quote safe) := by
  intro first second same
  -- The written bytes are read back from the front, as each byte is written as something.
  have bytes : ∀ one two : List UInt8,
      one.flatMap (quoteByte safe) = two.flatMap (quoteByte safe) → one = two := by
    have written (byte : UInt8) : quoteByte safe byte ≠ [] := by
      rw [quoteByte]
      split_ifs <;> simp
    intro one
    induction one with
    | nil =>
      intro two quoted
      cases two with
      | nil => rfl
      | cons byte rest => simp [written] at quoted
    | cons byte rest ih =>
      intro two quoted
      cases two with
      | nil => simp [written] at quoted
      | cons other others =>
        rw [List.flatMap_cons, List.flatMap_cons] at quoted
        obtain ⟨rfl, tail⟩ := quoteByte_append percent quoted
        rw [ih others tail]
  -- Texts with the same bytes are the same.
  have lists := bytes _ _ (String.ofList_inj.mp same)
  refine String.toByteArray_inj.mp (ByteArray.ext ?_)
  exact Array.toList_inj.mp lists

/-- A text that is not empty is quoted as something. -/
theorem quote_ne_empty (percent : isKept safe '%' = false) (some_text : text ≠ "") :
    quote safe text ≠ "" := by
  intro empty
  have nothing : quote safe "" = "" := rfl
  exact some_text (quote_injective percent (empty.trans nothing.symm))

end Laws

end Trusca
