import Mathlib.Data.List.Basic

/-! The lower case of a text over the whole character set. -/

namespace Trusca

/-- What the character tables say: the lower case of a character, whether it has a case, whether it is
passed over when a word's end is looked for, and whether it belongs to a word of a pattern. -/
structure CaseTable where
  lower : Char → List Char
  cased : Char → Bool
  ignorable : Char → Bool
  word : Char → Bool

namespace CaseTable

variable (table : CaseTable)

/-- What the tables say of ASCII, and of the two small sigmas. -/
structure Lawful : Prop where
  ascii : ∀ character : Char, character.toNat < 128 → table.lower character = [character.toLower]
  sigma : table.word 'ς' = table.word 'σ'

/-- Whether a capital sigma ends a word: a cased character stands before it, and none behind it. The
characters before are listed backwards. -/
def finalSigma (before after : List Char) : Bool :=
  (before.dropWhile table.ignorable).head?.elim false table.cased &&
    !(after.dropWhile table.ignorable).head?.elim false table.cased

/-- The lower case of a character at its place. -/
def lowerAt (before : List Char) (character : Char) (after : List Char) : List Char :=
  if character = 'Σ' then [if table.finalSigma before after then 'ς' else 'σ'] else table.lower character

/-- The lower case of a text behind some characters. -/
def lowerFrom (before : List Char) : List Char → List Char
  | [] => []
  | character :: rest => table.lowerAt before character rest ++ lowerFrom (character :: before) rest

/-- The lower case of a text. -/
def lowerText (text : List Char) : List Char := table.lowerFrom [] text

/-- The tables as far as ASCII goes. -/
def asciiOnly : CaseTable where
  lower character := [character.toLower]
  cased character := character.isAlpha
  ignorable character := character == '.' || character == ':' || character == '\''
  word character := character.isAlphanum || character == '_' || character == 'ς' || character == 'σ'

/-- Casing ASCII letters alone is lawful. -/
theorem asciiOnly_lawful : asciiOnly.Lawful := ⟨fun _ _ => rfl, rfl⟩

end CaseTable

section Sigma

/-- A text in which both small sigmas are the same. -/
def blurSigma (character : Char) : Char := if character = 'ς' then 'σ' else character

/-- Only the two small sigmas are blurred into each other. -/
theorem blurSigma_eq_iff {letter : Char} (notMedial : letter ≠ 'σ') (notFinal : letter ≠ 'ς')
    (character : Char) : blurSigma character = letter ↔ character = letter := by
  unfold blurSigma
  split_ifs with final
  · subst final
    simp [notMedial.symm, notFinal.symm]
  · rfl

end Sigma

end Trusca
