import Mathlib.Data.List.DropRight

/-! The parts of an address by the generic syntax of URIs. -/

namespace Trusca

/-- The characters that end a scheme. -/
def endsScheme (character : Char) : Bool :=
  character == ':' || character == '/' || character == '?' || character == '#'

/-- The characters that end an authority. -/
def endsAuthority (character : Char) : Bool := character == '/' || character == '?' || character == '#'

/-- An address by its parts; path, query and fragment are the tail. -/
structure Uri where
  scheme : Option (List Char)
  authority : Option (List Char)
  tail : List Char
  deriving Repr, DecidableEq

/-- The authority behind two slashes, and the rest. -/
def splitAuthority : List Char → Option (List Char) × List Char
  | '/' :: '/' :: rest => (some (rest.takeWhile (!endsAuthority ·)), rest.dropWhile (!endsAuthority ·))
  | text => (none, text)

/-- The parts of an address. -/
def Uri.split (text : List Char) : Uri :=
  let name := text.takeWhile (!endsScheme ·)
  match name, text.dropWhile (!endsScheme ·) with
  | _ :: _, ':' :: rest => ⟨some name, (splitAuthority rest).1, (splitAuthority rest).2⟩
  | _, _ => ⟨none, (splitAuthority text).1, (splitAuthority text).2⟩

/-- What stands behind the last at sign of an authority. -/
def hostAndPort (authority : List Char) : List Char := authority.rtakeWhile (· ≠ '@')

/-- The host of an authority; one in brackets may have colons. -/
def hostOf (authority : List Char) : List Char :=
  match hostAndPort authority with
  | '[' :: literal => '[' :: literal.takeWhile (· ≠ ']')
  | name => name.takeWhile (· ≠ ':')

/-- A scheme of letters is told from what follows its colon. -/
theorem Uri.split_scheme {name rest : List Char} (nonempty : name ≠ [])
    (plain : ∀ character ∈ name, endsScheme character = false) :
    Uri.split (name ++ ':' :: rest) = ⟨some name, (splitAuthority rest).1, (splitAuthority rest).2⟩ := by
  have taken : (name ++ ':' :: rest).takeWhile (!endsScheme ·) = name := by
    rw [List.takeWhile_append_of_pos (by simpa using plain), List.takeWhile_cons_of_neg (by decide),
      List.append_nil]
  have dropped : (name ++ ':' :: rest).dropWhile (!endsScheme ·) = ':' :: rest := by
    rw [List.dropWhile_append_of_pos (by simpa using plain), List.dropWhile_cons_of_neg (by decide)]
  obtain ⟨first, others, rfl⟩ := List.exists_cons_of_ne_nil nonempty
  simp only [Uri.split, taken, dropped]

/-- The scheme of an address stands before its first colon. -/
theorem Uri.scheme_eq_some {text name : List Char} (found : (Uri.split text).scheme = some name) :
    ∃ rest, text = name ++ ':' :: rest := by
  unfold Uri.split at found
  dsimp only at found
  split at found
  · next first others rest before behind =>
    obtain rfl := Option.some.inj found
    exact ⟨rest, by rw [← behind, List.takeWhile_append_dropWhile]⟩
  · cases found

end Trusca
