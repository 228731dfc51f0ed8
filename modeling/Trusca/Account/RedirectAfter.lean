import Trusca.Data.UrlSplit

/-! Where a sign-in goes afterwards: the targets that are obeyed, and the origin that a browser reaches with them. -/

namespace Trusca

/-- The most characters of a target. -/
def maxRedirectLength : Nat := 2000

/-- The characters that no target has: they split a line of a log or a header. -/
def isRedirectControl (character : Char) : Bool := character.toNat < 0x20 || character.toNat == 0x7F

/-- Whether a trimmed target is refused before it is parsed. -/
def refusedEarly (value : List Char) : Bool :=
  value.isEmpty || decide (maxRedirectLength < value.length) || value.any isRedirectControl

/-- Whether a path begins like an authority. -/
def beginsAuthority (value : List Char) : Bool :=
  ['/', '/'].isPrefixOf value || ['/', '\\'].isPrefixOf value

/-- Reduce a target to one that is safe to obey. The configured front end is the default. -/
def safeRedirectAfter (bracketed : List Char → Bool) (redirectDefault : List Char) :
    Option String → Except UrlError (Option String)
  | none => .ok none
  | some candidate =>
      -- Stripped once, and every later test is on the stripped text.
      let value := strip candidate
      if refusedEarly value.toList then .ok none
      -- A path of this site, unless it begins like an authority.
      else if value.toList.head? = some '/' then
        if beginsAuthority value.toList then .ok none else .ok (some value)
      else do
        -- Either address may be one that `urlsplit` raises on, and nothing here catches it.
        let parsed ← urlsplit bracketed value.toList
        let configured ← urlsplit bracketed redirectDefault
        -- Scheme and host of the address have to be the configured ones.
        if parsed.scheme ≠ [] ∧ parsed.scheme = configured.scheme ∧ parsed.netloc = configured.netloc then
          return some value
        else return none

end Trusca
