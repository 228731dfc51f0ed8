import Trusca.Data.Text
import Trusca.Data.Uri

/-! Two readings of an address: the one of the services' URL library, and the one of a browser. -/

namespace Trusca

/-- The control characters and the space, which both readings skip in front. -/
def isControlOrSpace (character : Char) : Bool := character.toNat ≤ 0x20

/-- The characters that both readings remove wherever they stand. -/
def isRemoved (character : Char) : Bool :=
  character == '\t' || character == '\r' || character == '\n'

/-- The characters of a scheme. -/
def isSchemeCharacter (character : Char) : Bool :=
  character.isAlphanum || character == '+' || character == '-' || character == '.'

/-- The characters that normalization turns into a text with a delimiter of the authority. -/
def delimitsNormalized (character : Char) : Bool :=
  [0x2047, 0x2048, 0x2049, 0x2100, 0x2101, 0x2105, 0x2106, 0x2A74, 0xFE13, 0xFE16, 0xFE55, 0xFE56, 0xFE5F,
    0xFE6B, 0xFF03, 0xFF0F, 0xFF1A, 0xFF1F, 0xFF20].contains character.toNat

/-- What the URL library says of an address that it refuses. -/
inductive UrlError where
  | invalidIpv6
  | invalidUnderNormalization
  deriving Repr, DecidableEq

/-- What the URL library reads of an address. -/
structure SplitResult where
  scheme : List Char
  netloc : List Char
  rest : List Char
  deriving Repr, DecidableEq

/-- The scheme of an address in lower case, and what follows its colon. -/
def cutScheme (text : List Char) : List Char × List Char :=
  match text.takeWhile (· ≠ ':'), text.dropWhile (· ≠ ':') with
  | first :: name, ':' :: rest =>
      if first.isAlpha && (first :: name).all isSchemeCharacter then ((first :: name).map Char.toLower, rest)
      else ([], text)
  | _, _ => ([], text)

section Library

variable (bracketed : List Char → Bool)

/-- The checks of an authority. The one of an address in brackets is a parameter. -/
def checkNetloc (netloc : List Char) : Except UrlError Unit :=
  if '[' ∈ netloc ∧ ']' ∉ netloc ∨ ']' ∈ netloc ∧ '[' ∉ netloc then .error .invalidIpv6
  else if '[' ∈ netloc ∧ ']' ∈ netloc ∧ ¬ bracketed netloc then .error .invalidIpv6
  else if netloc.any delimitsNormalized then .error .invalidUnderNormalization
  else .ok ()

/-- The scheme and the authority of an address, as the URL library reads them. -/
def urlsplit (url : List Char) : Except UrlError SplitResult := do
  -- Leading blanks and controls go, and three characters everywhere.
  let cleaned := (url.dropWhile isControlOrSpace).filter (!isRemoved ·)
  let (scheme, rest) := cutScheme cleaned
  let (authority, rest) := splitAuthority rest
  let netloc := authority.getD []
  checkNetloc bracketed netloc
  return ⟨scheme, netloc, rest⟩

/-- The parts that the URL library reads, one after the other. -/
theorem urlsplit_eq_ok {url : List Char} {parsed : SplitResult} (parses : urlsplit bracketed url = .ok parsed) :
    ∃ rest authority,
      cutScheme ((url.dropWhile isControlOrSpace).filter (!isRemoved ·)) = (parsed.scheme, rest) ∧
        splitAuthority rest = (authority, parsed.rest) ∧ parsed.netloc = authority.getD [] := by
  simp only [urlsplit, bind, Except.bind, pure, Except.pure] at parses
  split at parses
  · cases parses
  · obtain rfl := Except.ok.inj parses
    exact ⟨_, _, rfl, rfl, rfl⟩

end Library

/-- Whether a character separates the parts of an address of the web: a backslash counts as a slash. -/
def isWebSlash (character : Char) : Bool := character == '/' || character == '\\'

/-- The scheme that a browser reads, and what follows its colon. -/
def browserScheme (text : List Char) : Option (List Char × List Char) :=
  match text.takeWhile isSchemeCharacter, text.dropWhile isSchemeCharacter with
  | first :: name, ':' :: rest => if first.isAlpha then some ((first :: name).map Char.toLower, rest) else none
  | _, _ => none

/-- A scheme with the place that an authority means. -/
structure Origin (σ : Type) where
  scheme : List Char
  place : σ
  deriving Repr, DecidableEq

/-- The two schemes of the web. -/
def IsWeb (scheme : List Char) : Prop := scheme = "http".toList ∨ scheme = "https".toList

instance (scheme : List Char) : Decidable (IsWeb scheme) := inferInstanceAs (Decidable (_ ∨ _))

section Browser

variable {σ : Type} (place : List Char → List Char → Option σ)

/-- The origin behind the slashes of an address of the web. -/
def webAuthority (scheme text : List Char) : Option (Origin σ) :=
  let authority := (text.dropWhile isWebSlash).takeWhile fun character =>
    !(endsAuthority character || isWebSlash character)
  (place scheme authority).map fun found => ⟨scheme, found⟩

/-- The origin of an address without a scheme of its own. -/
def relativeOrigin (base : Origin σ) : List Char → Option (Origin σ)
  | first :: second :: rest =>
      if isWebSlash first && isWebSlash second then webAuthority place base.scheme (first :: second :: rest)
      else some base
  | _ => some base

/-- The origin of the web that a browser goes to from a page, if it is one. -/
def browserOrigin (base : Origin σ) (url : List Char) : Option (Origin σ) :=
  let cleaned := ((url.dropWhile isControlOrSpace).rdropWhile isControlOrSpace).filter (!isRemoved ·)
  match browserScheme cleaned with
  | none => relativeOrigin place base cleaned
  | some (scheme, rest) =>
      if IsWeb scheme then
        -- With the scheme of the page, an address needs both slashes to leave its host.
        if scheme = base.scheme ∧ ¬ ['/', '/'].isPrefixOf rest then relativeOrigin place base rest
        else webAuthority place scheme rest
      else none

end Browser

end Trusca
