import Mathlib.Data.List.Infix
import Trusca.Data.Text

/-! The address of a ticket, as it is checked before it is stored with a finding. -/

namespace Trusca

/-- The longest address. -/
def ticketUrlMaxLen : Nat := 2048

/-- Why an address is refused. -/
inductive TicketUrlInvalid where
  | tooLong
  | controlCharacters
  | scheme
  | credentials
  deriving Repr, DecidableEq

/-- What the operator is told. -/
def TicketUrlInvalid.detail : TicketUrlInvalid → String
  | .tooLong => s!"ticket_url must be at most {ticketUrlMaxLen} characters"
  | .controlCharacters => "ticket_url must not contain control characters"
  | .scheme => "ticket_url must be an http:// or https:// address"
  | .credentials => "ticket_url must not embed credentials (user:password@host)"

/-- The schemes that are allowed. -/
def ticketUrlAllowedSchemes : List String := ["http", "https"]

/-- Whether a text has a control character that breaks lines or their rendering. -/
def hasLineControl (text : List Char) : Bool :=
  text.any fun character => character.toNat < 0x20 || character.toNat == 0x7F

/-- The scheme as it is compared; without a colon there is none. -/
def ticketScheme (text : List Char) : String :=
  if ':' ∈ text then lower (String.ofList (text.takeWhile (· ≠ ':'))) else ""

/-- What is searched for credentials: from the third character behind the colon up to the next slash, if
there are two slashes anywhere. -/
def searchedAuthority (text : List Char) : List Char :=
  if "//".toList <:+: text then
    (text.drop ((text.takeWhile (· ≠ ':')).length + 3)).takeWhile (· ≠ '/')
  else []

/-- The address that is stored, if it is one; a blank text clears it. -/
def validateTicketUrl (candidate : Option String) : Except TicketUrlInvalid (Option String) :=
  match candidate with
  | none => .ok none
  | some candidate =>
      let trimmed := strip candidate
      let text := trimmed.toList
      -- A blank address clears the link.
      if trimmed = "" then .ok none
      else if ticketUrlMaxLen < text.length then .error .tooLong
      else if hasLineControl text then .error .controlCharacters
      -- Only the schemes a browser opens as a page.
      else if ticketScheme text ∉ ticketUrlAllowedSchemes then .error .scheme
      -- Credentials in the authority would show up wherever the link does.
      else if '@' ∈ searchedAuthority text then .error .credentials
      else .ok (some trimmed)

end Trusca
