import Trusca.Data.Lines
import Trusca.Data.Uri
import Trusca.Triage.TicketUrl

/-! What the check of a ticket address lets through and turns away, told by the parts of the address. -/

namespace Trusca

section Statements

/-- An address for the web that has a host and gives no user. -/
structure TicketUrl (text : List Char) : Prop where
  scheme : ∃ name, (Uri.split text).scheme = some name ∧
    lower (String.ofList name) ∈ ticketUrlAllowedSchemes
  authority : ∃ authority, (Uri.split text).authority = some authority ∧ hostOf authority ≠ [] ∧
    '@' ∉ authority

/-- What is stored is a ticket address, and a ticket address is stored. -/
def TicketUrlGuarded (candidate : String) : Prop :=
  (∀ stored, validateTicketUrl (some candidate) = .ok (some stored) → TicketUrl stored.toList) ∧
    (TicketUrl (strip candidate).toList → hasLineControl (strip candidate).toList = false →
      (strip candidate).toList.length ≤ ticketUrlMaxLen →
        validateTicketUrl (some candidate) = .ok (some (strip candidate)))

/-- An address whose at signs tell what it is: it is refused before they are looked for, or it has a user;
or it has a host, and no at sign behind its authority up to the next slash, or neither of both. Without two
slashes behind the scheme there must be an at sign where the check looks for it. -/
def TicketUrlTold (text : List Char) : Prop :=
  text = [] ∨ ticketUrlMaxLen < text.length ∨ hasLineControl text = true ∨
    ticketScheme text ∉ ticketUrlAllowedSchemes ∨
      match (Uri.split text).authority with
      | some authority =>
          '@' ∈ authority ∨ (hostOf authority ≠ [] ↔ '@' ∉ (Uri.split text).tail.takeWhile (· ≠ '/'))
      | none => '@' ∈ searchedAuthority text

end Statements

section Parts

variable {text name : List Char}

/-- A scheme of the web has no character that ends a scheme. -/
theorem plain_of_lower (web : lower (String.ofList name) ∈ ticketUrlAllowedSchemes) :
    name ≠ [] ∧ ∀ character ∈ name, endsScheme character = false := by
  simp only [ticketUrlAllowedSchemes, List.mem_cons, List.not_mem_nil, or_false, lower, String.toList_ofList,
    ← String.toList_inj] at web
  -- Lower-cased, the name has the letters of http and https only.
  have letters : ∀ letter ∈ name.map lowerChar, letter ∈ ['h', 't', 'p', 's'] := by
    obtain http | https := web
    · rw [http]
      decide
    · rw [https]
      decide
  -- The empty name is neither of them.
  refine ⟨?_, ?_⟩
  · rintro rfl
    obtain http | https := web
    · exact absurd http (by decide)
    · exact absurd https (by decide)
  · -- No letter of theirs ends a scheme.
    intro character member
    have letter := letters _ (List.mem_map_of_mem member)
    rw [← Bool.not_eq_true]
    intro ends
    simp only [endsScheme, Bool.or_eq_true, beq_iff_eq] at ends
    obtain ((rfl | rfl) | rfl) | rfl := ends <;> exact absurd letter (by decide)

/-- A name without a colon is all there is before the colon behind it. -/
theorem takeWhile_colon {rest : List Char} (plain : ':' ∉ name) :
    (name ++ ':' :: rest).takeWhile (· ≠ ':') = name := by
  rw [List.takeWhile_append_of_pos, List.takeWhile_cons_of_neg (by decide), List.append_nil]
  intro character member
  exact decide_eq_true fun same => plain (same ▸ member)

/-- The scheme that is compared is that of the address. -/
theorem ticketScheme_web (web : ticketScheme text ∈ ticketUrlAllowedSchemes) :
    ∃ name rest, text = name ++ ':' :: rest ∧ ':' ∉ name ∧ lower (String.ofList name) ∈ ticketUrlAllowedSchemes ∧
      Uri.split text = ⟨some name, (splitAuthority rest).1, (splitAuthority rest).2⟩ := by
  unfold ticketScheme at web
  split_ifs at web with colon
  · obtain ⟨name, rest, rfl, plain⟩ := List.eq_append_cons_of_mem colon
    rw [takeWhile_colon plain] at web
    obtain ⟨nonempty, letters⟩ := plain_of_lower web
    exact ⟨name, rest, rfl, plain, web, Uri.split_scheme nonempty letters⟩
  · exact absurd web (by decide)

/-- A scheme that is found among the allowed ones is the one taken. -/
theorem ticketScheme_of_scheme (found : (Uri.split text).scheme = some name)
    (web : lower (String.ofList name) ∈ ticketUrlAllowedSchemes) :
    ticketScheme text ∈ ticketUrlAllowedSchemes := by
  obtain ⟨rest, rfl⟩ := Uri.scheme_eq_some found
  have plain : ':' ∉ name := fun member => absurd ((plain_of_lower web).2 ':' member) (by decide)
  unfold ticketScheme
  rwa [if_pos (by simp), takeWhile_colon plain]

/-- With an authority, what is searched is the authority and what follows it up to the next slash. -/
theorem searchedAuthority_eq {rest authority : List Char} (split : text = name ++ ':' :: rest)
    (plain : ':' ∉ name) (found : (splitAuthority rest).1 = some authority) :
    searchedAuthority text = authority ++ (splitAuthority rest).2.takeWhile (· ≠ '/') := by
  unfold splitAuthority at found ⊢
  split at found
  · -- Behind the name stand two slashes and the authority.
    next behind =>
    obtain rfl := Option.some.inj found
    subst split
    have slashes : "//".toList <:+: name ++ ':' :: '/' :: '/' :: behind :=
      ⟨name ++ [':'], behind, by simp⟩
    -- The search starts behind them.
    have dropped : (name ++ ':' :: '/' :: '/' :: behind).drop (name.length + 3) = behind := by
      rw [← List.drop_drop, List.drop_left]
      rfl
    -- No slash is within the authority, so the search goes on over it.
    have inner : ∀ character ∈ behind.takeWhile (!endsAuthority ·), decide (character ≠ '/') = true := by
      intro character member
      have inside := List.mem_takeWhile_imp member
      refine decide_eq_true fun same => ?_
      rw [same] at inside
      exact absurd inside (by decide)
    unfold searchedAuthority
    rw [if_pos slashes, takeWhile_colon plain, dropped]
    conv_lhs => rw [← List.takeWhile_append_dropWhile (p := (!endsAuthority ·)) (l := behind)]
    rw [List.takeWhile_append_of_pos inner]
  · -- Without the two slashes there is no authority.
    cases found

/-- What is searched tells whether an address is one exactly when its at signs do. -/
theorem ticketUrl_searched_iff (web : ticketScheme text ∈ ticketUrlAllowedSchemes) :
    (TicketUrl text ↔ '@' ∉ searchedAuthority text) ↔
      match (Uri.split text).authority with
      | some authority =>
          '@' ∈ authority ∨ (hostOf authority ≠ [] ↔ '@' ∉ (Uri.split text).tail.takeWhile (· ≠ '/'))
      | none => '@' ∈ searchedAuthority text := by
  obtain ⟨name, rest, split, plain, lowered, parts⟩ := ticketScheme_web web
  -- The split of the text gives the same authority.
  have address : TicketUrl text ↔ ∃ authority, (splitAuthority rest).1 = some authority ∧
      hostOf authority ≠ [] ∧ '@' ∉ authority := by
    constructor
    · intro ticket
      obtain ⟨authority, found, hosted⟩ := ticket.authority
      rw [parts] at found
      exact ⟨authority, found, hosted⟩
    · rintro ⟨authority, found, hosted⟩
      exact ⟨⟨name, by rw [parts], lowered⟩, ⟨authority, by rw [parts]; exact found, hosted⟩⟩
  rw [address, parts]
  -- Without one, no ticket URL is there, and the search must find a mark to agree.
  cases found : (splitAuthority rest).1 with
  | none => simp
  | some authority =>
    -- The search runs over the authority and on to the next slash.
    rw [searchedAuthority_eq split plain found, List.mem_append]
    simp only [Option.some.injEq, exists_eq_left']
    -- A user in the authority is found by both.
    by_cases user : '@' ∈ authority
    · simp only [user, not_true, and_false, true_or, iff_self]
    · simp only [user, not_false_eq_true, and_true, false_or]

/-- The check keeps to ticket addresses exactly when the at signs of the address tell what it is. -/
theorem ticketUrlGuarded_iff (candidate : String) :
    TicketUrlGuarded candidate ↔ TicketUrlTold (strip candidate).toList := by
  unfold TicketUrlGuarded TicketUrlTold validateTicketUrl
  dsimp only
  -- The guards, one after another: blank, too long, with a line control, of another scheme.
  by_cases blank : strip candidate = ""
  · rw [if_pos blank]
    refine iff_of_true ⟨fun _ => by simp, fun ticket => ?_⟩ (.inl (by rw [blank]; rfl))
    obtain ⟨name, found, -⟩ := ticket.scheme
    rw [blank] at found
    cases found
  · rw [if_neg blank]
    have visible : (strip candidate).toList ≠ [] := fun empty => blank (String.toList_eq_nil_iff.mp empty)
    by_cases long : ticketUrlMaxLen < (strip candidate).toList.length
    · rw [if_pos long]
      exact iff_of_true ⟨fun _ => by simp, fun _ _ short => absurd long (Nat.not_lt.mpr short)⟩ (.inr (.inl long))
    · rw [if_neg long]
      by_cases control : hasLineControl (strip candidate).toList = true
      · rw [if_pos control]
        refine iff_of_true ⟨fun _ => by simp, fun _ plain => ?_⟩ (.inr (.inr (.inl control)))
        rw [control] at plain
        cases plain
      · rw [if_neg control]
        -- What passes all four is decided by the searched authority.
        by_cases web : ticketScheme (strip candidate).toList ∈ ticketUrlAllowedSchemes
        · rw [if_neg (not_not.mpr web), ← ticketUrl_searched_iff web]
          simp only [visible, long, control, web, not_true, false_or]
          by_cases searched : '@' ∈ searchedAuthority (strip candidate).toList
          · rw [if_pos searched]
            simp [searched, Nat.not_lt.mp long]
          · rw [if_neg searched]
            simp [searched]
        · -- Another scheme is refused, and no ticket URL has it.
          rw [if_pos web]
          refine iff_of_true ⟨fun _ => by simp, fun ticket => ?_⟩ (.inr (.inr (.inr (.inl web))))
          obtain ⟨name, found, lowered⟩ := ticket.scheme
          exact absurd (ticketScheme_of_scheme found lowered) web

end Parts

/-- An address without a host is stored, and one with an at sign in its query is refused. -/
theorem ticketUrlGuarded_fails :
    ¬ TicketUrlGuarded "https:///ABC-1" ∧ ¬ TicketUrlGuarded "https://tracker?to=a@b" := by
  refine ⟨fun guarded => ?_, fun guarded => ?_⟩
  · -- An empty host is stored as it is.
    have stored : validateTicketUrl (some "https:///ABC-1") = .ok (some "https:///ABC-1") := by decide +kernel
    obtain ⟨authority, found, hosted, -⟩ := (guarded.1 _ stored).authority
    have empty : (Uri.split "https:///ABC-1".toList).authority = some [] := by decide +kernel
    rw [empty] at found
    obtain rfl := Option.some.inj found
    exact hosted rfl
  · -- A mark in the query is taken for credentials.
    have refused : validateTicketUrl (some "https://tracker?to=a@b") = .error .credentials := by decide +kernel
    have own : strip "https://tracker?to=a@b" = "https://tracker?to=a@b" := by decide +kernel
    have ticket : TicketUrl (strip "https://tracker?to=a@b").toList := by
      rw [own]
      exact ⟨⟨"https".toList, by decide +kernel, by decide +kernel⟩,
        ⟨"tracker".toList, by decide +kernel, by decide +kernel, by decide +kernel⟩⟩
    have accepted := guarded.2 ticket (by rw [own]; decide +kernel) (by rw [own]; decide +kernel)
    rw [refused] at accepted
    cases accepted

end Trusca
