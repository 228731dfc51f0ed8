import Trusca.Account.RedirectAfter
import Trusca.Data.Lines

/-! No target of a sign-in leaves the portal and its front end, but a malformed one is not refused: it fails. -/

namespace Trusca

/-- The host that a browser reads of an authority, with the port: what stands before its first backslash, those
in front apart. -/
def hostText (netloc : List Char) : List Char := (netloc.dropWhile isWebSlash).takeWhile (!isWebSlash ·)

/-- The origin of a configured front end: the scheme and the host that the URL library reads of it. -/
def frontOrigin {σ : Type} (bracketed : List Char → Bool) (place : List Char → List Char → Option σ)
    (redirectDefault : List Char) : Option (Origin σ) :=
  match urlsplit bracketed redirectDefault with
  | .ok configured =>
      if hostText configured.netloc = [] then none
      else (place configured.scheme (hostText configured.netloc)).map (Origin.mk configured.scheme)
  | .error _ => none

section Redirects

variable {σ : Type} {bracketed : List Char → Bool} {place : List Char → List Char → Option σ}
  {redirectDefault : List Char}

/-- Every target that is obeyed leads to the portal or the front end, nothing is raised, and a second check
changes nothing. -/
structure SafeRedirect (bracketed : List Char → Bool) (place : List Char → List Char → Option σ)
    (redirectDefault : List Char) (base : Origin σ) (candidate : Option String) : Prop where
  answers : ∃ target, safeRedirectAfter bracketed redirectDefault candidate = .ok target
  stays : ∀ target, safeRedirectAfter bracketed redirectDefault candidate = .ok (some target) →
    browserOrigin place base target.toList = some base ∨
      ∃ origin, browserOrigin place base target.toList = some origin ∧
        frontOrigin bracketed place redirectDefault = some origin
  again : ∀ target, safeRedirectAfter bracketed redirectDefault candidate = .ok target →
    safeRedirectAfter bracketed redirectDefault target = .ok target

/-- What the URL library reads of a target means a place of the web: it has a host that does. Without a host,
the browser does not leave the portal. -/
def MeansPlace (place : List Char → List Char → Option σ) (base : Origin σ) (value : List Char)
    (parsed : SplitResult) : Prop :=
  IsWeb parsed.scheme ∧
    if hostText parsed.netloc = [] then browserOrigin place base value = some base
    else (place parsed.scheme (hostText parsed.netloc)).isSome

/-- The URL library accepts what it is given of a target, and the configured front end; and where it finds the
scheme and the authority of the front end in the target, they mean a place of the web. A target that is refused
early or begins with a slash is not given to the library. -/
def Accepted (bracketed : List Char → Bool) (place : List Char → List Char → Option σ)
    (redirectDefault : List Char) (base : Origin σ) (candidate : Option String) : Prop :=
  ∀ text ∈ candidate, refusedEarly (strip text).toList = false → (strip text).toList.head? ≠ some '/' →
    ∃ parsed configured, urlsplit bracketed (strip text).toList = .ok parsed ∧
      urlsplit bracketed redirectDefault = .ok configured ∧
        (parsed.scheme ≠ [] → parsed.scheme = configured.scheme → parsed.netloc = configured.netloc →
          MeansPlace place base (strip text).toList parsed)

/-- A trimmed text has no space at its ends. -/
theorem trimmed_strip (text : String) : (strip text).toList.dropWhile isSpace = (strip text).toList ∧
    (strip text).toList.rdropWhile isSpace = (strip text).toList := by
  -- Stripped twice is stripped once, so nothing is left to strip at either end.
  have again := toList_strip (strip text)
  rw [strip_strip] at again
  have front := List.dropWhile_suffix isSpace (l := (strip text).toList)
  have back := List.rdropWhile_prefix isSpace ((strip text).toList.dropWhile isSpace)
  rw [← again] at back
  have same := front.eq_of_length (Nat.le_antisymm front.length_le back.length_le)
  rw [same] at again
  exact ⟨same, again.symm⟩

/-- A target that is not refused early has no control character. -/
theorem plain_of_kept {value : List Char} (kept : refusedEarly value = false) {character : Char}
    (member : character ∈ value) : ¬ character.toNat < 0x20 := by
  intro low
  simp only [refusedEarly, Bool.or_eq_false_iff, List.any_eq_false, isRedirectControl] at kept
  exact kept.2 character member (by simp [low])

/-- What both readings skip at an end is a control character, or would have been trimmed. -/
theorem not_skipped {character : Char} (plain : ¬ character.toNat < 0x20) (word : ¬ isSpace character) :
    ¬ isControlOrSpace character := by
  intro skipped
  simp only [isControlOrSpace, decide_eq_true_eq] at skipped
  have space : character.toNat = 0x20 := by omega
  exact word (by simp [isSpace, space])

/-- A stripped text that is not refused begins with no control and no space. -/
theorem dropWhile_strip {text : String} (kept : refusedEarly (strip text).toList = false) :
    (strip text).toList.dropWhile isControlOrSpace = (strip text).toList := by
  have trimmed := List.dropWhile_eq_self_iff.mp (trimmed_strip text).1
  rw [List.dropWhile_eq_self_iff]
  intro nonempty
  exact not_skipped (plain_of_kept kept (List.getElem_mem nonempty)) (trimmed nonempty)

/-- A stripped text that is not refused ends in no control and no space. -/
theorem rdropWhile_strip {text : String} (kept : refusedEarly (strip text).toList = false) :
    (strip text).toList.rdropWhile isControlOrSpace = (strip text).toList := by
  have trimmed := List.rdropWhile_eq_self_iff.mp (trimmed_strip text).2
  rw [List.rdropWhile_eq_self_iff]
  intro nonempty
  exact not_skipped (plain_of_kept kept (List.getLast_mem nonempty)) (trimmed nonempty)

/-- A stripped text that is not refused holds no character the browser removes. -/
theorem filter_strip {text : String} (kept : refusedEarly (strip text).toList = false) :
    (strip text).toList.filter (!isRemoved ·) = (strip text).toList := by
  rw [List.filter_eq_self]
  intro character member
  by_contra removed
  refine plain_of_kept kept member ?_
  simp only [isRemoved, Bool.not_eq_true', Bool.not_eq_false, Bool.or_eq_true, beq_iff_eq] at removed
  obtain (rfl | rfl) | rfl := removed
  all_goals decide

/-- Both readings find the same scheme, where the library finds one. -/
theorem browserScheme_of_cutScheme {text scheme rest : List Char} (found : cutScheme text = (scheme, rest))
    (named : scheme ≠ []) : browserScheme text = some (scheme, rest) := by
  -- What stands before the first colon and what follows make up the text.
  have split := @List.takeWhile_append_dropWhile _ (· ≠ ':') text
  unfold cutScheme at found
  split at found
  · next first name behind before after =>
    rw [before, after] at split
    by_cases valid : (first.isAlpha && (first :: name).all isSchemeCharacter) = true
    · rw [if_pos valid] at found
      obtain ⟨rfl, rfl⟩ := Prod.mk.inj found
      obtain ⟨letter, characters⟩ := Bool.and_eq_true_iff.mp valid
      have listed := List.all_eq_true.mp characters
      -- A browser stops reading the name at the same colon, as everything before it may stand in a name.
      have taken : text.takeWhile isSchemeCharacter = first :: name := by
        rw [← split, List.takeWhile_append_of_pos listed, List.takeWhile_cons_of_neg (by decide), List.append_nil]
      have dropped : text.dropWhile isSchemeCharacter = ':' :: behind := by
        rw [← split, List.dropWhile_append_of_pos listed, List.dropWhile_cons_of_neg (by decide)]
      simp only [browserScheme, taken, dropped, letter, if_true]
    · -- A name that the library refuses is no scheme for it.
      rw [if_neg valid] at found
      exact absurd (Prod.mk.inj found).1.symm named
  · exact absurd (Prod.mk.inj found).1.symm named

/-- An authority stands behind two slashes. -/
theorem splitAuthority_some {text netloc rest : List Char} (found : splitAuthority text = (some netloc, rest)) :
    ∃ behind, text = '/' :: '/' :: behind ∧ netloc = behind.takeWhile (!endsAuthority ·) := by
  unfold splitAuthority at found
  split at found
  · next behind => exact ⟨behind, rfl, (Option.some.inj (Prod.mk.inj found).1).symm⟩
  · exact absurd (Prod.mk.inj found).1 (by simp)

/-- What is taken of two texts is taken of the first one, where nothing is taken of the second. -/
theorem takeWhile_append_stop {front back : List Char} {takes takes' : Char → Bool}
    (same : ∀ character ∈ front, takes character = takes' character) (stop : back.takeWhile takes = []) :
    (front ++ back).takeWhile takes = front.takeWhile takes' := by
  induction front with
  | nil => exact stop
  | cons first rest ih =>
    obtain ⟨here, later⟩ := List.forall_mem_cons.mp same
    rw [List.cons_append, List.takeWhile_cons, List.takeWhile_cons, here, ih later]

/-- A browser reads the host of the authority that the library reads, when there is one. -/
theorem webAuthority_splitAuthority {scheme text netloc rest : List Char}
    (found : splitAuthority text = (some netloc, rest)) (hosted : hostText netloc ≠ []) :
    webAuthority place scheme text = (place scheme (hostText netloc)).map (Origin.mk scheme) := by
  obtain ⟨behind, rfl, taken⟩ := splitAuthority_some found
  have split := @List.takeWhile_append_dropWhile _ (!endsAuthority ·) behind
  rw [← taken] at split
  -- Within the authority only a backslash ends what a browser reads, and behind it the end of the authority does.
  have inside : ∀ character ∈ netloc.dropWhile isWebSlash,
      (!(endsAuthority character || isWebSlash character)) = !isWebSlash character := by
    intro character member
    have within := (List.dropWhile_suffix isWebSlash).mem member
    rw [taken] at within
    have plain := @List.mem_takeWhile_imp _ (!endsAuthority ·) _ _ within
    simp only [Bool.not_eq_true'] at plain
    rw [plain, Bool.false_or]
  -- What ends the authority ends what the browser reads as well.
  have ended : (behind.dropWhile (!endsAuthority ·)).takeWhile
      (fun character => !(endsAuthority character || isWebSlash character)) = [] := by
    cases after : behind.dropWhile (!endsAuthority ·) with
    | nil => rfl
    | cons first others =>
      have stop := List.head_dropWhile_not (!endsAuthority ·) (l := behind) (by simp [after])
      simp only [after, List.head_cons, Bool.not_eq_false'] at stop
      rw [List.takeWhile_cons_of_neg (by simp [stop])]
  have some_host : netloc.dropWhile isWebSlash ≠ [] := by
    intro none_left
    exact hosted (by rw [hostText, none_left]; rfl)
  -- The slashes before the host go, and the host is what comes next.
  have dropped : ('/' :: '/' :: behind).dropWhile isWebSlash =
      netloc.dropWhile isWebSlash ++ behind.dropWhile (!endsAuthority ·) := by
    rw [List.dropWhile_cons_of_pos (by decide), List.dropWhile_cons_of_pos (by decide)]
    conv_lhs => rw [← split, List.dropWhile_append, if_neg (by simpa using some_host)]
  rw [webAuthority, dropped, takeWhile_append_stop inside ended, hostText]

/-- Where a browser goes with a target in which the library finds a scheme of the web and a host. -/
theorem browserOrigin_hosted {base : Origin σ} {text : String} (kept : refusedEarly (strip text).toList = false)
    {parsed : SplitResult} (parses : urlsplit bracketed (strip text).toList = .ok parsed)
    (web : IsWeb parsed.scheme) (hosted : hostText parsed.netloc ≠ []) :
    browserOrigin place base (strip text).toList =
      (place parsed.scheme (hostText parsed.netloc)).map (Origin.mk parsed.scheme) := by
  -- What the parser has cut: the scheme, then two slashes, then the authority.
  obtain ⟨rest, authority, cut, split, read⟩ := urlsplit_eq_ok bracketed parses
  rw [dropWhile_strip kept, filter_strip kept] at cut
  have named : parsed.scheme ≠ [] := by
    obtain web | web := web <;> rw [web] <;> decide
  cases authority with
  | none => exact absurd (by rw [read]; rfl) hosted
  | some authority =>
    obtain rfl : parsed.netloc = authority := read
    obtain ⟨behind, slashes, -⟩ := splitAuthority_some split
    -- The browser reads the same three parts.
    rw [browserOrigin, dropWhile_strip kept, rdropWhile_strip kept, filter_strip kept,
      browserScheme_of_cutScheme cut named]
    dsimp only
    rw [if_pos web, if_neg (by simp [slashes]), webAuthority_splitAuthority split hosted]

/-- A browser goes to no origin of the web with a target in which the library finds another scheme. -/
theorem browserOrigin_foreign {base : Origin σ} {text : String} (kept : refusedEarly (strip text).toList = false)
    {parsed : SplitResult} (parses : urlsplit bracketed (strip text).toList = .ok parsed)
    (named : parsed.scheme ≠ []) (foreign : ¬IsWeb parsed.scheme) :
    browserOrigin place base (strip text).toList = none := by
  obtain ⟨rest, authority, cut, -, -⟩ := urlsplit_eq_ok bracketed parses
  rw [dropWhile_strip kept, filter_strip kept] at cut
  rw [browserOrigin, dropWhile_strip kept, rdropWhile_strip kept, filter_strip kept,
    browserScheme_of_cutScheme cut named]
  exact if_neg foreign

/-- A target in which the library finds the scheme and the authority of the front end leads to the portal or the
front end exactly when they mean a place. -/
theorem leads_iff_meansPlace {base : Origin σ} {text : String} (kept : refusedEarly (strip text).toList = false)
    {parsed configured : SplitResult} (parses : urlsplit bracketed (strip text).toList = .ok parsed)
    (front : urlsplit bracketed redirectDefault = .ok configured) (named : parsed.scheme ≠ [])
    (scheme : parsed.scheme = configured.scheme) (netloc : parsed.netloc = configured.netloc) :
    (browserOrigin place base (strip text).toList = some base ∨
      ∃ origin, browserOrigin place base (strip text).toList = some origin ∧
        frontOrigin bracketed place redirectDefault = some origin) ↔
      MeansPlace place base (strip text).toList parsed := by
  -- The front end has the scheme and the authority of the target.
  have configured_origin : frontOrigin bracketed place redirectDefault =
      if hostText parsed.netloc = [] then none
      else (place parsed.scheme (hostText parsed.netloc)).map (Origin.mk parsed.scheme) := by
    rw [frontOrigin, front, scheme, netloc]
  rw [MeansPlace, configured_origin]
  -- A browser reads the authority of a web address only.
  by_cases web : IsWeb parsed.scheme
  · rw [and_iff_right web]
    by_cases hosted : hostText parsed.netloc = []
    · simp [hosted]
    · rw [if_neg hosted, if_neg hosted, browserOrigin_hosted kept parses web hosted]
      cases place parsed.scheme (hostText parsed.netloc) with
      | none => simp
      | some found => simp
  · rw [browserOrigin_foreign kept parses named web]
    simp [web]

/-- A path of the portal leads a browser to the portal. -/
theorem browserOrigin_path {base : Origin σ} {text : String} (kept : refusedEarly (strip text).toList = false)
    (path : (strip text).toList.head? = some '/') (inner : beginsAuthority (strip text).toList = false) :
    browserOrigin place base (strip text).toList = some base := by
  rw [browserOrigin, dropWhile_strip kept, rdropWhile_strip kept, filter_strip kept]
  obtain ⟨rest, split⟩ := List.head?_eq_some_iff.mp path
  rw [split] at inner ⊢
  -- A slash begins no scheme, so the target is read against the page.
  have unnamed : browserScheme ('/' :: rest) = none := by
    rw [browserScheme, List.takeWhile_cons_of_neg (by decide)]
  rw [unnamed]
  cases rest with
  | nil => rfl
  | cons second rest =>
    -- The second character is no slash of either kind, and the path stays on the host of the page.
    have apart : isWebSlash second = false := by
      simp only [beginsAuthority, List.isPrefixOf, beq_self_eq_true, Bool.true_and, Bool.and_true,
        Bool.or_eq_false_iff, beq_eq_false_iff_ne] at inner
      simp only [isWebSlash, Bool.or_eq_false_iff, beq_eq_false_iff_ne]
      exact ⟨inner.1.symm, inner.2.symm⟩
    simp [relativeOrigin, apart]

/-- A trimmed target is treated like the target. -/
theorem safeRedirectAfter_strip (redirectDefault : List Char) (text : String) :
    safeRedirectAfter bracketed redirectDefault (some (strip text)) =
      safeRedirectAfter bracketed redirectDefault (some text) := by
  simp only [safeRedirectAfter, strip_strip]

/-- The answer to a target that the library is given, when it accepts it and the front end. -/
theorem safeRedirectAfter_given {text : String} (kept : refusedEarly (strip text).toList = false)
    (outside : (strip text).toList.head? ≠ some '/') {parsed configured : SplitResult}
    (parses : urlsplit bracketed (strip text).toList = .ok parsed)
    (front : urlsplit bracketed redirectDefault = .ok configured) :
    safeRedirectAfter bracketed redirectDefault (some text) =
      .ok (if parsed.scheme ≠ [] ∧ parsed.scheme = configured.scheme ∧ parsed.netloc = configured.netloc then
        some (strip text) else none) := by
  simp only [safeRedirectAfter, kept, Bool.false_eq_true, if_false, if_neg outside, parses, front, bind, Except.bind]
  split <;> rfl

/-- The answer to an accepted target: nothing, or the trimmed target, which leads to the portal or the front
end. -/
theorem safeRedirectAfter_answer {base : Origin σ} {text : String}
    (accepted : Accepted bracketed place redirectDefault base (some text)) :
    safeRedirectAfter bracketed redirectDefault (some text) = .ok none ∨
      safeRedirectAfter bracketed redirectDefault (some text) = .ok (some (strip text)) ∧
        (browserOrigin place base (strip text).toList = some base ∨
          ∃ origin, browserOrigin place base (strip text).toList = some origin ∧
            frontOrigin bracketed place redirectDefault = some origin) := by
  -- The early refusal comes first, then the path, and then the comparison with the front end.
  cases kept : refusedEarly (strip text).toList with
  | true => exact .inl (by simp only [safeRedirectAfter, kept, if_true])
  | false =>
    by_cases path : (strip text).toList.head? = some '/'
    · cases inner : beginsAuthority (strip text).toList with
      | true => exact .inl (by simp [safeRedirectAfter, kept, path, inner])
      | false =>
        exact .inr ⟨by simp [safeRedirectAfter, kept, path, inner], .inl (browserOrigin_path kept path inner)⟩
    · obtain ⟨parsed, configured, parses, front, means⟩ := accepted text rfl kept path
      rw [safeRedirectAfter_given kept path parses front]
      by_cases own : parsed.scheme ≠ [] ∧ parsed.scheme = configured.scheme ∧ parsed.netloc = configured.netloc
      · rw [if_pos own]
        exact .inr ⟨rfl, (leads_iff_meansPlace kept parses front own.1 own.2.1 own.2.2).mpr
          (means own.1 own.2.1 own.2.2)⟩
      · rw [if_neg own]
        exact .inl rfl

/-- A target that is safe is accepted. -/
theorem accepted_of_safe {base : Origin σ} {candidate : Option String}
    (safe : SafeRedirect bracketed place redirectDefault base candidate) :
    Accepted bracketed place redirectDefault base candidate := by
  -- Whatever is obeyed stays on the portal or the front end, and this names the condition back.
  obtain ⟨⟨target, answered⟩, stays, -⟩ := safe
  intro text asked kept outside
  obtain rfl := Option.mem_def.mp asked
  -- As nothing was raised, both addresses were read.
  have both : ∃ parsed configured, urlsplit bracketed (strip text).toList = .ok parsed ∧
      urlsplit bracketed redirectDefault = .ok configured := by
    simp only [safeRedirectAfter, kept, Bool.false_eq_true, if_false, if_neg outside, bind, Except.bind] at answered
    split at answered
    · cases answered
    · next parsed parses =>
      split at answered
      · cases answered
      · next configured front => exact ⟨parsed, configured, parses, front⟩
  obtain ⟨parsed, configured, parses, front⟩ := both
  refine ⟨parsed, configured, parses, front, fun named scheme netloc => ?_⟩
  refine (leads_iff_meansPlace kept parses front named scheme netloc).mp (stays (strip text) ?_)
  rw [safeRedirectAfter_given kept outside parses front, if_pos ⟨named, scheme, netloc⟩]

end Redirects

/-- A sign-in leads to the portal or its front end exactly when the URL library accepts what it is given, and
finds the front end only where a browser does. -/
theorem safeRedirectAfter_safe {σ : Type} (bracketed : List Char → Bool)
    (place : List Char → List Char → Option σ) (redirectDefault : List Char) (base : Origin σ)
    (candidate : Option String) :
    SafeRedirect bracketed place redirectDefault base candidate ↔
      Accepted bracketed place redirectDefault base candidate := by
  refine ⟨accepted_of_safe, fun accepted => ?_⟩
  -- Without a target there is nothing to obey.
  cases candidate with
  | none =>
    refine ⟨⟨none, rfl⟩, ?_, ?_⟩
    · intro target obeyed
      cases obeyed
    · intro target answered
      cases answered
      rfl
  | some text =>
    -- A target is refused, or obeyed as it is stripped.
    obtain refused | ⟨obeyed, leads⟩ := safeRedirectAfter_answer accepted
    · refine ⟨⟨none, refused⟩, ?_, ?_⟩
      · intro target obeyed
        rw [refused] at obeyed
        cases obeyed
      · intro target answered
        rw [refused] at answered
        cases answered
        rfl
    · refine ⟨⟨_, obeyed⟩, ?_, ?_⟩
      · intro target answered
        rw [obeyed] at answered
        cases answered
        exact leads
      · intro target answered
        rw [obeyed] at answered
        cases answered
        rw [safeRedirectAfter_strip, obeyed]

/-- A target with half of the brackets of an address is not refused: the sign-in fails. -/
theorem safeRedirectAfter_safe_fails : ¬ ∀ candidate, SafeRedirect (fun _ => true)
    (fun _ authority => some authority) "https://portal.example".toList
    ⟨"https".toList, "portal.example".toList⟩ candidate := by
  intro always
  obtain ⟨target, answered⟩ := (always (some "https://[")).answers
  have raised : safeRedirectAfter (fun _ => true) "https://portal.example".toList (some "https://[") =
      .error .invalidIpv6 := by
    decide
  rw [raised] at answered
  cases answered

end Trusca
