import Mathlib.Data.List.Induction
import Mathlib.Data.List.Nodup
import Trusca.Account.SecondFactor
import Trusca.Store.History

/-! What the history of a second factor says about its single use. -/

namespace Trusca

open Store

variable {τ : Type*}

/-- Between two clears the accepted steps rise. -/
def StepsRise (history : List (MfaOccurrence τ)) : Prop :=
  ∀ before first middle second after,
    history = before ++ MfaOccurrence.acceptedStep first :: (middle ++
      MfaOccurrence.acceptedStep second :: after) →
    MfaOccurrence.cleared ∉ middle → first < second

/-- Every recovery code is accepted at most once. -/
def CodesOnce (history : List (MfaOccurrence τ)) : Prop :=
  ∀ before id after, history = before ++ MfaOccurrence.acceptedCode id :: after →
    MfaOccurrence.acceptedCode id ∉ after

/-- Once a regeneration is committed, no code of a call that began before it is accepted. -/
def CodesReplaced (history : List (MfaOccurrence τ)) : Prop :=
  ∀ before tx codes after, history = before ++ MfaOccurrence.issued tx true codes :: after →
    ∀ other regeneration ids, .issued other regeneration ids ∈ history →
      Precedes (.began other) (.began tx) history → ∀ id ∈ ids, MfaOccurrence.acceptedCode id ∉ after

namespace MfaOccurrence

/-- Whether a call that issues codes begins. -/
def begins : MfaOccurrence τ → Bool
  | .began _ => true
  | _ => false

/-- The last step that was accepted since the last clear. -/
def reachedStep (reached : Option Nat) : MfaOccurrence τ → Option Nat
  | .acceptedStep counter => some counter
  | .cleared => none
  | .proved _ | .began _ | .issued _ _ _ | .acceptedCode _ => reached

/-- The codes that were issued last. -/
def currentStep (current : Option (List CodeId)) : MfaOccurrence τ → Option (List CodeId)
  | .issued _ _ ids => some ids
  | .proved _ | .began _ | .acceptedStep _ | .acceptedCode _ | .cleared => current

/-- Whether codes were issued since a call began. -/
def overtakenStep [DecidableEq τ] (tx : τ) (past : Bool) : MfaOccurrence τ → Bool
  | .began other => if other = tx then false else past
  | .issued _ _ _ => true
  | .proved _ | .acceptedStep _ | .acceptedCode _ | .cleared => past

end MfaOccurrence

namespace MfaHistory

open MfaOccurrence

/-- The last step that was accepted since the last clear. -/
def reached (history : List (MfaOccurrence τ)) : Option Nat := history.foldl reachedStep none

/-- The codes that were issued last. -/
def current (history : List (MfaOccurrence τ)) : Option (List CodeId) :=
  history.foldl currentStep none

variable [DecidableEq τ]

/-- Whether codes were issued since the call began. -/
def overtaken (tx : τ) (history : List (MfaOccurrence τ)) : Bool :=
  history.foldl (overtakenStep tx) false

/-- What may happen after a history. -/
def Fine (before : List (MfaOccurrence τ)) : MfaOccurrence τ → Prop
  | .acceptedStep counter => ∀ earlier, reached before = some earlier → earlier < counter
  | .acceptedCode id => .acceptedCode id ∉ before ∧ ∀ ids, current before = some ids → id ∈ ids
  | .began tx => .began tx ∉ before
  | .issued tx _ ids => .began tx ∈ before ∧ overtaken tx before = false ∧
      ∀ other regeneration earlier, .issued other regeneration earlier ∈ before →
        ∀ id ∈ ids, id ∉ earlier
  | .proved _ | .cleared => True

section Histories

variable {history before middle : List (MfaOccurrence τ)} {tx other : τ}

omit [DecidableEq τ] in
/-- One more occurrence takes the counter reached one step on. -/
@[simp] theorem reached_concat (history : List (MfaOccurrence τ)) (item : MfaOccurrence τ) :
    reached (history ++ [item]) = reachedStep (reached history) item := by
  simp [reached]

omit [DecidableEq τ] in
/-- One more occurrence takes the current set one step on. -/
@[simp] theorem current_concat (history : List (MfaOccurrence τ)) (item : MfaOccurrence τ) :
    current (history ++ [item]) = currentStep (current history) item := by
  simp [current]

/-- One more occurrence takes what has overtaken a call one step on. -/
@[simp] theorem overtaken_concat (tx : τ) (history : List (MfaOccurrence τ))
    (item : MfaOccurrence τ) :
    overtaken tx (history ++ [item]) = overtakenStep tx (overtaken tx history) item := by
  simp [overtaken]

/-- As long as nothing is cleared, the step reached does not fall. -/
theorem reached_stretch {first : Nat}
    (justified : Justified Fine (before ++ .acceptedStep first :: middle))
    (uncleared : .cleared ∉ middle) :
    ∃ counter, reached (before ++ .acceptedStep first :: middle) = some counter ∧
      first ≤ counter := by
  -- From behind: one more occurrence raises the counter or leaves it, as nothing clears it.
  induction middle using List.reverseRecOn with
  | nil => exact ⟨first, by simp [reached, reachedStep], Nat.le_refl _⟩
  | append_singleton earlier item ih =>
    rw [show before ++ .acceptedStep first :: (earlier ++ [item]) =
      (before ++ .acceptedStep first :: earlier) ++ [item] by simp] at justified ⊢
    obtain ⟨justified, fine⟩ := justified_concat.mp justified
    obtain ⟨counter, same, above⟩ := ih justified fun member =>
      uncleared (List.mem_append_left _ member)
    rw [reached_concat, same]
    -- An accepted step is above the counter, and takes its place.
    cases item with
    | acceptedStep next =>
      have rises : counter < next := fine counter same
      exact ⟨next, rfl, by omega⟩
    | cleared => exact absurd (List.mem_append_right _ List.mem_cons_self) uncleared
    | _ => exact ⟨counter, rfl, above⟩

/-- When every occurrence is justified, the accepted steps rise. -/
theorem stepsRise_of_justified (justified : Justified Fine history) : StepsRise history := by
  rintro before first middle second after rfl uncleared
  -- The second step was fine after all that came before it, the first one included.
  have split : before ++ .acceptedStep first :: (middle ++ .acceptedStep second :: after) =
      (before ++ .acceptedStep first :: middle) ++ .acceptedStep second :: after := by simp
  have fine : Fine (before ++ .acceptedStep first :: middle) (.acceptedStep second) :=
    justified _ _ after split
  rw [split] at justified
  -- Nothing cleared the counter in between, so it is at the first step or above.
  obtain ⟨counter, same, above⟩ := reached_stretch justified.front uncleared
  exact Nat.lt_of_le_of_lt above (fine counter same)

/-- When every occurrence is justified, no code is accepted twice. -/
theorem codesOnce_of_justified (justified : Justified Fine history) : CodesOnce history := by
  rintro before id after rfl again
  obtain ⟨front, back, rfl⟩ := List.append_of_mem again
  have fine : Fine (before ++ .acceptedCode id :: front) (.acceptedCode id) :=
    justified _ _ back (by simp)
  exact fine.1 (by simp)

omit [DecidableEq τ] in
/-- The codes that were issued last are those of an issue, or of one after it. -/
theorem current_stretch (before : List (MfaOccurrence τ)) (tx : τ) (regeneration : Bool)
    (codes : List CodeId) (middle : List (MfaOccurrence τ)) :
    ∃ ids, current (before ++ MfaOccurrence.issued tx regeneration codes :: middle) = some ids ∧
      (ids = codes ∨
        ∃ front other again back, middle = front ++ MfaOccurrence.issued other again ids :: back) := by
  -- From behind: the current set is the one issued last.
  induction middle using List.reverseRecOn with
  | nil => exact ⟨codes, by simp [current, currentStep], .inl rfl⟩
  | append_singleton earlier item ih =>
    rw [show before ++ MfaOccurrence.issued tx regeneration codes :: (earlier ++ [item]) =
      (before ++ MfaOccurrence.issued tx regeneration codes :: earlier) ++
        [item] by simp, current_concat]
    obtain ⟨ids, same, source⟩ := ih
    have still : ids = codes ∨ ∃ front other again back,
        earlier ++ [item] = front ++ MfaOccurrence.issued other again ids :: back := by
      rcases source with first | ⟨front, other, again, back, rfl⟩
      · exact .inl first
      · exact .inr ⟨front, other, again, back ++ [item], by simp⟩
    cases item with
    | issued other again last => exact ⟨last, rfl, .inr ⟨earlier, other, again, [], rfl⟩⟩
    | _ => exact ⟨ids, same, still⟩

/-- A call that is not overtaken by an issue has begun after it. -/
theorem began_after_issue {regeneration : Bool} {codes : List CodeId}
    (serial : overtaken tx (before ++ .issued other regeneration codes :: middle) = false) :
    .began tx ∈ middle := by
  -- From behind: once a set is issued, only a call that begins afterwards is not overtaken.
  induction middle using List.reverseRecOn with
  | nil => simp [overtaken, overtakenStep] at serial
  | append_singleton earlier item ih =>
    rw [show before ++ .issued other regeneration codes :: (earlier ++ [item]) =
      (before ++ .issued other regeneration codes :: earlier) ++ [item] by simp,
      overtaken_concat] at serial
    cases item with
    -- The call begins here, or has begun before.
    | began acting =>
      by_cases same : acting = tx
      · subst same
        simp
      · simp only [overtakenStep, same, if_false] at serial
        exact List.mem_append_left _ (ih serial)
    | issued acting again last => cases serial
    | _ => exact List.mem_append_left _ (ih serial)

/-- A call that is not overtaken now was not overtaken before, and no codes have been issued since. -/
theorem overtaken_append {more : List (MfaOccurrence τ)} (unbegun : .began tx ∉ more)
    (serial : overtaken tx (history ++ more) = false) : overtaken tx history = false ∧
      ∀ other regeneration ids, .issued other regeneration ids ∉ more := by
  -- From behind: a call that does not begin again stays overtaken once a set is issued.
  induction more using List.reverseRecOn with
  | nil => exact ⟨by simpa using serial, fun _ _ _ => List.not_mem_nil⟩
  | append_singleton earlier item ih =>
    rw [← List.append_assoc, overtaken_concat] at serial
    have kept : overtaken tx (history ++ earlier) = false ∧
        ∀ other regeneration ids, item ≠ .issued other regeneration ids := by
      -- The occurrence is not the issue of a set, and leaves the call as it was.
      cases item with
      | began acting =>
        have different : acting ≠ tx := by
          rintro rfl
          exact unbegun (by simp)
        exact ⟨by simpa [overtakenStep, different] using serial, nofun⟩
      | issued acting again ids => cases serial
      | _ => exact ⟨serial, nofun⟩
    obtain ⟨before, none_issued⟩ := ih (fun member => unbegun (List.mem_append_left _ member)) kept.1
    refine ⟨before, fun other regeneration ids member => ?_⟩
    rcases List.mem_append.mp member with there | here
    · exact none_issued other regeneration ids there
    · exact kept.2 other regeneration ids (List.mem_singleton.mp here).symm

/-- A code is issued once. -/
theorem issued_once {first second : Bool} {codes ids : List CodeId} {id : CodeId}
    (justified : Justified Fine history) (one : .issued tx first codes ∈ history)
    (two : .issued other second ids ∈ history) (member : id ∈ codes) (also : id ∈ ids) :
    MfaOccurrence.issued tx first codes = .issued other second ids := by
  obtain ⟨front, back, rfl⟩ := List.append_of_mem one
  -- One issue is before the other in the history, and the later one had fresh codes.
  rcases List.mem_append.mp two with earlier | later
  · have fine : Fine front (.issued tx first codes) := justified _ _ back rfl
    exact absurd also (fine.2.2 other second ids earlier id member)
  · -- The same entry, or one behind it.
    rcases List.mem_cons.mp later with same | later
    · exact same.symm
    · obtain ⟨between, rest, rfl⟩ := List.append_of_mem later
      have fine : Fine (front ++ .issued tx first codes :: between) (.issued other second ids) :=
        justified _ _ rest (by simp)
      exact absurd member (fine.2.2 tx first codes (by simp) id also)

/-- A call that issues codes begins once. -/
theorem begins_once (justified : Justified Fine history) :
    (history.filter MfaOccurrence.begins).Nodup := by
  induction history using List.reverseRecOn with
  | nil => exact List.nodup_nil
  | append_singleton earlier item ih =>
    obtain ⟨shorter, fine⟩ := justified_concat.mp justified
    have once := ih shorter
    rw [List.filter_append]
    -- A begin is fine only if there is none of the same call; nothing else is listed.
    cases item with
    | began tx =>
      rw [show [MfaOccurrence.began tx].filter begins = [.began tx] from rfl,
        ← List.concat_eq_append]
      exact once.concat fun member => fine (List.mem_of_mem_filter member)
    | _ => simpa [begins] using once

/-- Two calls do not each begin before the other. -/
theorem begins_asymm (justified : Justified Fine history)
    (precedes : Precedes (.began other) (.began tx) history) :
    ¬Precedes (.began tx) (.began other) history := by
  intro again
  have filtered : ∀ {first second : τ}, Precedes (.began first) (.began second) history →
      Precedes (.began first) (.began second) (history.filter MfaOccurrence.begins) :=
    fun given => given.filter MfaOccurrence.begins
  exact (filtered precedes).asymm (begins_once justified) (filtered again)

/-- When every occurrence is justified, no code of a replaced set is accepted. -/
theorem codesReplaced_of_justified (justified : Justified Fine history) :
    CodesReplaced history := by
  rintro before tx codes after rfl other regeneration ids issued precedes id member accepted
  obtain ⟨front, back, rfl⟩ := List.append_of_mem accepted
  have fine : Fine (before ++ .issued tx true codes :: front) (.acceptedCode id) :=
    justified _ _ back (by simp)
  have began_first : .began tx ∈ before :=
    (show Fine before (.issued tx true codes) from justified _ _ _ rfl).1
  obtain ⟨last, same, source⟩ := current_stretch before tx true codes front
  have live : id ∈ last := fine.2 last same
  rcases source with rfl | ⟨early, acting, again, late, rfl⟩
  · -- The code would be one of the regeneration's own.
    have here := issued_once justified (List.mem_append_right _ List.mem_cons_self) issued live member
    cases here
    exact begins_asymm justified precedes precedes
  · -- The code would be one of a call that has begun after the regeneration was committed.
    have here : MfaOccurrence.issued acting again last = .issued other regeneration ids :=
      issued_once justified (by simp) issued live member
    cases here
    have serial : Fine (before ++ .issued tx true codes :: early)
        (.issued other regeneration ids) := justified _ _ (late ++ .acceptedCode id :: back) (by simp)
    refine begins_asymm justified precedes (Precedes.of_append began_first ?_)
    have began_later := began_after_issue serial.2.1
    simp [began_later]

end Histories

end MfaHistory

end Trusca
