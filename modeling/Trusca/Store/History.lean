import Mathlib.Data.List.Basic

/-! Histories in which everything is justified by what came before it. -/

namespace Store

variable {ω : Type*} {fine : List ω → ω → Prop} {history : List ω} {occurrence : ω}

/-- Whatever stands in a history was fine after all that stands before it. -/
def Justified (fine : List ω → ω → Prop) (history : List ω) : Prop :=
  ∀ before occurrence after, history = before ++ occurrence :: after → fine before occurrence

/-- The empty history has nothing to justify. -/
theorem Justified.nil : Justified fine [] := by
  intro before occurrence after split
  simp at split

/-- A history grows by what is fine after it. -/
theorem Justified.concat (justified : Justified fine history) (next : fine history occurrence) :
    Justified fine (history ++ [occurrence]) := by
  intro before other after split
  -- Either the split is at the new occurrence, or it was there before.
  rcases List.eq_nil_or_concat after with rfl | ⟨rest, last, rfl⟩
  · obtain ⟨rfl, same⟩ := List.append_inj' split rfl
    cases same
    exact next
  · have shorter : history ++ [occurrence] = (before ++ other :: rest) ++ [last] := by
      simpa using split
    obtain ⟨earlier, -⟩ := List.append_inj' shorter rfl
    exact justified before other rest earlier

/-- What came first was justified by itself. -/
theorem Justified.front {before after : List ω} (justified : Justified fine (before ++ after)) :
    Justified fine before := by
  intro earlier other later split
  exact justified earlier other (later ++ after) (by simp [split])

/-- A history is justified if each occurrence was fine when it was added. -/
theorem justified_concat :
    Justified fine (history ++ [occurrence]) ↔ Justified fine history ∧ fine history occurrence :=
  ⟨fun justified => ⟨justified.front, justified history occurrence [] rfl⟩,
    fun both => both.1.concat both.2⟩

/-- One thing happened before another. -/
def Precedes (first second : ω) (history : List ω) : Prop := List.Sublist [first, second] history

instance [DecidableEq ω] (first second : ω) (history : List ω) :
    Decidable (Precedes first second history) :=
  inferInstanceAs (Decidable (List.Sublist _ _))

/-- What happens in the first part of a history precedes what happens in the second. -/
theorem Precedes.of_append {first second : ω} {before after : List ω} (early : first ∈ before)
    (late : second ∈ after) : Precedes first second (before ++ after) :=
  List.Sublist.append (List.singleton_sublist.mpr early) (List.singleton_sublist.mpr late)

/-- Of two things that happen at most once, only one precedes the other. -/
theorem Precedes.asymm {first second : ω} (once : history.Nodup)
    (precedes : Precedes first second history) : ¬Precedes second first history := by
  intro again
  -- Over the history: an element that stands at the head twice is excluded by `once`.
  induction history with
  | nil => cases precedes
  | cons item rest ih =>
    obtain ⟨fresh, once⟩ := List.nodup_cons.mp once
    cases precedes with
    | cons _ later =>
      cases again with
      | cons _ also => exact ih once later also
      | cons_cons _ _ => exact fresh (later.subset (by simp))
    | cons_cons _ _ =>
      cases again with
      | cons _ also => exact fresh (also.subset (by simp))
      | cons_cons _ also => exact fresh (also.subset (by simp))

end Store
