import Mathlib.Data.List.Basic

/-! Two ways a query result becomes a mapping: the first row of every key, and the last value
assigned to a key. -/

namespace Store

section Distinct

variable {α κ : Type*} [DecidableEq κ] (key : α → κ)

/-- SELECT DISTINCT ON: the first item of every key, in the order of the items. -/
def distinctOn : List α → List α
  | [] => []
  | item :: rest => item :: (distinctOn rest).filter fun other => key other ≠ key item

/-- Only items of the input are selected. -/
theorem mem_of_mem_distinctOn {items : List α} {item : α} (member : item ∈ distinctOn key items) :
    item ∈ items := by
  induction items with
  | nil => cases member
  | cons first rest ih =>
    rcases List.mem_cons.mp member with rfl | later
    · exact List.mem_cons_self
    · -- A later item survived the filter, so it was selected from the rest.
      exact List.mem_cons_of_mem _ (ih (List.mem_of_mem_filter later))

/-- No two selected items share a key. -/
theorem distinctOn_unique {items : List α} {first second : α} (one : first ∈ distinctOn key items)
    (two : second ∈ distinctOn key items) (same : key first = key second) : first = second := by
  induction items with
  | nil => cases one
  | cons item rest ih =>
    rcases List.mem_cons.mp one with rfl | one_later
    · rcases List.mem_cons.mp two with rfl | two_later
      · rfl
      · -- The filter dropped every later item with the head's key.
        have different : key second ≠ key first := by simpa using (List.mem_filter.mp two_later).2
        exact absurd same.symm different
    · rcases List.mem_cons.mp two with rfl | two_later
      · have different : key first ≠ key second := by simpa using (List.mem_filter.mp one_later).2
        exact absurd same different
      · exact ih (List.mem_of_mem_filter one_later) (List.mem_of_mem_filter two_later)

/-- Every key of an item is the key of a selected one. -/
theorem exists_mem_distinctOn {items : List α} {item : α} (member : item ∈ items) :
    ∃ found ∈ distinctOn key items, key found = key item := by
  induction items with
  | nil => cases member
  | cons first rest ih =>
    -- The first row of a key stands for it; a later one of that key is filtered out.
    by_cases same : key item = key first
    · exact ⟨first, List.mem_cons_self, same.symm⟩
    · rcases List.mem_cons.mp member with rfl | later
      · exact absurd rfl same
      · obtain ⟨found, selected, equal⟩ := ih later
        refine ⟨found, List.mem_cons_of_mem _ (List.mem_filter.mpr ⟨selected, ?_⟩), equal⟩
        simp [equal, same]

/-- The selected items have different keys. -/
theorem distinctOn_keys_nodup (items : List α) : ((distinctOn key items).map key).Nodup := by
  induction items with
  | nil => exact List.nodup_nil
  | cons first rest ih =>
    refine List.nodup_cons.mpr ⟨?_, ih.sublist (List.filter_sublist.map key)⟩
    -- A row kept in the rest differs from the first in its key.
    intro repeated
    obtain ⟨other, kept, same⟩ := List.mem_map.mp repeated
    have different : key other ≠ key first := by simpa using (List.mem_filter.mp kept).2
    exact different same

end Distinct

section Assign

variable {κ α : Type*} [DecidableEq κ]

/-- Assignments to a mapping, one after the other: the last one to a key wins. -/
def assigned (pairs : List (κ × α)) (key : κ) : Option α :=
  ((pairs.filter fun pair => pair.1 = key).getLast?).map Prod.snd

/-- A value that is read was assigned. -/
theorem mem_of_assigned {pairs : List (κ × α)} {key : κ} {value : α}
    (read : assigned pairs key = some value) : (key, value) ∈ pairs := by
  obtain ⟨pair, last, named⟩ := Option.map_eq_some_iff.mp read
  -- The last of the matching assignments is one of them.
  have member := List.mem_of_getLast? last
  obtain ⟨held, own⟩ := List.mem_filter.mp member
  have matching : pair.1 = key := by simpa using own
  rw [← matching, ← named]
  exact held

/-- A key that was assigned to has a value. -/
theorem assigned_isSome {pairs : List (κ × α)} {key : κ} {value : α}
    (member : (key, value) ∈ pairs) : (assigned pairs key).isSome := by
  have listed : (key, value) ∈ pairs.filter fun pair => pair.1 = key :=
    List.mem_filter.mpr ⟨member, by simp⟩
  unfold assigned
  rw [Option.isSome_map]
  cases last : (pairs.filter fun pair => pair.1 = key).getLast? with
  | some pair => rfl
  | none =>
    -- An empty list of matching assignments cannot hold this one.
    rw [List.getLast?_eq_none_iff.mp last] at listed
    cases listed

/-- A key with one value only has that value, however often it was assigned. -/
theorem assigned_of_mem {pairs : List (κ × α)} {key : κ} {value : α}
    (member : (key, value) ∈ pairs) (only : ∀ other, (key, other) ∈ pairs → other = value) :
    assigned pairs key = some value := by
  obtain ⟨other, read⟩ := Option.isSome_iff_exists.mp (assigned_isSome member)
  rw [read, only other (mem_of_assigned read)]

/-- A key that was never assigned to has no value. -/
theorem assigned_eq_none {pairs : List (κ × α)} {key : κ}
    (absent : ∀ value, (key, value) ∉ pairs) : assigned pairs key = none := by
  cases read : assigned pairs key with
  | none => rfl
  | some value => exact absurd (mem_of_assigned read) (absent value)

end Assign

end Store
