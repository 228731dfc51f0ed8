import Mathlib.Order.Lattice

/-! Sets whose members have scores, kept in the order of the scores. -/

namespace Store

/-- A set of members with their scores, the lowest first. -/
abbrev Scored (τ κ : Type*) := List (τ × κ)

namespace Scored

section Members

variable {τ κ : Type*} {set : Scored τ κ} {member other : κ} {holds : κ → Bool}

/-- Whether something is a member. -/
def Has (set : Scored τ κ) (member : κ) : Prop := ∃ entry ∈ set, entry.2 = member

/-- Keep the members with a property. -/
def keep (set : Scored τ κ) (holds : κ → Bool) : Scored τ κ := set.filter fun entry => holds entry.2

/-- What is kept are the members that satisfy the test. -/
theorem has_keep : (set.keep holds).Has other ↔ set.Has other ∧ holds other := by
  simp only [Has, keep, List.mem_filter]
  constructor
  · rintro ⟨entry, ⟨listed, kept⟩, rfl⟩
    exact ⟨⟨entry, listed, rfl⟩, kept⟩
  · rintro ⟨⟨entry, listed, rfl⟩, kept⟩
    exact ⟨entry, ⟨listed, kept⟩, rfl⟩

/-- Keeping some members leaves no more than there were. -/
theorem length_keep_le : (set.keep holds).length ≤ set.length := List.length_filter_le _ _

variable [DecidableEq κ]

instance (set : Scored τ κ) (member : κ) : Decidable (set.Has member) :=
  inferInstanceAs (Decidable (∃ entry ∈ set, entry.2 = member))

/-- Remove a member. -/
def remove (set : Scored τ κ) (member : κ) : Scored τ κ := set.keep fun other => decide (other ≠ member)

/-- Removing a member removes that one alone. -/
theorem has_remove : (set.remove member).Has other ↔ set.Has other ∧ other ≠ member := by
  unfold remove
  rw [has_keep, decide_eq_true_eq]

/-- Removing a member leaves no more than there were. -/
theorem length_remove_le : (set.remove member).length ≤ set.length := length_keep_le

/-- A set gets smaller when a member is removed. -/
theorem length_remove_lt (present : set.Has member) : (set.remove member).length < set.length := by
  obtain ⟨entry, listed, same⟩ := present
  refine List.length_filter_lt_length_iff_exists.mpr ⟨entry, listed, ?_⟩
  simp [same]

end Members

section Order

variable {τ κ : Type*} [LinearOrder τ] [LinearOrder κ] {set : Scored τ κ} {score : τ} {member other : κ}

/-- Lower scores come first, and equal scores in the order of the members. -/
def before (first second : τ × κ) : Bool :=
  first.1 < second.1 || (first.1 == second.1 && first.2 < second.2)

/-- Add a member, or give it a new score. -/
def add (set : Scored τ κ) (score : τ) (member : κ) : Scored τ κ :=
  (set.remove member).takeWhile (fun entry => before entry (score, member)) ++
    (score, member) :: (set.remove member).dropWhile fun entry => before entry (score, member)

/-- After adding, the entries are the new one and the others. -/
theorem mem_add {entry : τ × κ} :
    entry ∈ set.add score member ↔ entry = (score, member) ∨ entry ∈ set.remove member := by
  unfold add
  rw [List.mem_append, List.mem_cons, or_left_comm, ← List.mem_append, List.takeWhile_append_dropWhile]

/-- After adding, the members are the new one and those before. -/
theorem has_add : (set.add score member).Has other ↔ other = member ∨ set.Has other := by
  constructor
  · -- Adding replaces the member's old score, so membership is all that grows.
    rintro ⟨entry, listed, rfl⟩
    obtain rfl | kept := mem_add.mp listed
    · exact .inl rfl
    · exact .inr (has_remove.mp ⟨entry, kept, rfl⟩).1
  · intro present
    by_cases same : other = member
    · exact ⟨(score, member), mem_add.mpr (.inl rfl), same.symm⟩
    · obtain ⟨entry, listed, rfl⟩ := has_remove.mpr ⟨present.resolve_left same, same⟩
      exact ⟨entry, mem_add.mpr (.inr listed), rfl⟩

/-- With a new member a set has one more than without it. -/
theorem length_add : (set.add score member).length = (set.remove member).length + 1 := by
  unfold add
  rw [List.length_append, List.length_cons, ← Nat.add_assoc, ← List.length_append,
    List.takeWhile_append_dropWhile]

/-- A new member is not the first when the first of the others comes before it. -/
theorem head?_add {first : τ × κ} {rest : Scored τ κ} (others : set.remove member = first :: rest)
    (earlier : before first (score, member)) : (set.add score member).head? = some first := by
  unfold add
  rw [others, List.takeWhile_cons, if_pos earlier]
  rfl

end Order

end Scored

end Store
