import Mathlib.Data.List.Nodup
import Mathlib.Logic.Relation

/-! Materialised paths: the root-first list of the ancestors of a node, and what moving a node does
to it. -/

namespace Store

variable {ι : Type*}

/-- The root-first list of a node and its ancestors; the empty list above a root.

The parent map has no entry for a node that is not stored, and an empty entry for a root. -/
inductive Lineage (parent : ι → Option (Option ι)) : Option ι → List ι → Prop where
  | root : Lineage parent none []
  | child {node : ι} {above : Option ι} {path : List ι} (stored : parent node = some above)
      (ancestors : Lineage parent above path) : Lineage parent (some node) (path ++ [node])

namespace Lineage

variable {parent moved : ι → Option (Option ι)} {above : Option ι} {path other : List ι}

/-- A node has one list of ancestors. -/
theorem unique (first : Lineage parent above path) (second : Lineage parent above other) :
    path = other := by
  induction first generalizing other with
  | root =>
    cases second
    rfl
  | child stored _ ih =>
    cases second with
    | child again ancestors =>
      -- The parent map is a function, so both lists go on from the same parent.
      cases Option.some.inj (stored.symm.trans again)
      rw [ih ancestors]

/-- Every list of ancestors can be cut at any of its members. -/
theorem cut {front back : List ι} {node : ι} (lineage : Lineage parent above path)
    (split : path = front ++ node :: back) : Lineage parent (some node) (front ++ [node]) := by
  induction lineage generalizing back with
  | root => simp at split
  | child stored ancestors ih =>
    rcases List.eq_nil_or_concat back with rfl | ⟨shorter, last, rfl⟩
    · -- The cut is at the last node, so nothing is cut off.
      obtain ⟨rfl, same⟩ := List.append_inj' split rfl
      cases same
      exact .child stored ancestors
    · -- The cut is further up, and the last node plays no role in it.
      rw [List.concat_eq_append, ← List.cons_append, ← List.append_assoc] at split
      exact ih (List.append_inj' split rfl).1

/-- No node occurs twice among a node and its ancestors. -/
theorem nodup (lineage : Lineage parent above path) : path.Nodup := by
  induction lineage with
  | root => exact List.nodup_nil
  | @child node above path stored ancestors ih =>
    refine List.nodup_append.mpr ⟨ih, List.nodup_singleton node, ?_⟩
    intro first member second single same
    rw [List.mem_singleton] at single
    subst single
    subst same
    -- A node above itself would have two lists of ancestors, of different lengths.
    obtain ⟨front, back, split⟩ := List.append_of_mem member
    have shorter := (ancestors.cut split).unique (.child stored ancestors)
    have lengths := congrArg List.length shorter
    rw [split] at lengths
    simp at lengths

/-- Every member of the list is stored. -/
theorem stored (lineage : Lineage parent above path) {node : ι} (member : node ∈ path) :
    ∃ higher, parent node = some higher := by
  obtain ⟨front, back, split⟩ := List.append_of_mem member
  generalize same : front ++ [node] = whole
  have cut := lineage.cut split
  rw [same] at cut
  cases cut with
  | child found _ => exact ⟨_, found⟩

/-- The members of the list are what the parent relation reaches. -/
theorem mem_iff (lineage : Lineage parent above path) {node : ι} :
    node ∈ path ↔ ∃ first, above = some first ∧
      Relation.ReflTransGen (fun child higher => parent child = some (some higher)) first node := by
  induction lineage with
  | root => simp
  | @child last above path stored ancestors ih =>
    simp only [List.mem_append, List.mem_singleton, Option.some.injEq, exists_eq_left']
    rw [ih]
    constructor
    · -- A member further up is reached through the parent of the last node.
      intro member
      rcases member with ⟨first, rfl, reached⟩ | rfl
      · exact .head stored reached
      · exact .refl
    · intro reached
      rcases reached.cases_head with rfl | ⟨first, step, reached⟩
      · exact .inr rfl
      · cases Option.some.inj (stored.symm.trans step)
        exact .inl ⟨first, rfl, reached⟩

/-- A node keeps its ancestors when the parents of all of them stay. -/
theorem congr (lineage : Lineage parent above path)
    (same : ∀ node ∈ path, moved node = parent node) : Lineage moved above path := by
  induction lineage with
  | root => exact .root
  | @child node above path stored ancestors ih =>
    refine .child ((same node (by simp)).trans stored) (ih fun other member => same other ?_)
    exact List.mem_append_left _ member

/-- Moving a node replaces what stands before it in the lists of the nodes below. -/
theorem splice {front back fresh : List ι} {node : ι} (lineage : Lineage parent above path)
    (split : path = front ++ node :: back) (same : ∀ other ∈ back, moved other = parent other)
    (arrived : Lineage moved (some node) (fresh ++ [node])) :
    Lineage moved above (fresh ++ node :: back) := by
  induction lineage generalizing back with
  | root => simp at split
  | @child last above path stored ancestors ih =>
    rcases List.eq_nil_or_concat back with rfl | ⟨shorter, bottom, rfl⟩
    · -- The list ends at the node that moved.
      obtain ⟨_, named⟩ := List.append_inj' split rfl
      cases named
      exact arrived
    · -- Below the node that moved, every parent stays, and so does the end of the list.
      rw [List.concat_eq_append] at split same ⊢
      rw [← List.cons_append, ← List.append_assoc] at split ⊢
      obtain ⟨shorter_split, named⟩ := List.append_inj' split rfl
      cases named
      refine .child ((same last (by simp)).trans stored) (ih shorter_split fun other member => ?_)
      exact same other (List.mem_append_left _ member)

end Lineage

end Store
