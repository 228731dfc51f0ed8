import Mathlib.Data.List.Basic
import Mathlib.Data.List.Forall2

/-! Lists chained at their ends, and the least of the numbers in them that are not zero. -/

namespace Trusca

section Glue

variable {α β : Type} {join : α → α → α}

/-- Two lists in a row, with the last item of the first and the first of the second made one. -/
def glue (join : α → α → α) : List α → List α → List α
  | [], second => second
  | [last], [] => [last]
  | [last], next :: rest => join last next :: rest
  | item :: next :: rest, second => item :: glue join (next :: rest) second

/-- Several lists in a row, with the items at their ends made one. -/
def glueAll (join : α → α → α) : List (List α) → List α
  | [] => []
  | [items] => items
  | items :: next :: rest => glue join items (glueAll join (next :: rest))

/-- Gluing to a nonempty list leaves something. -/
theorem glue_ne_nil {first second : List α} (nonempty : first ≠ []) : glue join first second ≠ [] := by
  fun_cases glue join first second <;> simp_all

/-- Gluing nonempty lists leaves something. -/
theorem glueAll_ne_nil {lists : List (List α)} (some_list : lists ≠ [])
    (nonempty : ∀ items ∈ lists, items ≠ []) : glueAll join lists ≠ [] := by
  cases lists with
  | nil => exact absurd rfl some_list
  | cons items rest =>
    have here := nonempty items List.mem_cons_self
    cases rest with
    | nil => exact here
    | cons next rest => exact glue_ne_nil here

/-- What turns joins into joins turns glued lists into glued lists. -/
theorem map_glue {image : α → β} {other : β → β → β}
    (joins : ∀ left right, image (join left right) = other (image left) (image right))
    (first second : List α) :
    (glue join first second).map image = glue other (first.map image) (second.map image) := by
  fun_induction glue join first second with
  | case1 second => rfl
  | case2 last => rfl
  | case3 last next rest => simp [glue, joins]
  | case4 item next rest second ih => simpa [glue] using ih

/-- An image of glued lists is the images glued, when the image respects the join. -/
theorem map_glueAll {image : α → β} {other : β → β → β}
    (joins : ∀ left right, image (join left right) = other (image left) (image right))
    (lists : List (List α)) :
    (glueAll join lists).map image = glueAll other (lists.map fun items => items.map image) := by
  fun_induction glueAll join lists with
  | case1 => rfl
  | case2 items => rfl
  | case3 items next rest ih => rw [map_glue joins, ih]; rfl

/-- What relates the items of two lists, and their joins, relates the glued lists. -/
theorem forall₂_glue {related : α → β → Prop} {other : β → β → β}
    (joins : ∀ a b x y, related a x → related b y → related (join a b) (other x y))
    {first second : List α} {left right : List β} (one : List.Forall₂ related first left)
    (two : List.Forall₂ related second right) :
    List.Forall₂ related (glue join first second) (glue other left right) := by
  -- The induction follows the first list down to the item that is joined.
  induction one with
  | nil => exact two
  | @cons a x first left here more ih =>
    cases more with
    | nil =>
      cases two with
      | nil => exact .cons here .nil
      | cons next rest => exact .cons (joins _ _ _ _ here next) rest
    | cons next rest => exact .cons here ih

/-- Lists that are related one by one stay related when they are glued. -/
theorem forall₂_glueAll {related : α → β → Prop} {other : β → β → β}
    (joins : ∀ a b x y, related a x → related b y → related (join a b) (other x y))
    {lists : List (List α)} {images : List (List β)}
    (each : List.Forall₂ (List.Forall₂ related) lists images) :
    List.Forall₂ related (glueAll join lists) (glueAll other images) := by
  induction each with
  | nil => exact .nil
  | cons here more ih =>
    cases more with
    | nil => exact here
    | cons next rest => exact forall₂_glue joins here ih

/-- What is related item by item relates each item to some other. -/
theorem exists_of_forall₂ {related : α → β → Prop} {first : List α} {left : List β} {item : α}
    (each : List.Forall₂ related first left) (member : item ∈ first) : ∃ image, related item image := by
  induction each with
  | nil => simp at member
  | cons here more ih =>
    obtain rfl | later := List.mem_cons.mp member
    · exact ⟨_, here⟩
    · exact ih later

end Glue

section Least

/-- The smaller of two numbers, where zero counts as none. -/
def least (first second : Nat) : Nat :=
  if first = 0 then second else if second = 0 then first else min first second

/-- The least number of a list that is not zero, or zero. -/
def leastOf (numbers : List Nat) : Nat := numbers.foldr least 0

/-- The greatest number of a list, or zero. -/
def greatestOf (numbers : List Nat) : Nat := numbers.foldr max 0

/-- The least of three numbers does not depend on how they are grouped. -/
theorem least_assoc (first second third : Nat) :
    least (least first second) third = least first (least second third) := by
  unfold least
  split_ifs <;> omega

/-- One number is its own least. -/
theorem leastOf_singleton (number : Nat) : leastOf [number] = number := by
  change least number 0 = number
  unfold least
  split_ifs <;> omega

/-- The least of a list is the lesser of its head and the least of the rest. -/
theorem leastOf_cons (number : Nat) (rest : List Nat) :
    leastOf (number :: rest) = least number (leastOf rest) := rfl

/-- The least of two lists together is the lesser of their leasts. -/
theorem leastOf_append (first second : List Nat) :
    leastOf (first ++ second) = least (leastOf first) (leastOf second) := by
  induction first with
  | nil => simp [leastOf, least]
  | cons number first ih =>
    rw [List.cons_append, leastOf_cons, ih, leastOf_cons, least_assoc]

/-- The least number is one of the list, or all are zero. -/
theorem leastOf_cases (numbers : List Nat) :
    (leastOf numbers = 0 ∧ ∀ number ∈ numbers, number = 0) ∨
      (leastOf numbers ≠ 0 ∧ leastOf numbers ∈ numbers) := by
  -- Zero stands for no number at all, so a zero in front decides nothing.
  induction numbers with
  | nil => exact .inl ⟨rfl, by simp⟩
  | cons number rest ih =>
    rw [leastOf_cons]
    by_cases zero : number = 0
    · -- The head is passed over, and the rest answers.
      have same : least number (leastOf rest) = leastOf rest := by simp [least, zero]
      rw [same]
      obtain ⟨none_left, others⟩ | ⟨positive, member⟩ := ih
      · exact .inl ⟨none_left, List.forall_mem_cons.mpr ⟨zero, others⟩⟩
      · exact .inr ⟨positive, List.mem_cons_of_mem _ member⟩
    · right
      -- The head is the least unless the rest has a lesser one that is not zero.
      obtain ⟨none_left, -⟩ | ⟨positive, member⟩ := ih
      · have same : least number (leastOf rest) = number := by simp [least, zero, none_left]
        rw [same]
        exact ⟨zero, List.mem_cons_self⟩
      · have same : least number (leastOf rest) = min number (leastOf rest) := by
          simp [least, zero, positive]
        rw [same]
        obtain smaller | larger := Nat.le_total number (leastOf rest)
        · rw [Nat.min_eq_left smaller]
          exact ⟨zero, List.mem_cons_self⟩
        · rw [Nat.min_eq_right larger]
          exact ⟨positive, List.mem_cons_of_mem _ member⟩

/-- No number of the list but zero is below the least. -/
theorem leastOf_le {numbers : List Nat} {number : Nat} (member : number ∈ numbers)
    (positive : number ≠ 0) : leastOf numbers ≤ number := by
  induction numbers with
  | nil => simp at member
  | cons first rest ih =>
    rw [leastOf_cons]
    -- The number is the first of the list, or one behind it.
    obtain rfl | later := List.mem_cons.mp member
    · unfold least
      split_ifs <;> omega
    · -- Where all the rest are zeros the number could not be one of them.
      have bound := ih later
      obtain ⟨-, zeros⟩ | ⟨known, -⟩ := leastOf_cases rest
      · exact absurd (zeros number later) positive
      · unfold least
        split_ifs <;> omega

/-- The least of a glued list is zero only with both parts, and not above the greater of theirs. -/
theorem leastOf_glue {first second : List Nat} (one : first ≠ []) (two : second ≠ []) :
    (leastOf (glue max first second) = 0 ↔ leastOf first = 0 ∧ leastOf second = 0) ∧
      leastOf (glue max first second) ≤ max (leastOf first) (leastOf second) := by
  -- The head of the first list is taken off until one number is left, which is joined to the second.
  induction first with
  | nil => exact absurd rfl one
  | cons number first ih =>
    cases first with
    | nil =>
      cases second with
      | nil => exact absurd rfl two
      | cons next rest =>
        rw [glue, leastOf_cons, leastOf_cons next, leastOf_singleton]
        generalize leastOf rest = after
        unfold least
        split_ifs <;> omega
    | cons next first =>
      -- The join is at the end of the first list, behind the number that is taken off.
      obtain ⟨zero, bound⟩ := ih (by simp)
      rw [glue, leastOf_cons, leastOf_cons number]
      generalize leastOf (glue max (next :: first) second) = glued at zero bound ⊢
      generalize leastOf (next :: first) = before at zero bound ⊢
      unfold least
      split_ifs <;> omega

/-- No number of a list is above its greatest. -/
theorem le_greatestOf {numbers : List Nat} {number : Nat} (member : number ∈ numbers) :
    number ≤ greatestOf numbers := by
  induction numbers with
  | nil => simp at member
  | cons first rest ih =>
    -- The greatest of the list is the greater of its first and the rest's.
    have step : greatestOf (first :: rest) = max first (greatestOf rest) := rfl
    rw [step]
    obtain rfl | later := List.mem_cons.mp member
    · exact Nat.le_max_left _ _
    · exact Nat.le_trans (ih later) (Nat.le_max_right _ _)

/-- The greatest of a list is below whatever bounds all of it. -/
theorem greatestOf_le {numbers : List Nat} {bound : Nat} (bounded : ∀ number ∈ numbers, number ≤ bound) :
    greatestOf numbers ≤ bound := by
  induction numbers with
  | nil => exact Nat.zero_le _
  | cons first rest ih =>
    obtain ⟨here, later⟩ := List.forall_mem_cons.mp bounded
    exact Nat.max_le.mpr ⟨here, ih later⟩

/-- Lists of one number each make one number, the greatest. -/
theorem glueAll_singletons {numbers : List Nat} (nonempty : numbers ≠ []) :
    glueAll max (numbers.map fun number => [number]) = [greatestOf numbers] := by
  induction numbers with
  | nil => exact absurd rfl nonempty
  | cons number rest ih =>
    -- A single number glues to itself, and another list of one adds a maximum.
    cases rest with
    | nil => simp [glueAll, greatestOf]
    | cons next rest =>
      have more := ih (by simp)
      rw [List.map_cons] at more
      rw [List.map_cons, List.map_cons, glueAll, more]
      rfl

/-- The least of lists in a row is zero only with all of them, and not above the greatest of theirs. -/
theorem leastOf_glueAll {lists : List (List Nat)} (some_list : lists ≠ [])
    (nonempty : ∀ items ∈ lists, items ≠ []) :
    (leastOf (glueAll max lists) = 0 ↔ ∀ items ∈ lists, leastOf items = 0) ∧
      leastOf (glueAll max lists) ≤ greatestOf (lists.map leastOf) := by
  induction lists with
  | nil => exact absurd rfl some_list
  | cons items rest ih =>
    -- One list more: gluing takes a maximum with each of its numbers.
    obtain ⟨here, later⟩ := List.forall_mem_cons.mp nonempty
    cases rest with
    | nil => simp [glueAll, greatestOf]
    | cons next rest =>
      obtain ⟨zero, bound⟩ := ih (by simp) later
      obtain ⟨gluedZero, gluedBound⟩ :=
        leastOf_glue here (@glueAll_ne_nil _ max _ (List.cons_ne_nil next rest) later)
      -- The greatest of the minima grows with it in the same way.
      have step : greatestOf ((items :: next :: rest).map leastOf) =
          max (leastOf items) (greatestOf ((next :: rest).map leastOf)) := rfl
      rw [glueAll, step, List.forall_mem_cons, gluedZero, zero]
      exact ⟨Iff.rfl, by omega⟩

end Least

end Trusca
