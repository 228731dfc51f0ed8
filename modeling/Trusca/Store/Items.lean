import Mathlib.Data.List.Basic
import Mathlib.Data.List.Nodup

/-! Dictionaries that keep their keys in the order of the first assignment. -/

namespace Store

variable {κ β : Type*}

/-- The keys of a dictionary. -/
def keys (items : List (κ × β)) : List κ := items.map Prod.fst

/-- No items have no keys. -/
@[simp] theorem keys_nil : keys ([] : List (κ × β)) = [] := rfl

/-- The keys of items are that of the first and those of the rest. -/
@[simp] theorem keys_cons (item : κ × β) (items : List (κ × β)) :
    keys (item :: items) = item.1 :: keys items := rfl

/-- The keys of two lists of items are those of each. -/
@[simp] theorem keys_append (first second : List (κ × β)) :
    keys (first ++ second) = keys first ++ keys second :=
  List.map_append

/-- There are as many keys as items. -/
@[simp] theorem length_keys (items : List (κ × β)) : (keys items).length = items.length :=
  List.length_map Prod.fst

/-- A key is listed when an item stands under it. -/
theorem mem_keys {items : List (κ × β)} {key : κ} :
    key ∈ keys items ↔ ∃ value, (key, value) ∈ items := by
  constructor
  · intro listed
    obtain ⟨⟨_, value⟩, member, rfl⟩ := List.mem_map.mp listed
    exact ⟨value, member⟩
  · rintro ⟨value, member⟩
    exact List.mem_map_of_mem member

variable [DecidableEq κ]

/-- Where no key is repeated, the value under a key is the one that is listed with it. -/
theorem lookup_eq_some {items : List (κ × β)} (distinct : (keys items).Nodup) {key : κ} {value : β} :
    items.lookup key = some value ↔ (key, value) ∈ items := by
  induction items with
  | nil => simp
  | cons item rest ih =>
    obtain ⟨first, held⟩ := item
    obtain ⟨new, later⟩ := List.nodup_cons.mp distinct
    rw [List.lookup_cons, List.mem_cons]
    -- The first key that matches is the only one, as the keys are distinct.
    by_cases same : key = first
    · subst same
      have absent : (key, value) ∉ rest := fun member => new (mem_keys.mpr ⟨value, member⟩)
      simp [absent, eq_comm]
    · simp [same, beq_eq_false_iff_ne.mpr same, ih later]

/-- Assign a value: a known key keeps its place, and a new one comes last. -/
def put (items : List (κ × β)) (key : κ) (value : β) : List (κ × β) :=
  if key ∈ keys items then
    items.map fun item => if item.1 = key then (key, value) else item
  else items ++ [(key, value)]

/-- Assigning to a known key keeps the keys. -/
theorem keys_put_of_mem {items : List (κ × β)} {key : κ} (known : key ∈ keys items) (value : β) :
    keys (put items key value) = keys items := by
  rw [put, if_pos known, keys, keys, List.map_map]
  refine List.map_congr_left fun item _ => ?_
  simp only [Function.comp_apply]
  split
  · next equal => exact equal.symm
  · rfl

/-- Assigning to a new key puts it behind the others. -/
theorem put_of_not_mem {items : List (κ × β)} {key : κ} (new : key ∉ keys items) (value : β) :
    put items key value = items ++ [(key, value)] :=
  if_neg new

/-- Assigning to the key that was added last. -/
theorem put_last {items : List (κ × β)} {key : κ} (new : key ∉ keys items) (old value : β) :
    put (items ++ [(key, old)]) key value = items ++ [(key, value)] := by
  have fixed : ∀ item ∈ items, (if item.1 = key then (key, value) else item) = item := by
    intro item member
    have different : item.1 ≠ key := fun equal => new (equal ▸ mem_keys.mpr ⟨item.2, member⟩)
    exact if_neg different
  rw [put, if_pos (by simp), List.map_append, List.map_congr_left fixed, List.map_id']
  simp

/-- Assigning adds the key to the others. -/
theorem mem_keys_put {items : List (κ × β)} {key other : κ} {value : β} :
    other ∈ keys (put items key value) ↔ other = key ∨ other ∈ keys items := by
  by_cases known : key ∈ keys items
  · rw [keys_put_of_mem known]
    exact ⟨.inr, fun member => member.elim (fun same => same ▸ known) id⟩
  · rw [put_of_not_mem known]
    simp [or_comm]

/-- What stands in a dictionary after an assignment stood there before, or was assigned. -/
theorem mem_put {items : List (κ × β)} {key : κ} {value : β} {item : κ × β}
    (member : item ∈ put items key value) : item ∈ items ∨ item = (key, value) := by
  unfold put at member
  split at member
  · obtain ⟨old, listed, rfl⟩ := List.mem_map.mp member
    split
    · exact .inr rfl
    · exact .inl listed
  · exact (List.mem_append.mp member).imp_right List.mem_singleton.mp

/-- Assigning repeats no key. -/
theorem keys_put_nodup {items : List (κ × β)} (distinct : (keys items).Nodup) (key : κ) (value : β) :
    (keys (put items key value)).Nodup := by
  by_cases known : key ∈ keys items
  · rw [keys_put_of_mem known]
    exact distinct
  · rw [put_of_not_mem known, keys_append, List.nodup_append]
    refine ⟨distinct, List.nodup_singleton _, fun other member last alone same => ?_⟩
    have equal : other = key := same.trans (List.mem_singleton.mp alone)
    exact known (equal ▸ member)

/-- The value under a key is the one that was assigned last. -/
theorem lookup_put {items : List (κ × β)} {key other : κ} {value : β} :
    (put items key value).lookup other = if other = key then some value else items.lookup other := by
  unfold put
  split
  · next known =>
    induction items with
    | nil => cases known
    | cons item rest ih =>
      obtain ⟨first, held⟩ := item
      by_cases here : first = key
      · -- The head of the list is the place of the key, whatever happens behind it.
        subst here
        by_cases same : other = first
        · simp [same]
        · have behind : (rest.map fun item =>
              if item.1 = first then (first, value) else item).lookup other = rest.lookup other := by
            by_cases again : first ∈ keys rest
            · simpa [same] using ih again
            · have fixed : ∀ item ∈ rest,
                  (if item.1 = first then (first, value) else item) = item := by
                intro item member
                have different : item.1 ≠ first := fun equal =>
                  again (equal ▸ mem_keys.mpr ⟨item.2, member⟩)
                exact if_neg different
              rw [List.map_congr_left fixed, List.map_id']
          simpa [List.lookup_cons, beq_eq_false_iff_ne.mpr same, same] using behind
      · -- Another key heads the list, so the key lies behind it.
        have later : key ∈ keys rest := (List.mem_cons.mp known).resolve_left (Ne.symm here)
        by_cases same : other = first
        · subst same
          simp [here]
        · simpa [List.lookup_cons, here, beq_eq_false_iff_ne.mpr same] using ih later
  · -- A key that is new is appended.
    next new =>
    have missing : ∀ pair ∈ items, key != pair.1 := fun pair member =>
      bne_iff_ne.mpr fun same => new (mem_keys.mpr ⟨pair.2, same ▸ member⟩)
    by_cases same : other = key
    · subst same
      simp [List.lookup_append, List.lookup_eq_none_iff.mpr missing]
    · simp [List.lookup_append, List.lookup_cons, beq_eq_false_iff_ne.mpr same, same]

/-- A key of a dictionary has a value. -/
theorem mem_keys_iff_lookup {items : List (κ × β)} {key : κ} :
    key ∈ keys items ↔ (items.lookup key).isSome := by
  rw [Option.isSome_iff_ne_none, ne_eq, List.lookup_eq_none_iff, mem_keys]
  constructor
  · -- A pair with the key is what the lookup would have found.
    rintro ⟨value, member⟩ missing
    exact bne_iff_ne.mp (missing (key, value) member) rfl
  · intro present
    push Not at present
    obtain ⟨⟨other, value⟩, member, same⟩ := present
    have equal : key = other := by simpa using same
    subst equal
    exact ⟨value, member⟩

/-- Dictionaries with the same values have the same keys, maybe in another order. -/
theorem keys_perm {first second : List (κ × β)} (one : (keys first).Nodup) (two : (keys second).Nodup)
    (same : ∀ key, first.lookup key = second.lookup key) : (keys first).Perm (keys second) := by
  refine (List.perm_ext_iff_of_nodup one two).mpr fun key => ?_
  rw [mem_keys_iff_lookup, mem_keys_iff_lookup, same]

section Folds

variable {α : Type*}

/-- A value that was assigned along a list is the one of an item. -/
theorem lookup_foldl_put {items : List α} {keyOf : α → κ} {valueOf : α → β} {index : List (κ × β)} {key : κ}
    {value : β}
    (found : (items.foldl (fun index item => put index (keyOf item) (valueOf item)) index).lookup key = some value) :
    index.lookup key = some value ∨ ∃ item ∈ items, keyOf item = key ∧ valueOf item = value := by
  induction items generalizing index with
  | nil => exact .inl found
  | cons item items ih =>
    -- The last write of the key wins, so ask the rest first.
    obtain before | ⟨later, member, same, equal⟩ := ih found
    · rw [lookup_put] at before
      split at before
      · next here => exact .inr ⟨item, List.mem_cons_self, here.symm, Option.some.inj before⟩
      · exact .inl before
    · exact .inr ⟨later, List.mem_cons_of_mem item member, same, equal⟩

/-- The keys after assignments along a list. -/
theorem mem_keys_foldl_put {items : List α} {keyOf : α → κ} {valueOf : α → β} {index : List (κ × β)} {key : κ} :
    key ∈ keys (items.foldl (fun index item => put index (keyOf item) (valueOf item)) index) ↔
      key ∈ keys index ∨ ∃ item ∈ items, keyOf item = key := by
  induction items generalizing index with
  | nil => simp
  | cons item items ih =>
    rw [List.foldl_cons, ih, mem_keys_put, List.exists_mem_cons_iff, or_right_comm, or_comm, eq_comm, or_comm]

end Folds

end Store
