import Mathlib.Data.Finset.Card
import Mathlib.Data.List.Sort
import Trusca.Store.Rows

/-! Reading a table page by page with LIMIT and OFFSET, while others write to it: what stands ahead of
a row decides whether a page finds it. -/

namespace Store

namespace Rows

variable {κ τ α : Type*} [LinearOrder κ] [DecidableEq τ]

/-- The rows that a plain SELECT of the transaction finds, in the order of their keys. -/
def listing (rows : Rows κ τ α) (tx : τ) : List (κ × α) :=
  (rows.fetch tx fun _ => true).insertionSort fun first second => first.1 ≤ second.1

/-- A page of the rows, in the order of their keys. -/
def page (rows : Rows κ τ α) (tx : τ) (offset limit : Nat) : List (κ × α) :=
  ((rows.listing tx).drop offset).take limit

/-- The keys of the committed rows ahead of a key. -/
def below (rows : Rows κ τ α) (key : κ) : Finset κ :=
  rows.keys.toFinset.filter fun other => (rows.committed other).isSome ∧ other < key

/-- How many committed rows stand ahead of a key. -/
def ahead (rows : Rows κ τ α) (key : κ) : Nat := (rows.below key).card

/-- A write of somebody else that is committed at once; it waits while the row is locked. A missing
version deletes the row. -/
def publish (rows : Rows κ τ α) (key : κ) (version : Option α) : Option (Rows κ τ α) :=
  match (rows.row key).held with
  | none => some (rows.set key (.free version))
  | some _ => none

variable {rows next : Rows κ τ α} {tx : τ} {key other : κ} {version : α}

/-- A listing has the rows of a fetch, in the order of their keys. -/
theorem listing_perm (rows : Rows κ τ α) (tx : τ) :
    (rows.listing tx).Perm (rows.fetch tx fun _ => true) :=
  List.perm_insertionSort _ _

/-- A listing has the rows that its transaction sees. -/
theorem mem_listing : (key, version) ∈ rows.listing tx ↔ rows.view tx key = some version := by
  rw [(rows.listing_perm tx).mem_iff, mem_fetch]
  simp

/-- The keys of a listing rise. -/
theorem listing_rises (rows : Rows κ τ α) (tx : τ) :
    (rows.listing tx).Pairwise fun first second => first.1 < second.1 := by
  have ordered : (rows.listing tx).Pairwise fun first second => first.1 ≤ second.1 :=
    List.pairwise_insertionSort _ _
  have distinct : ((rows.listing tx).map Prod.fst).Nodup :=
    ((rows.listing_perm tx).map Prod.fst).nodup_iff.mpr (rows.fetch_nodup tx _)
  exact (ordered.and (List.pairwise_map.mp distinct)).imp fun both => lt_of_le_of_ne both.1 both.2

omit [DecidableEq τ] in
/-- A committed row stands ahead of every key above its own. -/
theorem mem_below : other ∈ rows.below key ↔ (rows.committed other).isSome ∧ other < key := by
  simp only [below, Finset.mem_filter, List.mem_toFinset, and_iff_right_iff_imp]
  rintro ⟨stored, -⟩
  obtain ⟨version, same⟩ := Option.isSome_iff_exists.mp stored
  exact mem_keys_of_committed same

/-- In a rising list a member stands after as many others as are below it. -/
theorem mem_drop_take {items : List (κ × α)} {item : κ × α} (offset limit : Nat)
    (rises : items.Pairwise fun first second => first.1 < second.1) (member : item ∈ items) :
    items.countP (fun other => other.1 < item.1) < offset ∨
      item ∈ (items.drop offset).take limit ∨
      offset + ((items.drop offset).take limit).length ≤
        items.countP fun other => other.1 < item.1 := by
  obtain ⟨front, back, rfl⟩ := List.append_of_mem member
  obtain ⟨-, later, earlier⟩ := List.pairwise_append.mp rises
  -- Exactly the front is below the member.
  have counted : (front ++ item :: back).countP (fun other => other.1 < item.1) = front.length := by
    rw [List.countP_append, List.countP_eq_length.mpr, List.countP_eq_zero.mpr, Nat.add_zero]
    · intro other there
      rcases List.mem_cons.mp there with rfl | after
      · simp
      · simpa using le_of_lt ((List.pairwise_cons.mp later).1 other after)
    · intro other there
      simpa using earlier other there item List.mem_cons_self
  rw [counted]
  -- The member lies before the page, on it, or beyond it.
  rcases Nat.lt_or_ge front.length offset with passed | reached
  · exact .inl passed
  · refine .inr ?_
    rw [List.drop_append_of_le_length reached]
    rcases Nat.lt_or_ge (front.length - offset) limit with within | beyond
    · refine .inl ?_
      rw [List.take_append, List.length_drop]
      refine List.mem_append_right _ ?_
      obtain ⟨room, positive⟩ := Nat.exists_eq_succ_of_ne_zero (by omega :
        limit - (front.length - offset) ≠ 0)
      simp [positive]
    · refine .inr ?_
      rw [List.length_take]
      omega

/-- For a transaction that holds nothing, the rows listed ahead of a key are the committed ones. -/
theorem countP_listing (free : ∀ key version, ¬rows.HeldBy tx key version) (key : κ) :
    (rows.listing tx).countP (fun item => item.1 < key) = rows.ahead key := by
  have seen : ∀ other, rows.view tx other = rows.committed other :=
    fun other => Row.view_eq_committed (free other)
  -- Keys are listed once, so counting the listing counts a set of keys.
  have distinct : (((rows.listing tx).filter fun item => item.1 < key).map Prod.fst).Nodup := by
    have all : ((rows.listing tx).map Prod.fst).Nodup :=
      ((rows.listing_perm tx).map Prod.fst).nodup_iff.mpr (rows.fetch_nodup tx _)
    exact all.sublist (List.filter_sublist.map Prod.fst)
  rw [List.countP_eq_length_filter, ← List.length_map Prod.fst,
    ← List.toFinset_card_of_nodup distinct, ahead]
  congr 1
  ext other
  simp only [List.mem_toFinset, List.mem_map, List.mem_filter, decide_eq_true_eq, Prod.exists,
    exists_and_right, exists_eq_right, mem_below, mem_listing, seen, Option.isSome_iff_exists]

/-- A committed row stands before a page, on it or after it. -/
theorem page_covers (free : ∀ key version, ¬rows.HeldBy tx key version)
    (stored : rows.committed key = some version) (offset limit : Nat) :
    rows.ahead key < offset ∨ (key, version) ∈ rows.page tx offset limit ∨
      offset + (rows.page tx offset limit).length ≤ rows.ahead key := by
  have member : (key, version) ∈ rows.listing tx :=
    mem_listing.mpr ((Row.view_eq_committed (free key)).trans stored)
  have found := mem_drop_take offset limit (rows.listing_rises tx) member
  rwa [countP_listing free] at found

/-- Every committed row stands before an empty page. -/
theorem ahead_lt_of_page_nil (free : ∀ key version, ¬rows.HeldBy tx key version)
    (stored : rows.committed key = some version) {offset limit : Nat} (positive : 0 < limit)
    (empty : rows.page tx offset limit = []) : rows.ahead key < offset := by
  have member : (key, version) ∈ rows.listing tx :=
    mem_listing.mpr ((Row.view_eq_committed (free key)).trans stored)
  -- An empty page means that the offset is at the end.
  have short : (rows.listing tx).length ≤ offset := by
    rw [page, List.take_eq_nil_iff, List.drop_eq_nil_iff] at empty
    omega
  -- The row itself is not below its own key.
  have fewer : (rows.listing tx).countP (fun item => item.1 < key) < (rows.listing tx).length := by
    rw [List.countP_lt_length_iff]
    exact ⟨_, member, by simp⟩
  rw [countP_listing free] at fewer
  omega

omit [DecidableEq τ] in
/-- A version is published on a row that nobody holds. -/
theorem publish_cases {written : Option α} (published : rows.publish key written = some next) :
    (rows.row key).held = none ∧ next = rows.set key (.free written) := by
  unfold publish at published
  split at published
  · rename_i unlocked
    exact ⟨unlocked, (Option.some.inj published).symm⟩
  · cases published

omit [DecidableEq τ] in
/-- What is committed after a write. -/
theorem publish_committed {written : Option α} (published : rows.publish key written = some next)
    (other : κ) :
    next.committed other = if other = key then written else rows.committed other := by
  obtain ⟨-, rfl⟩ := publish_cases published
  unfold committed
  rw [set_row]
  split <;> rfl

omit [DecidableEq τ] in
/-- As long as no row is taken away, no row comes nearer to the front. -/
theorem ahead_mono (kept : ∀ other, (rows.committed other).isSome → (next.committed other).isSome)
    (key : κ) : rows.ahead key ≤ next.ahead key := by
  refine Finset.card_le_card fun other member => ?_
  obtain ⟨stored, lower⟩ := mem_below.mp member
  exact mem_below.mpr ⟨kept other stored, lower⟩

omit [DecidableEq τ] in
/-- A row behind an offset stays behind it when a row is taken away that is behind it as well. -/
theorem le_ahead_of_publish_none {offset : Nat} (published : rows.publish key none = some next)
    (behind : (rows.committed key).isSome → offset ≤ rows.ahead key)
    (stands : offset ≤ rows.ahead other) : offset ≤ next.ahead other := by
  by_cases nearer : (rows.committed key).isSome ∧ key < other
  · -- The row that is taken away stands between the offset and the other row.
    obtain ⟨stored, lower⟩ := nearer
    have more : rows.ahead key + 1 ≤ rows.ahead other := by
      have fresh : key ∉ rows.below key := fun member => lt_irrefl key (mem_below.mp member).2
      unfold ahead
      rw [← Finset.card_insert_of_notMem fresh]
      refine Finset.card_le_card fun found member => ?_
      rcases Finset.mem_insert.mp member with rfl | under
      · exact mem_below.mpr ⟨stored, lower⟩
      · obtain ⟨there, less⟩ := mem_below.mp under
        exact mem_below.mpr ⟨there, less.trans lower⟩
    have erased : (rows.below other).erase key ⊆ next.below other := by
      intro found member
      obtain ⟨apart, under⟩ := Finset.mem_erase.mp member
      obtain ⟨there, less⟩ := mem_below.mp under
      refine mem_below.mpr ⟨?_, less⟩
      rw [publish_committed published, if_neg apart]
      exact there
    have left := Finset.card_le_card erased
    rw [Finset.card_erase_of_mem (mem_below.mpr ⟨stored, lower⟩)] at left
    have close := behind stored
    unfold ahead at more close ⊢
    omega
  · -- Otherwise nothing ahead of the other row is taken away.
    refine stands.trans (Finset.card_le_card fun found member => ?_)
    obtain ⟨there, less⟩ := mem_below.mp member
    refine mem_below.mpr ⟨?_, less⟩
    rw [publish_committed published, if_neg]
    · exact there
    · rintro rfl
      exact nearer ⟨there, less⟩

end Rows

end Store
