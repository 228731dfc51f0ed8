import Mathlib.Data.List.Basic
import Mathlib.Data.Prod.Lex
import Mathlib.Order.OrderDual

/-! Stable sorting, and the first page of a list that was cut before it was sorted. -/

namespace Store

section Sorting

variable {α β γ : Type*} [LinearOrder β] [LinearOrder γ]

/-- A stable sort by a key. -/
def sortBy (key : α → β) (items : List α) : List α :=
  items.mergeSort fun first second => decide (key first ≤ key second)

/-- Sorting loses nothing and invents nothing. -/
theorem sortBy_perm (key : α → β) (items : List α) : (sortBy key items).Perm items :=
  List.mergeSort_perm items _

/-- Sorting loses no item. -/
@[simp] theorem mem_sortBy {key : α → β} {items : List α} {item : α} :
    item ∈ sortBy key items ↔ item ∈ items :=
  (sortBy_perm key items).mem_iff

/-- Being at most another by key is transitive. -/
theorem sortBy_trans (key : α → β) (first second third : α)
    (one : decide (key first ≤ key second) = true) (two : decide (key second ≤ key third) = true) :
    decide (key first ≤ key third) = true := by
  rw [decide_eq_true_eq] at one two ⊢
  exact one.trans two

/-- By key, one of two items is at most the other. -/
theorem sortBy_total (key : α → β) (first second : α) :
    (decide (key first ≤ key second) || decide (key second ≤ key first)) = true := by
  rw [Bool.or_eq_true, decide_eq_true_eq, decide_eq_true_eq]
  exact le_total _ _

/-- What is sorted stands in the order of its keys. -/
theorem sortBy_sorted (key : α → β) (items : List α) :
    (sortBy key items).Pairwise fun first second => key first ≤ key second := by
  have sorted := List.pairwise_mergeSort (sortBy_trans key) (sortBy_total key) items
  simp only [decide_eq_true_eq] at sorted
  exact sorted

/-- Where no two items share a key, there is one way to sort them. -/
theorem sortBy_unique {key : α → β} {items sorted : List α} (perm : sorted.Perm items)
    (ordered : sorted.Pairwise fun first second => key first ≤ key second)
    (injective : ∀ first ∈ items, ∀ second ∈ items, key first = key second → first = second) :
    sorted = sortBy key items := by
  refine List.Perm.eq_of_pairwise ?_ ordered (sortBy_sorted key items) (perm.trans (sortBy_perm key items).symm)
  intro first second one two before after
  exact injective first (perm.mem_iff.mp one) second (mem_sortBy.mp two) (le_antisymm before after)

/-- The items of one key keep their order. -/
theorem sortBy_filter (key : α → β) (items : List α) (value : β) :
    (sortBy key items).filter (fun item => decide (key item = value)) =
      items.filter fun item => decide (key item = value) := by
  have alike : (items.filter fun item => decide (key item = value)).Pairwise
      fun first second => decide (key first ≤ key second) = true := by
    refine List.pairwise_of_forall_mem_list ?_
    intro first here second there
    simp only [List.mem_filter, decide_eq_true_eq] at here there
    rw [decide_eq_true_eq, here.2, there.2]
  have kept : (items.filter fun item => decide (key item = value)).Sublist (sortBy key items) :=
    List.sublist_mergeSort (sortBy_trans key) (sortBy_total key) alike List.filter_sublist
  -- A sublist of the sorted items that all have the key, and as many as there are.
  have inside := kept.filter fun item => decide (key item = value)
  simp only [List.filter_filter, Bool.and_self] at inside
  refine (inside.eq_of_length ?_).symm
  exact (((sortBy_perm key items).filter _).length_eq).symm

/-- Items in the order of one key, with the items of each key in the order of a second one, are in
the order of both. -/
theorem pairwise_lex {outer : α → β} {inner : α → γ} {items : List α}
    (sorted : items.Pairwise fun first second => outer first ≤ outer second)
    (within : ∀ value, (items.filter fun item => decide (outer item = value)).Pairwise
      fun first second => inner first ≤ inner second) :
    items.Pairwise fun first second =>
      toLex (outer first, inner first) ≤ toLex (outer second, inner second) := by
  induction items with
  | nil => exact .nil
  | cons item rest ih =>
    obtain ⟨ahead, later⟩ := List.pairwise_cons.mp sorted
    refine List.pairwise_cons.mpr ⟨fun other member => ?_, ih later fun value => ?_⟩
    · rw [Prod.Lex.toLex_le_toLex]
      rcases lt_or_eq_of_le (ahead other member) with less | same
      · exact .inl less
      · -- Both items are in one class, whose order is that of the second key.
        refine .inr ⟨same, ?_⟩
        have class_sorted := within (outer item)
        rw [List.filter_cons_of_pos (by simp)] at class_sorted
        refine (List.pairwise_cons.mp class_sorted).1 other ?_
        exact List.mem_filter.mpr ⟨member, by simp [same]⟩
    · exact (within value).sublist ((List.sublist_cons_self item rest).filter _)

/-- A stable sort by a minor key and then by a major one sorts by both. -/
theorem sortBy_sortBy_sorted (outer : α → β) (inner : α → γ) (items : List α) :
    (sortBy outer (sortBy inner items)).Pairwise fun first second =>
      toLex (outer first, inner first) ≤ toLex (outer second, inner second) := by
  refine pairwise_lex (sortBy_sorted outer _) fun value => ?_
  rw [sortBy_filter]
  exact (sortBy_sorted inner items).sublist List.filter_sublist

end Sorting

section Page

variable {α β : Type*} [LinearOrder β] {all read missed sorted : List α} {limit : Nat}

/-- The first items of a list in the order of their keys, items of one key in any order. -/
def IsPage (key : α → β) (all : List α) (limit : Nat) (page : List α) : Prop :=
  ∃ sorted : List α, sorted.Perm all ∧
    sorted.Pairwise (fun first second => key first ≤ key second) ∧ page = sorted.take limit

/-- What is shown on a page is not behind what is not shown. -/
theorem IsPage.key_le {key : α → β} {page : List α} (shown : IsPage key all limit page)
    {item other : α} (here : item ∈ page) (there : other ∈ all) (hidden : other ∉ page) :
    key item ≤ key other := by
  obtain ⟨sorted, perm, ordered, rfl⟩ := shown
  rw [← perm.mem_iff, ← List.take_append_drop limit sorted] at there
  rw [← List.take_append_drop limit sorted] at ordered
  rcases List.mem_append.mp there with visible | behind
  · exact absurd visible hidden
  · exact (List.pairwise_append.mp ordered).2.2 item here other behind

/-- A page shows items of the list. -/
theorem IsPage.subset {key : α → β} {page : List α} (shown : IsPage key all limit page) :
    page ⊆ all := by
  obtain ⟨sorted, perm, _, rfl⟩ := shown
  exact fun item here => perm.subset (List.take_subset limit sorted here)

/-- A page shows no item twice that the list has once. -/
theorem IsPage.nodup {key : α → β} {page : List α} (shown : IsPage key all limit page)
    (once : all.Nodup) : page.Nodup := by
  obtain ⟨sorted, perm, _, rfl⟩ := shown
  exact (perm.nodup_iff.mpr once).sublist (List.take_sublist limit sorted)

/-- The last item of a page is not ahead of the others. -/
theorem IsPage.key_le_last {key : α → β} {page : List α} (shown : IsPage key all limit page)
    {item last : α} (ends : page.getLast? = some last) (here : item ∈ page) :
    key item ≤ key last := by
  obtain ⟨sorted, _, ordered, rfl⟩ := shown
  obtain ⟨front, split⟩ := List.getLast?_eq_some_iff.mp ends
  have ranked := ordered.sublist (List.take_sublist limit sorted)
  rw [split] at ranked here
  rcases List.mem_append.mp here with earlier | same
  · exact (List.pairwise_append.mp ranked).2.2 item earlier last (by simp)
  · rw [List.mem_singleton.mp same]

/-- An item that keeps its place on a page of sorted items is not preceded by a full page. -/
theorem key_le_of_page {key : α → β} (ordered : sorted.Pairwise fun first second => key first ≤ key second)
    {item other : α} (shown : item ∈ sorted.take limit)
    (full : limit ≤ sorted.countP fun found => decide (key found ≤ key other)) :
    key item ≤ key other := by
  by_contra above
  rw [not_le] at above
  rw [← List.take_append_drop limit sorted] at ordered full
  obtain ⟨_, _, across⟩ := List.pairwise_append.mp ordered
  rw [List.countP_append] at full
  -- Past the page, everything is at least as far back as the item.
  have beyond : (sorted.drop limit).countP (fun found => decide (key found ≤ key other)) = 0 := by
    rw [List.countP_eq_zero]
    intro found later
    rw [decide_eq_true_eq, not_le]
    exact above.trans_le (across item shown found later)
  -- On the page, the item itself is not counted.
  have missing : (sorted.take limit).countP (fun found => decide (key found ≤ key other)) <
      (sorted.take limit).length := by
    refine lt_of_le_of_ne List.countP_le_length fun all_counted => ?_
    have counted := List.countP_eq_length.mp all_counted item shown
    rw [decide_eq_true_eq] at counted
    exact above.not_ge counted
  have bounded := List.length_take_le limit sorted
  omega

/-- A page taken from a part of the items is the page of all of them exactly when every item that
was left out has a full page of read ones that are not behind it. -/
theorem isPage_cut (key : α → β) (parts : all.Perm (read ++ missed))
    (enough : missed ≠ [] → limit ≤ read.length) (perm : sorted.Perm read)
    (ordered : sorted.Pairwise fun first second => key first ≤ key second) :
    IsPage key all limit (sorted.take limit) ↔
      ∀ item ∈ missed, limit ≤ read.countP fun other => decide (key other ≤ key item) := by
  constructor
  · intro page item left
    obtain ⟨full, permuted, whole, same⟩ := page
    have filled := enough (List.ne_nil_of_mem left)
    -- What is not shown of the full list is the rest of the read items, and the missed ones.
    have rest : (full.drop limit).Perm (sorted.drop limit ++ missed) := by
      have cut : (full.take limit ++ full.drop limit).Perm
          (full.take limit ++ (sorted.drop limit ++ missed)) := by
        rw [List.take_append_drop, ← same, ← List.append_assoc, List.take_append_drop]
        exact permuted.trans (parts.trans (perm.symm.append_right missed))
      exact (List.perm_append_left_iff _).mp cut
    rw [← List.take_append_drop limit full] at whole
    obtain ⟨_, _, across⟩ := List.pairwise_append.mp whole
    have hidden : item ∈ full.drop limit :=
      rest.mem_iff.mpr (List.mem_append_right _ left)
    -- All that is shown stands before what was left out, so the count is the limit.
    have shown : (sorted.take limit).countP (fun other => decide (key other ≤ key item)) =
        (sorted.take limit).length := by
      rw [List.countP_eq_length]
      intro other member
      rw [same] at member
      exact decide_eq_true (across other member item hidden)
    have size : (sorted.take limit).length = limit := by
      rw [List.length_take, perm.length_eq]
      omega
    have part : (sorted.take limit).countP (fun other => decide (key other ≤ key item)) ≤
        sorted.countP fun other => decide (key other ≤ key item) :=
      (List.take_sublist limit sorted).countP_le
    rw [← perm.countP_eq]
    omega
  · -- Conversely, a full list is built: what is shown, and behind it the rest in order.
    intro full
    by_cases none_missed : missed = []
    · -- Nothing was left out, so the sorted items are all of them.
      subst none_missed
      rw [List.append_nil] at parts
      exact ⟨sorted, perm.trans parts.symm, ordered, rfl⟩
    · have filled := enough none_missed
      refine ⟨sorted.take limit ++ sortBy key (sorted.drop limit ++ missed), ?_, ?_, ?_⟩
      · calc sorted.take limit ++ sortBy key (sorted.drop limit ++ missed)
          _ |>.Perm (sorted.take limit ++ (sorted.drop limit ++ missed)) :=
            (sortBy_perm key _).append_left _
          _ |>.Perm (read ++ missed) := by
            rw [← List.append_assoc, List.take_append_drop]
            exact perm.append_right missed
          _ |>.Perm all := parts.symm
      · -- It is sorted, as nothing behind the page is below what it shows.
        have halves := ordered
        rw [← List.take_append_drop limit sorted] at halves
        obtain ⟨front, _, across⟩ := List.pairwise_append.mp halves
        refine List.pairwise_append.mpr ⟨front, sortBy_sorted key _, ?_⟩
        intro item shown other later
        rw [mem_sortBy, List.mem_append] at later
        rcases later with behind | left
        · exact across item shown other behind
        · refine key_le_of_page ordered shown ?_
          rw [perm.countP_eq]
          exact full other left
      · have size : (sorted.take limit).length = limit := by
          rw [List.length_take, perm.length_eq]
          omega
        rw [List.take_append_of_le_length size.ge, List.take_take, Nat.min_self]

/-- What is wanted on a page that was cut first is the page of what is wanted exactly when all of it is
taken, and the cut keeps nothing unwanted or leaves nothing wanted behind. -/
theorem isPage_filter (key : α → β) (perm : sorted.Perm all)
    (ordered : sorted.Pairwise fun first second => key first ≤ key second) (wanted taken : α → Bool) :
    IsPage key (all.filter wanted) limit ((sorted.take limit).filter fun item => wanted item && taken item) ↔
      (∀ item ∈ sorted.take limit, wanted item = true → taken item = true) ∧
        ((∀ item ∈ sorted.take limit, wanted item = true) ∨
          ∀ item ∈ sorted.drop limit, wanted item = false) := by
  have bounded := List.length_take_le limit sorted
  have parted : sorted.filter wanted = (sorted.take limit).filter wanted ++ (sorted.drop limit).filter wanted := by
    rw [← List.filter_append, List.take_append_drop]
  have fewer : ((sorted.take limit).filter fun item => wanted item && taken item).Sublist
      ((sorted.take limit).filter wanted) := by
    refine List.monotone_filter_right _ fun item both => ?_
    exact (Bool.and_eq_true_iff.mp both).1
  have least : ((sorted.take limit).filter wanted).length ≤ (sorted.take limit).length :=
    List.length_filter_le _ _
  constructor
  · rintro ⟨full, permuted, -, same⟩
    -- Both sides count the same, and each step of the counting can only lose items.
    have count : ((sorted.take limit).filter fun item => wanted item && taken item).length =
        min limit (((sorted.take limit).filter wanted).length +
          ((sorted.drop limit).filter wanted).length) := by
      rw [same, List.length_take, permuted.length_eq, ← (perm.filter wanted).length_eq, parted,
        List.length_append]
    have shorter := fewer.length_le
    refine ⟨fun item here want => ?_, ?_⟩
    · have alike := fewer.eq_of_length (by omega)
      have kept : item ∈ (sorted.take limit).filter wanted := List.mem_filter.mpr ⟨here, want⟩
      rw [← alike, List.mem_filter] at kept
      exact (Bool.and_eq_true_iff.mp kept.2).2
    · by_cases behind : ((sorted.drop limit).filter wanted).length = 0
      · right
        intro item later
        have nothing := List.filter_eq_nil_iff.mp (List.length_eq_zero_iff.mp behind) item later
        simpa using nothing
      · left
        exact List.length_filter_eq_length_iff.mp (by omega)
  · rintro ⟨all_taken, cut⟩
    have alike : ((sorted.take limit).filter fun item => wanted item && taken item) =
        (sorted.take limit).filter wanted := by
      refine List.filter_congr fun item here => ?_
      cases want : wanted item
      · rfl
      · simp [all_taken item here want]
    refine ⟨sorted.filter wanted, perm.filter wanted, ordered.sublist List.filter_sublist, ?_⟩
    rw [alike, parted]
    obtain wanted_all | none_behind := cut
    · rw [List.filter_eq_self.mpr wanted_all]
      by_cases long : limit ≤ sorted.length
      · rw [List.take_left' (by rw [List.length_take]; omega)]
      · rw [List.drop_of_length_le (by omega), List.filter_nil, List.append_nil, List.take_take, min_self]
    · have nothing : (sorted.drop limit).filter wanted = [] := by
        rw [List.filter_eq_nil_iff]
        intro item later
        simp [none_behind item later]
      rw [nothing, List.append_nil]
      exact (List.take_of_length_le (least.trans bounded)).symm

end Page

end Store
