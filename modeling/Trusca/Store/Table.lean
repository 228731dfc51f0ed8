import Mathlib.Data.List.Nodup

/-! A table whose rows have distinct keys, with lookup, update by key, and insertion. -/

namespace Store

/-- A table of rows no two of which share a key. -/
structure Table {κ ρ : Type*} (key : ρ → κ) where
  rows : List ρ
  unique : (rows.map key).Nodup

namespace Table

variable {κ ρ : Type*} [DecidableEq κ] {key : ρ → κ}

/-- The row with the given key. -/
def find? (table : Table key) (wanted : κ) : Option ρ :=
  table.rows.find? fun row => key row = wanted

/-- Replacing the row of one key changes no key. -/
theorem map_key_replace (row : ρ) (rows : List ρ) :
    (rows.map fun old => if key old = key row then row else old).map key = rows.map key := by
  rw [List.map_map]
  refine List.map_congr_left fun old _ => ?_
  simp only [Function.comp_apply]
  split
  · rename_i same
    exact same.symm
  · rfl

/-- UPDATE by key: the row replaces the one that has its key, if there is one. -/
def put (table : Table key) (row : ρ) : Table key where
  rows := table.rows.map fun old => if key old = key row then row else old
  unique := by
    rw [map_key_replace]
    exact table.unique

/-- INSERT: absent when the key is taken. -/
def insert (table : Table key) (row : ρ) : Option (Table key) :=
  -- The unique key refuses a second row.
  if taken : key row ∈ table.rows.map key then none
  else some
    { rows := table.rows ++ [row]
      unique := by
        rw [List.map_append, List.nodup_append]
        refine ⟨table.unique, by simp, ?_⟩
        intro first member second last same
        simp only [List.map_cons, List.map_nil, List.mem_singleton] at last
        subst last
        exact taken (same ▸ member) }

/-- A found row has the wanted key. -/
theorem key_of_find? {table : Table key} {wanted : κ} {row : ρ}
    (found : table.find? wanted = some row) : key row = wanted := by
  simpa using List.find?_some found

/-- A found row is in the table. -/
theorem mem_of_find? {table : Table key} {wanted : κ} {row : ρ}
    (found : table.find? wanted = some row) : row ∈ table.rows :=
  List.mem_of_find?_eq_some found

/-- Every row of the table is found under its key. -/
theorem find?_of_mem {table : Table key} {row : ρ} (member : row ∈ table.rows) :
    table.find? (key row) = some row := by
  unfold find?
  have unique := table.unique
  -- The keys before the row are checked one by one, and none of them is its own.
  generalize table.rows = rows at member unique
  induction rows with
  | nil => cases member
  | cons first rest ih =>
    simp only [List.map_cons, List.nodup_cons, List.mem_map, not_exists, not_and] at unique
    rcases List.mem_cons.mp member with rfl | later
    · simp
    · have different : key first ≠ key row := fun same => unique.1 row later same.symm
      rw [List.find?_cons_of_neg (by simpa using different)]
      exact ih later unique.2

/-- Two rows of the table with one key are one row. -/
theorem eq_of_key {table : Table key} {first second : ρ} (one : first ∈ table.rows)
    (two : second ∈ table.rows) (same : key first = key second) : first = second := by
  have found := find?_of_mem one
  rw [same, find?_of_mem two] at found
  exact (Option.some.inj found).symm

/-- A key that is not found is not taken. -/
theorem find?_eq_none_of_not_mem {table : Table key} {wanted : κ}
    (absent : wanted ∉ table.rows.map key) : table.find? wanted = none := by
  unfold find?
  rw [List.find?_eq_none]
  intro old member same
  exact absent (List.mem_map.mpr ⟨old, member, by simpa using same⟩)

/-- An update changes what is found under its own key and nothing else. -/
theorem find?_put (table : Table key) (row : ρ) (wanted : κ) :
    (table.put row).find? wanted =
      if wanted = key row then (table.find? wanted).map fun _ => row else table.find? wanted := by
  unfold find? put
  dsimp only
  induction table.rows with
  | nil => simp
  | cons first rest ih =>
    rw [List.map_cons, List.find?_cons, List.find?_cons]
    by_cases mine : wanted = key row
    · -- Under the updated key, the first row of that key is the one replaced.
      subst mine
      by_cases same : key first = key row
      · simp [same]
      · simp only [same, if_false, decide_false]
        simpa using ih
    · -- Under any other key, neither the old row nor its replacement is found.
      by_cases same : key first = key row
      · have other : key row ≠ wanted := fun equal => mine equal.symm
        simp only [same, if_true, other, decide_false, mine, if_false]
        simpa [mine] using ih
      · simp only [same, if_false, mine]
        split
        · rfl
        · simpa [mine] using ih

/-- An insertion adds its own row and nothing else. -/
theorem find?_insert {table grown : Table key} {row : ρ} (added : table.insert row = some grown)
    (wanted : κ) :
    grown.find? wanted = if wanted = key row then some row else table.find? wanted := by
  unfold insert at added
  split at added
  · cases added
  · rename_i absent
    cases added
    have missing := find?_eq_none_of_not_mem absent
    unfold find? at missing ⊢
    rw [List.find?_append, List.find?_singleton]
    by_cases mine : wanted = key row
    · -- No earlier row has the key, so the search goes on to the new row.
      subst mine
      simp [missing]
    · have other : key row ≠ wanted := fun equal => mine equal.symm
      simp [mine, other]

/-- An insertion needs a key that is not taken. -/
theorem find?_of_insert {table grown : Table key} {row : ρ}
    (added : table.insert row = some grown) : table.find? (key row) = none := by
  unfold insert at added
  split at added
  · cases added
  · rename_i absent
    exact find?_eq_none_of_not_mem absent

/-- DELETE: only the rows that pass the test stay. -/
def filter (table : Table key) (keep : ρ → Bool) : Table key where
  rows := table.rows.filter keep
  unique := table.unique.sublist ((List.filter_sublist).map key)

/-- Replacing rows by others of the same key changes no key. -/
theorem map_key_overlay (newer : Table key) (rows : List ρ) :
    (rows.map fun old => (newer.find? (key old)).getD old).map key = rows.map key := by
  rw [List.map_map]
  refine List.map_congr_left fun old _ => ?_
  simp only [Function.comp_apply]
  cases found : newer.find? (key old) with
  | none => rfl
  | some row => exact key_of_find? found

/-- UPDATE from a second table: every row is replaced by the newer one of its key, if there is
one. -/
def overlay (table newer : Table key) : Table key where
  rows := table.rows.map fun old => (newer.find? (key old)).getD old
  unique := by
    rw [map_key_overlay]
    exact table.unique

/-- INSERT of many rows: absent when one of the keys is taken. -/
def insertAll (table : Table key) : List ρ → Option (Table key)
  | [] => some table
  | row :: rest => (table.insert row).bind fun grown => grown.insertAll rest

/-- A row is found among the kept ones when it is found and kept. -/
theorem find?_filter (table : Table key) (keep : ρ → Bool) (wanted : κ) :
    (table.filter keep).find? wanted = (table.find? wanted).filter keep := by
  cases found : table.find? wanted with
  | none =>
    -- No row has the key, so no kept row has it either.
    rw [Option.filter_none]
    unfold find? at found ⊢
    rw [List.find?_eq_none] at found ⊢
    intro row member
    exact found row (List.mem_of_mem_filter member)
  | some row =>
    have named := key_of_find? found
    by_cases kept : keep row
    · rw [Option.filter_some, if_pos kept, ← named]
      refine find?_of_mem ?_
      exact List.mem_filter.mpr ⟨mem_of_find? found, kept⟩
    · rw [Option.filter_some, if_neg kept]
      unfold find?
      rw [List.find?_eq_none]
      intro other member same
      -- The only row of the key is the one that was dropped.
      have dropped : other = row := eq_of_key (List.mem_of_mem_filter member) (mem_of_find? found)
        (Eq.trans (by simpa using same) named.symm)
      rw [dropped] at member
      exact kept (List.mem_filter.mp member).2

/-- An overlay replaces what both tables have. -/
theorem find?_overlay (table newer : Table key) (wanted : κ) :
    (table.overlay newer).find? wanted =
      (table.find? wanted).map fun old => (newer.find? wanted).getD old := by
  have whole : ∀ rows : List ρ,
      (rows.map fun old => (newer.find? (key old)).getD old).find? (fun row => key row = wanted) =
        (rows.find? fun row => key row = wanted).map fun old => (newer.find? wanted).getD old := by
    -- The rows keep their keys, so the search stops at the same position in both lists.
    intro rows
    induction rows with
    | nil => rfl
    | cons first rest ih =>
      have named : key ((newer.find? (key first)).getD first) = key first := by
        cases found : newer.find? (key first) with
        | none => rfl
        | some row => exact key_of_find? found
      rw [List.map_cons, List.find?_cons, List.find?_cons, named]
      by_cases same : key first = wanted
      · simp [same]
      · simpa [same] using ih
  exact whole table.rows

/-- Putting back the row that is there changes nothing. -/
theorem put_eq_self {table : Table key} {row : ρ} (found : table.find? (key row) = some row) :
    table.put row = table := by
  have rows : table.rows.map (fun old => if key old = key row then row else old) = table.rows := by
    refine (List.map_congr_left fun old member => ?_).trans (List.map_id _)
    split
    · -- The row to be replaced is the row put back.
      rename_i same
      exact eq_of_key (mem_of_find? found) member same.symm
    · rfl
  unfold put
  cases table
  simp only [mk.injEq]
  exact rows

/-- A table whose rows are all current is left as it is. -/
theorem overlay_eq_self {table newer : Table key}
    (current : ∀ row ∈ table.rows, ∀ other, newer.find? (key row) = some other → other = row) :
    table.overlay newer = table := by
  have rows : table.rows.map (fun old => (newer.find? (key old)).getD old) = table.rows := by
    refine List.map_congr_left (fun row member => ?_) |>.trans (List.map_id _)
    -- A row with no newer version stays, and a newer version is the row.
    cases found : newer.find? (key row) with
    | none => rfl
    | some other => exact current row member other found
  unfold overlay
  cases table
  simp only [mk.injEq]
  exact rows

omit [DecidableEq κ] in
/-- Keeping every row leaves the table as it is. -/
theorem filter_eq_self {table : Table key} {keep : ρ → Bool}
    (all : ∀ row ∈ table.rows, keep row = true) : table.filter keep = table := by
  unfold filter
  cases table
  simp only [mk.injEq]
  exact List.filter_eq_self.mpr all

/-- An insertion puts the row after the others. -/
theorem insert_rows {table grown : Table key} {row : ρ} (added : table.insert row = some grown) :
    grown.rows = table.rows ++ [row] := by
  unfold insert at added
  split at added
  · cases added
  · cases added
    rfl

/-- The inserted rows come after the others, in their order. -/
theorem insertAll_rows {rows : List ρ} {table grown : Table key}
    (added : table.insertAll rows = some grown) : grown.rows = table.rows ++ rows := by
  -- Each insert appends, so the order of the rows is kept.
  induction rows generalizing table with
  | nil =>
    cases added
    simp
  | cons row rest ih =>
    obtain ⟨middle, first, later⟩ := Option.bind_eq_some_iff.mp added
    rw [ih later, insert_rows first]
    simp

/-- Rows with new and distinct keys can all be inserted, and nothing else is found afterwards. -/
theorem insertAll_of_fresh {rows : List ρ} (distinct : (rows.map key).Nodup) (table : Table key)
    (fresh : ∀ row ∈ rows, table.find? (key row) = none) :
    ∃ grown, table.insertAll rows = some grown ∧
      ∀ wanted, grown.find? wanted =
        (rows.find? fun row => key row = wanted).or (table.find? wanted) := by
  induction rows generalizing table with
  | nil => exact ⟨table, rfl, fun wanted => rfl⟩
  | cons row rest ih =>
    simp only [List.map_cons, List.nodup_cons, List.mem_map, not_exists, not_and] at distinct
    have absent : key row ∉ table.rows.map key := by
      intro taken
      obtain ⟨old, member, same⟩ := List.mem_map.mp taken
      have stored := find?_of_mem member
      rw [same, fresh row List.mem_cons_self] at stored
      cases stored
    -- The first row can go in, and it takes no key that the rest needs.
    obtain ⟨middle, added⟩ : ∃ middle, table.insert row = some middle := by
      unfold insert
      rw [dif_neg absent]
      exact ⟨_, rfl⟩
    have between := find?_insert added
    obtain ⟨grown, rest_added, found⟩ := ih distinct.2 middle (by
      intro other member
      have different : key other ≠ key row := fun same => distinct.1 other member same
      rw [between, if_neg different]
      exact fresh other (List.mem_cons_of_mem _ member))
    refine ⟨grown, by simp [insertAll, added, rest_added], ?_⟩
    intro wanted
    rw [found, between, List.find?_cons]
    by_cases mine : key row = wanted
    · -- The rows after this one have other keys.
      have none_later : rest.find? (fun other => decide (key other = wanted)) = none := by
        rw [List.find?_eq_none]
        intro other member same
        exact distinct.1 other member (by rw [mine]; simpa using same)
      simp [mine, none_later]
    · have other : ¬wanted = key row := fun equal => mine equal.symm
      simp [mine, other]

end Table

end Store
