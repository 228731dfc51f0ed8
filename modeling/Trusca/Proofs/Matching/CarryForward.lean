import Mathlib.Data.Int.ConditionallyCompleteOrder
import Mathlib.Data.Prod.Lex
import Mathlib.Order.ConditionallyCompleteLattice.Basic
import Trusca.Proofs.Matching.Reconciler

/-! The verdict that a scan inherits is the latest one of the project, as long as every ruling of the pair
carries its time. -/

namespace Trusca

section Statements

variable (db : MatchingDb) (project : ProjectId) (excluded : ScanId) (key : FindingKey)

/-- The rows of the other scans of the project for a pair. -/
def priorRows : List ReportedFinding := (db.inheritedRows project excluded).filter (·.key == key)

/-- Those of them that somebody ruled on. -/
def rulings : List ReportedFinding := (priorRows db project excluded key).filter (·.status != .new)

/-- The inherited verdict is one of the rulings, and there is one when there are rulings; it is dated, and
no ruling is later, once one of them is dated. -/
structure CarriesLatest : Prop where
  ruled : ∀ verdict, buildInheritedTriage db project excluded key = some verdict →
    ∃ row ∈ rulings db project excluded key, triageStateOf row = some verdict
  present : rulings db project excluded key ≠ [] →
    (buildInheritedTriage db project excluded key).isSome
  latest : ∀ row ∈ rulings db project excluded key, ∀ time, row.analyzedAt = some time →
    ∃ verdict analyzed, buildInheritedTriage db project excluded key = some verdict ∧
      verdict.analyzedAt = some analyzed ∧ time ≤ analyzed

/-- The inherited time is that of one of the rows, and no row was observed earlier; there is one when there
are rows. -/
structure CarriesEarliest : Prop where
  observed : ∀ time, buildInheritedFirstDetected db project excluded key = some time →
    ∃ row ∈ priorRows db project excluded key, row.firstObserved = time
  earliest : ∀ row ∈ priorRows db project excluded key,
    ∃ time, buildInheritedFirstDetected db project excluded key = some time ∧ time ≤ row.firstObserved

/-- Either every ruling of the pair carries the time of its analysis, or none does. -/
def DatedAlike : Prop :=
  (∀ row ∈ rulings db project excluded key, row.analyzedAt.isSome) ∨
    ∀ row ∈ rulings db project excluded key, row.analyzedAt = none

end Statements

section Order

/-- The time of the analysis, an absent one behind all times. -/
def ReportedFinding.analyzed (row : ReportedFinding) : WithTop Time :=
  row.analyzedAt.elim ⊤ fun time => (time : WithTop Time)

/-- The query sorts by the time of the analysis and then by the time of the insertion. -/
theorem compareAnalyzed_isLE {first second : ReportedFinding} :
    (compareAnalyzed first second).isLE ↔
      toLex (first.analyzed, first.createdAt) ≤ toLex (second.analyzed, second.createdAt) := by
  -- A missing time is the least one on either side.
  rw [Prod.Lex.toLex_le_toLex, ReportedFinding.analyzed, ReportedFinding.analyzed, compareAnalyzed]
  cases first.analyzedAt with
  | none =>
    cases second.analyzedAt with
    | none => simp [Ordering.then, Std.isLE_compare]
    | some other => simp [Ordering.then]
  -- Two times: the order of the instants, and of the creation times where they tie.
  | some time =>
    cases second.analyzedAt with
    | none => simp [Ordering.then]
    | some other =>
      simp only [Option.elim_some, WithTop.coe_lt_coe, WithTop.coe_inj]
      cases order : compare time other with
      | lt =>
        have less := Std.compare_eq_lt.mp order
        simp [Ordering.then, less]
      | eq =>
        have same := Std.compare_eq_eq_iff_eq.mp order
        simp [Ordering.then, same, Std.isLE_compare]
      | gt =>
        have more := Std.compare_eq_gt.mp order
        simp [Ordering.then, lt_asymm more, (ne_of_lt more).symm]

/-- The rows of a pair come in this order, so none of them is analysed after the last. -/
theorem analyzed_le_last {rows : List ReportedFinding} {key : FindingKey} {last : ReportedFinding}
    (found : lastOf (rows.mergeSort fun first second => (compareAnalyzed first second).isLE) key = some last) :
    last ∈ rows.filter (·.key == key) ∧ ∀ row ∈ rows.filter (·.key == key), row.analyzed ≤ last.analyzed := by
  -- The stable sort puts the rows in that order.
  have ordered : (rows.mergeSort fun first second => (compareAnalyzed first second).isLE).Pairwise
      fun first second => (compareAnalyzed first second).isLE = true := by
    refine List.pairwise_mergeSort ?_ ?_ rows
    · intro first second third one two
      exact compareAnalyzed_isLE.mpr ((compareAnalyzed_isLE.mp one).trans (compareAnalyzed_isLE.mp two))
    · intro first second
      rw [Bool.or_eq_true, compareAnalyzed_isLE, compareAnalyzed_isLE]
      exact le_total _ _
  -- Sorting moves the rows of a key, and takes none in or out.
  have members : ∀ row, row ∈ rows.filter (·.key == key) ↔
      row ∈ (rows.mergeSort fun first second => (compareAnalyzed first second).isLE).filter
        (·.key == key) := by
    simp [List.mem_filter, List.mem_mergeSort]
  obtain ⟨before, split⟩ := List.getLast?_eq_some_iff.mp found
  have sorted := ordered.filter (·.key == key)
  rw [split, List.pairwise_append] at sorted
  -- The last row of the key is the latest, since all the others stand before it.
  refine ⟨(members last).mpr (by simp [split]), fun row listed => ?_⟩
  have place := (members row).mp listed
  rw [split, List.mem_append, List.mem_singleton] at place
  obtain earlier | rfl := place
  · have below := compareAnalyzed_isLE.mp (sorted.2.2 row earlier last (List.mem_singleton.mpr rfl))
    exact (Prod.Lex.toLex_le_toLex.mp below).elim le_of_lt fun same => same.1.le
  · exact le_refl _

end Order

section Latest

variable {db : MatchingDb} {project : ProjectId} {excluded : ScanId} {key : FindingKey}

/-- Somebody ruled on a row exactly when it carries a verdict, with the time of its analysis. -/
theorem triageStateOf_ruled {row : ReportedFinding} (ruled : row.status ≠ .new) :
    ∃ verdict, triageStateOf row = some verdict ∧ verdict.analyzedAt = row.analyzedAt := by
  rw [triageStateOf, dif_neg ruled]
  exact ⟨_, rfl, rfl⟩

/-- The inherited verdict is that of a ruling which none follows, where a ruling without a time follows
every other one. -/
theorem buildInheritedTriage_last :
    rulings db project excluded key = [] ∧ buildInheritedTriage db project excluded key = none ∨
      ∃ last ∈ rulings db project excluded key,
        (∀ row ∈ rulings db project excluded key, row.analyzed ≤ last.analyzed) ∧
          buildInheritedTriage db project excluded key = triageStateOf last := by
  -- The query's filters and the dictionary's key leave the same rows, in either order.
  have same : ((db.inheritedRows project excluded).filter (·.status != .new)).filter (·.key == key) =
      rulings db project excluded key := by
    rw [rulings, priorRows, List.filter_filter, List.filter_filter]
    exact List.filter_congr fun row _ => Bool.and_comm _ _
  rw [buildInheritedTriage]
  cases found : lastOf (((db.inheritedRows project excluded).filter (·.status != .new)).mergeSort
      fun first second => (compareAnalyzed first second).isLE) key with
  -- No row of the key: there is nothing to inherit.
  | none =>
    refine .inl ⟨?_, rfl⟩
    rw [lastOf, List.getLast?_eq_none_iff, List.filter_eq_nil_iff] at found
    rw [← same, List.filter_eq_nil_iff]
    exact fun row listed => found row (List.mem_mergeSort.mpr listed)
  -- The dictionary keeps the last row of the key, which is the latest.
  | some last =>
    have order := analyzed_le_last found
    rw [same] at order
    exact .inr ⟨last, order.1, order.2, rfl⟩

/-- A pair inherits the earliest observation of all its rows. -/
theorem carriesEarliest : CarriesEarliest db project excluded key where
  -- The least time is one of a prior row's.
  observed time found := by
    obtain ⟨row, listed, same⟩ := List.mem_map.mp (List.min?_mem found)
    exact ⟨row, listed, same⟩
  -- And no prior row was observed before it.
  earliest row listed := by
    have member : row.firstObserved ∈ (priorRows db project excluded key).map ReportedFinding.firstObserved :=
      List.mem_map_of_mem listed
    cases found : ((priorRows db project excluded key).map ReportedFinding.firstObserved).min? with
    | none =>
      rw [List.min?_eq_none_iff.mp found] at member
      cases member
    | some time => exact ⟨time, found, (List.min?_eq_some_iff.mp found).2 _ member⟩

/-- A pair inherits its latest verdict exactly when all its rulings carry the time of their analysis or none
does; its earliest observation it inherits in any case. -/
theorem buildInherited_latest_iff :
    CarriesLatest db project excluded key ∧ CarriesEarliest db project excluded key ↔
      DatedAlike db project excluded key := by
  rw [and_iff_left carriesEarliest]
  obtain ⟨nothing, absent⟩ | ⟨last, listed, latest, found⟩ := @buildInheritedTriage_last db project excluded key
  · -- Nothing was ever ruled, so nothing is to be carried.
    have holds : CarriesLatest db project excluded key :=
      { ruled := fun verdict same => by simp [absent] at same
        present := fun some_ruling => absurd nothing some_ruling
        latest := fun row member => by simp [nothing] at member }
    refine iff_of_true holds (.inl fun row member => ?_)
    rw [nothing] at member
    cases member
  · -- The last ruling is the one that is carried, with its time.
    have ruled : last.status ≠ .new := by simpa using (List.mem_filter.mp listed).2
    obtain ⟨verdict, carried, time⟩ := triageStateOf_ruled ruled
    rw [carried] at found
    constructor
    · intro carries
      cases own : last.analyzedAt with
      | none =>
        -- The last ruling has no time, so the verdict is not dated, and no ruling may be.
        refine .inr fun row member => ?_
        by_contra dated
        obtain ⟨analyzed, set⟩ := Option.ne_none_iff_exists'.mp dated
        obtain ⟨other, late, same, dated', -⟩ := carries.latest row member analyzed set
        cases found.symm.trans same
        rw [time, own] at dated'
        cases dated'
      -- It has a time, so every ruling has one: those without sort behind it.
      | some analyzed =>
        refine .inl fun row member => ?_
        have before := latest row member
        rw [ReportedFinding.analyzed, ReportedFinding.analyzed, own] at before
        cases set : row.analyzedAt with
        | none => simp [set] at before
        | some earlier => rfl
    · -- Alike dated: all with a time, or none of them.
      intro alike
      refine ⟨fun other same => ?_, fun _ => by simp [found], fun row member analyzed set => ?_⟩
      · cases found.symm.trans same
        exact ⟨last, listed, carried⟩
      · have before := latest row member
        rw [ReportedFinding.analyzed, ReportedFinding.analyzed, set] at before
        obtain dated | none_dated := alike
        · obtain ⟨late, own⟩ := Option.isSome_iff_exists.mp (dated last listed)
          rw [own] at before
          exact ⟨verdict, late, found, time.trans own, WithTop.coe_le_coe.mp before⟩
        · rw [none_dated row member] at set
          cases set

end Latest

/-- A row that was stored as being analysed, without the time of an analysis. -/
def seededFinding : ReportedFinding :=
  { insertedFinding 11 2 50 with
    status := .analyzing
    analysisState := some "analyzing" }

/-- A project where somebody ruled on the pair in one scan, and another scan has a seeded row of it. -/
def seededDb : MatchingDb where
  scanProject := fun scan => if scan = 1 ∨ scan = 2 then some (3, 4) else none
  findings :=
    { rows := [ruledFinding, seededFinding]
      unique := by decide }
  approvals := []
  audit := []

/-- The seeded row takes the place of the dated verdict. -/
theorem buildInherited_latest_seeded :
    (buildInheritedTriage seededDb 3 9 (5, 6)).map (·.status) = some .analyzing ∧
      ruledFinding ∈ rulings seededDb 3 9 (5, 6) ∧ ruledFinding.analyzedAt = some 150 ∧
      ¬(CarriesLatest seededDb 3 9 (5, 6) ∧ CarriesEarliest seededDb 3 9 (5, 6)) := by
  -- A row that was judged at 150, and one whose seed was never analysed.
  have member : ruledFinding ∈ rulings seededDb 3 9 (5, 6) := by decide
  have order : ((seededDb.inheritedRows 3 9).filter (·.status != .new)).mergeSort
      (fun first second => (compareAnalyzed first second).isLE) = [ruledFinding, seededFinding] :=
    List.mergeSort_of_pairwise (by decide)
  -- The seeded row comes last, since a missing time sorts behind.
  have carried : buildInheritedTriage seededDb 3 9 (5, 6) = triageStateOf seededFinding := by
    rw [buildInheritedTriage, order]
    rfl
  -- So what is carried has no date, while the last ruling has.
  refine ⟨by rw [carried]; rfl, member, rfl, fun both => ?_⟩
  obtain ⟨verdict, analyzed, same, dated, -⟩ := both.1.latest _ member 150 rfl
  rw [carried] at same
  cases same
  cases dated


end Trusca
