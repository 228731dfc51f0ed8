import Trusca.Matching.Reconciler

/-! What an entry makes of one row, and that a second entry of the same content changes nothing. -/

namespace Trusca

namespace ReportedFinding

/-- The row after the verdict rule: a row nobody has ruled on takes the project's verdict. -/
def ruled (row : ReportedFinding) (carried : Option TriageState) : ReportedFinding :=
  match carried with
  | some verdict => if row.status = .new then row.withVerdict verdict else row
  | none => row

/-- The row after the rules that do not read the status. -/
def reread (carry : CarryForward) (entry : ReportEntry) (row : ReportedFinding) :
    ReportedFinding :=
  { row with
    analysisResponse := entry.analysisResponse
    fixedVersion := entry.fixedVersion
    firstDetectedAt := some (row.earliest (carry.firstDetected entry.key)) }

/-- The row an entry asks for, whether or not it differs from the one the scan has. -/
def settled (carry : CarryForward) (entry : ReportEntry) (row : ReportedFinding) :
    ReportedFinding :=
  (row.reread carry entry).ruled (carry.triage entry.key)

/-- Whether one of the rules finds a difference. -/
def touched (carry : CarryForward) (entry : ReportEntry) (row : ReportedFinding) : Bool :=
  decide (row.analysisResponse ≠ entry.analysisResponse) ||
    decide (row.fixedVersion ≠ entry.fixedVersion) ||
    decide (some (row.earliest (carry.firstDetected entry.key)) ≠ row.firstDetectedAt) ||
    ((carry.triage entry.key).isSome && decide (row.status = .new))

-- The steps of a refresh, each with what it writes and when it raises the flag.
/-- Taking the response over flags a row whose response differs. -/
theorem refreshBy_takeResponse (entry : ReportEntry) (row : ReportedFinding) (flag : Bool) :
    refreshBy (takeResponse entry) (row, flag) =
      ({ row with analysisResponse := entry.analysisResponse },
        flag || decide (row.analysisResponse ≠ entry.analysisResponse)) := by
  unfold refreshBy takeResponse
  by_cases same : row.analysisResponse = entry.analysisResponse
  · simp [← same]
  · simp [same]

/-- Taking the fixed version over flags a row whose fixed version differs. -/
theorem refreshBy_takeFixedVersion (entry : ReportEntry) (row : ReportedFinding) (flag : Bool) :
    refreshBy (takeFixedVersion entry) (row, flag) =
      ({ row with fixedVersion := entry.fixedVersion },
        flag || decide (row.fixedVersion ≠ entry.fixedVersion)) := by
  unfold refreshBy takeFixedVersion
  by_cases same : row.fixedVersion = entry.fixedVersion
  · simp [← same]
  · simp [same]

/-- Taking the earliest detection over flags a row whose first detection moves. -/
theorem refreshBy_takeEarliest (inherited : Option Time) (row : ReportedFinding) (flag : Bool) :
    refreshBy (takeEarliest inherited) (row, flag) =
      ({ row with firstDetectedAt := some (row.earliest inherited) },
        flag || decide (some (row.earliest inherited) ≠ row.firstDetectedAt)) := by
  unfold refreshBy takeEarliest
  by_cases same : some (row.earliest inherited) = row.firstDetectedAt
  · simp [same]
  · simp [same]

/-- Taking a verdict over flags a row that is still new. -/
theorem refreshBy_takeVerdict (carried : Option TriageState) (row : ReportedFinding)
    (flag : Bool) :
    refreshBy (takeVerdict carried) (row, flag) =
      (row.ruled carried, flag || (carried.isSome && decide (row.status = .new))) := by
  unfold refreshBy takeVerdict ruled
  cases carried with
  | none => simp
  | some verdict =>
    by_cases fresh : row.status = .new
    · simp [fresh]
    · simp [fresh]

/-- A verdict changes the status of a row that has none. -/
theorem ruled_status_ne {row : ReportedFinding} {carried : Option TriageState}
    (taken : (carried.isSome && decide (row.status = .new)) = true) :
    (row.ruled carried).status ≠ row.status := by
  cases carried with
  | none => cases taken
  | some verdict =>
    have fresh : row.status = .new := by simpa using taken
    unfold ruled
    simp only [fresh, if_true, withVerdict]
    exact verdict.decided

/-- Without a verdict to take, the row is left alone. -/
theorem ruled_eq_self {row : ReportedFinding} {carried : Option TriageState}
    (left : (carried.isSome && decide (row.status = .new)) = false) : row.ruled carried = row := by
  cases carried with
  | none => rfl
  | some verdict =>
    have ruled_before : ¬row.status = .new := by simpa using left
    simp [ruled, ruled_before]

-- The verdict rule writes none of the columns the other rules write.
/-- Ruling on a finding leaves its response. -/
@[simp] theorem ruled_analysisResponse (row : ReportedFinding) (carried : Option TriageState) :
    (row.ruled carried).analysisResponse = row.analysisResponse := by
  unfold ruled withVerdict
  split <;> [split <;> rfl; rfl]

/-- Ruling on a finding leaves its fixed version. -/
@[simp] theorem ruled_fixedVersion (row : ReportedFinding) (carried : Option TriageState) :
    (row.ruled carried).fixedVersion = row.fixedVersion := by
  unfold ruled withVerdict
  split <;> [split <;> rfl; rfl]

/-- Ruling on a finding leaves its first detection. -/
@[simp] theorem ruled_firstDetectedAt (row : ReportedFinding) (carried : Option TriageState) :
    (row.ruled carried).firstDetectedAt = row.firstDetectedAt := by
  unfold ruled withVerdict
  split <;> [split <;> rfl; rfl]

/-- The four steps together reach the row the entry asks for. -/
theorem refresh_steps (carry : CarryForward) (entry : ReportEntry) (row : ReportedFinding) :
    refreshBy (takeVerdict (carry.triage entry.key))
        (refreshBy (takeEarliest (carry.firstDetected entry.key))
          (refreshBy (takeFixedVersion entry) (refreshBy (takeResponse entry) (row, false)))) =
      (row.settled carry entry, row.touched carry entry) := by
  rw [refreshBy_takeResponse, refreshBy_takeFixedVersion, refreshBy_takeEarliest,
    refreshBy_takeVerdict, Bool.false_or]
  rfl

/-- No rule finds a difference exactly when the row has what the entry says. -/
theorem touched_eq_false_iff (carry : CarryForward) (entry : ReportEntry)
    (row : ReportedFinding) :
    row.touched carry entry = false ↔
      row.analysisResponse = entry.analysisResponse ∧ row.fixedVersion = entry.fixedVersion ∧
        some (row.earliest (carry.firstDetected entry.key)) = row.firstDetectedAt ∧
        ((carry.triage entry.key).isSome && decide (row.status = .new)) = false := by
  simp only [touched, Bool.or_eq_false_iff, decide_eq_false_iff_not, not_not, and_assoc]

/-- A row is what the entry asks for exactly when no rule finds a difference. -/
theorem settled_eq_self_iff (carry : CarryForward) (entry : ReportEntry) (row : ReportedFinding) :
    row.settled carry entry = row ↔ row.touched carry entry = false := by
  rw [touched_eq_false_iff]
  constructor
  · intro same
    refine ⟨?_, ?_, ?_, ?_⟩
    · simpa [settled, reread] using (congrArg analysisResponse same).symm
    · simpa [settled, reread] using (congrArg fixedVersion same).symm
    · simpa [settled, reread] using congrArg firstDetectedAt same
    · -- A verdict that was taken shows in the status.
      by_contra taken
      rw [Bool.not_eq_false] at taken
      have changed : (row.settled carry entry).status ≠ row.status :=
        ruled_status_ne taken
      rw [same] at changed
      exact changed rfl
  · rintro ⟨response, fixed, first, left⟩
    have unread : row.reread carry entry = row := by
      unfold reread
      rw [← response, ← fixed, first]
    unfold settled
    rw [unread]
    exact ruled_eq_self left

/-- A refresh writes what the entry asks for, and touches the row only when that differs. -/
theorem refresh_eq (carry : CarryForward) (now : Time) (entry : ReportEntry)
    (row : ReportedFinding) :
    row.refresh carry now entry =
      if row.settled carry entry = row then (row, false)
      else ({ row.settled carry entry with updatedAt := now }, true) := by
  unfold refresh
  rw [refresh_steps]
  -- The refresh stamps the row only if settling has changed something.
  by_cases same : row.settled carry entry = row
  · have quiet := (settled_eq_self_iff carry entry row).mp same
    simp [quiet, same]
  · have loud : row.touched carry entry = true := by
      rw [settled_eq_self_iff, Bool.not_eq_false] at same
      exact same
    simp [loud, same]

/-- Applying the same content again asks for nothing more. -/
theorem settled_settled (carry : CarryForward) (entry : ReportEntry) (row : ReportedFinding)
    (time : Time) :
    ({ row.settled carry entry with updatedAt := time } : ReportedFinding).settled carry entry =
      { row.settled carry entry with updatedAt := time } := by
  rw [settled_eq_self_iff, touched_eq_false_iff]
  refine ⟨by simp [settled, reread], by simp [settled, reread], ?_, ?_⟩
  · -- The earlier of two times is not later than either.
    simp only [earliest, firstObserved, settled, reread, ruled_firstDetectedAt, Option.getD_some]
    cases carry.firstDetected entry.key with
    | none => rfl
    | some inherited => simp
  · cases carried : carry.triage entry.key with
    | none => rfl
    | some verdict =>
      -- Either somebody had ruled before, or the verdict is one.
      by_cases fresh : row.status = .new
      · simp [settled, reread, ruled, carried, fresh, withVerdict, verdict.decided]
      · simp [settled, reread, ruled, carried, fresh]

/-- A row nobody touched but the clock is settled when the row before was. -/
theorem settled_refresh (carry : CarryForward) (now : Time) (entry : ReportEntry)
    (row : ReportedFinding) :
    (row.refresh carry now entry).1.settled carry entry = (row.refresh carry now entry).1 := by
  rw [refresh_eq]
  split
  · rename_i same
    exact same
  · exact settled_settled carry entry row now

/-- A settled row is left exactly as it is. -/
theorem refresh_of_settled {carry : CarryForward} {entry : ReportEntry} {row : ReportedFinding}
    (same : row.settled carry entry = row) (now : Time) :
    row.refresh carry now entry = (row, false) := by
  rw [refresh_eq, if_pos same]

/-- Two rows carry the same verdict, with its rationale and its author. -/
def SameVerdict (first second : ReportedFinding) : Prop :=
  first.status = second.status ∧ first.analysisState = second.analysisState ∧
    first.analysisJustification = second.analysisJustification ∧
    first.analysisSource = second.analysisSource ∧ first.vexOrigin = second.vexOrigin ∧
    first.analystUserId = second.analystUserId ∧ first.analyzedAt = second.analyzedAt

/-- What a finding the report still names keeps, and what it takes from the project. -/
structure Survives (carry : CarryForward) (row kept : ReportedFinding) : Prop where
  id : kept.id = row.id
  scanKey : kept.scanKey = row.scanKey
  assignment : kept.assignment = row.assignment
  reachability : kept.reachability = row.reachability
  createdAt : kept.createdAt = row.createdAt
  keepsVerdict : row.status ≠ .new ∨ carry.triage row.key = none → kept.SameVerdict row
  takesVerdict : row.status = .new → ∀ verdict, carry.triage row.key = some verdict →
    triageStateOf kept = some verdict
  firstDetectedAt : kept.firstDetectedAt = some (row.earliest (carry.firstDetected row.key))

/-- The row an entry asks for is the surviving row. -/
theorem settled_survives {carry : CarryForward} {entry : ReportEntry} {row : ReportedFinding}
    (named : entry.key = row.key) (time : Time) :
    row.Survives carry { row.settled carry entry with updatedAt := time } := by
  -- The clock is set before the verdict, which leaves it alone.
  have first : (row.reread carry entry).firstDetectedAt =
      some (row.earliest (carry.firstDetected row.key)) := by
    unfold reread
    rw [named]
  by_cases taken : ((carry.triage row.key).isSome && decide (row.status = .new)) = true
  · -- The row takes the verdict and nothing else that is not the report's.
    rw [Bool.and_eq_true, decide_eq_true_iff] at taken
    obtain ⟨verdict, carried⟩ := Option.isSome_iff_exists.mp taken.1
    have asked : row.settled carry entry = (row.reread carry entry).withVerdict verdict := by
      unfold settled ruled
      rw [named, carried]
      exact if_pos taken.2
    rw [asked]
    exact
      { id := rfl
        scanKey := rfl
        assignment := rfl
        reachability := rfl
        createdAt := rfl
        keepsVerdict := by
          rintro (ruled_before | missing)
          · exact absurd taken.2 ruled_before
          · rw [carried] at missing
            cases missing
        takesVerdict := by
          intro _ other same
          rw [carried] at same
          cases same
          simp [triageStateOf, withVerdict, verdict.decided]
        firstDetectedAt := first }
  · -- Nothing is taken, so only the report's own columns and the clock are written.
    rw [Bool.not_eq_true] at taken
    have asked : row.settled carry entry = row.reread carry entry := by
      unfold settled
      rw [named]
      exact ruled_eq_self taken
    rw [asked]
    exact
      { id := rfl
        scanKey := rfl
        assignment := rfl
        reachability := rfl
        createdAt := rfl
        keepsVerdict := fun _ => ⟨rfl, rfl, rfl, rfl, rfl, rfl, rfl⟩
        takesVerdict := by
          intro fresh verdict carried
          simp [carried, fresh] at taken
        firstDetectedAt := first }

/-- A refreshed row is the surviving row. -/
theorem refresh_survives {carry : CarryForward} {entry : ReportEntry} {row : ReportedFinding}
    (named : entry.key = row.key) (now : Time) :
    row.Survives carry (row.refresh carry now entry).1 := by
  rw [refresh_eq]
  split
  · rename_i same
    -- An untouched row is the settled row with its own time.
    have survives : row.Survives carry { row.settled carry entry with updatedAt := row.updatedAt } :=
      settled_survives named row.updatedAt
    rw [same] at survives
    exact survives
  · exact settled_survives named now

end ReportedFinding

-- What a new row holds, whatever the project has decided about the pair.
section NewFinding

variable (carry : CarryForward) (scan : ScanId) (moment : Moment) (entry : ReportEntry)

/-- A new finding has the response of its entry. -/
theorem newFinding_analysisResponse :
    (newFinding carry scan moment entry).analysisResponse = entry.analysisResponse := by
  unfold newFinding ReportedFinding.withVerdict
  cases carry.triage entry.key <;> cases carry.assignment entry.key <;> rfl

/-- A new finding has the fixed version of its entry. -/
theorem newFinding_fixedVersion :
    (newFinding carry scan moment entry).fixedVersion = entry.fixedVersion := by
  unfold newFinding ReportedFinding.withVerdict
  cases carry.triage entry.key <;> cases carry.assignment entry.key <;> rfl

/-- A new finding was first detected when what it carries on was, or else now. -/
theorem newFinding_firstDetectedAt :
    (newFinding carry scan moment entry).firstDetectedAt =
      some ((carry.firstDetected entry.key).getD moment.now) := by
  unfold newFinding ReportedFinding.withVerdict
  cases carry.triage entry.key <;> cases carry.assignment entry.key <;> rfl

/-- A new finding has the status of what it carries on, or else is new. -/
theorem newFinding_status :
    (newFinding carry scan moment entry).status =
      ((carry.triage entry.key).map TriageState.status).getD .new := by
  unfold newFinding ReportedFinding.withVerdict
  cases carry.triage entry.key <;> cases carry.assignment entry.key <;> rfl

/-- A new row stands for its scan and its pair. -/
theorem newFinding_scanKey : (newFinding carry scan moment entry).scanKey = (scan, entry.key) := by
  unfold newFinding ReportedFinding.scanKey ReportedFinding.key ReportedFinding.withVerdict
  cases carry.triage entry.key <;> cases carry.assignment entry.key <;> rfl

/-- A row just created is what its own entry asks for. -/
theorem settled_newFinding :
    (newFinding carry scan moment entry).settled carry entry =
      newFinding carry scan moment entry := by
  rw [ReportedFinding.settled_eq_self_iff, ReportedFinding.touched_eq_false_iff]
  refine ⟨newFinding_analysisResponse carry scan moment entry,
    newFinding_fixedVersion carry scan moment entry, ?_, ?_⟩
  · -- The new clock is the project's, when the project has one.
    unfold ReportedFinding.earliest ReportedFinding.firstObserved
    rw [newFinding_firstDetectedAt]
    cases carry.firstDetected entry.key with
    | none => rfl
    | some inherited => simp
  · rw [newFinding_status]
    cases carry.triage entry.key with
    | none => rfl
    | some verdict => simpa using verdict.decided

end NewFinding

end Trusca
