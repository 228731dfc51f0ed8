import Trusca.Data.Outcome
import Trusca.Matching.CatalogUpsert
import Trusca.Proofs.Matching.RematchAlerts

/-! A row of the catalog settles with the first entry, unless it is inserted with two texts that say the
same. -/

namespace Trusca

section Statements

/-- A returned row is not stale, and the same entry does not change it again, whatever became of an
insertion. -/
def UpsertSettles (existing : Option ScoredCatalogRow) (vuln : ScoredTrivyVuln) (attempt : InsertAttempt) :
    Prop :=
  ∀ row raced, upsertScoredFromTrivy existing vuln attempt = .ok (some row, raced) →
    isStaleCatalogRow row.toCatalogRow = false ∧
      ∀ again, upsertScoredFromTrivy (some row) vuln again = .ok (some row, false)

/-- A refresh keeps the severity, the summary and the scores that the entry does not carry. -/
def RefreshKeeps (vuln : ScoredTrivyVuln) : Prop :=
  ∀ row refreshed, refreshScoredRow row vuln = .ok refreshed →
    (normalizeSeverity vuln.severity = .unknown → refreshed.severity = row.severity) ∧
    (vuln.title.text?.all (· == "") → refreshed.summary = row.summary) ∧
    ∀ score percentile, extractEpss vuln.epss = .ok (score, percentile) →
      (score = none → refreshed.epssScore = row.epssScore) ∧
        (percentile = none → refreshed.epssPercentile = row.epssPercentile)

/-- The entry is inserted, and it says the same in its title and its description. -/
def InsertsDoubled (existing : Option ScoredCatalogRow) (vuln : ScoredTrivyVuln) (attempt : InsertAttempt) :
    Prop :=
  existing = none ∧ attempt = .inserted ∧ sameTexts vuln.title.text? vuln.description.text? ∧
    ∃ scores, extractEpss vuln.epss = .ok scores

end Statements

section Paths

variable {row refreshed : ScoredCatalogRow} {vuln : ScoredTrivyVuln}

/-- A row that has been refreshed is not stale. -/
theorem refreshScoredRow_fresh (done : refreshScoredRow row vuln = .ok refreshed) :
    isStaleCatalogRow refreshed.toCatalogRow = false := by
  obtain ⟨scores, -, rest⟩ := bind_ok.mp done
  cases rest
  exact refresh_not_stale row.toCatalogRow vuln.toTrivyVuln

/-- Whether a row is refreshed or not, it is not stale afterwards. -/
theorem refreshIfStale_fresh (done : refreshIfStale row vuln = .ok refreshed) :
    isStaleCatalogRow refreshed.toCatalogRow = false := by
  unfold refreshIfStale at done
  split_ifs at done with stale
  · exact refreshScoredRow_fresh done
  · cases done
    simpa using stale

/-- A row that is not stale stays as it is. -/
theorem upsert_of_fresh (fresh : isStaleCatalogRow row.toCatalogRow = false) (attempt : InsertAttempt) :
    upsertScoredFromTrivy (some row) vuln attempt = .ok (some row, false) := by
  have kept : refreshIfStale row vuln = .ok row := by simp [refreshIfStale, fresh]
  rw [upsertScoredFromTrivy, kept]
  rfl

/-- Refreshing a row keeps whatever its entry does not state. -/
theorem refreshKeeps (vuln : ScoredTrivyVuln) : RefreshKeeps vuln := by
  intro row refreshed done
  -- The scores were read, or the refresh would have raised.
  obtain ⟨⟨found, place⟩, extracted, rest⟩ := bind_ok.mp done
  cases rest
  -- An unknown severity is kept, a silent title as well, and scores that are missing.
  refine ⟨fun unknown => by simp [refreshStaleCatalogRow, unknown], fun silent => ?_, ?_⟩
  · simp only [refreshStaleCatalogRow, orKept]
    cases title : vuln.title.text? with
    | none => rfl
    | some text =>
      rw [title] at silent
      rw [if_neg (by simpa using silent)]
  · intro score percentile same
    rw [extracted] at same
    cases same
    exact ⟨fun missing => by simp [missing], fun missing => by simp [missing]⟩

/-- A row that is inserted is stale when its texts say the same. -/
theorem newScoredRow_stale (made : newScoredRow vuln = .ok row) :
    isStaleCatalogRow row.toCatalogRow = sameTexts vuln.title.text? vuln.description.text? := by
  obtain ⟨scores, -, rest⟩ := bind_ok.mp made
  cases rest
  exact new_stale vuln.toTrivyVuln

end Paths

section Settling

variable {existing : Option ScoredCatalogRow} {vuln : ScoredTrivyVuln} {attempt : InsertAttempt}

/-- A returned row is not stale, unless it was inserted with two texts that say the same. -/
theorem upsert_fresh {row : ScoredCatalogRow} {raced : Bool}
    (done : upsertScoredFromTrivy existing vuln attempt = .ok (some row, raced))
    (other : ¬ InsertsDoubled existing vuln attempt) : isStaleCatalogRow row.toCatalogRow = false := by
  -- A row that is there is refreshed; a new one is fresh unless its two texts are one.
  cases existing with
  | some old =>
    obtain ⟨refreshed, settled, rest⟩ := bind_ok.mp done
    cases rest
    exact refreshIfStale_fresh settled
  | none =>
    obtain ⟨made, new, rest⟩ := bind_ok.mp done
    cases attempt with
    | inserted =>
      cases rest
      obtain ⟨scores, extracted, -⟩ := bind_ok.mp new
      rw [newScoredRow_stale new]
      by_contra same
      exact other ⟨rfl, rfl, by simpa using same, scores, extracted⟩
    -- The insert was lost to a run beside this one, whose row is refreshed instead.
    | lost winner =>
      cases winner with
      | none => cases rest
      | some winner =>
        obtain ⟨refreshed, settled, rest⟩ := bind_ok.mp rest
        cases rest
        exact refreshIfStale_fresh settled

/-- An upsert settles the row it returns exactly when it does not insert one with two texts that say the
same; a refresh keeps what the entry does not carry in any case. -/
theorem upsert_settles_iff (existing : Option ScoredCatalogRow) (vuln : ScoredTrivyVuln)
    (attempt : InsertAttempt) :
    UpsertSettles existing vuln attempt ∧ RefreshKeeps vuln ↔ ¬ InsertsDoubled existing vuln attempt := by
  rw [and_iff_left (refreshKeeps vuln)]
  constructor
  · -- An insert with both texts alike makes a row that is stale at once.
    intro settles twice
    obtain ⟨rfl, rfl, same, scores, extracted⟩ := twice
    have made : newScoredRow vuln = .ok ⟨newCatalogRow vuln.toTrivyVuln, scores.1, scores.2⟩ := by
      rw [newScoredRow, extracted]
      rfl
    have done : upsertScoredFromTrivy none vuln .inserted =
        .ok (some ⟨newCatalogRow vuln.toTrivyVuln, scores.1, scores.2⟩, false) := by
      rw [upsertScoredFromTrivy, made]
      rfl
    have fresh := (settles _ _ done).1
    rw [newScoredRow_stale made, same] at fresh
    cases fresh
  · -- Anything else leaves a fresh row, and fresh means settled.
    intro other row raced done
    have fresh := upsert_fresh done other
    exact ⟨fresh, upsert_of_fresh fresh⟩

/-- Without a race the upsert does to the row what matching a scan does to it. -/
theorem upsert_row {row : ScoredCatalogRow}
    (done : upsertScoredFromTrivy existing vuln .inserted = .ok (some row, false)) :
    row.toCatalogRow =
      upsertVulnerabilityRow (existing.map ScoredCatalogRow.toCatalogRow) vuln.toTrivyVuln := by
  cases existing with
  | some old =>
    obtain ⟨refreshed, settled, rest⟩ := bind_ok.mp done
    cases rest
    unfold refreshIfStale at settled
    rw [Option.map_some, upsertVulnerabilityRow]
    -- A stale row takes the feed's fields, a fresh one stays.
    split_ifs at settled ⊢ with stale
    · obtain ⟨scores, -, same⟩ := bind_ok.mp settled
      cases same
      rfl
    · cases settled
      rfl
  | none =>
    obtain ⟨made, new, rest⟩ := bind_ok.mp done
    cases rest
    obtain ⟨scores, -, same⟩ := bind_ok.mp new
    cases same
    rfl

end Settling

/-- An entry with one text for its title and its description. -/
def doubledVuln : ScoredTrivyVuln where
  vulnerabilityId := "CVE-2024-0001"
  purl := none
  severity := .str "HIGH"
  title := .str "Buffer overflow in parser"
  description := .str "Buffer overflow in parser"
  references := .arr []
  epss := .null

/-- The row it is inserted with is stale at once, and the same entry then takes the details away. -/
theorem upsert_settles_doubled :
    ∃ row again, upsertScoredFromTrivy none doubledVuln .inserted = .ok (some row, false) ∧
      isStaleCatalogRow row.toCatalogRow = true ∧
      upsertScoredFromTrivy (some row) doubledVuln .inserted = .ok (some again, false) ∧
      row.details = some "Buffer overflow in parser" ∧ again.details = none ∧
      ¬(UpsertSettles none doubledVuln .inserted ∧ RefreshKeeps doubledVuln) := by
  refine ⟨⟨newCatalogRow doubledVuln.toTrivyVuln, none, none⟩,
    ⟨refreshStaleCatalogRow (newCatalogRow doubledVuln.toTrivyVuln) doubledVuln.toTrivyVuln, none, none⟩,
    rfl, by decide, by rfl, rfl, by decide, fun both => ?_⟩
  have fresh := (both.1 _ _ rfl).1
  revert fresh
  decide

end Trusca
