import Trusca.Proofs.Upgrade.Version
import Trusca.Upgrade.Recommendation

/-! Whether the recommended upgrade clears every open finding. -/

namespace Trusca

section Signals

/-- The highest of some ranks, or zero. -/
theorem max_getD_eq_foldl (ranks : List Nat) : ranks.max?.getD 0 = ranks.foldl max 0 := by
  cases ranks with
  | nil => rfl
  | cons rank rest =>
    rw [List.max?_cons', List.foldl_cons, Nat.zero_max]
    rfl

/-- The rank that the recommendation computes is the highest of the ranks. -/
theorem severityRank_maxSeverity (signals : List FindingSignal) :
    severityRank ((maxSeverity signals).getD .unknown) =
      ((signals.map fun signal => severityRank signal.severity).max?).getD 0 := by
  rw [max_getD_eq_foldl]
  -- The loop keeps a severity and its rank, or neither of them.
  have loop : ∀ (signals : List FindingSignal) (best : Option Severity) (rank : Int),
      (best = none ∧ rank = -1 ∨ ∃ severity, best = some severity ∧ rank = severityRank severity) →
      severityRank ((signals.foldl (fun (best : Option Severity × Int) signal =>
        let rank : Int := severityRank signal.severity
        if rank > best.2 then (some signal.severity, rank) else best) (best, rank)).1.getD
          .unknown) =
        (signals.map fun signal => severityRank signal.severity).foldl max
          (severityRank (best.getD .unknown)) := by
    intro signals
    induction signals with
    | nil => intro best rank _; rfl
    | cons signal rest ih =>
      intro best rank kept
      rw [List.foldl_cons, List.map_cons, List.foldl_cons]
      -- A higher rank replaces what was kept, and is the greater of the two.
      by_cases higher : (severityRank signal.severity : Int) > rank
      · simp only [higher, if_true]
        rw [ih _ _ (.inr ⟨signal.severity, rfl, rfl⟩)]
        congr 1
        rcases kept with ⟨rfl, rfl⟩ | ⟨severity, rfl, rfl⟩
        · simp [severityRank]
        · simp only [Option.getD_some]
          omega
      · -- Otherwise the rank kept is the greater one.
        simp only [higher, if_false]
        rw [ih best rank kept]
        congr 1
        rcases kept with ⟨rfl, rfl⟩ | ⟨severity, rfl, rfl⟩
        · omega
        · simp only [Option.getD_some]
          omega
  exact loop signals none (-1) (.inl ⟨rfl, rfl⟩)

/-- The exploit probability that the recommendation computes is the highest one known. -/
theorem maxEpss_eq_max (signals : List FindingSignal) :
    maxEpss signals = (signals.filterMap FindingSignal.epssScore).max? := by
  rw [maxEpss]
  change _ = ((none : Option Epss).toList ++ signals.filterMap FindingSignal.epssScore).max?
  -- The loop carries the highest score so far.
  generalize (none : Option Epss) = best
  induction signals generalizing best with
  | nil => cases best <;> rfl
  | cons signal rest ih =>
    rw [List.foldl_cons, ih]
    cases known : signal.epssScore with
    | none => rw [List.filterMap_cons_none known]
    | some score =>
      rw [List.filterMap_cons_some known]
      cases best with
      | none => rfl
      | some best =>
        -- The higher of the two takes the place of both.
        have higher : (if score > best then some score else some best) = some (max best score) := by
          split
          · rename_i above
            rw [max_eq_right (le_of_lt above)]
          · rename_i below
            rw [max_eq_left (not_lt.mp below)]
        simp only [higher, Option.toList_some, List.singleton_append, List.max?_cons',
          List.foldl_cons]

/-- Whatever it recommends, a recommendation reports the same signals. -/
theorem recommendForComponent_signals (scheme : VersionScheme) (signals : List FindingSignal)
    (direct : Bool) :
    (recommendForComponent scheme signals direct).maxSeverity = maxSeverity signals ∧
      (recommendForComponent scheme signals direct).maxEpss = maxEpss signals ∧
      (recommendForComponent scheme signals direct).direct = direct := by
  unfold recommendForComponent
  dsimp only
  split
  · exact ⟨rfl, rfl, rfl⟩
  · split
    · exact ⟨rfl, rfl, rfl⟩
    · split <;> exact ⟨rfl, rfl, rfl⟩

variable {signals shuffled : List FindingSignal}

/-- The greatest of some items does not depend on their order. -/
theorem max?_perm {α : Type} [LinearOrder α] {items others : List α} (perm : items.Perm others) :
    items.max? = others.max? := by
  -- The greatest is a member that bounds all, and neither depends on the order.
  cases greatest : others.max? with
  | none =>
    rw [List.max?_eq_none_iff] at greatest
    subst greatest
    rw [perm.eq_nil]
    rfl
  | some item =>
    rw [List.max?_eq_some_iff] at greatest ⊢
    exact ⟨perm.mem_iff.mpr greatest.1, fun other member => greatest.2 other (perm.mem_iff.mp member)⟩

/-- No two severities rank alike. -/
theorem severityRank_injective : Function.Injective severityRank := by
  intro first second same
  cases first <;> cases second <;> first | rfl | cases same

/-- Some severity is the highest as soon as there is a finding. -/
theorem maxSeverity_isSome (some_finding : signals ≠ []) : (maxSeverity signals).isSome := by
  -- Once the loop has a severity, it keeps one.
  have loop : ∀ (signals : List FindingSignal) (best : Option Severity × Int), best.1.isSome →
      (signals.foldl (fun (best : Option Severity × Int) signal =>
        let rank : Int := severityRank signal.severity
        if rank > best.2 then (some signal.severity, rank) else best) best).1.isSome := by
    intro signals
    induction signals with
    | nil => exact fun _ known => known
    | cons signal rest ih =>
      intro best known
      refine ih _ ?_
      dsimp only
      split
      · rfl
      · exact known
  obtain ⟨first, rest, rfl⟩ := List.exists_cons_of_ne_nil some_finding
  refine loop rest _ ?_
  have above : (severityRank first.severity : Int) > -1 := by omega
  simp [above]

/-- The worst severity does not depend on the order of the signals. -/
theorem maxSeverity_perm (perm : signals.Perm shuffled) : maxSeverity signals = maxSeverity shuffled := by
  by_cases empty : signals = []
  · subst empty
    rw [perm.nil_eq]
  · have other : shuffled ≠ [] := fun none => empty (none ▸ perm).eq_nil
    obtain ⟨first, here⟩ := Option.isSome_iff_exists.mp (maxSeverity_isSome empty)
    obtain ⟨second, there⟩ := Option.isSome_iff_exists.mp (maxSeverity_isSome other)
    -- Both have the greatest rank, and a rank belongs to one severity.
    have rank := severityRank_maxSeverity signals
    have rank' := severityRank_maxSeverity shuffled
    rw [here] at rank
    rw [there, ← max?_perm (perm.map _), ← rank] at rank'
    rw [here, there]
    exact congrArg some (severityRank_injective rank').symm

/-- The highest score does not depend on the order of the signals. -/
theorem maxEpss_perm (perm : signals.Perm shuffled) : maxEpss signals = maxEpss shuffled := by
  rw [maxEpss_eq_max, maxEpss_eq_max]
  exact max?_perm (perm.filterMap _)

end Signals

section Highest

variable {table : DigitTable}

/-- The loop keeps one of the versions. -/
theorem highestVersion_mem (scheme : VersionScheme) (best : String × scheme.Version)
    (rest : List (String × scheme.Version)) :
    highestVersion scheme best rest ∈ best :: rest := by
  induction rest generalizing best with
  | nil => exact List.mem_singleton_self best
  | cons candidate rest ih =>
    rw [highestVersion]
    -- The scan keeps its best or takes the candidate, and both are in the list.
    rcases List.mem_cons.mp (ih (if scheme.compareVersions candidate.2 best.2 > 0 then candidate
      else best)) with same | later
    · rw [same]
      split <;> simp
    · exact List.mem_cons_of_mem _ (List.mem_cons_of_mem _ later)

/-- The loop replaces a version only by a higher one. -/
theorem compareVersions_kept (candidate best : String × (textScheme table).Version) :
    let kept := if (textScheme table).compareVersions candidate.2 best.2 > 0 then candidate else best
    (compareVersions best.2 kept.2).isLE ∧ (compareVersions candidate.2 kept.2).isLE := by
  have swap := compareVersions_swap candidate.2 best.2
  cases order : compareVersions candidate.2 best.2 <;>
    simp [textScheme, order, swap, compareVersions_self]

/-- No version is higher than the one that is kept. -/
theorem compareVersions_highest (best : String × (textScheme table).Version)
    (rest : List (String × (textScheme table).Version)) :
    ∀ item ∈ best :: rest,
      (compareVersions item.2 (highestVersion (textScheme table) best rest).2).isLE := by
  -- Along the candidates; the best one so far is at or above all that came before.
  induction rest generalizing best with
  | nil =>
    intro item member
    obtain rfl := List.mem_singleton.mp member
    exact congrArg Ordering.isLE (compareVersions_self item.2)
  | cons candidate rest ih =>
    intro item member
    -- The new best is at or above the old best and the candidate.
    obtain ⟨old, new⟩ := compareVersions_kept candidate best
    have least := ih (if (textScheme table).compareVersions candidate.2 best.2 > 0 then candidate
      else best)
    have kept := least _ List.mem_cons_self
    rw [highestVersion]
    rcases List.mem_cons.mp member with rfl | later
    · exact compareVersions_trans old kept
    · rcases List.mem_cons.mp later with rfl | later
      · exact compareVersions_trans new kept
      · exact least item (List.mem_cons_of_mem _ later)

end Highest

section Safety

variable {table : DigitTable} {signals shuffled : List FindingSignal} {direct : Bool}

/-- Whether a finding has a fix whose text is a version. -/
def FixParses (table : DigitTable) (signal : FindingSignal) : Prop :=
  ∃ fix version, signal.fixedVersion = some fix ∧ parseVersion table fix = .ok (some version)

/-- Whether every finding has a fix and every fix can be read, as a version or as none. -/
def FixesRead (table : DigitTable) (signals : List FindingSignal) : Prop :=
  ∀ signal ∈ signals, ∃ fix read, signal.fixedVersion = some fix ∧ parseVersion table fix = .ok read

/-- The fixes of some findings that are versions, with their texts. -/
def parseableFixes (table : DigitTable) (signals : List FindingSignal) :
    List (String × ParsedVersion) :=
  (signals.filterMap FindingSignal.fixedVersion).filterMap fun raw =>
    ((textScheme table).parseVersion raw).map fun parsed => (raw, parsed)

/-- The scheme of texts has a version where one is read. -/
theorem textScheme_parse {raw : String} {version : ParsedVersion} :
    (textScheme table).parseVersion raw = some version ↔
      parseVersion table raw = .ok (some version) := by
  simp only [textScheme]
  cases parseVersion table raw with
  | error reason => simp
  | ok read => simp

/-- A parseable fix is the fix of a signal that is read as a version. -/
theorem mem_parseableFixes {raw : String} {version : ParsedVersion} :
    (raw, version) ∈ parseableFixes table signals ↔
      ∃ signal ∈ signals, signal.fixedVersion = some raw ∧
        parseVersion table raw = .ok (some version) := by
  -- A fix that does not parse is skipped, so what is left has a version.
  rw [parseableFixes, List.mem_filterMap]
  constructor
  · rintro ⟨text, listed, paired⟩
    obtain ⟨signal, member, fix⟩ := List.mem_filterMap.mp listed
    obtain ⟨parsed, read, same⟩ := Option.map_eq_some_iff.mp paired
    cases same
    have known := textScheme_parse.mp read
    exact ⟨signal, member, fix, known⟩
  · rintro ⟨signal, member, fix, read⟩
    have known := textScheme_parse.mpr read
    exact ⟨raw, List.mem_filterMap.mpr ⟨signal, member, fix⟩,
      Option.map_eq_some_iff.mpr ⟨version, known, rfl⟩⟩

/-- When the recommendation is computed at all. -/
theorem recommendFromTexts_ok {answer : UpgradeRecommendation} :
    recommendFromTexts table signals direct = .ok answer ↔
      (FixesRead table signals ∨ ∃ signal ∈ signals, signal.fixedVersion = none) ∧
        answer = recommendForComponent (textScheme table) signals direct := by
  -- Reading the fixes raises only if there is a fix in every signal.
  have texts : (∃ results, (if signals.any fun signal => signal.fixedVersion.isNone then []
      else signals.filterMap FindingSignal.fixedVersion).mapM (parseVersion table) = .ok results) ↔
      FixesRead table signals ∨ ∃ signal ∈ signals, signal.fixedVersion = none := by
    rw [mapM_ok]
    -- A missing fix skips the parsing altogether.
    by_cases missing : ∃ signal ∈ signals, signal.fixedVersion = none
    · have any : (signals.any fun signal => signal.fixedVersion.isNone) = true := by simpa using missing
      simp [any, missing]
    · have any : (signals.any fun signal => signal.fixedVersion.isNone) = false := by
        rw [← Bool.not_eq_true]
        simpa using missing
      simp only [any, Bool.false_eq_true, if_false, missing, or_false, List.mem_filterMap]
      refine ⟨fun read signal member => ?_, ?_⟩
      · cases fix : signal.fixedVersion with
        | none => exact absurd ⟨signal, member, fix⟩ missing
        | some raw =>
          obtain ⟨parsed, known⟩ := read raw ⟨signal, member, fix⟩
          exact ⟨raw, parsed, rfl, known⟩
      · rintro read raw ⟨signal, member, fix⟩
        obtain ⟨other, parsed, same, known⟩ := read signal member
        cases fix.symm.trans same
        exact ⟨parsed, known⟩
  -- The rest of the function does not raise.
  rw [← texts, recommendFromTexts, bind_ok]
  constructor
  · rintro ⟨results, read, same⟩
    cases same
    exact ⟨⟨results, read⟩, rfl⟩
  · rintro ⟨⟨results, read⟩, rfl⟩
    exact ⟨results, read, rfl⟩

/-- Without a fix for every finding, or without a version among the fixes, nothing is recommended. -/
theorem recommendForComponent_refuses
    (refuses : (∃ signal ∈ signals, signal.fixedVersion = none) ∨ parseableFixes table signals = []) :
    recommendForComponent (textScheme table) signals direct =
      { recommendedVersion := none
        reason :=
          if signals = [] then .noOpenFindings
          else if signals.any fun signal => signal.fixedVersion.isNone then .noFixVersion
          else .unparseableVersion
        direct := direct
        maxSeverity := maxSeverity signals
        maxEpss := maxEpss signals
        findingCount := signals.length
        contributingFixVersions := [] } := by
  unfold recommendForComponent
  dsimp only
  -- In the order of the source: no finding, a finding without a fix, none that parses.
  by_cases empty : signals = []
  · subst empty
    rfl
  · simp only [List.isEmpty_iff, empty, if_false]
    split
    · rfl
    · -- Not one fix is missing, so none of them parses.
      next all =>
      have none_left : parseableFixes table signals = [] := by
        refine refuses.resolve_left ?_
        rintro ⟨signal, member, missing⟩
        exact all (List.any_eq_true.mpr ⟨signal, member, by simp [missing]⟩)
      rw [show (signals.filterMap FindingSignal.fixedVersion).filterMap _ =
        parseableFixes table signals from rfl, none_left]

/-- With a fix for every finding, the highest of the versions among the fixes is recommended. -/
theorem recommendForComponent_recommends {first : String × ParsedVersion}
    {rest : List (String × ParsedVersion)} (fixes : ¬∃ signal ∈ signals, signal.fixedVersion = none)
    (parseable : parseableFixes table signals = first :: rest) :
    recommendForComponent (textScheme table) signals direct =
      { recommendedVersion := some (highestVersion (textScheme table) first rest).1
        reason := .ok
        direct := direct
        maxSeverity := maxSeverity signals
        maxEpss := maxEpss signals
        findingCount := signals.length
        contributingFixVersions := (first :: rest).map Prod.fst } := by
  -- A fix that parses is somebody's, so there is a finding.
  have some_finding : signals ≠ [] := by
    rintro rfl
    cases parseable
  -- And no finding is without one, which is the other early return.
  have all : (signals.any fun signal => signal.fixedVersion.isNone) = false := by
    rw [← Bool.not_eq_true]
    simpa using fixes
  unfold recommendForComponent
  simp only [List.isEmpty_iff, some_finding, all, Bool.false_eq_true, if_false]
  rw [show (signals.filterMap FindingSignal.fixedVersion).filterMap _ =
    parseableFixes table signals from rfl, parseable]

/-- Two answers that say the same, but for versions that compare equal. -/
structure SameAnswer (table : DigitTable) (first second : UpgradeRecommendation) : Prop where
  reason : first.reason = second.reason
  direct : first.direct = second.direct
  maxSeverity : first.maxSeverity = second.maxSeverity
  maxEpss : first.maxEpss = second.maxEpss
  findingCount : first.findingCount = second.findingCount
  contributing : first.contributingFixVersions.Perm second.contributingFixVersions
  version : first.recommendedVersion = none ∧ second.recommendedVersion = none ∨
    ∃ one other version version', first.recommendedVersion = some one ∧
      second.recommendedVersion = some other ∧ parseVersion table one = .ok (some version) ∧
      parseVersion table other = .ok (some version') ∧ compareVersions version version' = .eq

/-- Versions that are not higher than each other compare equal. -/
theorem compareVersions_eq_of_isLE {first second : ParsedVersion}
    (below : (compareVersions first second).isLE) (above : (compareVersions second first).isLE) :
    compareVersions first second = .eq := by
  rw [compareVersions_swap first second] at above
  cases order : compareVersions first second with
  | lt => rw [order] at above; cases above
  | eq => rfl
  | gt => rw [order] at below; cases below

/-- The order of the findings does not matter, but for fixes that compare equal. -/
theorem recommendForComponent_perm (perm : signals.Perm shuffled) :
    SameAnswer table (recommendForComponent (textScheme table) signals direct)
      (recommendForComponent (textScheme table) shuffled direct) := by
  have alike : (parseableFixes table signals).Perm (parseableFixes table shuffled) :=
    (perm.filterMap _).filterMap _
  have missing : (∃ signal ∈ signals, signal.fixedVersion = none) ↔
      ∃ signal ∈ shuffled, signal.fixedVersion = none := by simp only [perm.mem_iff]
  have any : (signals.any fun signal => signal.fixedVersion.isNone) =
      shuffled.any fun signal => signal.fixedVersion.isNone := by
    rw [Bool.eq_iff_iff]
    simpa using missing
  have empty : signals = [] ↔ shuffled = [] := by
    rw [← List.length_eq_zero_iff, perm.length_eq, List.length_eq_zero_iff]
  by_cases refuses : (∃ signal ∈ signals, signal.fixedVersion = none) ∨ parseableFixes table signals = []
  · -- The early returns look at properties that no order changes.
    have refuses' : (∃ signal ∈ shuffled, signal.fixedVersion = none) ∨
        parseableFixes table shuffled = [] := by
      rw [← missing]
      refine refuses.imp_right fun none_left => ?_
      rw [none_left] at alike
      exact alike.nil_eq.symm
    rw [recommendForComponent_refuses refuses, recommendForComponent_refuses refuses']
    refine
      { reason := ?_
        direct := rfl
        maxSeverity := maxSeverity_perm perm
        maxEpss := maxEpss_perm perm
        findingCount := perm.length_eq
        contributing := .nil
        version := .inl ⟨rfl, rfl⟩ }
    simp only [any, empty]
  · -- Both orders have a fix that parses, and recommend the highest of their own.
    obtain ⟨fixes, versions⟩ := not_or.mp refuses
    obtain ⟨first, rest, here⟩ := List.exists_cons_of_ne_nil versions
    have versions' : parseableFixes table shuffled ≠ [] := fun none_left =>
      versions (none_left ▸ alike).eq_nil
    obtain ⟨first', rest', there⟩ := List.exists_cons_of_ne_nil versions'
    rw [recommendForComponent_recommends fixes here,
      recommendForComponent_recommends (mt missing.mpr fixes) there]
    rw [here, there] at alike
    -- Each of the two highest versions is among the versions that the other one is not below.
    have one := highestVersion_mem (textScheme table) first rest
    have other := highestVersion_mem (textScheme table) first' rest'
    have read := mem_parseableFixes.mp (here ▸ one)
    have read' := mem_parseableFixes.mp (there ▸ other)
    obtain ⟨_, _, _, parsed⟩ := read
    obtain ⟨_, _, _, parsed'⟩ := read'
    exact
      { reason := rfl
        direct := rfl
        maxSeverity := maxSeverity_perm perm
        maxEpss := maxEpss_perm perm
        findingCount := perm.length_eq
        contributing := alike.map _
        version := .inr ⟨_, _, _, _, rfl, rfl, parsed, parsed', compareVersions_eq_of_isLE
          (compareVersions_highest first' rest' _ (alike.mem_iff.mp one))
          (compareVersions_highest first rest _ (alike.mem_iff.mpr other))⟩ }

/-- The highest of the versions among the fixes is recommended; a fix that is no version is passed over. -/
def RecommendsHighest (table : DigitTable) (signals : List FindingSignal) (direct : Bool) : Prop :=
  ∀ answer, recommendFromTexts table signals direct = .ok answer → answer.reason = .ok →
    FixesRead table signals ∧
    ∃ fix best, answer.recommendedVersion = some fix ∧ parseVersion table fix = .ok (some best) ∧
      (∃ signal ∈ signals, signal.fixedVersion = some fix) ∧
      ∀ signal ∈ signals, ∀ other version, signal.fixedVersion = some other →
        parseVersion table other = .ok (some version) → (compareVersions version best).isLE

/-- A recommended version clears every finding, and the order of the findings does not matter. -/
structure SafeRecommendation (table : DigitTable) (signals : List FindingSignal) (direct : Bool) :
    Prop where
  clears : ∀ answer, recommendFromTexts table signals direct = .ok answer → answer.reason = .ok →
    ∃ fix best, answer.recommendedVersion = some fix ∧ parseVersion table fix = .ok (some best) ∧
      (∃ signal ∈ signals, signal.fixedVersion = some fix) ∧
      ∀ signal ∈ signals, ∃ other version, signal.fixedVersion = some other ∧
        parseVersion table other = .ok (some version) ∧ (compareVersions version best).isLE
  unordered : ∀ shuffled, signals.Perm shuffled →
    (∃ answer answer', recommendFromTexts table signals direct = .ok answer ∧
      recommendFromTexts table shuffled direct = .ok answer' ∧ SameAnswer table answer answer') ∨
    ∃ failure failure', recommendFromTexts table signals direct = .error failure ∧
      recommendFromTexts table shuffled direct = .error failure'

/-- Whether the recommendation is computed does not depend on the order of the findings. -/
theorem recommendFromTexts_perm (perm : signals.Perm shuffled) :
    (∃ answer answer', recommendFromTexts table signals direct = .ok answer ∧
      recommendFromTexts table shuffled direct = .ok answer' ∧ SameAnswer table answer answer') ∨
    ∃ failure failure', recommendFromTexts table signals direct = .error failure ∧
      recommendFromTexts table shuffled direct = .error failure' := by
  -- Whether the fixes read does not depend on the order.
  have reads : (FixesRead table signals ∨ ∃ signal ∈ signals, signal.fixedVersion = none) ↔
      (FixesRead table shuffled ∨ ∃ signal ∈ shuffled, signal.fixedVersion = none) := by
    simp only [FixesRead, perm.mem_iff]
  by_cases read : FixesRead table signals ∨ ∃ signal ∈ signals, signal.fixedVersion = none
  · exact .inl ⟨_, _, recommendFromTexts_ok.mpr ⟨read, rfl⟩,
      recommendFromTexts_ok.mpr ⟨reads.mp read, rfl⟩, recommendForComponent_perm perm⟩
  · right
    -- Neither order returns, since both would have read every fix.
    cases here : recommendFromTexts table signals direct with
    | ok answer => exact absurd (recommendFromTexts_ok.mp here).1 read
    | error failure =>
      cases there : recommendFromTexts table shuffled direct with
      | ok answer => exact absurd (reads.mpr (recommendFromTexts_ok.mp there).1) read
      | error failure' => exact ⟨failure, failure', rfl, rfl⟩

/-- Whatever the signals, the highest of the fixes is recommended. -/
theorem recommendsHighest (table : DigitTable) (signals : List FindingSignal) (direct : Bool) :
    RecommendsHighest table signals direct := by
  intro answer computed recommended
  obtain ⟨reads, rfl⟩ := recommendFromTexts_ok.mp computed
  by_cases refuses : (∃ signal ∈ signals, signal.fixedVersion = none) ∨
    parseableFixes table signals = []
  · -- A refusal gives a reason of its own.
    rw [recommendForComponent_refuses refuses] at recommended
    dsimp only at recommended
    split_ifs at recommended
  · obtain ⟨fixes, versions⟩ := not_or.mp refuses
    obtain ⟨first, rest, parseable⟩ := List.exists_cons_of_ne_nil versions
    refine ⟨reads.resolve_right fixes, ?_⟩
    rw [recommendForComponent_recommends fixes parseable]
    have best := highestVersion_mem (textScheme table) first rest
    obtain ⟨signal, member, has, parsed⟩ := mem_parseableFixes.mp (parseable ▸ best)
    refine ⟨_, _, rfl, parsed, ⟨signal, member, has⟩, fun other there fix version has' parsed' => ?_⟩
    have listed : (fix, version) ∈ first :: rest :=
      parseable ▸ mem_parseableFixes.mpr ⟨other, there, has', parsed'⟩
    exact compareVersions_highest first rest _ listed

/-- The recommended upgrade is safe exactly when, with a fix for every finding, the fixes are versions
all together or not at all. -/
theorem recommendation_safe (table : DigitTable) (signals : List FindingSignal) (direct : Bool) :
    SafeRecommendation table signals direct ↔
      (FixesRead table signals → (∃ signal ∈ signals, FixParses table signal) →
        ∀ signal ∈ signals, FixParses table signal) := by
  constructor
  · -- Read from a recommendation: some fix parses, so the answer is ok and speaks for all.
    rintro ⟨clears, _⟩ read ⟨signal, member, fix, version, has, parsed⟩
    -- No fix is missing, or not every one would have been read.
    have fixes : ¬∃ signal ∈ signals, signal.fixedVersion = none := by
      rintro ⟨other, there, missing⟩
      obtain ⟨_, _, same, _⟩ := read other there
      rw [missing] at same
      cases same
    have versions : parseableFixes table signals ≠ [] :=
      List.ne_nil_of_mem (mem_parseableFixes.mpr ⟨signal, member, has, parsed⟩)
    obtain ⟨first, rest, parseable⟩ := List.exists_cons_of_ne_nil versions
    have recommended : (recommendForComponent (textScheme table) signals direct).reason = .ok := by
      rw [recommendForComponent_recommends fixes parseable]
    obtain ⟨_, _, _, _, _, all⟩ := clears _ (recommendFromTexts_ok.mpr ⟨.inl read, rfl⟩) recommended
    intro other there
    obtain ⟨fix, version, has, parsed, _⟩ := all other there
    exact ⟨fix, version, has, parsed⟩
  · -- Conversely the highest is taken over all the findings, since all of them parse.
    intro together
    refine ⟨fun answer computed recommended => ?_, fun shuffled => recommendFromTexts_perm⟩
    obtain ⟨reads, fix, best, version, parsed, ⟨signal, member, has⟩, highest⟩ :=
      recommendsHighest table signals direct answer computed recommended
    refine ⟨fix, best, version, parsed, ⟨signal, member, has⟩, fun other there => ?_⟩
    obtain ⟨fix', version', has', parsed'⟩ := together reads ⟨signal, member, _, _, has, parsed⟩ other there
    exact ⟨fix', version', has', parsed', highest other there _ _ has' parsed'⟩

/-- The highest version is recommended in any order of the findings, and it clears them all exactly when the
fixes are versions all together or not at all. -/
theorem recommendation_laws (table : DigitTable) (signals : List FindingSignal) (direct : Bool) :
    RecommendsHighest table signals direct ∧
      (∀ shuffled, signals.Perm shuffled →
        (∃ answer answer', recommendFromTexts table signals direct = .ok answer ∧
          recommendFromTexts table shuffled direct = .ok answer' ∧ SameAnswer table answer answer') ∨
        ∃ failure failure', recommendFromTexts table signals direct = .error failure ∧
          recommendFromTexts table shuffled direct = .error failure') ∧
      (SafeRecommendation table signals direct ↔
        (FixesRead table signals → (∃ signal ∈ signals, FixParses table signal) →
          ∀ signal ∈ signals, FixParses table signal)) :=
  ⟨recommendsHighest table signals direct, fun _ => recommendFromTexts_perm,
    recommendation_safe table signals direct⟩

end Safety

/-- One fix is a version and the other one is not, and the first is recommended for both findings. -/
theorem recommendation_unsafe : ¬SafeRecommendation asciiDigits
    [⟨some "1.0", .high, none⟩, ⟨some "latest", .critical, none⟩] true := by
  rintro ⟨clears, _⟩
  -- `latest` does not parse, and the answer is 1.0 all the same.
  have computed : recommendFromTexts asciiDigits
      [⟨some "1.0", .high, none⟩, ⟨some "latest", .critical, none⟩] true =
      .ok ⟨some "1.0", .ok, true, some .critical, none, 2, ["1.0"]⟩ ∧
      parseVersion asciiDigits "latest" = .ok none := by decide +kernel
  obtain ⟨_, _, _, _, _, all⟩ := clears _ computed.1 rfl
  obtain ⟨fix, version, has, parsed, _⟩ := all ⟨some "latest", .critical, none⟩ (by simp)
  -- The critical finding has no fix that 1.0 could be at or above.
  cases has
  rw [computed.2] at parsed
  cases parsed

end Trusca
