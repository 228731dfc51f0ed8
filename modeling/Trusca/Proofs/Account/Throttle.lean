import Mathlib.Data.List.Perm.Subperm
import Mathlib.Data.List.Induction
import Mathlib.Data.List.Nodup
import Trusca.Account.Throttle
import Trusca.Store.History

/-! How many failed password checks the throttle lets happen between two of its windows. -/

namespace Trusca

open Store

variable {τ : Type*}

namespace ThrottleOccurrence

/-- The sign-in an occurrence is about. -/
def party : ThrottleOccurrence τ → Option τ
  | .admitted tx | .started tx | .failed tx | .counted tx _ | .passedOver tx => some tx
  | .opened _ | .cleared => none

/-- The sign-in whose check has failed. -/
def failure : ThrottleOccurrence τ → Option τ
  | .failed tx => some tx
  | _ => none

/-- The sign-in whose failure is reported. -/
def report : ThrottleOccurrence τ → Option τ
  | .counted tx _ | .passedOver tx => some tx
  | _ => none

/-- The sign-in whose failure is counted. -/
def count : ThrottleOccurrence τ → Option τ
  | .counted tx _ => some tx
  | _ => none

/-- Whether a counter is created. -/
def begins : ThrottleOccurrence τ → Bool
  | .counted _ first => first
  | _ => false

/-- Whether a window opens. -/
def opens : ThrottleOccurrence τ → Bool
  | .opened _ => true
  | _ => false

end ThrottleOccurrence

/-- What happened at an address, and when. -/
abbrev ThrottleHistory (τ : Type*) := List (Nat × ThrottleOccurrence τ)

namespace ThrottleHistory

/-- The sign-ins whose checks have failed. -/
def failures (history : ThrottleHistory τ) : List τ := history.filterMap fun item => item.2.failure

/-- The sign-ins whose failures have been reported. -/
def reports (history : ThrottleHistory τ) : List τ := history.filterMap fun item => item.2.report

/-- The sign-ins whose failures have been counted. -/
def counts (history : ThrottleHistory τ) : List τ := history.filterMap fun item => item.2.count

/-- How often a counter was created. -/
def lives (history : ThrottleHistory τ) : Nat := history.countP fun item => item.2.begins

/-- The sign-ins whose failures are still to be reported. -/
def unreported [DecidableEq τ] (history : ThrottleHistory τ) : List τ :=
  history.failures.filter fun tx => tx ∉ history.reports

/-- No window opens in this stretch of a history. -/
def Unopened (history : ThrottleHistory τ) : Prop := ∀ item ∈ history, item.2.opens = false

/-- The counter that is left of what was counted. -/
def counterStep (decay : Nat) (counter : Key Nat) : Nat × ThrottleOccurrence τ → Key Nat
  | (moment, .counted _ true) => some ⟨1, moment + decay⟩
  | (_, .counted _ false) => counter.map fun entry => ⟨entry.value + 1, entry.expires⟩
  | (_, .opened _) | (_, .cleared) => none
  | (_, .admitted _) | (_, .started _) | (_, .failed _) | (_, .passedOver _) => counter

/-- The window that is left of those that were opened. -/
def markerStep (marker : Key Unit) : Nat × ThrottleOccurrence τ → Key Unit
  | (_, .opened last) => some ⟨(), last⟩
  | (_, .cleared) => none
  | (_, .admitted _) | (_, .started _) | (_, .failed _) | (_, .counted _ _) | (_, .passedOver _) =>
      marker

/-- The counter as the history makes it. -/
def counter (decay : Nat) (history : ThrottleHistory τ) : Key Nat :=
  history.foldl (counterStep decay) none

/-- The window marker as the history makes it. -/
def marker (history : ThrottleHistory τ) : Key Unit := history.foldl markerStep none

/-- What may happen after a history. -/
def Fine (settings : ThrottleSettings) (before : ThrottleHistory τ) :
    Nat × ThrottleOccurrence τ → Prop
  | (moment, .admitted _) => before.marker.at? moment = none
  | (_, .started tx) => ∃ earlier, (earlier, .admitted tx) ∈ before
  | (_, .failed tx) => tx ∉ before.failures
  | (moment, .counted tx first) => before.marker.at? moment = none ∧
      first = ((before.counter settings.decay).at? moment).isNone ∧
      (∀ entry, before.counter settings.decay = some entry → entry.value < settings.failures) ∧
      tx ∈ before.failures ∧ tx ∉ before.reports
  | (moment, .passedOver tx) => before.marker.at? moment ≠ none ∧ tx ∈ before.failures ∧
      tx ∉ before.reports
  | (_, .opened _) | (_, .cleared) => True

variable {settings : ThrottleSettings} {history before window segment stretch : ThrottleHistory τ}
  {item : Nat × ThrottleOccurrence τ} {opening last : Nat}

/-- One more occurrence takes the counter one step on. -/
@[simp] theorem counter_concat (decay : Nat) (history : ThrottleHistory τ)
    (item : Nat × ThrottleOccurrence τ) :
    counter decay (history ++ [item]) = counterStep decay (counter decay history) item := by
  simp [counter]

/-- One more occurrence takes the marker one step on. -/
@[simp] theorem marker_concat (history : ThrottleHistory τ) (item : Nat × ThrottleOccurrence τ) :
    marker (history ++ [item]) = markerStep (marker history) item := by
  simp [marker]

/-- The failures of two histories in a row are those of each. -/
@[simp] theorem failures_append (first second : ThrottleHistory τ) :
    failures (first ++ second) = first.failures ++ second.failures := List.filterMap_append

/-- The reports of two histories in a row are those of each. -/
@[simp] theorem reports_append (first second : ThrottleHistory τ) :
    reports (first ++ second) = first.reports ++ second.reports := List.filterMap_append

/-- The counts of two histories in a row are those of each. -/
@[simp] theorem counts_append (first second : ThrottleHistory τ) :
    counts (first ++ second) = first.counts ++ second.counts := List.filterMap_append

/-- The lives of two histories in a row add up. -/
@[simp] theorem lives_append (first second : ThrottleHistory τ) :
    lives (first ++ second) = first.lives + second.lives := List.countP_append

/-- A sign-in has failed when the history records it. -/
theorem mem_failures {tx : τ} : tx ∈ history.failures ↔ ∃ moment, (moment, .failed tx) ∈ history := by
  simp only [failures, List.mem_filterMap, Prod.exists]
  constructor
  · rintro ⟨moment, occurrence, member, named⟩
    cases occurrence <;> cases named
    exact ⟨moment, member⟩
  · rintro ⟨moment, member⟩
    exact ⟨moment, _, member, rfl⟩

/-- A sign-in is reported when an occurrence of the history reports it. -/
theorem mem_reports {tx : τ} :
    tx ∈ history.reports ↔ ∃ item ∈ history, item.2.report = some tx := by
  simp [reports, List.mem_filterMap]

/-- The front of a stretch without an opened lock has none either. -/
theorem Unopened.front (unopened : Unopened (stretch ++ [item])) : Unopened stretch :=
  fun other member => unopened other (List.mem_append_left _ member)

/-- The last occurrence of a stretch without an opened lock opens none. -/
theorem Unopened.ends (unopened : Unopened (stretch ++ [item])) : item.2.opens = false :=
  unopened item (List.mem_append_right _ List.mem_cons_self)

/-- One more occurrence adds the failure it records. -/
theorem failures_concat (history : ThrottleHistory τ) (item : Nat × ThrottleOccurrence τ) :
    failures (history ++ [item]) = history.failures ++ item.2.failure.toList := by
  cases named : item.2.failure <;> simp [failures, named]

/-- One more occurrence adds the report it makes. -/
theorem reports_concat (history : ThrottleHistory τ) (item : Nat × ThrottleOccurrence τ) :
    reports (history ++ [item]) = history.reports ++ item.2.report.toList := by
  cases named : item.2.report <;> simp [reports, named]

/-- A check that fails had not failed before. -/
theorem Fine.failure {tx : τ} (fine : Fine settings before item)
    (named : item.2.failure = some tx) : tx ∉ before.failures := by
  obtain ⟨moment, occurrence⟩ := item
  cases occurrence <;> cases named
  exact fine

/-- A failure that is reported is there and had not been reported. -/
theorem Fine.report {tx : τ} (fine : Fine settings before item)
    (named : item.2.report = some tx) : tx ∈ before.failures ∧ tx ∉ before.reports := by
  obtain ⟨moment, occurrence⟩ := item
  cases occurrence <;> cases named
  · exact fine.2.2.2
  · exact fine.2

/-- A list without repetition and at most one new member. -/
theorem nodup_append_toList {known : List τ} {new : Option τ} (distinct : known.Nodup)
    (fresh : ∀ tx, new = some tx → tx ∉ known) : (known ++ new.toList).Nodup := by
  cases new with
  | none => simpa using distinct
  | some tx =>
    rw [Option.toList_some, ← List.concat_eq_append]
    exact distinct.concat (fresh tx rfl)

/-- Each sign-in fails once, and each failure is reported once. -/
theorem reports_once (justified : Justified (Fine settings) history) :
    history.failures.Nodup ∧ history.reports.Nodup ∧ history.reports ⊆ history.failures := by
  induction history using List.reverseRecOn with
  | nil => exact ⟨List.nodup_nil, List.nodup_nil, fun _ member => member⟩
  | append_singleton earlier item ih =>
    -- One occurrence more: it is fine only if it is a failure not seen, or reports a failure.
    obtain ⟨justified, fine⟩ := justified_concat.mp justified
    obtain ⟨failed, reported, among⟩ := ih justified
    rw [failures_concat, reports_concat]
    refine ⟨nodup_append_toList failed fun tx => fine.failure,
      nodup_append_toList reported fun tx named => (fine.report named).2, ?_⟩
    -- A new report is of a failure that has been counted.
    intro tx member
    rcases List.mem_append.mp member with before | new
    · exact List.mem_append_left _ (among before)
    · exact List.mem_append_left _ (fine.report (Option.mem_toList.mp new)).1

/-- As long as no other window opens, the marker is that of the last window or has been cleared. -/
theorem marker_stretch (unopened : Unopened stretch) :
    marker (before ++ (opening, .opened last) :: stretch) = none ∨
      marker (before ++ (opening, .opened last) :: stretch) = some ⟨(), last⟩ ∧
        ∀ moment, (moment, .cleared) ∉ stretch := by
  -- From behind: only a clear or another window takes the marker away.
  induction stretch using List.reverseRecOn with
  | nil => exact .inr ⟨by simp [marker, markerStep], fun _ => List.not_mem_nil⟩
  | append_singleton earlier item ih =>
    rw [show before ++ (opening, .opened last) :: (earlier ++ [item]) =
      (before ++ (opening, .opened last) :: earlier) ++ [item] by simp, marker_concat]
    obtain ⟨moment, occurrence⟩ := item
    have kept := ih unopened.front
    cases occurrence with
    | cleared => exact .inl rfl
    | opened later => exact absurd unopened.ends (by simp [ThrottleOccurrence.opens])
    -- Anything else leaves the marker, and is no clear.
    | _ =>
      refine kept.imp id fun still => ⟨still.1, fun moment member => ?_⟩
      rcases List.mem_append.mp member with there | here
      · exact still.2 moment there
      · simp at here

/-- Between two windows each life of the counter has room for as many failures as the threshold. -/
theorem counts_stretch
    (justified : Justified (Fine settings) (before ++ (opening, .opened last) :: stretch))
    (unopened : Unopened stretch) :
    stretch.counts.length ≤ settings.failures * stretch.lives ∧
      ∀ entry, counter settings.decay (before ++ (opening, .opened last) :: stretch) = some entry →
        stretch.counts.length + settings.failures ≤
          settings.failures * stretch.lives + entry.value := by
  -- The second part says how much of the current life is used, and carries the induction.
  induction stretch using List.reverseRecOn with
  | nil => simp [counts, lives, counter, counterStep]
  | append_singleton earlier item ih =>
    rw [show before ++ (opening, .opened last) :: (earlier ++ [item]) =
      (before ++ (opening, .opened last) :: earlier) ++ [item] by simp] at justified ⊢
    obtain ⟨justified, fine⟩ := justified_concat.mp justified
    obtain ⟨bounded, used⟩ := ih justified unopened.front
    have positive := settings.failures_pos
    obtain ⟨moment, occurrence⟩ := item
    rw [counter_concat, counts_append, lives_append]
    cases occurrence with
    | counted tx first =>
      have one : counts [(moment, ThrottleOccurrence.counted tx first)] = [tx] := rfl
      rw [one, List.length_append, List.length_singleton]
      cases first with
      | true =>
        -- A new life begins, with all of its room.
        have more : lives [(moment, ThrottleOccurrence.counted tx true)] = 1 := rfl
        rw [more, Nat.mul_add, Nat.mul_one]
        refine ⟨by omega, fun entry same => ?_⟩
        cases Option.some.inj same
        simp only
        omega
      | false =>
        -- The counter that is there had room left.
        have same : lives [(moment, ThrottleOccurrence.counted tx false)] = 0 := rfl
        simp only [same, Nat.add_zero]
        obtain ⟨-, found, below, -⟩ := fine
        obtain ⟨entry, there⟩ := Option.isSome_iff_exists.mp (Option.isNone_eq_false_iff.mp found.symm)
        have stored := (Key.at?_eq_some.mp there).1
        have room := below entry stored
        have already := used entry stored
        refine ⟨by omega, fun after grown => ?_⟩
        rw [stored] at grown
        cases Option.some.inj grown
        simp only
        omega
    | opened later => exact absurd unopened.ends (by simp [ThrottleOccurrence.opens])
    | cleared =>
      refine ⟨?_, fun entry none_left => nomatch none_left⟩
      simpa [counts, lives, ThrottleOccurrence.count, ThrottleOccurrence.begins] using bounded
    | _ =>
      simpa [counts, lives, ThrottleOccurrence.count, ThrottleOccurrence.begins, counterStep] using
        ⟨bounded, used⟩

/-- After the end of a window and before the next one, no failure is passed over. -/
theorem not_passedOver {tx : τ} {moment : Nat}
    (justified : Justified (Fine settings)
      (before ++ (opening, .opened last) :: (window ++ segment)))
    (unopened : Unopened (window ++ segment))
    (ended : (∃ moment, (moment, .cleared) ∈ window) ∨ ∀ item ∈ segment, last ≤ item.1) :
    (moment, .passedOver tx) ∉ segment := by
  intro member
  obtain ⟨front, back, rfl⟩ := List.append_of_mem member
  have fine : Fine settings (before ++ (opening, .opened last) :: (window ++ front))
      (moment, .passedOver tx) := justified _ _ back (by simp)
  have quiet : Unopened (window ++ front) :=
    fun item there => unopened item (by rw [← List.append_assoc]; exact List.mem_append_left _ there)
  have running : marker (before ++ (opening, .opened last) :: (window ++ front)) ≠ none := by
    intro gone
    exact fine.1 (by rw [gone]; rfl)
  obtain ⟨same, uncleared⟩ := (marker_stretch quiet).resolve_left running
  rcases ended with ⟨earlier, cleared⟩ | later
  · exact uncleared earlier (List.mem_append_left _ cleared)
  · -- The window had ended when the failure was reported.
    have passed : last ≤ moment := later _ (List.mem_append_right _ List.mem_cons_self)
    refine fine.1 ?_
    rw [same]
    simpa [Key.at?] using passed

/-- Between the end of a window and the opening of the next, the failed checks are counted, or still
to be reported. -/
theorem failures_segment [DecidableEq τ]
    (justified : Justified (Fine settings)
      (before ++ (opening, .opened last) :: (window ++ segment)))
    (unopened : Unopened (window ++ segment))
    (ended : (∃ moment, (moment, .cleared) ∈ window) ∨ ∀ item ∈ segment, last ≤ item.1) :
    segment.failures.length ≤ settings.failures * lives (window ++ segment) +
      (unreported segment).length := by
  have split : before ++ (opening, .opened last) :: (window ++ segment) =
      (before ++ (opening, .opened last) :: window) ++ segment := by simp
  -- A failure is one occurrence, so counting them counts the transactions.
  have distinct : segment.failures.Nodup := by
    have once := (reports_once justified).1
    rw [split, failures_append] at once
    exact (List.nodup_append.mp once).2.1
  have within : segment.failures ⊆ segment.counts ++ unreported segment := by
    intro tx failed
    by_cases reported : tx ∈ segment.reports
    · -- A report of the stretch is a count, as nothing is passed over here.
      refine List.mem_append_left _ ?_
      obtain ⟨⟨moment, occurrence⟩, member, named⟩ := mem_reports.mp reported
      cases occurrence <;> cases named
      · exact List.mem_filterMap.mpr ⟨_, member, rfl⟩
      · exact absurd member (not_passedOver justified unopened ended)
    · exact List.mem_append_right _ (List.mem_filter.mpr ⟨failed, by simpa using reported⟩)
  -- Each failure is counted or unreported, and the counts are bounded by the lives.
  calc segment.failures.length
      ≤ (segment.counts ++ unreported segment).length :=
        (List.subperm_of_subset distinct within).length_le
    _ = segment.counts.length + (unreported segment).length := List.length_append
    _ ≤ (counts (window ++ segment)).length + (unreported segment).length := by
        rw [counts_append, List.length_append]
        omega
    _ ≤ settings.failures * lives (window ++ segment) + (unreported segment).length :=
        Nat.add_le_add_right (counts_stretch justified unopened).1 _

/-- As long as it is not forgotten and opens no window, a counter lasts for its decay. -/
theorem counter_lasts {tx : τ} {created : Nat}
    (justified : Justified (Fine settings) (before ++ (created, .counted tx true) :: stretch))
    (unopened : Unopened stretch) (uncleared : ∀ moment, (moment, .cleared) ∉ stretch) :
    ∃ entry, counter settings.decay (before ++ (created, .counted tx true) :: stretch) = some entry ∧
      created + settings.decay ≤ entry.expires := by
  induction stretch using List.reverseRecOn with
  | nil => exact ⟨⟨1, created + settings.decay⟩, by simp [counter, counterStep], Nat.le_refl _⟩
  | append_singleton earlier item ih =>
    rw [show before ++ (created, .counted tx true) :: (earlier ++ [item]) =
      (before ++ (created, .counted tx true) :: earlier) ++ [item] by simp] at justified ⊢
    obtain ⟨justified, fine⟩ := justified_concat.mp justified
    obtain ⟨entry, stored, lasts⟩ := ih justified unopened.front
      fun moment member => uncleared moment (List.mem_append_left _ member)
    obtain ⟨moment, occurrence⟩ := item
    rw [counter_concat, stored]
    cases occurrence with
    | counted other first =>
      cases first with
      | true =>
        -- A counter is created anew only after the one before it has vanished.
        obtain ⟨-, found, -⟩ := fine
        have gone := Option.isNone_iff_eq_none.mp found.symm
        rw [stored] at gone
        have expired : entry.expires ≤ moment := by simpa [Key.at?] using gone
        exact ⟨_, rfl, by simp only; omega⟩
      | false => exact ⟨_, rfl, lasts⟩
    | opened later => exact absurd unopened.ends (by simp [ThrottleOccurrence.opens])
    | cleared => exact absurd (List.mem_append_right _ List.mem_cons_self) (uncleared moment)
    | _ => exact ⟨entry, rfl, lasts⟩

/-- Two lives of the counter with no window and no clear between them begin a decay apart. -/
theorem lives_apart {first second : τ} {created again : Nat} {after : ThrottleHistory τ}
    (justified : Justified (Fine settings)
      (before ++ (created, .counted first true) :: (stretch ++ (again, .counted second true) :: after)))
    (unopened : Unopened stretch) (uncleared : ∀ moment, (moment, .cleared) ∉ stretch) :
    created + settings.decay ≤ again := by
  -- The second creation was fine, so no counter was alive then.
  have fine : Fine settings (before ++ (created, .counted first true) :: stretch)
      (again, .counted second true) := justified _ _ after (by simp)
  have front : Justified (Fine settings) (before ++ (created, .counted first true) :: stretch) := by
    have whole : Justified (Fine settings) ((before ++ (created, .counted first true) :: stretch) ++
        (again, .counted second true) :: after) := by simpa using justified
    exact whole.front
  -- The first one's counter has not been cleared, so it has expired.
  obtain ⟨entry, stored, lasts⟩ := counter_lasts front unopened uncleared
  have gone := Option.isNone_iff_eq_none.mp fine.2.1.symm
  rw [stored] at gone
  have expired : entry.expires ≤ again := by simpa [Key.at?] using gone
  omega

end ThrottleHistory

open ThrottleHistory

/-- The keys are what the history makes of them, and the history is justified. -/
structure Recorded (settings : ThrottleSettings) (throttle : Throttle τ) : Prop where
  counter : throttle.counter = counter settings.decay throttle.history
  marker : throttle.marker = marker throttle.history
  below : ∀ entry, throttle.counter = some entry → entry.value < settings.failures
  disabled : settings.enabled = false → throttle.marker = none
  justified : Justified (Fine settings) throttle.history

namespace LoginPhase

/-- What a sign-in may rely on between its own steps. -/
def Relies (tx : τ) (history : ThrottleHistory τ) : LoginPhase → Prop
  | .start _ => tx ∉ history.failures
  | .admitted _ => tx ∉ history.failures ∧ ∃ moment, (moment, .admitted tx) ∈ history
  | .checking _ => tx ∉ history.failures
  | .failed => tx ∈ history.failures ∧ tx ∉ history.reports
  | .succeeded => True
  | .done => True

end LoginPhase

variable {settings : ThrottleSettings} {throttle next : Throttle τ} {tx other : τ}
  {phase after : LoginPhase} {history more : ThrottleHistory τ}

/-- What happens to others does not concern a sign-in. -/
theorem LoginPhase.Relies.append (relies : phase.Relies tx history)
    (foreign : ∀ item ∈ more, item.2.party ≠ some tx) : phase.Relies tx (history ++ more) := by
  -- None of what was added is a failure or a report of this sign-in.
  have unfailed : tx ∉ more.failures := by
    intro member
    obtain ⟨moment, there⟩ := mem_failures.mp member
    exact foreign _ there rfl
  have unreported : tx ∉ more.reports := by
    intro member
    obtain ⟨⟨moment, occurrence⟩, there, named⟩ := mem_reports.mp member
    cases occurrence <;> cases named
    all_goals exact foreign _ there rfl
  -- So each phase finds its own part of the history unchanged.
  cases phase with
  | start outcome => simpa [Relies, unfailed] using relies
  | admitted outcome =>
    obtain ⟨never, moment, there⟩ := relies
    exact ⟨by simp [never, unfailed], moment, List.mem_append_left _ there⟩
  | checking outcome => simpa [Relies, unfailed] using relies
  | failed => exact ⟨by simp [relies.1], by simp [relies.2, unreported]⟩
  | succeeded => trivial
  | done => trivial

/-- Noting an occurrence adds the failure it records. -/
theorem failures_note (throttle : Throttle τ) (occurrence : ThrottleOccurrence τ) :
    failures (throttle.note occurrence).history =
      failures throttle.history ++ occurrence.failure.toList :=
  failures_concat _ _

/-- Noting an occurrence adds the report it makes. -/
theorem reports_note (throttle : Throttle τ) (occurrence : ThrottleOccurrence τ) :
    reports (throttle.note occurrence).history =
      reports throttle.history ++ occurrence.report.toList :=
  reports_concat _ _

/-- Something happens that leaves the keys alone. -/
theorem Recorded.note (recorded : Recorded settings throttle) {occurrence : ThrottleOccurrence τ}
    (fine : Fine settings throttle.history (throttle.now, occurrence))
    (uncounted : counterStep settings.decay throttle.counter (throttle.now, occurrence) =
      throttle.counter)
    (unmarked : markerStep throttle.marker (throttle.now, occurrence) = throttle.marker) :
    Recorded settings (throttle.note occurrence) where
  counter := by
    -- The history is longer by one occurrence that changes neither counter nor marker.
    unfold Throttle.note
    rw [counter_concat, ← recorded.counter, uncounted]
  marker := by
    unfold Throttle.note
    rw [marker_concat, ← recorded.marker, unmarked]
  below := recorded.below
  disabled := recorded.disabled
  justified := recorded.justified.concat fine

/-- Failures are forgotten. -/
theorem Recorded.clear (recorded : Recorded settings throttle) :
    Recorded settings (throttle.clear settings) := by
  unfold Throttle.clear
  -- Enabled: the counter goes away; disabled: nothing happens.
  split
  · constructor
    case counter => simp [Throttle.note, counterStep]
    case marker => simp [Throttle.note, markerStep]
    case below => exact fun entry none_left => nomatch none_left
    case disabled => exact fun _ => rfl
    case justified => exact recorded.justified.concat trivial
  · exact recorded

/-- No time is left of the window exactly when its marker is gone. -/
theorem marker_gone {key : Key Unit} {now : Nat} (ended : ¬0 < key.remaining now) :
    key.at? now = none := by
  cases found : key.at? now with
  | none => rfl
  | some entry => exact absurd (Key.remaining_pos.mpr ⟨entry, found⟩) ended

/-- A failure is counted or passed over, and the threshold opens a window. -/
theorem Recorded.recordFailure (recorded : Recorded settings throttle)
    (failed : tx ∈ failures throttle.history) (fresh : tx ∉ reports throttle.history) :
    Recorded settings (throttle.recordFailure settings tx) := by
  unfold Throttle.recordFailure
  split
  -- A throttle that is off records nothing.
  case isFalse => exact recorded
  rename_i enabled
  unfold Throttle.countFailure
  split
  · -- The address is refused, and the failure is passed over.
    rename_i refused
    refine recorded.note ⟨?_, failed, fresh⟩ rfl rfl
    obtain ⟨entry, found⟩ := Key.remaining_pos.mp refused
    rw [← recorded.marker, found]
    exact nofun
  rename_i allowed
  -- The count is fine, as no window is open and the counter is below the limit.
  have fine : Fine settings throttle.history
      (throttle.now, .counted tx (throttle.counter.at? throttle.now).isNone) := by
    refine ⟨?_, ?_, ?_, failed, fresh⟩
    · rw [← recorded.marker]
      exact marker_gone allowed
    · rw [← recorded.counter]
    · rw [← recorded.counter]
      exact recorded.below
  have justified := recorded.justified.concat fine
  -- The counter of the script is the one that the history makes.
  have grown : counterStep settings.decay throttle.counter
      (throttle.now, .counted tx (throttle.counter.at? throttle.now).isNone) =
      some (throttle.increment settings) := by
    unfold Throttle.increment
    cases found : throttle.counter.at? throttle.now with
    | none => rfl
    | some entry =>
      rw [(Key.at?_eq_some.mp found).1]
      rfl
  simp only
  split
  · -- Below the limit the counter grows and the rest stays.
    rename_i below
    constructor
    case counter =>
      simp only [Throttle.note]
      rw [counter_concat, ← recorded.counter, grown]
    case marker =>
      simp only [Throttle.note]
      rw [marker_concat, ← recorded.marker]
      rfl
    case below =>
      intro entry same
      cases Option.some.inj same
      exact below
    case disabled => exact recorded.disabled
    case justified => exact justified
  · -- At the limit the window opens, and the counter is gone.
    constructor
    case counter => simp [Throttle.note, counterStep, ThrottleHistory.counter]
    case marker => simp [Throttle.note, markerStep, ThrottleHistory.marker]
    case below => exact fun entry none_left => nomatch none_left
    case disabled => exact fun off => absurd (enabled.symm.trans off) (by decide)
    case justified => exact justified.concat trivial

/-- A step of a sign-in: it adds to the history what concerns itself or nobody. -/
structure LoginAdvances (settings : ThrottleSettings) (tx : τ) (throttle next : Throttle τ)
    (after : LoginPhase) : Prop where
  recorded : Recorded settings next
  grows : ∃ more, next.history = throttle.history ++ more ∧
    ∀ item ∈ more, item.2.party = some tx ∨ item.2.party = none
  relies : after.Relies tx next.history

/-- One thing happens to the sign-in that takes the step. -/
theorem LoginAdvances.noted {occurrence : ThrottleOccurrence τ}
    (recorded : Recorded settings (throttle.note occurrence))
    (own : occurrence.party = some tx ∨ occurrence.party = none)
    (relies : after.Relies tx (throttle.note occurrence).history) :
    LoginAdvances settings tx throttle (throttle.note occurrence) after :=
  ⟨recorded, ⟨[(throttle.now, occurrence)], rfl, by simpa using own⟩, relies⟩

/-- A step that leaves no trace. -/
theorem LoginAdvances.idle (recorded : Recorded settings throttle)
    (relies : after.Relies tx throttle.history) :
    LoginAdvances settings tx throttle throttle after :=
  ⟨recorded, ⟨[], (List.append_nil _).symm, nofun⟩, relies⟩

/-- Reporting a failure adds what concerns the sign-in, and perhaps a window. -/
theorem recordFailure_history (settings : ThrottleSettings) (tx : τ) (throttle : Throttle τ) :
    ∃ more, (throttle.recordFailure settings tx).history = throttle.history ++ more ∧
      ∀ item ∈ more, item.2.party = some tx ∨ item.2.party = none := by
  unfold Throttle.recordFailure Throttle.countFailure
  -- Disabled throttling adds nothing; a failure that is passed over adds one occurrence.
  split
  · split
    · exact ⟨[(throttle.now, .passedOver tx)], rfl, by simp [ThrottleOccurrence.party]⟩
    · dsimp only
      -- A counted failure adds one, and one more if it opens the marker.
      split
      · exact ⟨[_], rfl, by simp [ThrottleOccurrence.party]⟩
      · exact ⟨[_, _], List.append_assoc _ _ _, by simp [ThrottleOccurrence.party]⟩
  · exact ⟨[], (List.append_nil _).symm, nofun⟩

/-- Every step of a sign-in keeps the history recorded and leaves the phase with what it relies on. -/
theorem LoginAdvances.of_advance (recorded : Recorded settings throttle)
    (relies : phase.Relies tx throttle.history)
    (taken : phase.advance settings tx throttle = some (next, after)) :
    LoginAdvances settings tx throttle next after := by
  cases phase with
  -- The gate refuses, or notes that the attempt was let in.
  | start outcome =>
    simp only [LoginPhase.advance] at taken
    split at taken
    · cases taken
      exact .idle recorded trivial
    · rename_i allowed
      cases taken
      refine .noted (recorded.note ?_ rfl rfl) (.inl rfl) ⟨?_, throttle.now, by simp [Throttle.note]⟩
      · -- The gate found no window; a throttle that is off has none.
        change (marker throttle.history).at? throttle.now = none
        rw [← recorded.marker]
        cases on : settings.enabled with
        | false => rw [recorded.disabled on]; rfl
        | true => exact marker_gone (by simpa [Throttle.refuses, on] using allowed)
      · rw [failures_note]
        simpa [ThrottleOccurrence.failure, LoginPhase.Relies] using relies
  | admitted outcome =>
    obtain ⟨never, there⟩ := relies
    cases taken
    refine .noted (recorded.note there rfl rfl) (.inl rfl) ?_
    change tx ∉ failures (throttle.note (.started tx)).history
    rw [failures_note]
    simpa [ThrottleOccurrence.failure] using never
  -- The four outcomes of the check, of which only the wrong password is noted.
  | checking outcome =>
    cases outcome with
    | wrongPassword =>
      cases taken
      refine .noted (recorded.note relies rfl rfl) (.inl rfl) ⟨?_, ?_⟩
      · rw [failures_note]
        simp [ThrottleOccurrence.failure]
      · rw [reports_note]
        intro member
        refine relies ((reports_once recorded.justified).2.2 ?_)
        simpa [ThrottleOccurrence.report] using member
    | secondFactor =>
      cases taken
      exact .idle recorded trivial
    | staleCredential =>
      cases taken
      exact .idle recorded trivial
    | success =>
      cases taken
      exact .idle recorded trivial
  -- The failure is recorded, once for each attempt.
  | failed =>
    cases taken
    exact ⟨recorded.recordFailure relies.1 relies.2, recordFailure_history settings tx throttle,
      trivial⟩
  -- A success clears the keys, and notes it when there is something to clear.
  | succeeded =>
    cases taken
    refine ⟨recorded.clear, ?_, trivial⟩
    unfold Throttle.clear
    split
    · exact ⟨[(throttle.now, .cleared)], rfl, by simp [ThrottleOccurrence.party]⟩
    · exact ⟨[], (List.append_nil _).symm, nofun⟩
  | done => cases taken

/-- Every sign-in may rely on what it knows, and the keys are what the history makes of them. -/
abbrev LoginSystem.Stands (settings : ThrottleSettings) (system : LoginSystem τ) : Prop :=
  system.Annotated (Recorded settings) fun tx throttle phase => phase.Relies tx throttle.history

/-- Nothing has been counted, and no sign-in has come further than its start. -/
structure LoginSystem.Fresh (system : LoginSystem τ) : Prop where
  counter : system.store.counter = none
  marker : system.store.marker = none
  history : system.store.history = []
  phases : ∀ tx, ∃ outcome, system.phase tx = .start outcome

variable {system : LoginSystem τ}

/-- A fresh system stands. -/
theorem LoginSystem.Fresh.stands (fresh : system.Fresh) : system.Stands settings := by
  constructor
  case shared =>
    -- Nothing has happened yet, so there is neither counter nor marker.
    constructor
    case counter => rw [fresh.counter, fresh.history]; rfl
    case marker => rw [fresh.marker, fresh.history]; rfl
    case below => exact fun entry stored => nomatch fresh.counter.symm.trans stored
    case disabled => exact fun _ => fresh.marker
    case justified => exact fresh.history ▸ .nil
  case own =>
    intro tx
    obtain ⟨outcome, here⟩ := fresh.phases tx
    rw [here, fresh.history]
    exact List.not_mem_nil

variable [DecidableEq τ]

/-- One event of one sign-in. -/
theorem LoginSystem.Stands.step {event : τ × LoginEvent} {later : LoginSystem τ}
    (stands : system.Stands settings) (taken : loginStep settings system event = some later) :
    later.Stands settings := by
  obtain ⟨tx, event⟩ := event
  -- A step of a sign-in records what it did; waiting records nothing.
  cases event with
  | advance =>
    refine Sessions.Annotated.step stands taken (fun store phase acted => ?_)
      fun store phase other progress acted different relies => ?_
    · have advances := LoginAdvances.of_advance stands.shared (stands.own tx) acted
      exact ⟨advances.recorded, advances.relies⟩
    · -- What the other sign-in has recorded is about itself or about nobody.
      obtain ⟨more, grown, own⟩ :=
        (LoginAdvances.of_advance stands.shared (stands.own tx) acted).grows
      rw [grown]
      refine relies.append fun item member same => ?_
      rcases own item member with acting | nobody
      · exact different (Option.some.inj (same.symm.trans acting))
      · exact nomatch nobody.symm.trans same
  | wait elapsed =>
    refine Sessions.Annotated.step stands taken (fun store phase acted => ?_)
      fun store phase other progress acted different relies => ?_
    · simp only [LoginPhase.act, Option.some.injEq, Prod.mk.injEq] at acted
      obtain ⟨rfl, rfl⟩ := acted
      have recorded := stands.shared
      exact ⟨⟨recorded.counter, recorded.marker, recorded.below, recorded.disabled,
        recorded.justified⟩, stands.own tx⟩
    · simp only [LoginPhase.act, Option.some.injEq, Prod.mk.injEq] at acted
      obtain ⟨rfl, rfl⟩ := acted
      exact relies

/-- A check starts only after its sign-in has passed the gate, and the gate found no open window.
Between the end of one window and the opening of the next, the failed checks are at most the
threshold for each life of the counter, not counting those of them still to be reported. Lives of the counter
between which nothing is cleared begin a decay apart. -/
theorem guessing_budget {last : LoginSystem τ} {events : List (τ × LoginEvent)}
    (fresh : system.Fresh) (ran : run (loginStep settings) system events = some last) :
    (∀ before moment tx after, last.store.history = before ++
      (moment, ThrottleOccurrence.started tx) :: after →
      ∃ earlier passed later, before = earlier ++ (passed, ThrottleOccurrence.admitted tx) :: later ∧
        (marker earlier).at? passed = none) ∧
    (∀ before opening ends window segment after, last.store.history =
        (before ++ (opening, ThrottleOccurrence.opened ends) :: (window ++ segment)) ++ after →
      Unopened (window ++ segment) →
      ((∃ moment, (moment, .cleared) ∈ window) ∨ ∀ item ∈ segment, ends ≤ item.1) →
      (failures segment).length ≤ settings.failures * lives (window ++ segment) +
        (unreported segment).length) ∧
    ∀ before created first stretch again second after, last.store.history =
        before ++ (created, ThrottleOccurrence.counted first true) ::
          (stretch ++ (again, ThrottleOccurrence.counted second true) :: after) →
      Unopened stretch → (∀ moment, (moment, .cleared) ∉ stretch) →
      created + settings.decay ≤ again := by
  -- The run keeps the history recorded, and three lemmas about such histories give the parts.
  have stands : last.Stands settings :=
    run_invariant (fun _ _ _ holds _ taken => LoginSystem.Stands.step holds taken) fresh.stands
      (Guarded.trivially system events) ran
  have justified := stands.shared.justified
  refine ⟨?_, ?_, ?_⟩
  · -- A check was admitted before it started, and the gate was open then.
    intro before moment tx after split
    obtain ⟨passed, member⟩ := justified before _ after split
    obtain ⟨earlier, later, rfl⟩ := List.append_of_mem member
    have fine := justified earlier (passed, .admitted tx) (later ++
      (moment, ThrottleOccurrence.started tx) :: after)
      (by simp [split])
    exact ⟨earlier, passed, later, rfl, fine⟩
  · intro before opening ends window segment after split unopened ended
    exact failures_segment (split ▸ justified).front unopened ended
  · intro before created first stretch again second after split unopened uncleared
    exact lives_apart (split ▸ justified) unopened uncleared

section Runs

/-- Two failures open a window of a second. -/
def twoFailures : ThrottleSettings := ⟨true, 2, [1], by decide, by decide, by decide⟩

/-- Every sign-in has the wrong password. -/
def guesses : LoginSystem Nat where
  store := ⟨0, none, none, none, []⟩
  phase := fun _ => .start .wrongPassword

/-- The guesses start fresh. -/
theorem guesses_fresh : guesses.Fresh := ⟨rfl, rfl, rfl, fun _ => ⟨_, rfl⟩⟩

/-- One sign-in from its start to its end. -/
def guess (tx : Nat) : List (Nat × LoginEvent) := List.replicate 4 (tx, .advance)

/-- Two guesses, and after the window three at the same time, one of which is yet to be reported. -/
def guessAtOnce : List (Nat × LoginEvent) :=
  guess 0 ++ guess 1 ++ (1, .wait 1000) ::
    [2, 3, 4, 3, 2, 4, 4, 2, 3, 3, 2].map fun tx => (tx, LoginEvent.advance)

/-- After the window, two guesses that are forgotten before the next ones. -/
def guessSlowly : List (Nat × LoginEvent) :=
  guess 0 ++ guess 1 ++ (1, .wait 1000) :: guess 2 ++ (2, .wait 1000) :: guess 3 ++
    (3, .wait 1000) :: guess 4 ++ guess 5

/-- A sign-in passes the gate, and starts its check after two others have failed. -/
def guessTogether : List (Nat × LoginEvent) :=
  (2, .advance) :: guess 0 ++ guess 1 ++ [(2, LoginEvent.advance)]

/-- The two guesses that open the first window. -/
def firstGuesses : ThrottleHistory Nat :=
  [(0, .admitted 0), (0, .started 0), (0, .failed 0), (0, .counted 0 true), (0, .admitted 1),
    (0, .started 1), (0, .failed 1), (0, .counted 1 false)]

/-- The three guesses after the window, of which the last to report opens the next one. -/
def nextGuesses : ThrottleHistory Nat :=
  [(1000, .admitted 2), (1000, .admitted 3), (1000, .admitted 4), (1000, .started 3),
    (1000, .started 2), (1000, .started 4), (1000, .failed 4), (1000, .failed 2), (1000, .failed 3),
    (1000, .counted 3 true), (1000, .counted 2 false)]

/-- The four guesses after the window, in three lives of the counter. -/
def slowGuesses : ThrottleHistory Nat :=
  [(1000, .admitted 2), (1000, .started 2), (1000, .failed 2), (1000, .counted 2 true),
    (2000, .admitted 3), (2000, .started 3), (2000, .failed 3), (2000, .counted 3 true),
    (3000, .admitted 4), (3000, .started 4), (3000, .failed 4), (3000, .counted 4 true),
    (3000, .admitted 5), (3000, .started 5), (3000, .failed 5), (3000, .counted 5 false)]

/-- Of three sign-ins that pass the gate together two use up the budget, and the third is still to be
reported. -/
theorem guessing_budget_interleaved :
    ∃ last, run (loginStep twoFailures) guesses guessAtOnce = some last ∧
      last.store.history =
        firstGuesses ++ (0, ThrottleOccurrence.opened 1000) :: ([] ++ nextGuesses) ++
          [(1000, ThrottleOccurrence.opened 2000)] ∧
      unreported nextGuesses = [4] ∧ lives ([] ++ nextGuesses) = 1 ∧
      (failures nextGuesses).length ≤ twoFailures.failures * lives ([] ++ nextGuesses) +
        (unreported nextGuesses).length := by
  -- The marker opens after the two failures, and again after the next two.
  have ends : (run (loginStep twoFailures) guesses guessAtOnce).map (·.store.history) = some
      (firstGuesses ++ (0, ThrottleOccurrence.opened 1000) :: ([] ++ nextGuesses) ++
        [(1000, ThrottleOccurrence.opened 2000)]) := by
    decide
  obtain ⟨last, ran, history⟩ := Option.map_eq_some_iff.mp ends
  refine ⟨last, ran, history, by decide, by decide, ?_⟩
  refine (guessing_budget guesses_fresh ran).2.1 _ _ _ _ _ _ history ?_ (.inr ?_)
  · unfold Unopened
    decide
  · decide

/-- Between two windows there are as many failed checks as the threshold, at most. -/
def FailuresBounded (settings : ThrottleSettings) (history : ThrottleHistory τ) : Prop :=
  ∀ before opening ends window segment again later after,
    history = before ++ (opening, ThrottleOccurrence.opened ends) :: (window ++ segment) ++
      (again, ThrottleOccurrence.opened later) :: after →
    Unopened (window ++ segment) →
    ((∃ moment, (moment, .cleared) ∈ window) ∨ ∀ item ∈ segment, ends ≤ item.1) →
    (failures segment).length ≤ settings.failures

/-- No check starts while a window is open. -/
def StartsUnrefused (history : ThrottleHistory τ) : Prop :=
  ∀ before moment tx after, history = before ++ (moment, ThrottleOccurrence.started tx) :: after →
    (marker before).at? moment = none

/-- The counter decays twice between two windows, and has room for four failures; and of three
sign-ins that have passed the gate together, the last one starts its check in the window that the
others open. -/
theorem guessing_budget_exceeded : guesses.Fresh ∧
    (∃ last, run (loginStep twoFailures) guesses guessSlowly = some last ∧
      ¬FailuresBounded twoFailures last.store.history) ∧
    ∃ last, run (loginStep twoFailures) guesses guessTogether = some last ∧
      ¬StartsUnrefused last.store.history := by
  refine ⟨guesses_fresh, ?_, ?_⟩
  · -- With time between them, four guesses are made between the two windows.
    have ends : (run (loginStep twoFailures) guesses guessSlowly).map (·.store.history) = some
        (firstGuesses ++ (0, ThrottleOccurrence.opened 1000) :: ([] ++ slowGuesses) ++
          [(3000, ThrottleOccurrence.opened 4000)]) := by
      decide
    obtain ⟨last, ran, history⟩ := Option.map_eq_some_iff.mp ends
    refine ⟨last, ran, fun bounded => ?_⟩
    have four : (failures slowGuesses).length ≤ twoFailures.failures := by
      refine bounded _ _ _ _ _ _ _ _ history ?_ (.inr ?_)
      · unfold Unopened
        decide
      · decide
    exact absurd four (by decide)
  · -- The last of three sign-ins passes the gate first and starts its check last.
    have ends : (run (loginStep twoFailures) guesses guessTogether).map (·.store.history) =
        some ([(0, ThrottleOccurrence.admitted 2), (0, .admitted 0), (0, .started 0), (0, .failed 0),
          (0, .counted 0 true), (0, .admitted 1), (0, .started 1), (0, .failed 1),
          (0, .counted 1 false), (0, .opened 1000)] ++ (0, ThrottleOccurrence.started 2) :: []) := by
      decide
    obtain ⟨last, ran, history⟩ := Option.map_eq_some_iff.mp ends
    refine ⟨last, ran, fun unrefused => ?_⟩
    exact absurd (unrefused _ _ _ _ history) (by decide)

end Runs

end Trusca
