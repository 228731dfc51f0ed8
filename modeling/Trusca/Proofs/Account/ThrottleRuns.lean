import Trusca.Proofs.Account.Throttle

/-! The throttle over any sequence of reported failures, clears and time: each window is paid for with a
threshold of failures within one decay. -/

namespace Trusca

open Store ThrottleHistory

section Statements

/-- The moments at which failures are reported. -/
def failureMoments : Nat → List ThrottleCall → List Nat
  | _, [] => []
  | now, .recordFailure :: rest => now :: failureMoments now rest
  | now, .clear :: rest => failureMoments now rest
  | now, .wait elapsed :: rest => failureMoments (now + elapsed) rest

/-- The moments at which failures are counted. -/
def countedMoments (history : ThrottleHistory Unit) : List Nat :=
  history.filterMap fun item => item.2.count.map fun _ => item.1

/-- Neither opens a window nor clears. -/
def Quiet (stretch : ThrottleHistory Unit) : Prop :=
  ∀ item ∈ stretch, item.2.opens = false ∧ item.2 ≠ .cleared

/-- In each stretch of time as long as the decay, fewer failures fall than the threshold. -/
def Sparse (settings : ThrottleSettings) (moments : List Nat) : Prop :=
  ∀ first, (moments.filter fun moment =>
    decide (first ≤ moment ∧ moment < first + settings.decay)).length < settings.failures

/-- The laws of the throttle after some calls. -/
structure ThrottleLaws (settings : ThrottleSettings) (start : Nat) (calls : List ThrottleCall) : Prop where
  /-- The counter stays below the threshold. -/
  below : ∀ entry, (Throttle.runCalls settings start calls).counter = some entry →
    entry.value < settings.failures
  /-- A counter gets its expiry when it is created, and keeps it. -/
  expiry : ∀ throttle call later entry, throttle = Throttle.runCalls settings start calls →
    later = throttle.call settings call → later.counter.at? later.now = some entry →
      (throttle.counter.at? throttle.now = none ∧ entry = ⟨1, throttle.now + settings.decay⟩) ∨
        ∃ old, throttle.counter.at? throttle.now = some old ∧ entry.expires = old.expires
  /-- Between two windows lies a threshold of failures, made after the first one and within one decay. -/
  apart : ∀ before opening ends middle again ends' after,
    (Throttle.runCalls settings start calls).history =
        before ++ (opening, ThrottleOccurrence.opened ends) :: (middle ++
          (again, ThrottleOccurrence.opened ends') :: after) →
      Quiet middle → ∃ moments : List Nat, moments.Sublist (countedMoments middle) ∧
        moments.length = settings.failures ∧
          ∀ moment ∈ moments, ends ≤ moment ∧ ∀ other ∈ moments, other < moment + settings.decay
  /-- A failure within a window changes no key. -/
  closed : ∀ throttle, throttle = Throttle.runCalls settings start calls →
    0 < throttle.marker.remaining throttle.now →
      (throttle.recordFailure settings ()).counter = throttle.counter ∧
        (throttle.recordFailure settings ()).marker = throttle.marker ∧
        (throttle.recordFailure settings ()).round = throttle.round
  /-- An address with few failures is never refused. -/
  admits : Sparse settings (failureMoments start calls) → ∀ front, front <+: calls →
    (Throttle.runCalls settings start front).secondsUntilRetry settings = 0

end Statements

section Since

variable {history : ThrottleHistory Unit} {item : Nat × ThrottleOccurrence Unit} {moments : List Nat}

/-- Some moments at which failures are counted since the last window or clear. -/
def Since (history : ThrottleHistory Unit) (moments : List Nat) : Prop :=
  ∃ tail, tail <:+ history ∧ Quiet tail ∧ moments.Sublist (countedMoments tail)

/-- The counted moments of two histories in a row are those of each. -/
@[simp] theorem countedMoments_append (first second : ThrottleHistory Unit) :
    countedMoments (first ++ second) = countedMoments first ++ countedMoments second :=
  List.filterMap_append

/-- No moments at all have been counted since. -/
theorem Since.nil : Since history [] := ⟨[], List.nil_suffix, by simp [Quiet], List.nil_sublist _⟩

/-- What neither opens a window nor clears leaves these moments, and adds its own if it counts. -/
theorem Since.concat (since : Since history moments) (quiet : Quiet [item]) :
    Since (history ++ [item]) (moments ++ countedMoments [item]) := by
  -- The tail that counts is longer by the quiet item.
  obtain ⟨tail, suffix, calm, sub⟩ := since
  refine ⟨tail ++ [item], ?_, ?_, ?_⟩
  · obtain ⟨front, rfl⟩ := suffix
    exact ⟨front, by simp⟩
  · intro other member
    exact (List.mem_append.mp member).elim (calm other) (quiet other)
  · rw [countedMoments_append]
    exact sub.append (List.Sublist.refl _)

/-- Behind the last window only the moments behind it count. -/
theorem Since.within {before middle : ThrottleHistory Unit} {opening ends : Nat}
    (since : Since (before ++ (opening, .opened ends) :: middle) moments) :
    moments.Sublist (countedMoments middle) := by
  obtain ⟨tail, suffix, calm, sub⟩ := since
  -- The opening ends such a tail, so it lies behind the opening.
  have opened : (opening, ThrottleOccurrence.opened ends) ∉ tail := fun member =>
    absurd (calm _ member).1 (by simp [ThrottleOccurrence.opens])
  refine sub.trans (List.Sublist.filterMap _ ?_)
  obtain longer | shorter := List.suffix_or_suffix_of_suffix suffix
    (List.suffix_append before ((opening, .opened ends) :: middle))
  · -- It starts behind the opening, or it would contain it.
    obtain rfl | behind := List.suffix_cons_iff.mp longer
    · exact absurd List.mem_cons_self opened
    · exact behind.sublist
  · exact absurd (shorter.subset List.mem_cons_self) opened

/-- What has been counted since has been counted. -/
theorem Since.all (since : Since history moments) : moments.Sublist (countedMoments history) := by
  obtain ⟨tail, suffix, -, sub⟩ := since
  exact sub.trans (suffix.sublist.filterMap _)

end Since

section Invariant

variable {settings : ThrottleSettings} {throttle : Throttle Unit}

/-- A counter lives for some time. -/
theorem decay_pos (settings : ThrottleSettings) : 0 < settings.decay := by
  obtain ⟨first, rest, windows⟩ := List.exists_cons_of_ne_nil settings.windows_ne_nil
  have positive := settings.windows_pos first (by rw [windows]; exact List.mem_cons_self)
  unfold ThrottleSettings.decay
  rw [windows, List.foldr_cons]
  omega

/-- A window opens after a threshold of failures that fall in one decay, after the window before. -/
def OpensLate (settings : ThrottleSettings) (before : ThrottleHistory Unit) :
    Nat × ThrottleOccurrence Unit → Prop
  | (_, .opened _) => ∃ moments first, Since before moments ∧ moments.length = settings.failures ∧
      ∀ moment ∈ moments, first ≤ moment ∧ moment < first + settings.decay ∧
        ∀ last, ThrottleHistory.marker before = some ⟨(), last⟩ → last ≤ moment
  | _ => True

/-- What the counter stands for: failures since the last window or clear, within one decay. -/
structure Paid (settings : ThrottleSettings) (throttle : Throttle Unit) (entry : Entry Nat) : Prop where
  below : entry.value < settings.failures
  moments : ∃ moments, Since throttle.history moments ∧ moments.length = entry.value ∧ moments ≠ [] ∧
    ∀ moment ∈ moments, moment ≤ throttle.now ∧ entry.expires ≤ moment + settings.decay ∧
      moment < entry.expires ∧ ∀ last, throttle.marker = some ⟨(), last⟩ → last ≤ moment

/-- What holds of the throttle after any calls. -/
structure PaidFor (settings : ThrottleSettings) (throttle : Throttle Unit) : Prop where
  counter : ∀ entry, throttle.counter = some entry → Paid settings throttle entry
  marker : throttle.marker = ThrottleHistory.marker throttle.history
  justified : Justified (OpensLate settings) throttle.history

/-- Without a window, the marker is no later than now. -/
theorem PaidFor.floor (closed : ¬ 0 < throttle.marker.remaining throttle.now) {last : Nat}
    (marked : throttle.marker = some ⟨(), last⟩) : last ≤ throttle.now := by
  rw [Key.remaining_pos, marked] at closed
  by_contra later
  exact closed ⟨⟨(), last⟩, Key.at?_eq_some.mpr ⟨rfl, by simpa using later⟩⟩

/-- What is noted without a key being touched changes nothing. -/
theorem PaidFor.note (paid : PaidFor settings throttle) {occurrence : ThrottleOccurrence Unit}
    (quiet : Quiet [(throttle.now, occurrence)]) (uncounted : occurrence.count = none)
    (unmarked : markerStep throttle.marker (throttle.now, occurrence) = throttle.marker) :
    PaidFor settings (throttle.note occurrence) := by
  -- The occurrence counts no failure.
  have plain : countedMoments [(throttle.now, occurrence)] = [] := by
    simp [countedMoments, uncounted]
  -- Counter, marker and history, each with the quiet item at its end.
  refine ⟨fun entry stored => ?_, ?_, ?_⟩
  · obtain ⟨below, moments, since, rest⟩ := paid.counter entry stored
    have longer := since.concat quiet
    rw [plain, List.append_nil] at longer
    exact ⟨below, moments, longer, rest⟩
  · unfold Throttle.note
    rw [marker_concat, ← paid.marker, unmarked]
  · -- An opening would not be quiet, and everything else is fine here.
    refine paid.justified.concat ?_
    have closed := (quiet _ List.mem_cons_self).1
    cases occurrence with
    | opened last => cases closed
    | _ => trivial

/-- The counter with one more failure is paid for, or reaches the threshold. -/
theorem PaidFor.increment (paid : PaidFor settings throttle)
    (closed : ¬ 0 < throttle.marker.remaining throttle.now) :
    (throttle.increment settings).value ≤ settings.failures ∧
      ∃ moments, Since (throttle.note (.counted () (throttle.counter.at? throttle.now).isNone)).history moments ∧
        moments.length = (throttle.increment settings).value ∧ moments ≠ [] ∧
          ∀ moment ∈ moments, moment ≤ throttle.now ∧
            (throttle.increment settings).expires ≤ moment + settings.decay ∧
            moment < (throttle.increment settings).expires ∧
              ∀ last, throttle.marker = some ⟨(), last⟩ → last ≤ moment := by
  have positive := decay_pos settings
  have enough := settings.failures_pos
  -- A count opens no window, and its moment is now.
  have quiet (first : Bool) : Quiet [(throttle.now, ThrottleOccurrence.counted () first)] := by
    simp [Quiet, ThrottleOccurrence.opens]
  have one (first : Bool) : countedMoments [(throttle.now, ThrottleOccurrence.counted () first)] =
      [throttle.now] := rfl
  unfold Throttle.increment Throttle.note
  cases there : throttle.counter.at? throttle.now with
  -- A fresh counter has the one moment.
  | none =>
    refine ⟨enough, [throttle.now], ?_, rfl, by simp, ?_⟩
    · have empty : Since throttle.history [] := Since.nil
      have fresh := empty.concat (quiet true)
      rwa [one, List.nil_append] at fresh
    · intro moment member
      obtain rfl := List.mem_singleton.mp member
      exact ⟨Nat.le_refl _, Nat.le_refl _, by simp only; omega, fun last => PaidFor.floor closed⟩
  -- A running one has its moments from before, and now.
  | some old =>
    obtain ⟨stored, running⟩ := Key.at?_eq_some.mp there
    obtain ⟨below, moments, since, length, nonempty, each⟩ := paid.counter old stored
    refine ⟨below, moments ++ [throttle.now], ?_, by simp [length], by simp, ?_⟩
    · have longer := since.concat (quiet false)
      rwa [one] at longer
    · intro moment member
      obtain earlier | now := List.mem_append.mp member
      · exact each moment earlier
      · obtain rfl := List.mem_singleton.mp now
        -- The counter was created before now, at one of its moments or earlier.
        obtain ⟨first, others, rfl⟩ := List.exists_cons_of_ne_nil nonempty
        obtain ⟨past, created, -⟩ := each first List.mem_cons_self
        exact ⟨Nat.le_refl _, by simp only; omega, running, fun last => PaidFor.floor closed⟩

/-- A counted failure is paid for, and so is the window that it opens. -/
theorem PaidFor.countFailure (paid : PaidFor settings throttle) :
    PaidFor settings (throttle.countFailure settings ()) := by
  unfold Throttle.countFailure
  -- A failure inside a window is passed over; another one is counted, and opens a window at the threshold.
  split_ifs with refused
  · exact paid.note (by simp [Quiet, ThrottleOccurrence.opens]) rfl rfl
  · obtain ⟨most, moments, since, length, nonempty, each⟩ := paid.increment refused
    dsimp only
    -- Below the threshold the counter stays, with one failure more.
    split_ifs with below
    · refine ⟨?_, ?_, ?_⟩
      · intro entry stored
        obtain rfl := Option.some.inj stored
        exact ⟨below, moments, since, length, nonempty, each⟩
      · unfold Throttle.note
        rw [marker_concat, ← paid.marker]
        rfl
      · exact paid.justified.concat trivial
    · refine ⟨?_, ?_, ?_⟩
      · intro entry stored
        cases stored
      · unfold Throttle.note
        rw [marker_concat]
        rfl
      · -- At the threshold the failures that were counted pay for the window.
        have counted : OpensLate settings throttle.history
            (throttle.now, .counted () (throttle.counter.at? throttle.now).isNone) := trivial
        refine (paid.justified.concat counted).concat ?_
        refine ⟨moments, (throttle.increment settings).expires - settings.decay, since, by omega, ?_⟩
        intro moment member
        obtain ⟨-, created, running, floor⟩ := each moment member
        refine ⟨by omega, by omega, fun last marked => floor last ?_⟩
        rw [paid.marker, ← marked, marker_concat]
        rfl

/-- Every call keeps what is paid for. -/
theorem PaidFor.call (paid : PaidFor settings throttle) (call : ThrottleCall) :
    PaidFor settings (throttle.call settings call) := by
  -- Waiting only makes the moments recede; the other two calls change the keys.
  cases call with
  | recordFailure =>
    simp only [Throttle.call, Throttle.recordFailure]
    split
    · exact paid.countFailure
    · exact paid
  | clear =>
    simp only [Throttle.call, Throttle.clear]
    split
    · refine ⟨fun entry stored => (nomatch stored), ?_, paid.justified.concat trivial⟩
      unfold Throttle.note
      rw [marker_concat]
      rfl
    · exact paid
  | wait elapsed =>
    refine ⟨fun entry stored => ?_, paid.marker, paid.justified⟩
    obtain ⟨below, moments, since, length, nonempty, each⟩ := paid.counter entry stored
    refine ⟨below, moments, since, length, nonempty, fun moment member => ?_⟩
    obtain ⟨past, rest⟩ := each moment member
    -- The moments that pay for the counter lie further back now.
    exact ⟨Nat.le_trans past (Nat.le_add_right _ _), rest⟩

/-- After any calls, what is counted is paid for. -/
theorem paidFor_runCalls (settings : ThrottleSettings) (start : Nat) (calls : List ThrottleCall) :
    PaidFor settings (Throttle.runCalls settings start calls) := by
  induction calls using List.reverseRecOn with
  | nil => exact ⟨fun entry stored => (nomatch stored), rfl, .nil⟩
  | append_singleton calls call ih =>
    unfold Throttle.runCalls at ih ⊢
    rw [List.foldl_append]
    exact ih.call call

end Invariant

section Laws

variable {settings : ThrottleSettings} {throttle : Throttle Unit}

/-- Until the next window or clear, the marker is that of the last window. -/
theorem marker_quiet {before middle : ThrottleHistory Unit} {opening ends : Nat} (quiet : Quiet middle) :
    ThrottleHistory.marker (before ++ (opening, .opened ends) :: middle) = some ⟨(), ends⟩ := by
  induction middle using List.reverseRecOn with
  | nil => rw [marker_concat]; rfl
  | append_singleton earlier item ih =>
    -- Item by item from the end: none of them opens or clears.
    rw [← List.cons_append, ← List.append_assoc, marker_concat,
      ih fun other member => quiet other (List.mem_append_left _ member)]
    obtain ⟨closed, kept⟩ := quiet item (List.mem_append_right _ List.mem_cons_self)
    obtain ⟨moment, occurrence⟩ := item
    cases occurrence with
    | opened last => cases closed
    | cleared => exact absurd rfl kept
    | _ => rfl

/-- A marker that is set was set by a window. -/
theorem exists_opened {history : ThrottleHistory Unit} {mark : Entry Unit}
    (marked : ThrottleHistory.marker history = some mark) :
    ∃ opening last, (opening, ThrottleOccurrence.opened last) ∈ history := by
  induction history using List.reverseRecOn with
  | nil => cases marked
  | append_singleton earlier item ih =>
    rw [marker_concat] at marked
    obtain ⟨moment, occurrence⟩ := item
    -- A marker is opened here, or it was there before; a clear leaves none.
    cases occurrence with
    | opened last => exact ⟨moment, last, List.mem_append_right _ List.mem_cons_self⟩
    | cleared => cases marked
    | _ =>
      obtain ⟨opening, last, member⟩ := ih marked
      exact ⟨opening, last, List.mem_append_left _ member⟩

/-- What one call counts is a failure that it reports. -/
theorem countedMoments_recordFailure :
    (throttle.recordFailure settings ()).now = throttle.now ∧
      (countedMoments (throttle.recordFailure settings ()).history).Sublist
        (countedMoments throttle.history ++ [throttle.now]) := by
  unfold Throttle.recordFailure Throttle.countFailure
  dsimp only
  -- In each branch at most this one failure is added, and it is counted now.
  split_ifs
  · refine ⟨rfl, ?_⟩
    simp [Throttle.note, countedMoments, ThrottleOccurrence.count]
  · refine ⟨rfl, ?_⟩
    simp [Throttle.note, countedMoments, ThrottleOccurrence.count]
  · refine ⟨rfl, ?_⟩
    simp [Throttle.note, countedMoments, ThrottleOccurrence.count]
  · exact ⟨rfl, List.sublist_append_left _ _⟩

/-- The moments counted over a list of calls are among those at which the calls failed. -/
theorem countedMoments_foldl (throttle : Throttle Unit) (calls : List ThrottleCall) :
    (countedMoments (calls.foldl (Throttle.call settings) throttle).history).Sublist
      (countedMoments throttle.history ++ failureMoments throttle.now calls) := by
  -- One call counts one moment at most, and only when it fails.
  induction calls generalizing throttle with
  | nil => simp [failureMoments]
  | cons call rest ih =>
    rw [List.foldl_cons]
    refine (ih (throttle.call settings call)).trans ?_
    cases call with
    | recordFailure =>
      obtain ⟨same, counted⟩ := @countedMoments_recordFailure settings throttle
      rw [failureMoments, Throttle.call, same, List.append_cons]
      exact counted.append (List.Sublist.refl _)
    | clear =>
      have kept : countedMoments (throttle.clear settings).history = countedMoments throttle.history ∧
          (throttle.clear settings).now = throttle.now := by
        unfold Throttle.clear
        split_ifs
        · exact ⟨by simp [Throttle.note, countedMoments, ThrottleOccurrence.count], rfl⟩
        · exact ⟨rfl, rfl⟩
      rw [failureMoments, Throttle.call, kept.1, kept.2]
    | wait elapsed => exact List.Sublist.refl _

/-- More calls behind a list leave the failures in front as they are. -/
theorem failureMoments_append (start : Nat) (front back : List ThrottleCall) :
    (failureMoments start front).Sublist (failureMoments start (front ++ back)) := by
  induction front generalizing start with
  | nil => exact List.nil_sublist _
  | cons call rest ih =>
    cases call with
    | recordFailure => exact (ih start).cons_cons start
    | clear => exact ih start
    | wait elapsed => exact ih (start + elapsed)

/-- A counter that is there after a call was created by it, or keeps its expiry. -/
theorem counter_call {call : ThrottleCall} {entry : Entry Nat}
    (there : (throttle.call settings call).counter.at? (throttle.call settings call).now = some entry) :
    (throttle.counter.at? throttle.now = none ∧ entry = ⟨1, throttle.now + settings.decay⟩) ∨
      ∃ old, throttle.counter.at? throttle.now = some old ∧ entry.expires = old.expires := by
  -- A counter is created by a failure, and never moved forward by anything else.
  cases call with
  | recordFailure =>
    unfold Throttle.call Throttle.recordFailure Throttle.countFailure at there
    dsimp only at there
    split_ifs at there
    · exact .inr ⟨entry, there, rfl⟩
    · obtain ⟨stored, -⟩ := Key.at?_eq_some.mp there
      obtain rfl := Option.some.inj stored
      unfold Throttle.increment
      -- The failure is the first of a counter, or one more of it.
      cases old : throttle.counter.at? throttle.now with
      | none => exact .inl ⟨rfl, rfl⟩
      | some own => exact .inr ⟨own, rfl, rfl⟩
    · cases there
    · exact .inr ⟨entry, there, rfl⟩
  | clear =>
    unfold Throttle.call Throttle.clear at there
    dsimp only at there
    split_ifs at there
    · cases there
    · exact .inr ⟨entry, there, rfl⟩
  | wait elapsed =>
    obtain ⟨stored, running⟩ := Key.at?_eq_some.mp there
    refine .inr ⟨entry, Key.at?_eq_some.mpr ⟨stored, ?_⟩, rfl⟩
    exact Nat.lt_of_le_of_lt (Nat.le_add_right _ _) running

/-- A window that is open was paid for with a threshold of failures within one decay. -/
theorem PaidFor.opened (paid : PaidFor settings throttle) {mark : Entry Unit}
    (marked : throttle.marker = some mark) :
    ∃ (moments : List Nat) (first : Nat), moments.Sublist (countedMoments throttle.history) ∧
      moments.length = settings.failures ∧
      ∀ moment ∈ moments, first ≤ moment ∧ moment < first + settings.decay := by
  rw [paid.marker] at marked
  -- A marker comes from an opening, and that was paid for by the failures in front of it.
  obtain ⟨opening, last, member⟩ := exists_opened marked
  obtain ⟨before, after, split⟩ := List.append_of_mem member
  obtain ⟨moments, first, since, length, each⟩ := paid.justified before _ after split
  refine ⟨moments, first, since.all.trans ?_, length, fun moment listed => ?_⟩
  · -- Those failures are a part of the whole history.
    rw [split, countedMoments_append]
    exact List.sublist_append_left _ _
  · exact ⟨(each moment listed).1, (each moment listed).2.1⟩

/-- A key that has just been set lives for its whole length. -/
theorem remaining_fresh (now length : Nat) : Key.remaining (some ⟨(), now + length⟩) now = length := by
  unfold Key.remaining Key.at?
  rw [Option.filter_some]
  split_ifs with running
  · exact Nat.add_sub_cancel_left now length
  · simp only [decide_eq_true_eq] at running
    simp only [Option.elim_none]
    omega

/-- What is reported after a failure is what the gate says then. -/
theorem recordFailureWait_eq (settings : ThrottleSettings) (throttle : Throttle Unit) :
    throttle.recordFailureWait settings = (throttle.recordFailure settings ()).secondsUntilRetry settings := by
  unfold Throttle.recordFailureWait Throttle.recordFailure Throttle.countFailure Throttle.secondsUntilRetry
  dsimp only
  split_ifs with on refused below
  · rfl
  · simp [Throttle.note, Throttle.wholeSeconds, Nat.eq_zero_of_not_pos refused]
  · simp only [Throttle.note, remaining_fresh]
  · rfl

/-- The throttle keeps its laws over any sequence of calls. -/
theorem throttleLaws (settings : ThrottleSettings) (start : Nat) (calls : List ThrottleCall) :
    ThrottleLaws settings start calls := by
  -- Every run keeps its windows paid for, and the parts read this off.
  have paid := paidFor_runCalls settings start calls
  refine ⟨fun entry stored => (paid.counter entry stored).below, ?_, ?_, ?_, ?_⟩
  · rintro throttle call later entry - rfl there
    exact counter_call there
  · -- The failures behind a window lie within one decay, after the end of the window before it.
    intro before opening ends middle again ends' after split quiet
    obtain ⟨moments, first, since, length, each⟩ :=
      paid.justified (before ++ (opening, .opened ends) :: middle) (again, .opened ends') after (by simp [split])
    refine ⟨moments, since.within, length, fun moment listed => ?_⟩
    obtain ⟨late, -, floor⟩ := each moment listed
    refine ⟨floor ends (marker_quiet quiet), fun other also => ?_⟩
    have early := (each other also).2.1
    omega
  · rintro throttle - refused
    unfold Throttle.recordFailure Throttle.countFailure
    rw [if_pos refused]
    split <;> exact ⟨rfl, rfl, rfl⟩
  · -- A window that is open was paid for with more failures than a sparse run makes.
    rintro sparse front ⟨back, rfl⟩
    by_contra refused
    obtain ⟨mark, marked⟩ : ∃ mark, (Throttle.runCalls settings start front).marker = some mark := by
      cases marked : (Throttle.runCalls settings start front).marker with
      | none =>
        refine absurd ?_ refused
        simp [Throttle.secondsUntilRetry, Throttle.wholeSeconds, marked, Key.remaining]
      | some mark => exact ⟨mark, rfl⟩
    obtain ⟨moments, first, counted, length, each⟩ := (paidFor_runCalls settings start front).opened marked
    have among : moments.Sublist (failureMoments start (front ++ back)) := by
      have reported := @countedMoments_foldl settings (Throttle.fresh start) front
      exact (counted.trans reported).trans (failureMoments_append start front back)
    -- All the failures that paid lie within one decay, where there are few.
    have inside := among.filter fun moment => decide (first ≤ moment ∧ moment < first + settings.decay)
    rw [List.filter_eq_self.mpr fun moment listed => decide_eq_true (each moment listed)] at inside
    have few := sparse first
    have many := inside.length_le
    omega

end Laws

end Trusca
