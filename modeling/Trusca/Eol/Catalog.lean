import Trusca.Upgrade.Version

/-! The end-of-life catalogue: the release cycle of a version, and the verdict on a component. -/

namespace Trusca

/-- The life-cycle answers of the end-of-life catalogue. -/
inductive EolState where
  | eol
  | supported
  | unknown
  deriving Repr, DecidableEq

/-- Whether a version is behind the newest patch of its cycle. -/
inductive CurrencyState where
  | current
  | outdated
  | unknown
  deriving Repr, DecidableEq

/-- A calendar date, as a count of days. -/
abbrev CalendarDate := Int

/-- How much of a version names its cycle. -/
inductive CycleGranularity where
  | major
  | majorMinor
  deriving Repr, DecidableEq

/-- Which packages belong to a product. -/
structure EolRule where
  purlPrefix : String
  product : String
  cycle : CycleGranularity
  deriving Repr, DecidableEq

/-- What a cycle says about its end: an answer, a date, or neither. -/
inductive EolValue where
  | answer (ended : Bool)
  | date (text : String)
  | other
  deriving Repr, DecidableEq

/-- One cycle of a product; its newest patch and the date of that may be missing. -/
structure EolEntry where
  cycle : String
  eol : EolValue
  latest : Option String
  latestReleaseDate : Option String
  deriving Repr, DecidableEq

/-- The cycles of the products, as of a date. -/
structure EolDataset where
  snapshot : String
  products : List (String × List EolEntry)
  deriving Repr

/-- The verdict on one component. -/
structure EolVerdict where
  state : EolState
  product : String
  cycle : Option String
  date : Option CalendarDate
  source : String
  currencyState : CurrencyState
  currencyLatest : Option String
  currencyLatestReleaseDate : Option CalendarDate
  deriving Repr, DecidableEq

/-- The most digits of one segment of a cycle. -/
def maxCycleSegmentChars : Nat := 15

/-- The leading numbers of the segments, up to the first segment without one; none at all when one of
them is too long. -/
def cycleSegments : List (List Char) → Option (List String)
  | [] => some []
  | part :: rest =>
      -- The expression takes the digits a part starts with, and ends at a part without any.
      let digits := part.takeWhile Char.isDigit
      if digits.isEmpty then some []
      -- A cycle of more digits than this is not looked up at all.
      else if maxCycleSegmentChars < digits.length then none
      else (cycleSegments rest).map (String.ofList digits :: ·)

/-- The release cycle of a version, or none when it has no number. -/
def deriveCycle (version : String) (granularity : CycleGranularity) : Option String :=
  -- What v there is at the start is dropped first.
  match cycleSegments ((version.toList.dropWhile (· == 'v')).splitOn '.') with
  | none => none
  | some [] => none
  -- One segment serves both granularities.
  | some [major] => some major
  | some (major :: minor :: _) =>
      match granularity with
      | .major => some major
      | .majorMinor => some (major ++ "." ++ minor)

/-- A package URL with the scope marker written plainly. -/
def plainScope : List Char → List Char
  | '%' :: '4' :: '0' :: rest => '@' :: plainScope rest
  | first :: rest => first :: plainScope rest
  | [] => []

section Evaluate

variable (table : DigitTable) (fromIsoFormat : String → Option CalendarDate)

/-- Whether a version is behind the newest patch of its cycle, with that patch and its date. -/
def evaluateCurrency (version : String) (entry : EolEntry) :
    Except ValueError (CurrencyState × Option String × Option CalendarDate) :=
  match entry.latest with
  -- The dataset has no latest release of the cycle: nothing to compare with.
  | none => .ok (.unknown, none, none)
  | some latest =>
      if latest = "" then .ok (.unknown, none, none)
      else do
        let released := entry.latestReleaseDate.bind fromIsoFormat
        let installedParsed ← parseVersion table version
        let latestParsed ← parseVersion table latest
        -- Both have to parse, otherwise the row says unknown but keeps the latest version.
        match installedParsed, latestParsed with
        | some installed, some newest =>
            if compareVersions installed newest = .lt then return (.outdated, some latest, released)
            else return (.current, some latest, released)
        | _, _ => return (.unknown, some latest, released)

/-- The rules and the dataset of one run, and its day. -/
structure EolEvaluator where
  rules : List EolRule
  dataset : EolDataset
  today : CalendarDate

/-- The cycle of a component in the dataset: its rule, the cycle that its version names, and the entry. -/
def EolEvaluator.matchEntry (evaluator : EolEvaluator) (purlWithVersion version : String) :
    Option (EolRule × Option (String × Option EolEntry)) :=
  let purl := plainScope purlWithVersion.toList
  -- The rules are ordered, and the first prefix that fits wins.
  (evaluator.rules.find? fun rule => rule.purlPrefix.toList.isPrefixOf purl).map fun rule =>
    (rule, (deriveCycle version rule.cycle).map fun cycle =>
      (cycle, ((evaluator.dataset.products.lookup rule.product).getD []).find? fun entry =>
        entry.cycle == cycle))

/-- The verdict on a component; none for a component that no rule is about. -/
def EolEvaluator.evaluate (evaluator : EolEvaluator) (purlWithVersion version : String) :
    Except ValueError (Option EolVerdict) :=
  let source := "endoflife.date@" ++ evaluator.dataset.snapshot
  match evaluator.matchEntry purlWithVersion version with
  -- No rule for the package: no verdict, and the component keeps what it had.
  | none => .ok none
  -- A rule, but no cycle in the version, or a cycle that the dataset does not list.
  | some (rule, none) => .ok (some ⟨.unknown, rule.product, none, none, source, .unknown, none, none⟩)
  | some (rule, some (cycle, none)) =>
      .ok (some ⟨.unknown, rule.product, some cycle, none, source, .unknown, none, none⟩)
  | some (rule, some (cycle, some entry)) => do
      let (state, latest, released) ← evaluateCurrency table fromIsoFormat version entry
      let verdict (answer : EolState) (date : Option CalendarDate) : EolVerdict :=
        ⟨answer, rule.product, some cycle, date, source, state, latest, released⟩
      -- The data set gives a flag, a date, or neither
      match entry.eol with
      | .answer ended => return some (verdict (if ended then .eol else .supported) none)
      | .date text =>
          match fromIsoFormat text with
          | none => return some (verdict .unknown none)
          | some date =>
              -- The day itself is still supported.
              return some (verdict (if date < evaluator.today then .eol else .supported) (some date))
      | .other => return some (verdict .unknown none)

end Evaluate

end Trusca
