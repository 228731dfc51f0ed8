import Trusca.Scan.Lifecycle

/-! Which scan the current state of a project is read from. -/

namespace Trusca

/-- What the resolvers read of a scan. -/
structure ScanRecord where
  id : ScanId
  projectId : ProjectId
  status : ScanStatus
  ref : Option String
  createdAt : Time
  completedAt : Option Time
  updatedAt : Time
  deriving Repr, DecidableEq

/-- The text without blanks at its ends. -/
def btrim (text : String) : String :=
  String.ofList (((text.toList.dropWhile (· == ' ')).reverse.dropWhile (· == ' ')).reverse)

/-- The ref a project's current state is read from: its default branch, or `main`. -/
def mainLineRef (defaultBranch : Option String) : String :=
  match defaultBranch.map btrim with
  -- A branch name that is only blanks counts as missing.
  | none => "main"
  | some "" => "main"
  | some branch => branch

namespace ScanRecord

/-- Whether the scan targeted the main line. -/
def onMainLine (scan : ScanRecord) (mainLine : String) : Bool := scan.ref == some mainLine

/-- A descending comparison of completion times; an absent one comes first. -/
def compareCompleted : Option Time → Option Time → Ordering
  | none, none => .eq
  | none, some _ => .lt
  | some _, none => .gt
  | some first, some second => compare second first

/-- The newer scan comes first; ties are broken by the completion time and then by the id. -/
def compareRecent (first second : ScanRecord) : Ordering :=
  (compare second.createdAt first.createdAt).then
    ((compareCompleted first.completedAt second.completedAt).then (compare second.id first.id))

/-- The scans of the main line come first, each line from its newest scan. -/
def compareCurrent (mainLine : String) (first second : ScanRecord) : Ordering :=
  (compare (second.onMainLine mainLine) (first.onMainLine mainLine)).then
    (first.compareRecent second)

end ScanRecord

/-- The succeeded scans of a project. -/
def succeededScans (scans : List ScanRecord) (project : ProjectId) : List ScanRecord :=
  scans.filter fun scan => scan.projectId == project && scan.status == .succeeded

/-- The scan the current state of a project is read from: the newest succeeded one of its main
line, or of any line when the main line has none. -/
def latestSucceededScan (scans : List ScanRecord) (project : ProjectId)
    (defaultBranch : Option String) : Option ScanRecord :=
  -- ORDER BY ... LIMIT 1
  ((succeededScans scans project).mergeSort fun first second =>
    (first.compareCurrent (mainLineRef defaultBranch) second).isLE).head?

end Trusca
