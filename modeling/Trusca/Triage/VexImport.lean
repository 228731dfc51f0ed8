import Mathlib.Data.List.Infix
import Trusca.Data.PyJson
import Trusca.Triage.Finding

/-! Importing a VEX document: parsing both dialects, matching findings, and stepping them along. -/

namespace Trusca

/-- The two VEX dialects. -/
inductive VexFormat where
  | openvex
  | cyclonedx
  deriving Repr, DecidableEq

/-- The failures of a whole import. -/
inductive VexImportError where
  | tooLarge
  | malformed (detail : String)
  | unsupportedFormat
  /-- A text with half of a pair is not written: the flush of it raises, and nothing of the import stays. -/
  | unwritable
  deriving Repr, DecidableEq

/-- The limits an operator sets on a document. -/
structure VexLimits where
  maxDocumentBytes : Nat
  maxStatements : Nat
  deriving Repr, DecidableEq

/-- An uploaded body: its length, and what the decoder makes of it when it is valid JSON. The decoder keeps half
of a pair that is escaped without its other half. -/
structure VexUpload where
  bytes : Nat
  parsed : Option (PyJson Rat)

/-- A dialect-independent view of one VEX statement. -/
structure VexStatement where
  vuln : Option PyText
  products : List PyText
  vexStatus : Option PyText
  target : Option FindingStatus
  justification : Option PyText
  deriving Repr, DecidableEq

/-- A statement that is not an object. -/
def VexStatement.malformed : VexStatement := ⟨none, [], none, none, none⟩

/-- A non-empty string after stripping. -/
def asStr : Option (PyJson Rat) → Option PyText
  | some (.str text) => if PyText.strip text = [] then none else some (PyText.strip text)
  | _ => none

/-- The text without control characters, stripped. Half of a pair is none. -/
def cleanText (text : PyText) : PyText :=
  PyText.strip (text.filter fun code => code == 0x09 || (0x20 ≤ code && code != 0x7F))

/-- The longest justification that is kept. -/
def maxJustificationChars : Nat := 4000

/-- The document's rationale, cleaned and cut to the length the manual path accepts. -/
def cleanJustification : Option (PyJson Rat) → Option PyText
  | some (.str text) =>
      if cleanText text = [] then none else some ((cleanText text).take maxJustificationChars)
  | _ => none

/-- A provenance field, cleaned. -/
def cleanProvenance : Option (PyJson Rat) → Option PyText
  | some (.str text) => if cleanText text = [] then none else some (cleanText text)
  | _ => none

/-- A text as it is written; one with half of a pair is not. -/
def writtenText (text : PyText) : String := text.text?.getD ""

/-- An optional text as a document value. -/
def optionalStr : Option PyText → Json
  | none => .null
  | some text => .str (writtenText text)

/-- The internal status an OpenVEX status stands for. -/
def openvexReverseMap : String → Option FindingStatus
  | "not_affected" => some .notAffected
  | "affected" => some .exploitable
  | "fixed" => some .fixed
  | "under_investigation" => some .analyzing
  | _ => none

/-- The internal status a CycloneDX analysis state stands for. -/
def cyclonedxReverseMap : String → Option FindingStatus
  -- Where two of our statuses share a word, the reading picks one of them.
  | "not_affected" => some .notAffected
  | "false_positive" => some .falsePositive
  | "exploitable" => some .exploitable
  | "resolved" => some .fixed
  | "in_triage" => some .analyzing
  | _ => none

/-- One OpenVEX statement. -/
def parseOpenvexStatement (raw : PyJson Rat) : VexStatement :=
  match raw with
  | .obj _ =>
      let vuln :=
        match raw.get? "vulnerability" with
        -- The current schema nests the name; older documents give a bare string.
        | some (.obj fields) =>
            (asStr ((PyJson.obj fields).get? "name")).or (asStr ((PyJson.obj fields).get? "@id"))
        | other => asStr other
      let products := (PyJson.asList (raw.get? "products")).filterMap fun product =>
        match product with
        | .obj fields =>
            (asStr ((PyJson.obj fields).get? "@id")).or (asStr ((PyJson.obj fields).get? "identifiers"))
        | other => asStr (some other)
      let vexStatus := asStr (raw.get? "status")
      ⟨vuln, products, vexStatus, (vexStatus.bind PyText.text?).bind openvexReverseMap,
        cleanJustification (raw.get? "impact_statement")⟩
  | _ => .malformed

/-- One CycloneDX vulnerability entry. -/
def parseCyclonedxStatement (raw : PyJson Rat) : VexStatement :=
  match raw with
  | .obj _ =>
      let products := (PyJson.asList (raw.get? "affects")).filterMap fun affected =>
        match affected with
        | .obj fields => asStr ((PyJson.obj fields).get? "ref")
        | other => asStr (some other)
      match raw.get? "analysis" with
      | some (.obj fields) =>
          let vexStatus := asStr ((PyJson.obj fields).get? "state")
          ⟨asStr (raw.get? "id"), products, vexStatus, (vexStatus.bind PyText.text?).bind cyclonedxReverseMap,
            cleanJustification ((PyJson.obj fields).get? "detail")⟩
      -- An entry without an analysis carries no verdict.
      | _ => ⟨asStr (raw.get? "id"), products, none, none, none⟩
  | _ => .malformed

/-- A parsed document: its dialect, its statements, and its provenance. -/
structure VexDocument where
  format : VexFormat
  statements : List VexStatement
  origin : List (String × Option PyText)

/-- Parse an OpenVEX document. -/
def parseOpenvex (limits : VexLimits) (doc : PyJson Rat) : Except VexImportError VexDocument :=
  match doc.get? "statements" with
  | some (.arr items) =>
      -- The count is checked before any statement is parsed.
      if limits.maxStatements < items.length then .error .tooLarge
      else .ok
        { format := .openvex
          statements := items.map parseOpenvexStatement
          origin :=
            [("format", some (PyText.of "openvex")),
             ("id", cleanProvenance (doc.get? "@id")),
             ("author", cleanProvenance (doc.get? "author")),
             ("timestamp", cleanProvenance (doc.get? "timestamp"))] }
  | _ => .error (.malformed "OpenVEX 'statements' must be an array")

/-- The author of a CycloneDX document is its first tool. -/
def cyclonedxAuthor (metadata : PyJson Rat) : Option PyText :=
  match metadata.get? "tools" with
  | some (.arr (.obj fields :: _)) => cleanProvenance ((PyJson.obj fields).get? "name")
  | _ => none

/-- Parse a CycloneDX document. -/
def parseCyclonedx (limits : VexLimits) (doc : PyJson Rat) : Except VexImportError VexDocument :=
  match doc.get? "vulnerabilities" with
  | some (.arr items) =>
      if limits.maxStatements < items.length then .error .tooLarge
      else
        -- Metadata that is no object leaves author and time empty.
        let (author, timestamp) :=
          match doc.get? "metadata" with
          | some (.obj fields) =>
              (cyclonedxAuthor (.obj fields),
                cleanProvenance ((PyJson.obj fields).get? "timestamp"))
          | _ => (none, none)
        .ok
          { format := .cyclonedx
            statements := items.map parseCyclonedxStatement
            origin :=
              [("format", some (PyText.of "cyclonedx")),
               ("id", cleanProvenance (doc.get? "serialNumber")),
               ("author", author),
               ("timestamp", timestamp)] }
  | _ => .error (.malformed "CycloneDX 'vulnerabilities' must be an array")

/-- Whether the text names OpenVEX, in any letter case; only letters of ASCII have these letters as lower case. -/
def mentionsOpenvex (context : PyText) : Bool :=
  decide (PyText.of "openvex" <:+: context.map fun code => if 65 ≤ code ∧ code ≤ 90 then code + 32 else code)

/-- Detect the dialect and parse the document. -/
def detectAndParse (limits : VexLimits) (doc : PyJson Rat) : Except VexImportError VexDocument :=
  match doc with
  | .obj _ =>
      -- CycloneDX names itself; OpenVEX is told by its context or by its statements.
      if PyJson.isText (doc.get? "bomFormat") "CycloneDX" then parseCyclonedx limits doc
      else
        let isArray :=
          match doc.get? "statements" with
          | some (.arr _) => true
          | _ => false
        if mentionsOpenvex ((asStr (doc.get? "@context")).getD []) || isArray then
          parseOpenvex limits doc
        else .error .unsupportedFormat
  | _ => .error (.malformed "VEX document root must be a JSON object")

/-- Decode an uploaded body. -/
def decodeJson (limits : VexLimits) (upload : VexUpload) : Except VexImportError (PyJson Rat) :=
  -- The length is checked before anything is decoded.
  if limits.maxDocumentBytes < upload.bytes then .error .tooLarge
  else
    match upload.parsed with
    | none => .error (.malformed "VEX document is not valid JSON")
    | some doc => .ok doc

/-- Look at the successors of a node: the target among them ends the search. -/
def visitSuccessors (target : FindingStatus) (path : List FindingStatus) :
    List FindingStatus → List FindingStatus → List (FindingStatus × List FindingStatus) →
      Except (List FindingStatus) (List FindingStatus × List (FindingStatus × List FindingStatus))
  -- The error side carries a finished path out of the loop.
  | [], visited, queue => .ok (visited, queue)
  | next :: rest, visited, queue =>
      if visited.contains next then visitSuccessors target path rest visited queue
      else if next = target then .error (path ++ [next])
      else visitSuccessors target path rest (visited ++ [next]) (queue ++ [(next, path ++ [next])])

/-- Breadth-first search over the transition matrix; each queued node carries its path. -/
def searchPath (target : FindingStatus) :
    Nat → List FindingStatus → List (FindingStatus × List FindingStatus) →
      Option (List FindingStatus)
  -- Every status is visited once, so the rounds suffice.
  | 0, _, _ => none
  | _ + 1, _, [] => none
  | fuel + 1, visited, (node, path) :: queue =>
      match visitSuccessors target path node.transitions visited queue with
      | .error found => some found
      | .ok (visited, queue) => searchPath target fuel visited queue

/-- The shortest legal path to the target, without its start; every status is queued at most once,
so seven rounds exhaust the search. -/
def legalPath (current target : FindingStatus) : Option (List FindingStatus) :=
  if current = target then some []
  else searchPath target 7 [current] [(current, [])]

/-- Why a statement was not applied. -/
inductive VexSkip where
  | malformedStatement
  | unmappedStatus
  | unknownComponent
  | unknownVulnerability
  | ambiguousMatch
  | alreadyAtTarget
  | illegalTransition
  | approvalRequired (gated : List FindingStatus)
  | forbiddenTransition (step : FindingStatus)
  deriving Repr, DecidableEq

/-- The summary of an import: what was skipped is told per statement and product. -/
structure VexSummary where
  matched : Nat
  applied : Nat
  skipped : List (Option PyText × Option PyText × VexSkip)
  /-- Whether a finding was given a text that the next flush cannot write. -/
  unwritable : Bool
  deriving Repr, DecidableEq

/-- Nothing is counted yet. -/
def VexSummary.start : VexSummary := ⟨0, 0, [], false⟩

/-- Record a skip. -/
def VexSummary.skip (summary : VexSummary) (vuln product : Option PyText) (reason : VexSkip) :
    VexSummary :=
  { summary with skipped := summary.skipped ++ [(vuln, product, reason)] }

/-- The import of one document into one project. -/
structure VexImport where
  scope : TriageScope
  actor : CurrentUser
  project : Project
  origin : List (String × Option PyText)
  now : Time
  /-- The import time as it is written into the provenance. -/
  nowText : String

/-- The first hop the actor may not make, with the reason. -/
def refusedHop (actor : CurrentUser) (team : GroupId) :
    FindingStatus → List FindingStatus → Option VexSkip
  | _, [] => none
  | current, step :: rest =>
      match assertCanTransition actor current step team with
      -- The next hop is judged from where this one arrives.
      | .ok () => refusedHop actor team step rest
      | .error (.forbidden _) => some (.forbiddenTransition step)
      | .error _ => some .illegalTransition

/-- What one hop of an import assigns to the finding. -/
def VulnerabilityFinding.hop (finding : VulnerabilityFinding) (step : FindingStatus) (now : Time) :
    VulnerabilityFinding :=
  { finding with status := step, analysisState := some step.value, updatedAt := now }

/-- Apply each hop of a path, flushing each one so that the audit trail shows every step. -/
def applyHops (now : Time) : TriageDb → VulnerabilityFinding → List FindingStatus →
    TriageDb × VulnerabilityFinding
  | db, finding, [] => (db, finding)
  | db, finding, step :: rest =>
      applyHops now (db.flush (finding.hop step now) none) (finding.hop step now) rest

/-- What an applied statement leaves on the finding besides its status. -/
def VexImport.stamp (run : VexImport) (statement : VexStatement)
    (finding : VulnerabilityFinding) : VulnerabilityFinding :=
  -- The note of the file if it has one, otherwise the note stays.
  { finding with
    analysisJustification := (statement.justification.map writtenText).or finding.analysisJustification
    analystUserId := some run.actor.id
    analyzedAt := some run.now
    updatedAt := run.now
    analysisSource := some "vex_import"
    vexOrigin := some (.obj ((run.origin.map fun field => (field.1, optionalStr field.2)) ++
      -- What the file called the status, next to what it became.
      [("vex_status", optionalStr (cleanProvenance (statement.vexStatus.map .str))),
       ("imported_at", .str run.nowText)])) }

/-- The texts of the document that an applied statement leaves on the finding. -/
def VexImport.stampTexts (run : VexImport) (statement : VexStatement) : List PyText :=
  (statement.justification :: cleanProvenance (statement.vexStatus.map .str) ::
    run.origin.map Prod.snd).reduceOption

/-- Whether one of these texts cannot be written. -/
def VexImport.unwritable (run : VexImport) (statement : VexStatement) : Bool :=
  (run.stampTexts statement).any fun text => text.text?.isNone

/-- Step one finding to the statement's target along the legal path. -/
def applyToFinding (run : VexImport) (db : TriageDb) (summary : VexSummary)
    (statement : VexStatement) (target : FindingStatus) (finding : VulnerabilityFinding) :
    TriageDb × VexSummary :=
  let summary := { summary with matched := summary.matched + 1 }
  let skip := fun reason => (db, summary.skip statement.vuln statement.products.head? reason)
  match legalPath finding.status target with
  -- The empty path is the only one that leads nowhere new.
  | some [] => skip .alreadyAtTarget
  | none => skip .illegalTransition
  | some path =>
      let required := run.scope.statusesRequiringApproval run.project.id
      let gated := path.filter required.contains
      -- No hop of the path may enter a status that needs a second person.
      if !gated.isEmpty then skip (.approvalRequired gated)
      else
        match refusedHop run.actor run.project.teamId finding.status path with
        | some reason => skip reason
        | none =>
            -- The provenance is flushed after the last hop and changes no status.
            let (moved, last) := applyHops run.now db finding path
            (moved.flush (run.stamp statement last) none,
              { summary with
                applied := summary.applied + 1
                unwritable := summary.unwritable || run.unwritable statement })

/-- One entry of the findings index: the vulnerability id, the purl, and the finding. -/
abbrev VexIndex := List (String × String × FindingId)

/-- Every finding of the scan under its vulnerability id and purl. -/
def loadFindingsIndex (scope : TriageScope) (db : TriageDb) (scan : ScanId) : VexIndex :=
  (db.findings.rows.filter fun finding => finding.scanId = scan).map fun finding =>
    (scope.externalId finding.vulnerabilityId, scope.purlWithVersion finding.componentVersionId,
      finding.id)

/-- The findings the index has for a vulnerability id and a purl. -/
def VexIndex.matching (index : VexIndex) (vuln purl : PyText) : List FindingId :=
  (index.filter fun entry => PyText.of entry.1 = vuln ∧ PyText.of entry.2.1 = purl).map fun entry => entry.2.2

/-- Apply one product of a statement. -/
def importProduct (run : VexImport) (index : VexIndex) (statement : VexStatement) (vuln : PyText)
    (target : FindingStatus) (state : TriageDb × VexSummary) (purl : PyText) :
    TriageDb × VexSummary :=
  let skip := fun reason => (state.1, state.2.skip (some vuln) (some purl) reason)
  match index.matching vuln purl with
  -- A known vulnerability on another component is told apart from an unknown one.
  | [] =>
      if index.any fun entry => PyText.of entry.1 = vuln then skip .unknownComponent
      else skip .unknownVulnerability
  -- The finding is the session's own, so an earlier statement's change shows in it.
  | [id] =>
      match state.1.findings.find? id with
      | none => state
      | some finding => applyToFinding run state.1 state.2 statement target finding
  | _ => skip .ambiguousMatch

/-- Apply one statement to every product it names. -/
def importStatement (run : VexImport) (index : VexIndex) (state : TriageDb × VexSummary)
    (statement : VexStatement) : TriageDb × VexSummary :=
  let product := statement.products.head?
  match statement.vuln, statement.vexStatus, statement.target with
  -- The three ways a statement is passed over before its products.
  | none, _, _ => (state.1, state.2.skip none product .malformedStatement)
  | some vuln, none, _ => (state.1, state.2.skip (some vuln) product .malformedStatement)
  | some vuln, some _, none => (state.1, state.2.skip (some vuln) product .unmappedStatus)
  | some vuln, some _, some target =>
      -- No product is reported once, for the statement.
      if statement.products.isEmpty then
        (state.1, state.2.skip (some vuln) none .unknownComponent)
      else statement.products.foldl (importProduct run index statement vuln target) state

/-- A request to import a document into a project. -/
structure VexImportCall where
  actor : CurrentUser
  project : ProjectId
  limits : VexLimits
  upload : VexUpload
  now : Time
  nowText : String

/-- Commit what an import did. A text that cannot be written fails with the next flush, here at the latest. -/
def commitImport (outcome : TriageDb × VexSummary) : Except VexImportError (TriageDb × VexSummary) :=
  if outcome.2.unwritable then .error .unwritable else .ok outcome

/-- An import that is committed wrote all its texts. -/
theorem commitImport_ok {outcome result : TriageDb × VexSummary} :
    commitImport outcome = .ok result ↔ outcome.2.unwritable = false ∧ outcome = result := by
  unfold commitImport
  split
  · next raised => simp [raised]
  · next written => simp [written]

/-- Consume an uploaded document: whole-document failures refuse it, statement by statement
problems only show in the summary. -/
def importVex (scope : TriageScope) (db : TriageDb) (project : Project) (call : VexImportCall) :
    Except VexImportError (TriageDb × VexSummary) := do
  let doc ← decodeJson call.limits call.upload
  let parsed ← detectAndParse call.limits doc
  match project.latestScanId with
  -- A project without a scan has no finding a statement could match.
  | none =>
      return (db, parsed.statements.foldl (fun summary statement =>
        summary.skip statement.vuln statement.products.head? .unknownVulnerability) .start)
  | some scan =>
      let run : VexImport :=
        { scope := scope, actor := call.actor, project := project, origin := parsed.origin
          now := call.now, nowText := call.nowText }
      commitImport (parsed.statements.foldl (importStatement run (loadFindingsIndex scope db scan)) (db, .start))

end Trusca
