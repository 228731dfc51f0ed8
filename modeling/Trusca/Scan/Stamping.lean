import Trusca.Eol.Catalog
import Trusca.Malicious.Catalog

/-! Stamping the components of a scan with the verdicts of the catalogues. -/

namespace Trusca

/-- What of a component the catalogues are asked about. -/
structure SbomComponent where
  purl : String
  version : String
  deriving Repr, DecidableEq

/-- The evaluators that are still in use. -/
structure StampEvaluators where
  eol : Option EolEvaluator
  malicious : Option MaliciousIndex

/-- The verdicts on a component; none from a catalogue that it was not assessed by. -/
structure ComponentStamps where
  eol : Option (Option EolVerdict)
  malicious : Option MaliciousVerdict
  deriving Repr, DecidableEq

variable (table : DigitTable) (fromIsoFormat : String → Option CalendarDate)

/-- The version that the verdict on malice is about: the one of the package URL before the stated one. -/
def SbomComponent.pinnedVersion (component : SbomComponent) : String :=
  (versionFromPurl component.purl).getD component.version

/-- Stamp one component. An evaluator that fails is not used again. -/
def stampComponent (evaluators : StampEvaluators) (component : SbomComponent) :
    StampEvaluators × ComponentStamps :=
  -- Each evaluator is asked on its own, and raises on its own.
  let eol := evaluators.eol.map fun evaluator =>
    (evaluator, evaluator.evaluate table fromIsoFormat component.purl component.version)
  let malicious := evaluators.malicious.map fun index =>
    (index, index.verdictFor table component.purl (some component.pinnedVersion))
  -- The first one to raise is dropped for the rest of the scan.
  ({ eol := eol.bind fun (evaluator, outcome) => outcome.toOption.map fun _ => evaluator
     malicious := malicious.bind fun (index, outcome) => outcome.toOption.map fun _ => index },
   { eol := eol.bind fun (_, outcome) => outcome.toOption
     malicious := malicious.bind fun (_, outcome) => outcome.toOption })

/-- Stamp the components of a scan, one after the other. -/
def stampComponents (evaluators : StampEvaluators) :
    List SbomComponent → StampEvaluators × List ComponentStamps
  | [] => (evaluators, [])
  | component :: rest =>
      -- So a later component is stamped by what the earlier ones have left.
      let (left, stamps) := stampComponent table fromIsoFormat evaluators component
      let (last, later) := stampComponents left rest
      (last, stamps :: later)

end Trusca
