import Prognosis.Syntax.Declaration
import Prognosis.Text.Lowercase

/-! What can be wrong with a scenario that is well formed, and how it is told. -/

namespace Prognosis

open Decimal Text

/-- What a finding is about. -/
inductive Owner where
  | quantity (kind : QuantityKind) (name : String)
  | branch (name : String)
  | watch (target : String)
  | calibrate (target : String)
  deriving DecidableEq, Repr

namespace Owner

/-- The owner as named inside a sentence. -/
def text : Owner → String
  | quantity kind name => kind.word ++ " '" ++ name ++ "'"
  | branch name => "branch \"" ++ name ++ "\""
  | watch target => "watch '" ++ target ++ "'"
  | calibrate target => "calibrate '" ++ target ++ "'"

/-- The owner as named at the start of a sentence. -/
def title (o : Owner) : String :=
  sentenceCase o.text

end Owner

/-- Lists of names that other declarations are referred to in. -/
inductive ListKey where
  | dependsOn | derivesFrom
  deriving DecidableEq, Repr

/-- Key of the list. -/
def ListKey.word : ListKey → String
  | dependsOn => "depends_on"
  | derivesFrom => "derives_from"

/-- Faults of a well-formed scenario, and hints about it. -/
inductive Finding (α : Type) where
  | nothingToCheck
  | noTimeframe (scenario : String)
  | timeframeOrder (start finish : PartialDate)
  | scenarioConfidence (value : α)
  | duplicate (name earlier : String)
  | noSource (assumption : String)
  | confidence (value : α) (owner : Owner)
  | emptyRange (owner : Owner) (low high : α)
  | anchorOrder (owner : Owner) (date previous : PartialDate)
  | splineWithoutAnchors (owner : Owner)
  | noUncertainty (variable_ : String)
  | sumsImport (owner : Owner) (path : Path)
  | probability (value : α) (owner : Owner)
  | ignoredOverride (kind : QuantityKind) (name : String) (owner : Owner)
  | runs (count : Int)
  | percentile (value : α)
  | convergence (value : α)
  | looseConvergence (value : α)
  | watchTarget (path : Path)
  | calibrationTarget (path : Path)
  | unresolvedListed (path : Path) (key : ListKey) (owner : Owner)
  | unknownFunction (name : String) (owner : Owner)
  | unavailable (path : Path) (owner : Owner) (available : List String)
  | unresolved (path : Path) (owner : Owner)
  | readsImport (owner : Owner) (path : Path)
  | readsVarying (owner : Owner) (kind : QuantityKind) (path : Path)
  | readsLater (owner : Owner) (path : Path)
  | unlistedRead (owner : Owner) (path : Path) (key : ListKey)
  | unknownParameter (kind : DistributionKind) (owner : Owner) (name : String)
  | normalCount (owner : Owner) (count : Nat)
  | negativeSpread (owner : Owner) (spread : α)
  | parameterCount (kind : DistributionKind) (owner : Owner) (count : Nat)
  | uniformOrder (owner : Owner) (low high : α)
  | betaSign (owner : Owner)
  | triangularOrder (owner : Owner)
  | lognormalSpread (owner : Owner) (spread : α)
  | cycle (names : List String)
  deriving Repr

namespace Finding

variable {α : Type} [Scalar α]

/-- Code of the finding. -/
def code : Finding α → Code
  | nothingToCheck => .error 1
  | noTimeframe _ => .warning 1
  | timeframeOrder .. => .error 8
  | scenarioConfidence _ => .error 3
  | duplicate .. => .error 6
  | noSource _ => .warning 4
  | confidence .. => .error 3
  | emptyRange .. => .error 3
  | anchorOrder .. => .error 8
  | splineWithoutAnchors _ => .warning 7
  | noUncertainty _ => .warning 2
  | sumsImport .. => .error 5
  | probability .. => .error 3
  | ignoredOverride .. => .warning 5
  | runs _ => .error 3
  | percentile _ => .error 3
  | convergence _ => .error 3
  | looseConvergence _ => .warning 3
  | watchTarget _ => .error 5
  | calibrationTarget _ => .error 5
  | unresolvedListed .. => .error 5
  | unknownFunction .. => .error 9
  | unavailable .. => .error 5
  | unresolved .. => .error 5
  | readsImport .. => .error 5
  | readsVarying .. => .error 5
  | readsLater .. => .error 5
  | unlistedRead .. => .warning 6
  | unknownParameter .. => .error 7
  | normalCount .. => .error 7
  | negativeSpread .. => .error 7
  | parameterCount .. => .error 7
  | uniformOrder .. => .error 7
  | betaSign _ => .error 7
  | triangularOrder _ => .error 7
  | lognormalSpread .. => .error 7
  | cycle _ => .error 4

/-- The finding in words. -/
def message : Finding α → String
  | nothingToCheck => "Nothing to validate: the source did not parse"
  | noTimeframe scenario =>
      "Scenario \"" ++ scenario ++ "\" has no timeframe; defaulting to 2025 -> 2050"
  | timeframeOrder start finish =>
      "Timeframe start " ++ start.text ++ " is not before end " ++ finish.text
  | scenarioConfidence value =>
      "Scenario confidence " ++ Scalar.general value ++ " is outside [0, 1]"
  | duplicate name _ => "Duplicate declaration '" ++ name ++ "'"
  | noSource assumption => "Assumption '" ++ assumption ++ "' has no source"
  | confidence value owner =>
      "Confidence " ++ Scalar.general value ++ " of " ++ owner.text ++ " is outside [0, 1]"
  | emptyRange owner low high =>
      "Range of " ++ owner.text ++ " is empty: min " ++ Scalar.general low ++ " >= max "
        ++ Scalar.general high
  | anchorOrder owner date previous =>
      "Timeseries of " ++ owner.text ++ " is not chronological: " ++ date.text ++ " follows "
        ++ previous.text
  | splineWithoutAnchors owner =>
      owner.title ++ " uses model spline() without timeseries anchors and evaluates to 0"
  | noUncertainty variable_ => "Variable '" ++ variable_ ++ "' declares no uncertainty"
  | sumsImport owner path =>
      owner.title ++ " sums '" ++ path.text
        ++ "' from an import; imported scenarios are not resolved"
  | probability value owner =>
      "Probability " ++ Scalar.general value ++ " of " ++ owner.text ++ " is outside [0, 1]"
  | ignoredOverride kind name owner =>
      kind.title ++ " '" ++ name ++ "' in " ++ owner.text ++ " overrides no top-level "
        ++ kind.word ++ " and is ignored"
  | runs count => "Simulation runs must be at least 1, got " ++ signedText count
  | percentile value => "Percentile " ++ Scalar.general value ++ " is outside [0, 100]"
  | convergence value =>
      "Convergence threshold " ++ Scalar.general value ++ " is outside (0, 1)"
  | looseConvergence value =>
      "Convergence threshold " ++ Scalar.general value ++ " is unusually loose"
  | watchTarget path => "Watch target '" ++ path.text ++ "' is not declared"
  | calibrationTarget path => "Calibration target '" ++ path.text ++ "' is not declared"
  | unresolvedListed path key owner =>
      "Unresolved reference '" ++ path.text ++ "' in " ++ key.word ++ " of " ++ owner.text
  | unknownFunction name owner => "Unknown function '" ++ name ++ "' in " ++ owner.text
  | unavailable path owner available =>
      "'" ++ path.text ++ "' cannot be used in " ++ owner.text ++ "; available names: "
        ++ commaSeparated available
  | unresolved path owner => "Unresolved reference '" ++ path.text ++ "' in " ++ owner.text
  | readsImport owner path =>
      owner.title ++ " reads '" ++ path.text ++ "' from import '" ++ path.root
        ++ "'; imported scenarios are not resolved"
  | readsVarying owner kind path =>
      owner.title ++ " reads " ++ kind.word ++ " '" ++ path.text
        ++ "'; only assumptions and parameters are allowed here"
  | readsLater owner path =>
      owner.title ++ " reads '" ++ path.text ++ "' before it is declared"
  | unlistedRead owner path key =>
      owner.title ++ " reads '" ++ path.text ++ "' which is not listed in " ++ key.word
  | unknownParameter kind owner name =>
      kind.name ++ "() of " ++ owner.text ++ " has no parameter '" ++ name ++ "'"
  | normalCount owner count =>
      "normal() of " ++ owner.text ++ " takes a spread or (mean, std), got "
        ++ wholeText count ++ " parameters"
  | negativeSpread owner spread =>
      "normal() of " ++ owner.text ++ " has negative spread " ++ Scalar.general spread
  | parameterCount kind owner count =>
      kind.name ++ "() of " ++ owner.text ++ " takes " ++ wholeText kind.parameters.length
        ++ " parameters (" ++ commaSeparated kind.parameters ++ "), got " ++ wholeText count
  | uniformOrder owner low high =>
      "uniform() of " ++ owner.text ++ " needs min < max, got " ++ Scalar.general low
        ++ " >= " ++ Scalar.general high
  | betaSign owner => "beta() of " ++ owner.text ++ " needs alpha > 0 and beta > 0"
  | triangularOrder owner => "triangular() of " ++ owner.text ++ " needs min <= mode <= max"
  | lognormalSpread owner spread =>
      "lognormal() of " ++ owner.text ++ " needs sigma > 0, got " ++ Scalar.general spread
  | cycle names => "Dependency cycle: " ++ " -> ".intercalate names

/-- What may help. -/
def hint? : Finding α → Option String
  | noTimeframe _ => some "Add e.g. timeframe: 2025 -> 2050"
  | duplicate name earlier => some ("'" ++ name ++ "' is already declared as " ++ earlier)
  | splineWithoutAnchors _ =>
      some "spline() interpolates the timeseries; add anchors such as 2025: 10"
  | noUncertainty _ => some "Add e.g. uncertainty: normal(±10%)"
  | sumsImport .. => some "Add a formula that reads local declarations"
  | looseConvergence _ => some "Thresholds of 0.01-0.05 are typical"
  | unknownFunction .. =>
      some ("Available: " ++ commaSeparated (Expr.Builtin.all.map Expr.Builtin.name))
  | readsImport _ path =>
      some ("Declare the value locally; '" ++ path.root ++ "' may only appear in depends_on")
  | unlistedRead _ path key =>
      some ("Add '" ++ path.root ++ "' to " ++ key.word
        ++ " to make the dependency explicit")
  | unknownParameter kind _ _ => some ("Expected: " ++ commaSeparated kind.parameters)
  | cycle _ =>
      some "Break the cycle by removing one of the references between these declarations"
  | _ => none

end Finding

/-- A finding about a scenario as it is shown. -/
def Located.ofScenario {α : Type} [Scalar α] (l : Located (Finding α)) : Diagnostic :=
  ⟨l.finding.code, l.finding.message, l.span, l.finding.hint?⟩

/-- The finding forbids simulation. -/
def Located.isError {α : Type} (l : Located (Finding α)) : Bool :=
  l.finding.code.severity == .error

end Prognosis
