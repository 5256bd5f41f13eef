import Prognosis.Adapter
import Prognosis.Adapter.Bundled
import Prognosis.Adapter.Dataset
import Prognosis.Adapter.Eurostat
import Prognosis.Adapter.Locator
import Prognosis.Adapter.Supplied
import Prognosis.Adapter.Web
import Prognosis.Adapter.WorldBank
import Prognosis.Calendar.Date
import Prognosis.Calendar.PartialDate
import Prognosis.Calendar.Timeline
import Prognosis.Calibration
import Prognosis.Calibration.Posterior
import Prognosis.Check.CausalGraph
import Prognosis.Check.Declaration
import Prognosis.Check.Finding
import Prognosis.Check.Scenario
import Prognosis.Check.Symbols
import Prognosis.Command.Invocation
import Prognosis.Command.Outcome
import Prognosis.Decimal.Reading
import Prognosis.Decimal.Written
import Prognosis.Diagnostic
import Prognosis.Entries
import Prognosis.Fault
import Prognosis.Grammar.Block
import Prognosis.Grammar.Declaration
import Prognosis.Grammar.Expression
import Prognosis.Grammar.Parsed
import Prognosis.Grammar.Scenario
import Prognosis.Grammar.Value
import Prognosis.Json
import Prognosis.Json.Number
import Prognosis.Json.Reading
import Prognosis.Json.Shown
import Prognosis.Main
import Prognosis.Notice
import Prognosis.Observation.Collect
import Prognosis.Observation.Fetch
import Prognosis.Observation.Series
import Prognosis.Observation.Watch
import Prognosis.Proofs.Adapter.Arrangement
import Prognosis.Proofs.Adapter.Legible
import Prognosis.Proofs.Adapter.Repeats
import Prognosis.Proofs.Batch.Deeds
import Prognosis.Proofs.Batch.Parallel
import Prognosis.Proofs.Batch.Traced
import Prognosis.Proofs.Batch.Workers
import Prognosis.Proofs.Calendar.Chronology
import Prognosis.Proofs.Calendar.Timeline
import Prognosis.Proofs.Calibration.Encoding
import Prognosis.Proofs.Calibration.Locality
import Prognosis.Proofs.Calibration.Posteriors
import Prognosis.Proofs.Calibration.Recalibration
import Prognosis.Proofs.Calibration.Repetition
import Prognosis.Proofs.Calibration.Reports
import Prognosis.Proofs.Calibration.Soundness
import Prognosis.Proofs.Calibration.Targets
import Prognosis.Proofs.Calibration.Updates
import Prognosis.Proofs.Check.Graph
import Prognosis.Proofs.Check.Order
import Prognosis.Proofs.Check.Outline
import Prognosis.Proofs.Check.Precedence
import Prognosis.Proofs.Check.Reads
import Prognosis.Proofs.Check.Removal
import Prognosis.Proofs.Check.Reports
import Prognosis.Proofs.Check.Soundness
import Prognosis.Proofs.Check.Symbols
import Prognosis.Proofs.Entries
import Prognosis.Proofs.Grammar.Answers
import Prognosis.Proofs.Grammar.Calls
import Prognosis.Proofs.Grammar.Containment
import Prognosis.Proofs.Grammar.Declaration
import Prognosis.Proofs.Grammar.Derivation
import Prognosis.Proofs.Grammar.Exactness
import Prognosis.Proofs.Grammar.Faults
import Prognosis.Proofs.Grammar.Imports
import Prognosis.Proofs.Grammar.Layout
import Prognosis.Proofs.Grammar.Layout.Block
import Prognosis.Proofs.Grammar.Layout.Scenario
import Prognosis.Proofs.Grammar.Locality
import Prognosis.Proofs.Grammar.Overflow
import Prognosis.Proofs.Grammar.Progress
import Prognosis.Proofs.Grammar.Reading
import Prognosis.Proofs.Grammar.Relaid
import Prognosis.Proofs.Grammar.Remainder
import Prognosis.Proofs.Grammar.Rendering
import Prognosis.Proofs.Grammar.Scenario
import Prognosis.Proofs.Grammar.Seam
import Prognosis.Proofs.Grammar.Seam.Block
import Prognosis.Proofs.Grammar.Seam.Declaration
import Prognosis.Proofs.Grammar.Seam.Expression
import Prognosis.Proofs.Grammar.Seam.Value
import Prognosis.Proofs.Grammar.Shape
import Prognosis.Proofs.Grammar.Spacing
import Prognosis.Proofs.Grammar.Spacing.Declaration
import Prognosis.Proofs.Grammar.Spacing.Scenario
import Prognosis.Proofs.Grammar.Spelling
import Prognosis.Proofs.Grammar.Value
import Prognosis.Proofs.Observation.Alerts
import Prognosis.Proofs.Observation.Assumed
import Prognosis.Proofs.Observation.Dotted
import Prognosis.Proofs.Observation.Order
import Prognosis.Proofs.Observation.Pool
import Prognosis.Proofs.Observation.Search
import Prognosis.Proofs.Observation.Series
import Prognosis.Proofs.Observation.Sources
import Prognosis.Proofs.Observation.Targets
import Prognosis.Proofs.Random.Units
import Prognosis.Proofs.Run.Independence
import Prognosis.Proofs.Run.Lifecycle
import Prognosis.Proofs.Run.Remembering
import Prognosis.Proofs.Run.Standing
import Prognosis.Proofs.Run.Streams
import Prognosis.Proofs.Run.Substitution
import Prognosis.Proofs.Run.Whole
import Prognosis.Proofs.Scalar.Double.Arithmetic
import Prognosis.Proofs.Scalar.Double.Axis
import Prognosis.Proofs.Scalar.Double.Extent
import Prognosis.Proofs.Scalar.Double.Nearest
import Prognosis.Proofs.Scalar.Double.Rules
import Prognosis.Proofs.Scalar.Double.Unpacked
import Prognosis.Proofs.Scalar.Exact
import Prognosis.Proofs.Scalar.Rules
import Prognosis.Proofs.Scalar.Sizes
import Prognosis.Proofs.Sensitivity.Baseline
import Prognosis.Proofs.Sensitivity.Ranking
import Prognosis.Proofs.Simulation.Agreement
import Prognosis.Proofs.Simulation.BranchAgreement
import Prognosis.Proofs.Simulation.Computation
import Prognosis.Proofs.Simulation.Declared
import Prognosis.Proofs.Simulation.Looks
import Prognosis.Proofs.Simulation.Moments
import Prognosis.Proofs.Simulation.Places
import Prognosis.Proofs.Simulation.Ranks
import Prognosis.Proofs.Simulation.Reads
import Prognosis.Proofs.Simulation.Replacement
import Prognosis.Proofs.Simulation.Scope
import Prognosis.Proofs.Simulation.Settled
import Prognosis.Proofs.Simulation.Sweep
import Prognosis.Proofs.Simulation.Validity
import Prognosis.Proofs.Steps
import Prognosis.Proofs.Syntax.Places
import Prognosis.Proofs.Syntax.View
import Prognosis.Proofs.Token.Alone
import Prognosis.Proofs.Token.Cutting
import Prognosis.Proofs.Token.Dates
import Prognosis.Proofs.Token.Lines
import Prognosis.Proofs.Token.Numeral
import Prognosis.Proofs.Token.Tiling
import Prognosis.Proofs.Token.Word
import Prognosis.Proofs.Value.Breakdown
import Prognosis.Proofs.Value.Draw
import Prognosis.Proofs.Value.Forms
import Prognosis.Proofs.Value.Interpolation
import Prognosis.Proofs.Value.Literal
import Prognosis.Proofs.Value.Names
import Prognosis.Proofs.Value.Polynomial
import Prognosis.Proofs.Value.Reads
import Prognosis.Proofs.Value.Resolved
import Prognosis.Proofs.Value.Spline
import Prognosis.Proofs.Value.Triangle
import Prognosis.Proofs.Value.Undefined
import Prognosis.Pulse
import Prognosis.Random.Generator
import Prognosis.Random.Source
import Prognosis.Random.Stream
import Prognosis.Random.Strips
import Prognosis.Random.Ziggurat
import Prognosis.Scalar
import Prognosis.Scalar.Double
import Prognosis.Sensitivity
import Prognosis.Settings
import Prognosis.Settings.Document
import Prognosis.Simulation
import Prognosis.Simulation.Batch
import Prognosis.Simulation.Plan
import Prognosis.Simulation.Result
import Prognosis.Simulation.Run
import Prognosis.Simulation.Summary
import Prognosis.Syntax.Declaration
import Prognosis.Syntax.Distribution
import Prognosis.Syntax.Expr
import Prognosis.Syntax.Path
import Prognosis.Syntax.Render
import Prognosis.Syntax.View
import Prognosis.Text.Lowercase
import Prognosis.Text.Printable
import Prognosis.Text.Ranges
import Prognosis.Text.Word
import Prognosis.Token
import Prognosis.Token.Scan
import Prognosis.Value.Builtin
import Prognosis.Value.Distribution
import Prognosis.Value.Expr
import Prognosis.Value.Halt
import Prognosis.Value.Interpolant
import Prognosis.Value.Model
import Prognosis.Value.Spline
