import Prognosis.Calendar.Timeline
import Prognosis.Syntax.Distribution

/-! The declarations of a scenario. -/

namespace Prognosis

/-- How a value between anchors is found. -/
inductive Interpolation where
  | linear | step | spline
  deriving DecidableEq, Repr

namespace Interpolation

/-- All methods, in the order in which they are offered. -/
def all : List Interpolation :=
  [linear, step, spline]

/-- Word for the method. -/
def word : Interpolation → String
  | linear => "linear"
  | step => "step"
  | spline => "spline"

/-- The method with this word; any other word means the linear one. -/
def ofWord (word : String) : Interpolation :=
  (all.find? (·.word == word)).getD linear

end Interpolation

/-- How samples are drawn. Every method draws independently. -/
inductive SamplingMethod where
  | monteCarlo | latinHypercube | sobol
  deriving DecidableEq, Repr

namespace SamplingMethod

/-- All methods, in the order in which they are offered. -/
def all : List SamplingMethod :=
  [monteCarlo, latinHypercube, sobol]

/-- Word for the method. -/
def word : SamplingMethod → String
  | monteCarlo => "monte_carlo"
  | latinHypercube => "latin_hypercube"
  | sobol => "sobol"

end SamplingMethod

/-- What a simulation is asked to report. -/
inductive OutputKind where
  | distribution | percentiles | summary | full
  deriving DecidableEq, Repr

namespace OutputKind

/-- All kinds, in the order in which they are offered. -/
def all : List OutputKind :=
  [distribution, percentiles, summary, full]

/-- Word for the kind. -/
def word : OutputKind → String
  | distribution => "distribution"
  | percentiles => "percentiles"
  | summary => "summary"
  | full => "full"

end OutputKind

/-- How a prior and observations are joined. -/
inductive CalibrationMethod where
  | bayesianUpdate | maximumLikelihood | ensemble
  deriving DecidableEq, Repr

namespace CalibrationMethod

/-- All methods, in the order in which they are offered. -/
def all : List CalibrationMethod :=
  [bayesianUpdate, maximumLikelihood, ensemble]

/-- Word for the method. -/
def word : CalibrationMethod → String
  | bayesianUpdate => "bayesian_update"
  | maximumLikelihood => "maximum_likelihood"
  | ensemble => "ensemble"

end CalibrationMethod

/-- How often data is renewed. -/
inductive RefreshRate where
  | realtime | hourly | daily | weekly | monthly | quarterly | yearly
  deriving DecidableEq, Repr

namespace RefreshRate

/-- All rates, in the order in which they are offered. -/
def all : List RefreshRate :=
  [realtime, hourly, daily, weekly, monthly, quarterly, yearly]

/-- Word for the rate. -/
def word : RefreshRate → String
  | realtime => "realtime"
  | hourly => "hourly"
  | daily => "daily"
  | weekly => "weekly"
  | monthly => "monthly"
  | quarterly => "quarterly"
  | yearly => "yearly"

end RefreshRate

/-- How a parameter is set by a reader. -/
inductive Control where
  | slider | toggle | dropdown | input
  deriving DecidableEq, Repr

namespace Control

/-- All controls, in the order in which they are offered. -/
def all : List Control :=
  [slider, toggle, dropdown, input]

/-- Word for the control. -/
def word : Control → String
  | slider => "slider"
  | toggle => "toggle"
  | dropdown => "dropdown"
  | input => "input"

end Control

/-- Where observations of an assumption come from, what is made of them, and what stands for
them when there are none.
-/
structure Binding (α : Type) where
  source : Option String
  refresh : Option RefreshRate
  field : Option String
  transform : Option (Expr α)
  fallback : Option (Expr α)
  span : Span
  deriving Repr

/-- Weight of a satisfied rule. -/
inductive AlertSeverity where
  | warn | error
  deriving DecidableEq, Repr

/-- Word for the weight. -/
def AlertSeverity.word : AlertSeverity → String
  | warn => "warn"
  | error => "error"

/-- A condition on the observed and the assumed value. -/
structure WatchRule (α : Type) where
  severity : AlertSeverity
  condition : Expr α
  deriving Repr

/-- What is to happen when a rule is satisfied. -/
structure Trigger where
  recalculate : Option Bool
  notify : List String
  suggest : Option String
  deriving DecidableEq, Repr

/-- Rules on a quantity; the target is missing where the rules stand inside an assumption. -/
structure Watch (α : Type) where
  target : Option Path
  rules : List (WatchRule α)
  onTrigger : Option Trigger
  span : Span
  deriving Repr

/-- A value that is taken for granted. -/
structure Assumption (α : Type) where
  name : String
  value : Option (Expr α)
  byDate : Option PartialDate
  source : Option String
  confidence : Option α
  uncertainty : Option (Distribution α)
  binding : Option (Binding α)
  watch : Option (Watch α)
  span : Span
  deriving Repr

/-- A value at a date. -/
structure Anchor (α : Type) where
  date : PartialDate
  value : Expr α
  deriving Repr

/-- A quantity that changes over time. -/
structure Variable (α : Type) where
  name : String
  anchors : List (Anchor α)
  dependsOn : List Path
  model : Option (Model α)
  uncertainty : Option (Distribution α)
  interpolation : Option Interpolation
  description : Option String
  unit : Option String
  label : Option String
  icon : Option String
  color : Option String
  span : Span
  deriving Repr

/-- A value that a reader may set. -/
structure Parameter (α : Type) where
  name : String
  value : Option (Expr α)
  range : Option (Expr α × Expr α)
  uncertainty : Option (Distribution α)
  description : Option String
  label : Option String
  unit : Option String
  step : Option (Expr α)
  source : Option String
  format : Option String
  control : Option Control
  icon : Option String
  color : Option String
  span : Span
  deriving Repr

/-- A quantity computed from others. -/
structure Impact (α : Type) where
  name : String
  derivesFrom : List Path
  formula : Option (Expr α)
  description : Option String
  unit : Option String
  label : Option String
  icon : Option String
  color : Option String
  span : Span
  deriving Repr

/-- Kinds of named values. -/
inductive QuantityKind where
  | assumption | varying | parameter | impact
  deriving DecidableEq, Repr

namespace QuantityKind

/-- Word for the kind. -/
def word : QuantityKind → String
  | assumption => "assumption"
  | varying => "variable"
  | parameter => "parameter"
  | impact => "impact"

/-- Word for the kind at the start of a sentence. -/
def title : QuantityKind → String
  | assumption => "Assumption"
  | varying => "Variable"
  | parameter => "Parameter"
  | impact => "Impact"

end QuantityKind

/-- A declaration of a named value. -/
inductive Quantity (α : Type) where
  | assumption (decl : Assumption α)
  | varying (decl : Variable α)
  | parameter (decl : Parameter α)
  | impact (decl : Impact α)
  deriving Repr

namespace Quantity

variable {α : Type}

/-- Name of the value. -/
def name : Quantity α → String
  | assumption d => d.name
  | varying d => d.name
  | parameter d => d.name
  | impact d => d.name

/-- Kind of the value. -/
def kind : Quantity α → QuantityKind
  | assumption _ => .assumption
  | varying _ => .varying
  | parameter _ => .parameter
  | impact _ => .impact

/-- Place of the declaration. -/
def span : Quantity α → Span
  | assumption d => d.span
  | varying d => d.span
  | parameter d => d.span
  | impact d => d.span

/-- The value is set before time runs. -/
def isConstant (q : Quantity α) : Bool :=
  q.kind == .assumption || q.kind == .parameter

end Quantity

/-- A turn that the future may take: what is declared inside replaces what is declared outside
once the condition holds and the draw succeeds.
-/
structure Branch (α : Type) where
  name : String
  condition : Expr α
  probability : Option α
  fork : Option String
  overrides : List (Quantity α)
  span : Span
  deriving Repr

/-- Settings of the simulation. -/
structure Simulate (α : Type) where
  runs : Option Int
  method : Option SamplingMethod
  seed : Option Int
  output : Option OutputKind
  percentiles : Option (List α)
  convergence : Option α
  timeout : Option (Duration α)
  span : Span
  deriving Repr

/-- An uncertainty to be corrected by observations. -/
structure Calibrate (α : Type) where
  target : Path
  historical : Option String
  method : Option CalibrationMethod
  window : Option (Duration α)
  prior : Option (Distribution α)
  updateFrequency : Option RefreshRate
  span : Span
  deriving Repr

/-- Another scenario under a name. -/
structure Import where
  path : String
  localName : String
  span : Span
  deriving DecidableEq, Repr

/-- One declaration of a scenario. -/
inductive Declaration (α : Type) where
  | quantity (decl : Quantity α)
  | branch (decl : Branch α)
  | simulate (decl : Simulate α)
  | watch (decl : Watch α)
  | calibrate (decl : Calibrate α)
  | imported (decl : Import)
  deriving Repr

namespace Declaration

variable {α : Type}

/-- Name that the declaration introduces. -/
def name? : Declaration α → Option String
  | quantity d => some d.name
  | branch d => some d.name
  | imported d => some d.localName
  | _ => none

/-- Place of the declaration. -/
def span : Declaration α → Span
  | quantity d => d.span
  | branch d => d.span
  | simulate d => d.span
  | watch d => d.span
  | calibrate d => d.span
  | imported d => d.span

/-- The named value that is declared. -/
def quantity? : Declaration α → Option (Quantity α)
  | quantity d => some d
  | _ => none

/-- The branch that is declared. -/
def branch? : Declaration α → Option (Branch α)
  | branch d => some d
  | _ => none

/-- The settings that are declared. -/
def simulate? : Declaration α → Option (Simulate α)
  | simulate d => some d
  | _ => none

/-- The rules that are declared. -/
def watch? : Declaration α → Option (Watch α)
  | watch d => some d
  | _ => none

end Declaration

/-- What is said about a scenario as a whole. -/
structure Metadata (α : Type) where
  timeframe : Option Timeframe
  resolution : Option Resolution
  confidence : Option α
  author : Option String
  version : Option String
  description : Option String
  tags : List String
  subtitle : Option String
  category : Option String
  icon : Option String
  color : Option String
  difficulty : Option String
  deriving Repr

/-- Metadata that say nothing. -/
def Metadata.empty {α : Type} : Metadata α := {
  timeframe := none
  resolution := none
  confidence := none
  author := none
  version := none
  description := none
  tags := []
  subtitle := none
  category := none
  icon := none
  color := none
  difficulty := none
}

/-- A scenario: its name, what is said about it, and its declarations in order. -/
structure Scenario (α : Type) where
  name : String
  metadata : Metadata α
  declarations : List (Declaration α)
  span : Span
  deriving Repr

namespace Scenario

variable {α : Type}

/-- The named values, in order. -/
def quantities (s : Scenario α) : List (Quantity α) :=
  s.declarations.filterMap (·.quantity?)

/-- The branches, in order. -/
def branches (s : Scenario α) : List (Branch α) :=
  s.declarations.filterMap (·.branch?)

/-- The first settings of a simulation. -/
def simulate? (s : Scenario α) : Option (Simulate α) :=
  s.declarations.findSome? (·.simulate?)

/-- The first declaration with this name. -/
def find? (s : Scenario α) (name : String) : Option (Declaration α) :=
  s.declarations.find? (·.name? == some name)

end Scenario

end Prognosis
