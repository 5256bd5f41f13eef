import Prognosis.Syntax.Expr

/-! Distributions and growth models as they are written. -/

namespace Prognosis

/-- Families of distributions. -/
inductive DistributionKind where
  | normal | uniform | beta | triangular | lognormal
  deriving DecidableEq, Repr

namespace DistributionKind

/-- All families, in the order in which they are offered. -/
def all : List DistributionKind :=
  [normal, uniform, beta, triangular, lognormal]

/-- Name of the family. -/
def name : DistributionKind → String
  | normal => "normal"
  | uniform => "uniform"
  | beta => "beta"
  | triangular => "triangular"
  | lognormal => "lognormal"

/-- The family with this name. -/
def ofName? (name : String) : Option DistributionKind :=
  all.find? (·.name == name)

/-- Names of the parameters, in their order. -/
def parameters : DistributionKind → List String
  | normal => ["mean", "std"]
  | uniform => ["min", "max"]
  | beta => ["alpha", "beta"]
  | triangular => ["min", "mode", "max"]
  | lognormal => ["mu", "sigma"]

end DistributionKind

/-- A distribution with its parameters as given, in order and by name. -/
structure Distribution (α : Type) where
  kind : DistributionKind
  positional : List (Expr α)
  named : List (String × Expr α)
  span : Span
  deriving Repr

namespace Distribution

variable {α : Type}

/-- The spread is a share of the value it surrounds: a normal distribution with a percentage
as its only parameter.
-/
def isRelative (d : Distribution α) : Bool :=
  match d.kind, d.positional, d.named with
  | .normal, [spread], [] => spread.unsigned.isPercentage
  | _, _, _ => false

/-- The list without missing entries at its end. -/
def dropMissing {β : Type} (slots : List (Option β)) : List (Option β) :=
  (slots.reverse.dropWhile Option.isNone).reverse

/-- Parameters by position: the positional ones first, and each named one at the place of its
name. Missing parameters at the end are left out.
-/
def arguments (d : Distribution α) : List (Option (Expr α)) :=
  let names := d.kind.parameters
  let slots := d.positional.map some
    ++ List.replicate (names.length - d.positional.length) none
  let filled := d.named.foldl (fun slots (key, value) =>
    match names.idxOf? key with
    | some place => slots.set place (some value)
    | none => slots) slots
  dropMissing filled

/-- All parameters as given. -/
def expressions (d : Distribution α) : List (Expr α) :=
  d.positional ++ d.named.map (·.2)

end Distribution

/-- Families of growth models. -/
inductive ModelKind where
  | linear | exponential | logistic | sigmoid | polynomial | spline
  deriving DecidableEq, Repr

namespace ModelKind

/-- All families, by name in alphabetical order. -/
def all : List ModelKind :=
  [exponential, linear, logistic, polynomial, sigmoid, spline]

/-- Name of the family. -/
def name : ModelKind → String
  | linear => "linear"
  | exponential => "exponential"
  | logistic => "logistic"
  | sigmoid => "sigmoid"
  | polynomial => "polynomial"
  | spline => "spline"

/-- The family with this name. -/
def ofName? (name : String) : Option ModelKind :=
  all.find? (·.name == name)

end ModelKind

/-- A growth model with its named parameters. -/
structure Model (α : Type) where
  kind : ModelKind
  parameters : List (String × Expr α)
  span : Span
  deriving Repr

namespace Model

variable {α : Type}

/-- The first parameter with one of the names. -/
def parameter? (m : Model α) (names : List String) : Option (Expr α) :=
  (m.parameters.find? fun (key, _) => names.contains key).map (·.2)

end Model

end Prognosis
