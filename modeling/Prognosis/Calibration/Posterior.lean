import Prognosis.Simulation.Summary
import Prognosis.Syntax.Declaration
import Prognosis.Value.Distribution

/-! Declared distributions as priors, rules that join a prior mean and deviation with observed
values, and posteriors as distributions of the same form.
-/

namespace Prognosis

variable {α : Type} [Scalar α]

namespace Sample

/-- Variance of a sample around its mean, with one degree of freedom taken by the mean. -/
def variance (values : List α) : α :=
  let mean := mean values
  let squares := values.map fun x => (x - mean) * (x - mean)
  total .pairwise squares / Scalar.ofNat (values.length - 1)

end Sample

namespace Calibration

open Prognosis.Distribution (checkedDiv checkedSqrt)

/-- A mean with a standard deviation. -/
structure Moments (α : Type) where
  mean : α
  deviation : α
  deriving Repr

/-- The square of a number, which must stay finite if the number is. -/
def checkedSquare (x : α) : Except Fault α :=
  let square := x * x
  if Scalar.isFinite x && !Scalar.isFinite square then .error .overflow else .ok square

/-- Variance that observations are taken to have: that of the sample, or where it shows none
the variance of the prior.
-/
def observationVariance (prior : Moments α) (values : List α) : Except Fault α :=
  match values with
  | _ :: _ :: _ =>
      let variance := Sample.variance values
      if Scalar.le variance Scalar.zero then checkedSquare prior.deviation else .ok variance
  | _ => checkedSquare prior.deviation

/-- Normal prior and normal observations joined, each weighted by its precision. A prior
without spread stays as it is.
-/
def bayesianUpdate (prior : Moments α) (values : List α) : Except Fault (Moments α) :=
  if values.isEmpty || Scalar.le prior.deviation Scalar.zero then .ok prior
  else do
    let observed := Sample.mean values
    let noise ← observationVariance prior values
    let spread ← checkedSquare prior.deviation
    let priorPrecision ← checkedDiv Scalar.one spread
    let likelihoodPrecision ← checkedDiv (Scalar.ofNat values.length) noise
    let precision := priorPrecision + likelihoodPrecision
    let mean ←
      checkedDiv (priorPrecision * prior.mean + likelihoodPrecision * observed) precision
    let variance ← checkedDiv Scalar.one precision
    let deviation ← checkedSqrt variance
    return ⟨mean, deviation⟩

/-- Mean and deviation of the observations; a single one leaves the prior deviation. -/
def maximumLikelihood (prior : Moments α) (values : List α) : Moments α :=
  match values with
  | _ :: _ :: _ => ⟨Sample.mean values, Scalar.sqrt (Sample.variance values)⟩
  | _ => ⟨Sample.mean values, prior.deviation⟩

/-- Weight of observations, which grows with their count up to a bound. -/
def ensembleWeight (count : Nat) : α :=
  Scalar.least (Scalar.ofDecimal false 7 (-1)) (Scalar.ofNat count / Scalar.ofNat 20)

/-- Prior mean and observed mean blended; the deviation shrinks by half the weight. -/
def ensemble (prior : Moments α) (values : List α) : Moments α :=
  let weight := ensembleWeight values.length
  {
    mean := prior.mean * (Scalar.one - weight) + Sample.mean values * weight
    deviation := prior.deviation * (Scalar.one - weight * Scalar.ofDecimal false 5 (-1))
  }

/-- Prior and observations joined by a method. -/
def update (method : CalibrationMethod) (prior : Moments α) (values : List α)
    : Except Fault (Moments α) :=
  match method with
  | .bayesianUpdate => bayesianUpdate prior values
  | .maximumLikelihood => .ok (maximumLikelihood prior values)
  | .ensemble => .ok (ensemble prior values)

-----------------------------------------------------------------------------------------
-- Priors and posteriors
-----------------------------------------------------------------------------------------

/-- How the moments of a prior are to be read. -/
inductive PriorForm where
  /-- The deviation is a share of the mean. -/
  | relative
  /-- Both moments are those of the logarithm. -/
  | logarithmic
  | absolute
  deriving DecidableEq, Repr

/-- A prior: its moments and how they are to be read. -/
structure Prior (α : Type) where
  moments : Moments α
  form : PriorForm

/-- The prior of a distribution around a base; none where parameters are missing. -/
def Prior.ofDistribution? (d : Distribution α) (base : α) : Except Halt (Option (Prior α)) :=
  match d.kind with
  | .lognormal =>
      match d.arguments with
      | some mu :: some sigma :: rest =>
          if rest.all Option.isSome then do
            let mean ← mu.magnitude []
            let deviation ← sigma.magnitude []
            return some ⟨⟨mean, Scalar.abs deviation⟩, .logarithmic⟩
          else .ok none
      | _ => .ok none
  | _ => do
      match ← d.moments base [] with
      | none => return none
      | some (mean, deviation) =>
          return some ⟨⟨mean, deviation⟩, if d.isRelative then .relative else .absolute⟩

/-- A literal that keeps the percent sign of what stood in its place. -/
def literalLike (x : α) (template : Option (Expr α)) : Expr α :=
  match template with
  | some e =>
      match e.unsigned with
      | .percentage .. => .percentage x none
      | _ => .number x none
  | none => .number x none

/-- The distribution of a posterior: relative and logarithmic priors keep their form, and any
other becomes a normal distribution with both its parameters.
-/
def posterior (d : Distribution α) (form : PriorForm) (m : Moments α) : Distribution α :=
  match form with
  | .logarithmic =>
      ⟨.lognormal, [.number m.mean none, .number m.deviation none], [], d.span⟩
  | .relative =>
      let size := Scalar.abs m.mean
      let reference := if Scalar.isTrue size then size else Scalar.one
      let share := m.deviation / reference * Scalar.ofNat 100
      ⟨.normal, [.unary .plusMinus (.percentage share none) none], [], d.span⟩
  | .absolute =>
      let arguments := if d.kind == .normal then d.arguments else []
      let meanTemplate := if 2 ≤ arguments.length then arguments.head?.join else none
      let spreadTemplate := arguments.getLast?.join
      ⟨.normal, [literalLike m.mean meanTemplate, literalLike m.deviation spreadTemplate], [],
        d.span⟩

end Calibration

end Prognosis
