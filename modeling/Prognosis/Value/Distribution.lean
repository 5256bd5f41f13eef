import Prognosis.Random.Source
import Prognosis.Syntax.Distribution
import Prognosis.Value.Expr

/-! Draws from distributions around a declared value, and their means and deviations. -/

namespace Prognosis.Distribution

variable {σ α : Type} [Scalar α]

/-- A square root that must not be taken of a negative number. -/
def checkedSqrt (x : α) : Except Fault α :=
  if Scalar.lt x Scalar.zero then .error .domain else .ok (Scalar.sqrt x)

/-- An exponential of a finite number, which must stay finite. -/
def checkedExp (f : α → α) (x : α) : Except Fault α :=
  let result := f x
  if Scalar.isFinite x && !Scalar.isFinite result then .error .overflow else .ok result

/-- A quotient by a number other than zero. -/
def checkedDiv (x y : α) : Except Fault α :=
  if Scalar.eq y Scalar.zero then .error .divisionByZero else .ok (x / y)

/-- A draw from a triangular distribution; without room between its ends it is the lower one.
The distribution grows with the square of the distance from either end up to the mode, so its
inverse takes square roots.
-/
def triangular (source : RandomSource σ α) (low mode high : α) (s : σ)
    : Except Fault (α × σ) :=
  if Scalar.le high low then .ok (low, s)
  else
    let (u, s) := source.unit s
    let cut := (mode - low) / (high - low)
    if Scalar.lt u cut then
      (checkedSqrt (u * (high - low) * (mode - low))).map fun root => (low + root, s)
    else
      (checkedSqrt ((Scalar.one - u) * (high - low) * (high - mode))).map fun root =>
        (high - root, s)

/-- The bounds of a uniform distribution: shares of the value it surrounds, unless that is
zero.
-/
def uniformBounds (low high base : α) : α × α :=
  if Scalar.isTrue base then (low * base, high * base) else (low, high)

/-- A draw with the parameters of a family evaluated. -/
def drawWith (source : RandomSource σ α) (d : Distribution α) (parameters : List α) (base : α)
    (s : σ) : Except Fault (α × σ) :=
  match d.kind, parameters with
  | .normal, [spread] =>
      if d.isRelative then
        source.normal base (Scalar.abs base * Scalar.abs spread / Scalar.ofNat 100) s
      else source.normal base (Scalar.abs spread) s
  | .normal, mean :: spread :: _ => source.normal mean (Scalar.abs spread) s
  | .uniform, low :: high :: _ =>
      let (low, high) := uniformBounds low high base
      source.uniform (Scalar.least low high) (Scalar.greatest low high) s
  | .triangular, low :: mode :: high :: _ => triangular source low mode high s
  | .beta, a :: b :: _ => source.betaNumber a b s
  | .lognormal, mean :: spread :: _ => do
      let (x, s) ← source.normal mean (Scalar.abs spread) s
      return (Scalar.exp (Scalar.least x exponentLimit), s)
  | _, _ => .ok (base, s)

/-- Declared magnitudes of the parameters; none where one is missing between others. -/
def parameterValues (d : Distribution α) (env : Env α) : Option (Except Halt (List α)) :=
  (d.arguments.mapM id).map fun parameters => Expr.magnitudes env parameters

/-- A draw around a declared value. With parameters missing it is that value itself. -/
def draw (source : RandomSource σ α) (d : Distribution α) (base : α) (env : Env α) (s : σ)
    : Except Halt (α × σ) :=
  match d.parameterValues env with
  | none => .ok (base, s)
  | some (.error halt) => .error halt
  | some (.ok parameters) => Halt.lift (drawWith source d parameters base s)

/-- Mean and standard deviation with the parameters of a family evaluated. -/
def momentsWith (d : Distribution α) (parameters : List α) (base : α)
    : Except Fault (Option (α × α)) :=
  match d.kind, parameters with
  | .normal, [spread] =>
      if d.isRelative then
        .ok (some (base, Scalar.abs base * Scalar.abs spread / Scalar.ofNat 100))
      else .ok (some (base, Scalar.abs spread))
  | .normal, mean :: spread :: _ => .ok (some (mean, Scalar.abs spread))
  | .uniform, low :: high :: _ =>
      let (low, high) := uniformBounds low high base
      .ok (some ((low + high) / Scalar.ofNat 2,
        Scalar.abs (high - low) / Scalar.sqrt (Scalar.ofNat 12)))
  | .triangular, a :: c :: b :: _ =>
      let variance :=
        (a * a + b * b + c * c - a * b - a * c - b * c) / Scalar.ofNat 18
      .ok (some ((a + b + c) / Scalar.ofNat 3,
        Scalar.sqrt (Scalar.greatest variance Scalar.zero)))
  | .beta, a :: b :: _ => do
      let total := a + b
      let mean ← checkedDiv a total
      let variance ← checkedDiv (a * b) (total * total * (total + Scalar.one))
      let deviation ← checkedSqrt variance
      return some (mean, deviation)
  | .lognormal, mu :: sigma :: _ => do
      let mean ← checkedExp Scalar.exp (mu + sigma * sigma / Scalar.ofNat 2)
      let growth ← checkedExp Scalar.expMinusOne (sigma * sigma)
      let root ← checkedSqrt growth
      return some (mean, mean * root)
  | _, _ => .ok none

/-- Mean and standard deviation around a declared value; none where parameters are missing. -/
def moments (d : Distribution α) (base : α) (env : Env α) : Except Halt (Option (α × α)) :=
  match d.parameterValues env with
  | none => .ok none
  | some (.error halt) => .error halt
  | some (.ok parameters) => Halt.lift (d.momentsWith parameters base)

end Prognosis.Distribution
