import Prognosis.Syntax.Distribution
import Prognosis.Value.Expr

/-! Values of growth models over time. -/

namespace Prognosis.Model

variable {α : Type} [Scalar α]

/-- The number moved into the range of the exponential function. -/
def bounded (x : α) : α :=
  Scalar.greatest (-exponentLimit) (Scalar.least x exponentLimit)

/-- The logistic curve. -/
def logisticCurve (x : α) : α :=
  Scalar.one / (Scalar.one + Scalar.exp (bounded (-x)))

/-- A whole power of finite numbers, which must not exceed all bounds. -/
def wholePower (base : α) (exponent : Nat) : Except Fault α :=
  let result := Scalar.pow base (Scalar.ofNat exponent)
  if Scalar.isFinite base && !Scalar.isFinite result then .error .overflow else .ok result

/-- Value of the first parameter with one of the names, or what stands for it. -/
def parameter (m : Model α) (env : Env α) (names : List String) (otherwise : α)
    : Except Halt α :=
  match m.parameter? names with
  | none => .ok otherwise
  | some e => e.magnitude env

/-- Sum of the terms of a polynomial from the given power on, as long as there is a
coefficient of the name. There are at most as many terms as parameters, which bounds the count.
-/
def polynomial (m : Model α) (env : Env α) (elapsed : α)
    : (bound power : Nat) → (total : α) → Except Halt α
  | 0, _, total => .ok total
  | bound + 1, power, total =>
      match m.parameter? ["c" ++ Decimal.wholeText power] with
      | none => .ok total
      | some e =>
          match e.magnitude env with
          | .error halt => .error halt
          | .ok coefficient =>
              match wholePower elapsed power with
              | .error fault => .error (.fault fault)
              | .ok factor =>
                  polynomial m env elapsed bound (power + 1) (total + coefficient * factor)

/-- Value of a model at a time, both on the axis of years; growth starts at the origin. A spline
only shapes the way between anchors and is zero by itself.
-/
def value (m : Model α) (env : Env α) (time origin : α) : Except Halt α := do
  let elapsed := time - origin
  match m.kind with
  | .linear =>
      let intercept ← m.parameter env ["intercept"] Scalar.zero
      let slope ← m.parameter env ["slope"] Scalar.zero
      return intercept + slope * elapsed
  | .exponential =>
      let rate ← m.parameter env ["rate"] (Scalar.ofDecimal false 5 (-2))
      let base ← m.parameter env ["base"] Scalar.one
      return base * Scalar.exp (bounded (rate * elapsed))
  | .logistic =>
      let steepness ← m.parameter env ["k", "rate"] (Scalar.ofDecimal false 1 (-1))
      let midpoint ← m.parameter env ["midpoint"] (origin + Scalar.ofNat 10)
      let ceiling ← m.parameter env ["max", "ceiling"] Scalar.one
      return ceiling * logisticCurve (steepness * (time - midpoint))
  | .sigmoid =>
      let steepness ← m.parameter env ["k"] (Scalar.ofDecimal false 5 (-1))
      let midpoint ← m.parameter env ["midpoint"] (origin + Scalar.ofNat 10)
      return logisticCurve (steepness * (time - midpoint))
  | .polynomial => m.polynomial env elapsed (m.parameters.length + 1) 0 Scalar.zero
  | .spline => return Scalar.zero

end Prognosis.Model
