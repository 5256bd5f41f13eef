import Prognosis.Scalar

/-! Doubles as the numbers of scenarios. -/

namespace Prognosis.Double

open Prognosis.Decimal

/-- The double taken apart, with the mantissa in full length unless the number is tiny. -/
def parts (x : Float) : Parts :=
  let bits := x.toBits
  let negative := bits >>> 63 == 1
  let biased := ((bits >>> 52) &&& 0x7ff).toNat
  let fraction := (bits &&& 0xfffffffffffff).toNat
  if biased == 0x7ff then
    if fraction == 0 then .infinite negative else .nan
  else if biased == 0 then .finite negative fraction (-1074)
  else .finite negative (fraction + 1 <<< 52) (biased - 1075)

/-- `mantissa * 2 ^ exponent` for a mantissa of at most 53 bits and an exponent at which it is
exact. By their bits doubles are counted upwards from zero to infinity, with `2 ^ 52` of them to
an exponent.
-/
def ofBinary (negative : Bool) (mantissa : Nat) (exponent : Int) : Float :=
  let place := (exponent + 1074).toNat <<< 52 + mantissa
  let size := min place (0x7ff <<< 52)
  Float.ofBits (UInt64.ofNat (if negative then size + 1 <<< 63 else size))

/-- The double nearest to a quotient, a half to the even neighbour. -/
def ofRatio (negative : Bool) (r : Ratio) : Float :=
  if r.numerator == 0 then if negative then -0.0 else 0.0
  else
    let bits : Int := (r.numerator.log2 : Int) - r.denominator.log2
    -- the quotient lies between two powers of two, so one of two exponents gives 53 bits
    let scaled (exponent : Int) : Ratio :=
      if 0 ≤ exponent then ⟨r.numerator, r.denominator <<< exponent.toNat⟩
      else ⟨r.numerator <<< (-exponent).toNat, r.denominator⟩
    let fine := scaled (bits - 53)
    let exponent := if fine.floor < 1 <<< 53 then bits - 53 else bits - 52
    let exponent := max exponent (-1074)
    ofBinary negative (scaled exponent).round exponent

/-- The double nearest to `± coefficient * 10 ^ exponent`. -/
def ofDecimal (negative : Bool) (coefficient : Nat) (exponent : Int) : Float :=
  let digits : Int := coefficient.log2
  if coefficient == 0 then if negative then -0.0 else 0.0
  -- beyond these bounds the number is certainly too large or rounds to zero
  else if 400 < exponent then if negative then -(1.0 / 0.0) else 1.0 / 0.0
  else if exponent < -400 - digits then if negative then -0.0 else 0.0
  else ofRatio negative (Ratio.shift ⟨coefficient, 1⟩ exponent)

/-- The exact remainder, with the sign of the first number. -/
def remainder (x y : Float) : Float :=
  match parts x, parts y with
  | .finite negative m e, .finite _ n f =>
      if n == 0 then 0.0 / 0.0
      else
        let shared := min e f
        let rest := (m <<< (e - shared).toNat) % (n <<< (f - shared).toNat)
        ofRatio negative (Ratio.ofBinary rest shared)
  | .finite .., .infinite _ => x
  | _, _ => 0.0 / 0.0

/-- `exp x - 1`: the error of the rounded exponential is undone by its logarithm, unless the one
makes no difference or the whole of it.
-/
def expMinusOne (x : Float) : Float :=
  let grown := x.exp
  let difference := grown - 1.0
  if grown == 1.0 then x
  else if difference == grown || difference == -1.0 then difference
  else difference * (x / grown.log)

/-- `log (1 + x)`: the error of the rounded sum is undone by its difference. -/
def logOnePlus (x : Float) : Float :=
  let shifted := 1.0 + x
  if shifted == 1.0 then x else shifted.log * (x / (shifted - 1.0))

instance : Scalar Float where
  ofInt n := ofRatio (n < 0) ⟨n.natAbs, 1⟩
  ofDecimal := ofDecimal
  undefined := 0.0 / 0.0
  infinity := 1.0 / 0.0
  lt x y := decide (x < y)
  le x y := decide (x ≤ y)
  eq x y := x == y
  isUndefined := Float.isNaN
  isFinite := Float.isFinite
  abs := Float.abs
  sqrt := Float.sqrt
  exp := Float.exp
  expMinusOne := expMinusOne
  log := Float.log
  pow := Float.pow
  remainder := remainder
  parts := parts

end Prognosis.Double
