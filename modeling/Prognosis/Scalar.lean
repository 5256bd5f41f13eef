import Prognosis.Decimal.Written
import Prognosis.Decimal.Reading

/-! The numbers that scenarios are computed with, as a class, so that the formulas of the
library can be read over doubles and over exact numbers alike.
-/

namespace Prognosis

/-- Arithmetic with undefined and infinite values, the elementary functions, and the way to
and from decimal notation. Comparisons are numeric: every one with an undefined value fails.
-/
class Scalar (α : Type) extends Add α, Sub α, Mul α, Div α, Neg α where
  ofInt : Int → α
  /-- `± coefficient * 10 ^ exponent`, rounded once. -/
  ofDecimal : Bool → Nat → Int → α
  undefined : α
  infinity : α
  lt : α → α → Bool
  le : α → α → Bool
  eq : α → α → Bool
  isUndefined : α → Bool
  isFinite : α → Bool
  abs : α → α
  sqrt : α → α
  exp : α → α
  /-- `exp x - 1`, also where `x` is near zero. -/
  expMinusOne : α → α
  log : α → α
  pow : α → α → α
  /-- What is left of the first number after whole multiples of the second, with the sign of
  the first.
  -/
  remainder : α → α → α
  parts : α → Decimal.Parts

namespace Scalar

variable {α : Type} [Scalar α]

/-- A whole number. -/
def ofNat (n : Nat) : α :=
  ofInt n

/-- Zero. -/
def zero : α :=
  ofInt 0

/-- One. -/
def one : α :=
  ofInt 1

/-- The number counts as true: it is not equal to zero, so an undefined one does. -/
def isTrue (x : α) : Bool :=
  !eq x zero

/-- One for true and zero for false. -/
def ofBool (b : Bool) : α :=
  if b then one else zero

/-- The first number unless the second is strictly smaller. -/
def least (x y : α) : α :=
  if lt y x then y else x

/-- The first number unless the second is strictly greater. -/
def greatest (x y : α) : α :=
  if lt x y then y else x

/-- Sum from left to right, starting from zero. -/
def sum (xs : List α) : α :=
  xs.foldl (· + ·) zero

/-- Number as it was written. -/
def ofReading : Decimal.Reading → α
  | .decimal negative coefficient exponent => ofDecimal negative coefficient exponent
  | .infinite negative => if negative then -infinity else infinity
  | .undefined => undefined

/-- Text with six significant digits. -/
def general (x : α) : String :=
  (parts x).general 6

/-- Text with two places after the point. -/
def hundredths (x : α) : String :=
  (parts x).fixed 2

/-- Text with the fewest digits that read back. -/
def exactText (x : α) : String :=
  (parts x).exact

/-- The number without its fraction; none for infinities and undefined values. -/
def truncate? (x : α) : Option Int :=
  (parts x).truncate?

/-- The number rounded to a count of places, a half to the even neighbour. Undefined and
infinite values stay as they are.
-/
def round (x : α) (places : Int) : α :=
  match parts x with
  | .finite negative mantissa exponent =>
      -- beyond these bounds the number itself or a zero with its sign is the result
      if 1100 < places then x
      else
        let digits :=
          (Decimal.Ratio.ofBinary mantissa exponent).toPlaces (max places (-400))
        ofDecimal negative digits.coefficient digits.exponent
  | _ => x

end Scalar

end Prognosis
