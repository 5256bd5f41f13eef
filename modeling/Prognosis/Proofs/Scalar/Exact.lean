import Mathlib
import Prognosis.Scalar

/-! Numbers of scenarios without rounding. Real numbers are for what is said of formulas, with
infinities and undefined values where these are part of it. Whole numbers are for scenarios that can
be followed step by step, which those over doubles cannot; they come without infinities, and with
them for texts and computations that go beyond the range of numbers.
-/

namespace Prognosis

-----------------------------------------------------------------------------------------
-- Real numbers
-----------------------------------------------------------------------------------------

/-- Real numbers. No number is undefined or infinite, and a quotient by zero is zero. -/
noncomputable instance : Scalar ℝ where
  ofInt n := n
  ofDecimal negative coefficient exponent :=
    let size : ℝ := coefficient * 10 ^ exponent
    if negative then -size else size
  undefined := 0
  infinity := 0
  lt x y := Decidable.decide (x < y)
  le x y := Decidable.decide (x ≤ y)
  eq x y := Decidable.decide (x = y)
  isUndefined _ := false
  isFinite _ := true
  abs x := |x|
  sqrt := Real.sqrt
  exp := Real.exp
  expMinusOne x := Real.exp x - 1
  log := Real.log
  pow x y := x ^ y
  remainder x y := x - y * if 0 ≤ x / y then ⌊x / y⌋ else ⌈x / y⌉
  parts x := .finite (Decidable.decide (x < 0)) ⌊|x|⌋₊ 0

namespace Scalar

@[simp]
theorem ofInt_real (n : Int) : (ofInt n : ℝ) = n := rfl

@[simp]
theorem ofNat_real (n : Nat) : (ofNat n : ℝ) = n := Int.cast_natCast n

@[simp]
theorem zero_real : (zero : ℝ) = 0 := Int.cast_zero

@[simp]
theorem one_real : (one : ℝ) = 1 := Int.cast_one

@[simp]
theorem ofDecimal_real (coefficient : Nat) (exponent : Int)
    : (ofDecimal false coefficient exponent : ℝ) = coefficient * 10 ^ exponent := rfl

@[simp]
theorem lt_real (x y : ℝ) : lt x y = Decidable.decide (x < y) := rfl

@[simp]
theorem le_real (x y : ℝ) : le x y = Decidable.decide (x ≤ y) := rfl

@[simp]
theorem eq_real (x y : ℝ) : eq x y = Decidable.decide (x = y) := rfl

@[simp]
theorem isFinite_real (x : ℝ) : isFinite x = true := rfl

@[simp]
theorem abs_real (x : ℝ) : abs x = |x| := rfl

@[simp]
theorem sqrt_real (x : ℝ) : sqrt x = Real.sqrt x := rfl

@[simp]
theorem exp_real (x : ℝ) : exp x = Real.exp x := rfl

@[simp]
theorem log_real (x : ℝ) : log x = Real.log x := rfl

@[simp]
theorem isTrue_real (x : ℝ) : isTrue x = !Decidable.decide (x = 0) := by
  simp [isTrue]

@[simp]
theorem least_real (x y : ℝ) : least x y = min x y := by
  by_cases less : y < x
  · simp [least, less, less.le]
  · simp [least, less, not_lt.mp less]

end Scalar

-----------------------------------------------------------------------------------------
-- Real numbers with infinities and undefined values
-----------------------------------------------------------------------------------------

/-- A real number or an infinity, or no number, which is what doubles would be without rounding.
There is one zero.
-/
inductive Precise where
  | defined (value : EReal)
  | undefined

namespace Precise

/-- A real number. -/
noncomputable def number (x : ℝ) : Precise :=
  defined x

/-- The value is an infinity. -/
def IsInfinite (x : EReal) : Prop :=
  x = ⊤ ∨ x = ⊥

noncomputable instance (x : EReal) : Decidable (IsInfinite x) :=
  inferInstanceAs (Decidable (_ ∨ _))

/-- Sum, which opposite infinities do not have. -/
noncomputable def sum : Precise → Precise → Precise
  | defined x, defined y =>
      if IsInfinite x ∧ IsInfinite y ∧ x ≠ y then undefined else defined (x + y)
  | _, _ => undefined

/-- The number with the other sign. -/
noncomputable def opposite : Precise → Precise
  | defined x => defined (-x)
  | undefined => undefined

/-- Product, which zero and an infinity do not have. -/
noncomputable def product : Precise → Precise → Precise
  | defined x, defined y =>
      if IsInfinite x ∧ y = 0 ∨ x = 0 ∧ IsInfinite y then undefined else defined (x * y)
  | _, _ => undefined

/-- Quotient, which zeros and infinities among themselves do not have. By zero it is infinite. -/
noncomputable def quotient : Precise → Precise → Precise
  | defined x, defined y =>
      if x = 0 ∧ y = 0 ∨ IsInfinite x ∧ IsInfinite y then undefined
      else if y = 0 then defined (if x < 0 then ⊥ else ⊤)
      else defined (x / y)
  | _, _ => undefined

/-- A function of real numbers, undefined with infinities. -/
noncomputable def onNumbers (f : ℝ → ℝ → ℝ) : Precise → Precise → Precise
  | defined x, defined y =>
      if IsInfinite x ∨ IsInfinite y then undefined else number (f x.toReal y.toReal)
  | _, _ => undefined

/-- A function of values that are not negative. -/
noncomputable def onPositive (f : EReal → EReal) : Precise → Precise
  | defined x => if x < 0 then undefined else defined (f x)
  | undefined => undefined

/-- The number as it is written, without its fraction. -/
noncomputable def parts : Precise → Decimal.Parts
  | defined x =>
      if IsInfinite x then .infinite (Decidable.decide (x < 0))
      else .finite (Decidable.decide (x < 0)) ⌊|x.toReal|⌋₊ 0
  | undefined => .nan

/-- Arithmetic without rounding. Powers and remainders are those of real numbers. -/
noncomputable instance : Scalar Precise where
  add := sum
  sub x y := sum x y.opposite
  mul := product
  div := quotient
  neg := opposite
  ofInt n := number n
  ofDecimal negative coefficient exponent := number (Scalar.ofDecimal negative coefficient exponent)
  undefined := undefined
  infinity := defined ⊤
  lt x y := match x, y with
    | defined x, defined y => Decidable.decide (x < y)
    | _, _ => false
  le x y := match x, y with
    | defined x, defined y => Decidable.decide (x ≤ y)
    | _, _ => false
  eq x y := match x, y with
    | defined x, defined y => Decidable.decide (x = y)
    | _, _ => false
  isUndefined x := match x with
    | defined _ => false
    | undefined => true
  isFinite x := match x with
    | defined x => !Decidable.decide (IsInfinite x)
    | undefined => false
  abs x := match x with
    | defined x => defined (max x (-x))
    | undefined => undefined
  sqrt := onPositive fun x => if x = ⊤ then ⊤ else Real.sqrt x.toReal
  exp x := match x with
    | defined x => defined x.exp
    | undefined => undefined
  expMinusOne x := match x with
    | defined x => defined (x.exp - 1)
    | undefined => undefined
  log := onPositive fun x => x.toENNReal.log
  pow := onNumbers Scalar.pow
  remainder := onNumbers Scalar.remainder
  parts := parts

@[simp]
theorem lt_defined (x y : EReal)
    : Scalar.lt (defined x) (defined y) = Decidable.decide (x < y) := rfl

@[simp]
theorem le_defined (x y : EReal)
    : Scalar.le (defined x) (defined y) = Decidable.decide (x ≤ y) := rfl

@[simp]
theorem eq_defined (x y : EReal)
    : Scalar.eq (defined x) (defined y) = Decidable.decide (x = y) := rfl

@[simp]
theorem isUndefined_defined (x : EReal) : Scalar.isUndefined (defined x) = false := rfl

@[simp]
theorem isUndefined_undefined : Scalar.isUndefined undefined = true := rfl

@[simp]
theorem not_isInfinite (x : ℝ) : ¬ IsInfinite x := by
  simp [IsInfinite]

@[simp]
theorem add_number (x y : ℝ) : number x + number y = number (x + y) := by
  change sum (number x) (number y) = _
  simp [sum, number]

@[simp]
theorem sub_number (x y : ℝ) : number x - number y = number (x - y) := by
  rw [sub_eq_add_neg, ← add_number]
  rfl

@[simp]
theorem mul_number (x y : ℝ) : number x * number y = number (x * y) := by
  refine (if_neg ?_).trans (congrArg defined (EReal.coe_mul x y).symm)
  exact fun either => either.elim (fun left => not_isInfinite x left.1)
    fun right => not_isInfinite y right.2

theorem div_number (x : ℝ) {y : ℝ} (nonzero : y ≠ 0) : number x / number y = number (x / y) := by
  have other : (y : EReal) ≠ 0 := EReal.coe_ne_zero.mpr nonzero
  refine (if_neg ?_).trans ((if_neg other).trans (congrArg defined (EReal.coe_div x y).symm))
  exact fun either => either.elim (fun zeros => other zeros.2)
    fun infinite => not_isInfinite x infinite.1

@[simp]
theorem ofInt_number (n : Int) : (Scalar.ofInt n : Precise) = number n := rfl

@[simp]
theorem ofNat_number (n : Nat) : (Scalar.ofNat n : Precise) = number n := by
  rw [Scalar.ofNat, ofInt_number, Int.cast_natCast]

@[simp]
theorem zero_number : (Scalar.zero : Precise) = number 0 := by
  rw [Scalar.zero, ofInt_number, Int.cast_zero]

@[simp]
theorem one_number : (Scalar.one : Precise) = number 1 := by
  rw [Scalar.one, ofInt_number, Int.cast_one]

@[simp]
theorem lt_number (x y : ℝ) : Scalar.lt (number x) (number y) = Decidable.decide (x < y) :=
  decide_eq_decide.mpr EReal.coe_lt_coe_iff

@[simp]
theorem le_number (x y : ℝ) : Scalar.le (number x) (number y) = Decidable.decide (x ≤ y) :=
  decide_eq_decide.mpr EReal.coe_le_coe_iff

@[simp]
theorem eq_number (x y : ℝ) : Scalar.eq (number x) (number y) = Decidable.decide (x = y) :=
  decide_eq_decide.mpr EReal.coe_eq_coe_iff

end Precise

-----------------------------------------------------------------------------------------
-- Whole numbers without infinities
-----------------------------------------------------------------------------------------

/-- Whole numbers. Fractions are cut off, roots and the like leave a number as it is, and no
number is undefined or infinite.
-/
instance : Scalar Int where
  ofInt n := n
  ofDecimal negative coefficient exponent :=
    let size : Int := coefficient * 10 ^ exponent.toNat / 10 ^ (-exponent).toNat
    if negative then -size else size
  undefined := 0
  infinity := 0
  lt x y := Decidable.decide (x < y)
  le x y := Decidable.decide (x ≤ y)
  eq x y := Decidable.decide (x = y)
  isUndefined _ := false
  isFinite _ := true
  abs x := x.natAbs
  sqrt x := x
  exp x := x
  expMinusOne x := x
  log x := x
  pow x y := x ^ y.toNat
  remainder x y := x.tmod y
  parts x := .finite (Decidable.decide (x < 0)) x.natAbs 0

-----------------------------------------------------------------------------------------
-- With infinities
-----------------------------------------------------------------------------------------

/-- A whole number, an infinity or no number. Like doubles these have a largest power of two, so
that what is written too large is infinite.
-/
inductive Extended where
  | whole (value : Int)
  | infinite (negative : Bool)
  | undefined
  deriving DecidableEq, Repr

namespace Extended

/-- The number, or an infinity where it needs more than 1024 bits. -/
def bounded (n : Int) : Extended :=
  if n.natAbs.log2 < 1024 then whole n else infinite (Decidable.decide (n < 0))

/-- The number with the other sign. -/
def opposite : Extended → Extended
  | whole n => whole (-n)
  | infinite negative => infinite !negative
  | undefined => undefined

/-- Sum, which opposite infinities do not have. -/
def sum : Extended → Extended → Extended
  | whole m, whole n => bounded (m + n)
  | infinite negative, infinite other => if negative == other then infinite negative else undefined
  | infinite negative, whole _ => infinite negative
  | whole _, infinite negative => infinite negative
  | _, _ => undefined

/-- The sign of a number. -/
def sign : Extended → Int
  | whole n => n.sign
  | infinite negative => if negative then -1 else 1
  | undefined => 0

/-- Infinity with a sign; zero times infinity is undefined. -/
def infiniteOf (sign : Int) : Extended :=
  if sign == 0 then undefined else infinite (Decidable.decide (sign < 0))

/-- Product. -/
def product : Extended → Extended → Extended
  | whole m, whole n => bounded (m * n)
  | undefined, _ => undefined
  | _, undefined => undefined
  | x, y => infiniteOf (x.sign * y.sign)

/-- Quotient without its fraction. -/
def quotient : Extended → Extended → Extended
  | whole m, whole n => if n == 0 then infiniteOf m.sign else whole (m.tdiv n)
  | whole _, infinite _ => whole 0
  | infinite negative, whole n => infinite (negative != Decidable.decide (n < 0))
  | _, _ => undefined

/-- What is left after whole multiples; an infinite number leaves nothing that is defined. -/
def rest : Extended → Extended → Extended
  | whole m, whole n => if n == 0 then undefined else whole (m.tmod n)
  | whole m, infinite _ => whole m
  | _, _ => undefined

/-- The first number is smaller. -/
def below : Extended → Extended → Bool
  | whole m, whole n => Decidable.decide (m < n)
  | infinite negative, whole _ => negative
  | whole _, infinite negative => !negative
  | infinite negative, infinite other => negative && !other
  | _, _ => false

/-- The numbers are equal, which an undefined one is to none. -/
def same : Extended → Extended → Bool
  | undefined, _ => false
  | x, y => Decidable.decide (x = y)

/-- The number without its sign. -/
def size : Extended → Extended
  | whole n => whole n.natAbs
  | infinite _ => infinite false
  | undefined => undefined

/-- Power with an exponent that is not negative. -/
def raised : Extended → Extended → Extended
  | whole m, whole n => bounded (m.pow n.toNat)
  | _, _ => undefined

/-- The number as it is written. -/
def parts : Extended → Decimal.Parts
  | whole n => .finite (Decidable.decide (n < 0)) n.natAbs 0
  | infinite negative => .infinite negative
  | undefined => .nan

/-- Arithmetic with infinities. Fractions are cut off, and roots and the like leave a number as it
is.
-/
instance : Scalar Extended where
  add := sum
  sub x y := sum x y.opposite
  mul := product
  div := quotient
  neg := opposite
  ofInt := bounded
  ofDecimal negative coefficient exponent :=
    -- a power of ten beyond this bound need not be computed
    if 308 < exponent && coefficient != 0 then infinite negative
    else
      let size : Int := coefficient * Int.pow 10 exponent.toNat / Int.pow 10 (-exponent).toNat
      bounded (if negative then -size else size)
  undefined := undefined
  infinity := infinite false
  lt := below
  le x y := below x y || same x y
  eq := same
  isUndefined x := x == undefined
  isFinite x := match x with | whole _ => true | _ => false
  abs := size
  sqrt x := x
  exp x := x
  expMinusOne x := x
  log x := x
  pow := raised
  remainder := rest
  parts := parts

end Extended

end Prognosis
