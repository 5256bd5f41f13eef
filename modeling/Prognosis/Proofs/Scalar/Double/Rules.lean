import Prognosis.Proofs.Scalar.Double.Arithmetic
import Prognosis.Proofs.Scalar.Double.Unpacked
import Prognosis.Proofs.Scalar.Rules

/-! Doubles follow the rules of numbers with undefined and infinite values. Those that are put
together from their bits, quotients, whole numbers and remainders, are numbers with the sign that
was asked for, however large they get.
-/

namespace Prognosis.Double

open Float.Model Float.Model.UnpackedFloat

theorem unpacked_ofBits (b : UInt64)
    : unpacked (Float.ofBits b)
      = settled (ofFields (Sign.ofBitVec (@unpackSign .binary64 b.toBitVec))
          ((b >>> 52) &&& 0x7ff).toNat (b &&& 0xfffffffffffff).toNat) := by
  rw [← exponent_toNat, ← mantissa_toNat, ← unpack_eq]
  rfl

theorem exponentField_ofNat {n : Nat} (short : n < 2 ^ 64)
    : (UInt64.ofNat n >>> 52 &&& 0x7ff).toNat = n / 2 ^ 52 % 2 ^ 11 := by
  have mask : (0x7ff : UInt64).toNat = 2 ^ 11 - 1 := rfl
  rw [UInt64.toNat_and, mask, Nat.and_two_pow_sub_one_eq_mod, UInt64.toNat_shiftRight,
    UInt64.toNat_ofNat_of_lt' short, Nat.shiftRight_eq_div_pow]
  rfl

theorem mantissaField_ofNat {n : Nat} (short : n < 2 ^ 64)
    : (UInt64.ofNat n &&& 0xfffffffffffff).toNat = n % 2 ^ 52 := by
  have mask : (0xfffffffffffff : UInt64).toNat = 2 ^ 52 - 1 := rfl
  rw [UInt64.toNat_and, mask, Nat.and_two_pow_sub_one_eq_mod, UInt64.toNat_ofNat_of_lt' short]

theorem signField_ofNat {n : Nat} (short : n < 2 ^ 64)
    : Sign.ofBitVec (@unpackSign .binary64 (UInt64.ofNat n).toBitVec)
      = if n < 2 ^ 63 then .positive else .negative := by
  have field := sign_isNegative (UInt64.ofNat n)
  have top : (UInt64.ofNat n >>> 63 == 1) = !Decidable.decide (n < 2 ^ 63) := by
    rw [Bool.eq_iff_iff, beq_iff_eq, Bool.not_eq_true', decide_eq_false_iff_not,
      ← UInt64.toNat_inj, UInt64.toNat_shiftRight, UInt64.toNat_ofNat_of_lt' short]
    change n >>> 63 = 1 ↔ _
    rw [Nat.shiftRight_eq_div_pow]
    omega
  rw [top] at field
  generalize Sign.ofBitVec (@unpackSign .binary64 (UInt64.ofNat n).toBitVec) = s at field
  by_cases less : n < 2 ^ 63
  · rw [decide_eq_true less] at field
    rw [if_pos less]
    cases s with
    | negative => cases field
    | positive => rfl
  · rw [decide_eq_false less] at field
    rw [if_neg less]
    cases s with
    | negative => rfl
    | positive => cases field

/-- What is packed by hand does not run over into the sign, nor into what is no number. -/
theorem ofBinary_hasSign (negative : Bool) (m : Nat) (e : Int)
    : HasSign (if negative then .negative else .positive) (unpacked (ofBinary negative m e)) := by
  unfold ofBinary
  dsimp only
  have bound : min ((e + 1074).toNat <<< 52 + m) (0x7ff <<< 52) ≤ 2047 * 2 ^ 52 :=
    Nat.min_le_right ..
  generalize min ((e + 1074).toNat <<< 52 + m) (0x7ff <<< 52) = size at bound ⊢
  have bit : 1 <<< 63 = 2 ^ 63 := rfl
  have fields (s : Sign) : HasSign s (settled (ofFields s (size / 2 ^ 52) (size % 2 ^ 52))) := by
    by_cases top : size / 2 ^ 52 = 2047
    · have empty : size % 2 ^ 52 = 0 := by omega
      rw [top, empty]
      exact HasSign.infinity.settled
    · exact (ofFields_hasSign s top).settled
  rw [unpacked_ofBits]
  cases negative with
  | true =>
      have exponent : (size + 2 ^ 63) / 2 ^ 52 % 2 ^ 11 = size / 2 ^ 52 := by omega
      have mantissa : (size + 2 ^ 63) % 2 ^ 52 = size % 2 ^ 52 := by omega
      rw [if_pos rfl, if_pos rfl, bit, exponentField_ofNat (by omega),
        mantissaField_ofNat (by omega), signField_ofNat (by omega), if_neg (by omega), exponent,
        mantissa]
      exact fields .negative
  | false =>
      have exponent : size / 2 ^ 52 % 2 ^ 11 = size / 2 ^ 52 := by omega
      rw [if_neg (by decide), if_neg (by decide), exponentField_ofNat (by omega),
        mantissaField_ofNat (by omega), signField_ofNat (by omega), if_pos (by omega), exponent]
      exact fields .positive

theorem ofRatio_hasSign (negative : Bool) (r : Decimal.Ratio)
    : HasSign (if negative then .negative else .positive) (unpacked (ofRatio negative r)) := by
  unfold ofRatio
  by_cases zero : (r.numerator == 0) = true
  · rw [if_pos zero]
    cases negative with
    | true =>
        have written : unpacked (-0.0) = .zero .negative := by rfl
        rw [if_pos rfl, if_pos rfl, written]
        exact .zero
    | false =>
        have written : unpacked 0.0 = .zero .positive := by rfl
        rw [if_neg (by decide), if_neg (by decide), written]
        exact .zero
  · rw [if_neg zero]
    exact ofBinary_hasSign _ _ _

/-- Whole numbers are numbers with their own sign. -/
theorem ofNat_hasSign (n : Nat) : HasSign .positive (unpacked (Scalar.ofNat n)) := by
  have written : (Scalar.ofNat n : Float) = ofRatio (Decidable.decide ((n : Int) < 0)) ⟨n, 1⟩ := rfl
  rw [written, decide_eq_false (by omega)]
  exact ofRatio_hasSign false _

/-- A finite number leaves a remainder, which is the number itself where it is divided by an
infinity.
-/
theorem remainder_isNumber {x y : Float} {negative : Bool} {m : Nat} {e : Int}
    (finite : parts x = .finite negative m e) (defined : parts y ≠ .nan)
    (some : ∀ sign exponent, parts y ≠ .finite sign 0 exponent)
    : (unpacked (remainder x y)).isNaN = false := by
  have number : (unpacked x).isNaN = false := by
    rw [parts_eq] at finite
    cases shape : unpacked x with
    | notANumber =>
        rw [shape] at finite
        cases finite
    | _ => rfl
  unfold remainder
  rw [finite]
  cases divisor : parts y with
  | nan => exact absurd divisor defined
  | infinite sign => exact number
  | finite sign n f =>
      have apart : (n == 0) = false := by
        rw [beq_eq_false_iff_ne]
        rintro rfl
        exact some sign f divisor
      simp only [apart, Bool.false_eq_true, if_false]
      exact (ofRatio_hasSign _ _).isNaN

/-- An infinity leaves none. -/
theorem remainder_infinite {x : Float} (infinite : (unpacked x).isFinite = false) (y : Float)
    : (unpacked (remainder x y)).isNaN = true := by
  have undefined : (unpacked (0.0 / 0.0)).isNaN = true := by rfl
  unfold remainder
  rw [parts_eq x]
  cases shape : unpacked x with
  | notANumber => exact undefined
  | infinity s => exact undefined
  | zero s =>
      rw [shape] at infinite
      cases infinite
  | finite s m e pos =>
      rw [shape] at infinite
      cases infinite

-----------------------------------------------------------------------------------------
-- Undefined values
-----------------------------------------------------------------------------------------

theorem unpacked_of_isUndefined {x : Float} (undefined : Scalar.isUndefined x = true)
    : unpacked x = .notANumber := by
  rw [isUndefined_eq] at undefined
  cases shape : unpacked x with
  | notANumber => rfl
  | _ =>
      rw [shape] at undefined
      cases undefined

theorem unpacked_neg (x : Float) : unpacked (-x) = settled (UnpackedFloat.neg (unpacked x)) := rfl

instance : Scalar.UndefinedRules Float where
  add {x y} either := by
    rw [isUndefined_eq, unpacked_add, settled_isNaN]
    rcases either with left | right
    · rw [unpacked_of_isUndefined left]
      rfl
    · rw [unpacked_of_isUndefined right]
      cases unpacked x <;> rfl
  sub {x y} either := by
    rw [isUndefined_eq, unpacked_sub, settled_isNaN]
    rcases either with left | right
    · rw [unpacked_of_isUndefined left]
      rfl
    · rw [unpacked_of_isUndefined right]
      cases unpacked x <;> rfl
  mul {x y} either := by
    rw [isUndefined_eq, unpacked_mul, settled_isNaN]
    rcases either with left | right
    · rw [unpacked_of_isUndefined left]
      rfl
    · rw [unpacked_of_isUndefined right]
      cases unpacked x <;> rfl
  div {x y} either := by
    rw [isUndefined_eq, unpacked_div, settled_isNaN]
    rcases either with left | right
    · rw [unpacked_of_isUndefined left]
      rfl
    · rw [unpacked_of_isUndefined right]
      cases unpacked x <;> rfl
  neg {x} undefined := by
    rw [isUndefined_eq, unpacked_neg, settled_isNaN, unpacked_of_isUndefined undefined]
    rfl
  lt {x y} either := by
    rw [lt_eq, UnpackedFloat.lt]
    rcases either with left | right
    · rw [unpacked_of_isUndefined left, compare_undefined (Or.inl rfl)]
      rfl
    · rw [unpacked_of_isUndefined right, compare_undefined (Or.inr rfl)]
      rfl

instance : Scalar.EqualityRules Float where
  undefined {x y} either := by
    rw [← Bool.not_eq_true, eq_iff]
    rintro ⟨dx, dy, -⟩
    simp [dx, dy] at either

-----------------------------------------------------------------------------------------
-- Order
-----------------------------------------------------------------------------------------

theorem unpacked_zero : unpacked Scalar.zero = .zero .positive := by rfl

theorem unpacked_one
    : unpacked Scalar.one = .finite .positive (2 ^ 52) (-52) (by decide) := by rfl

theorem extent_zero : extent Scalar.zero = 0 := by
  rw [extent, unpacked_zero]
  rfl

theorem extent_one : extent Scalar.one = (scaled (2 ^ 52) (-52) : Nat) := by
  rw [extent, unpacked_one]
  rfl

/-- What has an extent is a number. -/
theorem defined_of_extent {x : Float} (some : extent x ≠ 0) : Scalar.isUndefined x = false := by
  cases undefined : Scalar.isUndefined x with
  | false => rfl
  | true =>
      rw [extent, unpacked_of_isUndefined undefined] at some
      exact absurd rfl some

theorem zero_lt_iff (x : Float) : Scalar.lt Scalar.zero x = true ↔ 0 < extent x := by
  rw [lt_iff, extent_zero]
  exact ⟨fun less => less.2.2, fun pos => ⟨rfl, defined_of_extent (by omega), pos⟩⟩

theorem lt_zero_iff (x : Float) : Scalar.lt x Scalar.zero = true ↔ extent x < 0 := by
  rw [lt_iff, extent_zero]
  exact ⟨fun less => less.2.2, fun neg => ⟨defined_of_extent (by omega), rfl, neg⟩⟩

theorem nonneg_iff (x : Float) : Scalar.lt x Scalar.zero = false ↔ 0 ≤ extent x := by
  rw [← Bool.not_eq_true, lt_zero_iff, Int.not_lt]

theorem extent_sub {x y : Float} (defined : Scalar.isUndefined (x - y) = false)
    : extent (x - y) = roundedExtent (extent x - extent y) := by
  rw [isUndefined_eq, unpacked_sub, settled_isNaN] at defined
  rw [extent, unpacked_sub]
  exact extentOf_sub (unpacked_isRounded x) (unpacked_isRounded y) defined

/-- A difference of numbers apart is a number. -/
theorem sub_isDefined {x y : Float} (dx : Scalar.isUndefined x = false)
    (dy : Scalar.isUndefined y = false) (apart : extent x ≠ extent y)
    : Scalar.isUndefined (x - y) = false := by
  rw [isUndefined_eq, unpacked_sub, settled_isNaN]
  exact sub_defined dx dy apart

instance : Scalar.OrderRules Float where
  defined_of_lt {x y} less := by
    obtain ⟨dx, dy, -⟩ := (lt_iff x y).mp less
    exact ⟨dx, dy⟩
  lt_irrefl x := by
    rw [← Bool.not_eq_true, lt_iff]
    rintro ⟨-, -, less⟩
    omega
  lt_trans {x y z} first second := by
    obtain ⟨dx, -, less⟩ := (lt_iff x y).mp first
    obtain ⟨-, dz, less'⟩ := (lt_iff y z).mp second
    exact (lt_iff x z).mpr ⟨dx, dz, by omega⟩
  le_iff x y := by
    rw [le_iff, ← Bool.not_eq_true (Scalar.lt y x), lt_iff]
    constructor
    · rintro ⟨dx, dy, le⟩
      exact ⟨dx, dy, by rintro ⟨-, -, less⟩; omega⟩
    · rintro ⟨dx, dy, notLess⟩
      exact ⟨dx, dy, Int.not_lt.mp fun less => notLess ⟨dy, dx, less⟩⟩
  lt_of_lt_of_le {x y z} first second := by
    obtain ⟨dx, -, less⟩ := (lt_iff x y).mp first
    obtain ⟨-, dz, le⟩ := (le_iff y z).mp second
    exact (lt_iff x z).mpr ⟨dx, dz, by omega⟩
  lt_of_le_of_lt {x y z} first second := by
    obtain ⟨dx, -, le⟩ := (le_iff x y).mp first
    obtain ⟨-, dz, less⟩ := (lt_iff y z).mp second
    exact (lt_iff x z).mpr ⟨dx, dz, by omega⟩
  zero_lt_sub x y := by
    rw [Bool.eq_iff_iff, zero_lt_iff]
    constructor
    · intro pos
      have defined := defined_of_extent (x := x - y) (by omega)
      obtain ⟨dx, dy⟩ := Scalar.UndefinedRules.defined_of_sub defined
      rw [extent_sub defined, roundedExtent_pos_iff] at pos
      exact (lt_iff y x).mpr ⟨dy, dx, by omega⟩
    · intro less
      obtain ⟨dy, dx, less⟩ := (lt_iff y x).mp less
      rw [extent_sub (sub_isDefined dx dy (by omega)), roundedExtent_pos_iff]
      omega
  sub_lt_zero x y := by
    rw [Bool.eq_iff_iff, lt_zero_iff]
    constructor
    · intro neg
      have defined := defined_of_extent (x := x - y) (by omega)
      obtain ⟨dx, dy⟩ := Scalar.UndefinedRules.defined_of_sub defined
      rw [extent_sub defined, roundedExtent_neg_iff] at neg
      exact (lt_iff x y).mpr ⟨dx, dy, by omega⟩
    · intro less
      obtain ⟨dx, dy, less⟩ := (lt_iff x y).mp less
      rw [extent_sub (sub_isDefined dx dy (by omega)), roundedExtent_neg_iff]
      omega
  sub_le_sub {x y z} first second := by
    obtain ⟨dx, dy, less⟩ := (lt_iff x y).mp first
    obtain ⟨-, dz, less'⟩ := (lt_iff y z).mp second
    have near := sub_isDefined dy dx (by omega)
    have wide := sub_isDefined dz dx (by omega)
    rw [le_iff, extent_sub near, extent_sub wide]
    exact ⟨near, wide, roundedExtent_mono_of_pos (by omega) (by omega)⟩

-----------------------------------------------------------------------------------------
-- Ranges
-----------------------------------------------------------------------------------------

instance : Scalar.RangeRules Float where
  truncate?_eq_none_iff x := by
    change (parts x).truncate? = none ↔ _
    rw [parts_eq, isFinite_eq]
    cases unpacked x <;> simp [shownParts, Decimal.Parts.truncate?, UnpackedFloat.isFinite]
  isUndefined_remainder {x y} left right some := by
    have apart (sign : Bool) (exponent : Int) : parts y ≠ .finite sign 0 exponent := by
      intro zero
      have none : extent y = 0 := by
        rw [parts_eq] at zero
        rw [extent]
        cases shape : unpacked y with
        | zero s => rfl
        | finite s m e pos =>
            rw [shape] at zero
            cases zero
            exact absurd pos (Nat.lt_irrefl 0)
        | _ =>
            rw [shape] at zero
            cases zero
      have equal := (eq_iff y Scalar.zero).mpr ⟨right, rfl, none.trans extent_zero.symm⟩
      rw [Scalar.isTrue, equal] at some
      cases some
    have number : parts y ≠ .nan := by
      intro nan
      rw [parts_eq] at nan
      rw [isUndefined_eq] at right
      cases shape : unpacked y with
      | notANumber =>
          rw [shape] at right
          cases right
      | _ =>
          rw [shape] at nan
          cases nan
    rw [isUndefined_eq] at left
    change (unpacked (remainder x y)).isNaN = !(unpacked x).isFinite
    cases finite : (unpacked x).isFinite with
    | false => exact remainder_infinite finite y
    | true =>
        have shown := parts_eq x
        cases shape : unpacked x with
        | notANumber =>
            rw [shape] at left
            cases left
        | infinity s =>
            rw [shape] at finite
            cases finite
        | zero s =>
            rw [shape] at shown
            exact remainder_isNumber shown number apart
        | finite s m e pos =>
            rw [shape] at shown
            exact remainder_isNumber shown number apart

-----------------------------------------------------------------------------------------
-- Products and quotients
-----------------------------------------------------------------------------------------

theorem positive_of_lt {x : Float} (pos : Scalar.lt Scalar.zero x = true)
    : HasSign .positive (unpacked x) :=
  hasSign_of_pos ((zero_lt_iff x).mp pos)

theorem negative_of_lt {x : Float} (neg : Scalar.lt x Scalar.zero = true)
    : HasSign .negative (unpacked x) :=
  hasSign_of_neg ((lt_zero_iff x).mp neg)

/-- Only one number is beyond zero and not finite. -/
theorem unpacked_infinite {x : Float} (pos : Scalar.lt Scalar.zero x = true)
    (infinite : Scalar.isFinite x = false)
    : unpacked x = .infinity .positive :=
  (positive_of_lt pos).eq_infinity infinite

theorem infinity_mul {s t : Sign} {v : UnpackedFloat} (signed : HasSign t v)
    (some : extentOf v ≠ 0)
    : settled (UnpackedFloat.mul .binary64 (.infinity s) v) = .infinity (s * t) := by
  cases signed with
  | zero => exact absurd rfl some
  | infinity => exact settled_infinity _
  | finite m e pos => exact settled_infinity _

theorem mul_infinity {s t : Sign} {u : UnpackedFloat} (signed : HasSign s u)
    (some : extentOf u ≠ 0)
    : settled (UnpackedFloat.mul .binary64 u (.infinity t)) = .infinity (s * t) := by
  cases signed with
  | zero => exact absurd rfl some
  | infinity => exact settled_infinity _
  | finite m e pos => exact settled_infinity _

instance : Scalar.FactorRules Float where
  mul_nonneg {x y} left right := by
    cases dx : Scalar.isUndefined x with
    | true => exact Scalar.UndefinedRules.lt (Or.inl (Scalar.UndefinedRules.mul (Or.inl dx)))
    | false =>
        cases dy : Scalar.isUndefined y with
        | true => exact Scalar.UndefinedRules.lt (Or.inl (Scalar.UndefinedRules.mul (Or.inr dy)))
        | false =>
            obtain ⟨s, su⟩ := exists_hasSign dx
            obtain ⟨t, sv⟩ := exists_hasSign dy
            rw [nonneg_iff] at *
            rw [extent, unpacked_mul]
            exact su.mul_nonneg sv left right
  mul_infinite {x y} left right infinite := by
    have product : unpacked (x * y) = .infinity .positive := by
      have pos := (zero_lt_iff x).mp left
      rw [unpacked_mul, unpacked_infinite right infinite]
      exact mul_infinity (positive_of_lt left) (by rw [extent] at pos; omega)
    rw [zero_lt_iff, extent, isFinite_eq, product]
    exact ⟨Int.natCast_pos.mpr farthest_pos, rfl⟩
  infinite_mul_neg {x y} left infinite right := by
    have product : unpacked (x * y) = .infinity .negative := by
      have neg := (lt_zero_iff y).mp right
      rw [unpacked_mul, unpacked_infinite left infinite]
      exact infinity_mul (negative_of_lt right) (by rw [extent] at neg; omega)
    rw [lt_zero_iff, extent, product]
    exact Int.neg_neg_of_pos (Int.natCast_pos.mpr farthest_pos)
  infinite_of_le {x y} pos infinite less := by
    have reach := ((le_iff x y).mp less).2.2
    cases finite : Scalar.isFinite y with
    | false => rfl
    | true =>
        have bounds := (extentOf_bounds (unpacked_isRounded y) finite).2
        have far := limit_le_farthest
        rw [extent, unpacked_infinite pos infinite, extentOf_infinity] at reach
        change (farthest : Int) ≤ extentOf (unpacked y) at reach
        omega
  neg_div_pos {x y} left right := by
    rw [← Bool.not_eq_true, zero_lt_iff, Int.not_lt, extent, unpacked_div]
    rcases div_hasSign (negative_of_lt left) (positive_of_lt right) with undefined | signed
    · exact Int.le_of_eq (extentOf_settled_undefined undefined)
    · exact signed.settled.nonpos
  one_le_div {x y} pos finite less := by
    have quotient := one_le_div (unpacked_isRounded x).1 (unpacked_isRounded y).1 finite
      ((zero_lt_iff y).mp pos) ((le_iff y x).mp less).2.2
    have one := scaled_pos (show 0 < 2 ^ 52 by decide) (-52)
    rw [← unpacked_div] at quotient
    rw [le_iff, extent_one]
    exact ⟨rfl, defined_of_extent (by rw [extent]; omega), quotient⟩
  infinite_div_infinite {x y} left right := by
    rw [isFinite_eq] at left right
    rw [isUndefined_eq, unpacked_div, settled_isNaN]
    cases hx : unpacked x with
    | notANumber => rfl
    | infinity s =>
        cases hy : unpacked y with
        | notANumber => rfl
        | infinity t => rfl
        | _ =>
            rw [hy] at right
            cases right
    | _ =>
        rw [hx] at left
        cases left

-----------------------------------------------------------------------------------------
-- Minus signs
-----------------------------------------------------------------------------------------

theorem carriesMinus_iff (x : Float)
    : RandomSource.carriesMinus x = true ↔ HasSign .negative (unpacked x) := by
  have shown : Scalar.parts x = shownParts (unpacked x) := parts_eq x
  rw [RandomSource.carriesMinus, shown]
  cases unpacked x with
  | notANumber => exact ⟨fun minus => (by cases minus), fun signed => (by cases signed)⟩
  | infinity s =>
      cases s with
      | negative => exact ⟨fun _ => .infinity, fun _ => rfl⟩
      | positive => exact ⟨fun minus => (by cases minus), fun signed => (by cases signed)⟩
  | zero s =>
      cases s with
      | negative => exact ⟨fun _ => .zero, fun _ => rfl⟩
      | positive => exact ⟨fun minus => (by cases minus), fun signed => (by cases signed)⟩
  | finite s m e pos =>
      cases s with
      | negative => exact ⟨fun _ => .finite m e pos, fun _ => rfl⟩
      | positive => exact ⟨fun minus => (by cases minus), fun signed => (by cases signed)⟩

/-- A number without a minus sign has a plus sign. -/
theorem carriesMinus_eq_false_iff (x : Float)
    : RandomSource.carriesMinus x = false
      ↔ Scalar.isUndefined x = true ∨ HasSign .positive (unpacked x) := by
  rw [← Bool.not_eq_true, carriesMinus_iff, isUndefined_eq]
  constructor
  · intro plus
    cases undefined : (unpacked x).isNaN with
    | true => exact Or.inl rfl
    | false =>
        obtain ⟨_ | _, signed⟩ := exists_hasSign undefined
        · exact absurd signed plus
        · exact Or.inr signed
  · rintro (undefined | positive) negative
    · rw [negative.isNaN] at undefined
      cases undefined
    · cases shape : unpacked x <;> rw [shape] at positive negative <;> cases positive <;>
        cases negative

theorem sub_self_eq (u : UnpackedFloat)
    : UnpackedFloat.sub .binary64 u u = .notANumber
      ∨ UnpackedFloat.sub .binary64 u u = .zero .positive := by
  cases u with
  | notANumber => exact Or.inl rfl
  | infinity s => cases s <;> exact Or.inl rfl
  | zero s => cases s <;> exact Or.inr rfl
  | finite s m e pos =>
      refine Or.inr ?_
      simp only [UnpackedFloat.sub, Int.sub_self, UnpackedFloat.normalize]
      rfl

instance : Scalar.MinusRules Float where
  pos {x} pos := (carriesMinus_eq_false_iff x).mpr (Or.inr (positive_of_lt pos))
  ofNat n := (carriesMinus_eq_false_iff _).mpr (Or.inr (ofNat_hasSign n))
  abs x := by
    rw [carriesMinus_eq_false_iff, isUndefined_eq, unpacked_abs]
    cases unpacked x with
    | notANumber => exact Or.inl rfl
    | infinity s => exact Or.inr HasSign.infinity.settled
    | zero s => exact Or.inr HasSign.zero.settled
    | finite s m e pos => exact Or.inr (HasSign.finite m e pos).settled
  sub_self x := by
    rw [carriesMinus_eq_false_iff, isUndefined_eq, unpacked_sub]
    rcases sub_self_eq (unpacked x) with undefined | zero
    · rw [undefined]
      exact Or.inl rfl
    · rw [zero]
      exact Or.inr HasSign.zero.settled
  mul {x y} left right := by
    rw [carriesMinus_eq_false_iff] at *
    rcases left with undefined | left
    · exact Or.inl (Scalar.UndefinedRules.mul (Or.inl undefined))
    · rcases right with undefined | right
      · exact Or.inl (Scalar.UndefinedRules.mul (Or.inr undefined))
      · rw [isUndefined_eq, unpacked_mul, settled_isNaN]
        exact (mul_hasSign left right).imp_right HasSign.settled
  div {x y} left right := by
    rw [carriesMinus_eq_false_iff] at *
    rw [isUndefined_eq, unpacked_div, settled_isNaN]
    rcases left with undefined | left
    · rw [unpacked_of_isUndefined undefined]
      exact Or.inl rfl
    · rcases right with undefined | right
      · rw [unpacked_of_isUndefined undefined]
        cases unpacked x <;> exact Or.inl rfl
      · exact (div_hasSign left right).imp_right HasSign.settled

end Prognosis.Double
