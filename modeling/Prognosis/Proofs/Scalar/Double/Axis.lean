import Prognosis.Proofs.Calendar.Timeline
import Prognosis.Proofs.Scalar.Double.Rules

/-! Whole numbers and the axis of years over doubles. Years and days of a year are exact; their
quotient and their sum are rounded once each, which keeps the order of days.
-/

namespace Prognosis.Double

open Float.Model Float.Model.UnpackedFloat

-----------------------------------------------------------------------------------------
-- Whole numbers
-----------------------------------------------------------------------------------------

/-- A mantissa of 53 bits is packed by hand as it is. -/
theorem unpacked_ofBinary {m : Nat} {e : Int} (full : 2 ^ 52 ≤ m) (short : m < 2 ^ 53)
    (least : -1074 ≤ e) (inRange : e ≤ 971)
    : unpacked (ofBinary false m e) = .finite .positive m e (by omega) := by
  have place : min ((e + 1074).toNat <<< 52 + m) (0x7ff <<< 52)
      = (e + 1075).toNat * 2 ^ 52 + (m - 2 ^ 52) := by
    have top : 0x7ff <<< 52 = 2047 * 2 ^ 52 := rfl
    rw [Nat.shiftLeft_eq, top]
    omega
  have exponent : ((e + 1075).toNat * 2 ^ 52 + (m - 2 ^ 52)) / 2 ^ 52 % 2 ^ 11
      = (e + 1075).toNat := by omega
  have mantissa : ((e + 1075).toNat * 2 ^ 52 + (m - 2 ^ 52)) % 2 ^ 52 = m - 2 ^ 52 := by omega
  have fields : ofFields .positive (e + 1075).toNat (m - 2 ^ 52)
      = .finite .positive m e (by omega) := by
    rw [ofFields, if_neg (by omega), if_neg (by omega)]
    exact finite_congr rfl (by omega) (by omega)
  unfold ofBinary
  simp only [Bool.false_eq_true, if_false]
  rw [place, unpacked_ofBits, exponentField_ofNat (by omega), mantissaField_ofNat (by omega),
    signField_ofNat (by omega), if_pos (by omega), exponent, mantissa, fields]
  exact settled_of_isRounded ⟨short, least, Or.inl full⟩ inRange

/-- Whole numbers of 53 bits are written with all of them. -/
theorem ofNat_eq_ofBinary {n : Nat} (pos : 0 < n) (bits : n.log2 < 53)
    (full : 2 ^ 52 ≤ n * 2 ^ (52 - n.log2))
    : (Scalar.ofNat n : Float) = ofBinary false (n * 2 ^ (52 - n.log2)) (n.log2 - 52) := by
  have whole (k : Nat) : Decimal.Ratio.round ⟨k, 1⟩ = k := by
    simp [Decimal.Ratio.round, Nat.mod_one]
  have started : (Scalar.ofNat n : Float)
      = ofRatio (Decidable.decide ((n : Int) < 0)) ⟨n, 1⟩ := rfl
  have some : (n == 0) = false := by
    rw [beq_eq_false_iff_ne]
    omega
  have one : ((Nat.log2 1 : Nat) : Int) = 0 := by decide
  have long : ¬Decimal.Ratio.floor ⟨n <<< (-((n.log2 : Int) - 53)).toNat, 1⟩ < 1 <<< 53 := by
    have widened : n * 2 ^ (-((n.log2 : Int) - 53)).toNat = n * 2 ^ (52 - n.log2) * 2 := by
      rw [Nat.mul_assoc, ← Nat.pow_succ]
      exact congrArg (n * 2 ^ ·) (by omega)
    have top : 1 <<< 53 = 2 ^ 52 * 2 := rfl
    change ¬n <<< _ / 1 < _
    rw [Nat.div_one, Nat.shiftLeft_eq, widened, top]
    omega
  have place : max ((n.log2 : Int) - 52) (-1074) = n.log2 - 52 := by omega
  rw [started, decide_eq_false (by omega), ofRatio]
  simp only [some, Bool.false_eq_true, if_false, one, Int.sub_zero]
  rw [if_neg (by omega : ¬0 ≤ (n.log2 : Int) - 53), if_neg long, place]
  split
  case isTrue last =>
    have shift : ((n.log2 : Int) - 52).toNat = 0 := by omega
    have none : 52 - n.log2 = 0 := by omega
    rw [shift, none, Nat.shiftLeft_zero, whole, Nat.pow_zero, Nat.mul_one]
  case isFalse =>
    have shift : (-((n.log2 : Int) - 52)).toNat = 52 - n.log2 := by omega
    rw [shift, whole, Nat.shiftLeft_eq]

/-- Whole numbers of 53 bits are exact. -/
theorem unpacked_ofNat {n : Nat} (pos : 0 < n) (short : n < 2 ^ 53)
    : ∃ (m : Nat) (e : Int) (some : 0 < m),
      unpacked (Scalar.ofNat n) = .finite .positive m e some
      ∧ scaled m e = n * scaled (2 ^ 52) (-52) := by
  have bits : n.log2 < 53 := (Nat.log2_lt (by omega)).mpr short
  have full : 2 ^ 52 ≤ n * 2 ^ (52 - n.log2) := by
    calc 2 ^ 52
        = 2 ^ n.log2 * 2 ^ (52 - n.log2) := by
          rw [← Nat.pow_add]
          exact congrArg (2 ^ ·) (by omega)
      _ ≤ n * 2 ^ (52 - n.log2) := Nat.mul_le_mul_right _ (Nat.log2_self_le (by omega))
  have narrow : n * 2 ^ (52 - n.log2) < 2 ^ 53 := by
    calc n * 2 ^ (52 - n.log2)
        < 2 ^ (n.log2 + 1) * 2 ^ (52 - n.log2) :=
          Nat.mul_lt_mul_of_pos_right Nat.lt_log2_self (Nat.two_pow_pos _)
      _ = 2 ^ 53 := by
          rw [← Nat.pow_add]
          exact congrArg (2 ^ ·) (by omega)
  refine ⟨n * 2 ^ (52 - n.log2), n.log2 - 52, by omega, ?_, ?_⟩
  · rw [ofNat_eq_ofBinary pos bits full]
    exact unpacked_ofBinary full narrow (by omega) (by omega)
  · have exponents : 52 - n.log2 + ((n.log2 : Int) - 52 + 1074).toNat
        = (-52 + 1074 : Int).toNat + 52 := by omega
    rw [scaled, scaled, Nat.mul_assoc, ← Nat.pow_add, exponents, Nat.pow_add, Nat.mul_comm (2 ^ 52)]

theorem extent_ofNat {n : Nat} (short : n < 2 ^ 53)
    : extent (Scalar.ofNat n) = (n * scaled (2 ^ 52) (-52) : Nat) := by
  rcases Nat.eq_zero_or_pos n with rfl | pos
  · rw [Nat.zero_mul]
    exact extent_zero
  · obtain ⟨m, e, some, unpacked, exact⟩ := unpacked_ofNat pos short
    rw [extent, unpacked, ← exact]
    rfl

theorem isFinite_ofNat {n : Nat} (short : n < 2 ^ 53)
    : (unpacked (Scalar.ofNat n)).isFinite = true := by
  rcases Nat.eq_zero_or_pos n with rfl | pos
  · rfl
  · obtain ⟨m, e, some, unpacked, -⟩ := unpacked_ofNat pos short
    rw [unpacked]
    rfl

/-- A quotient of whole numbers is the double nearest to it. -/
theorem quotient_ofNat {k n : Nat} (pos : 0 < n) (hk : k < 2 ^ 53) (hn : n < 2 ^ 53)
    : Scalar.isUndefined (Scalar.ofNat k / Scalar.ofNat n : Float) = false
      ∧ extent (Scalar.ofNat k / Scalar.ofNat n)
        = (capped (nearestDoubleRatio (k * scaled (2 ^ 52) (-52)) n) : Nat) := by
  obtain ⟨m, e, some, divisor, exact⟩ := unpacked_ofNat pos hn
  rw [isUndefined_eq, extent, unpacked_div, divisor, settled_isNaN]
  rcases Nat.eq_zero_or_pos k with rfl | kpos
  · have zero : unpacked (Scalar.ofNat 0) = .zero .positive := unpacked_zero
    rw [zero, Nat.zero_mul, nearestDoubleRatio_zero]
    refine ⟨rfl, ?_⟩
    exact (congrArg extentOf (settled_zero _)).trans (congrArg Nat.cast capped_zero.symm)
  · obtain ⟨m', e', some', dividend, exact'⟩ := unpacked_ofNat kpos hk
    have rounded := unpacked_isRounded (Scalar.ofNat k)
    have rounded' := unpacked_isRounded (Scalar.ofNat n)
    rw [dividend] at rounded
    rw [divisor] at rounded'
    rw [dividend, extentOf_div rounded.1 rounded'.1]
    refine ⟨(roundWithAccuracy_hasSign _ _ _ _).isNaN, ?_⟩
    have ratio : nearestDoubleRatio (scaled m' e' * scaled (2 ^ 52) (-52)) (scaled m e)
        = nearestDoubleRatio (k * scaled (2 ^ 52) (-52)) n := by
      refine nearestDoubleRatio_congr (scaled_pos some e) pos ?_
      rw [exact, exact']
      ring
    rw [ratio]
    rfl

-----------------------------------------------------------------------------------------
-- Sums and differences
-----------------------------------------------------------------------------------------

theorem extent_add {x y : Float} (dx : Scalar.isUndefined x = false)
    (dy : Scalar.isUndefined y = false) (finite : Scalar.isFinite x = true)
    : Scalar.isUndefined (x + y) = false
      ∧ extent (x + y) = roundedExtent (extent x + extent y) := by
  rw [isUndefined_eq] at dx dy
  rw [isFinite_eq] at finite
  have defined := add_finite dx dy (Or.inl finite)
  rw [isUndefined_eq, extent, unpacked_add, settled_isNaN]
  exact ⟨defined, extentOf_add (unpacked_isRounded x) (unpacked_isRounded y) defined⟩

theorem le_trans {x y z : Float} (first : Scalar.le x y = true) (second : Scalar.le y z = true)
    : Scalar.le x z = true := by
  obtain ⟨dx, -, less⟩ := (le_iff x y).mp first
  obtain ⟨-, dz, less'⟩ := (le_iff y z).mp second
  exact (le_iff x z).mpr ⟨dx, dz, Int.le_trans less less'⟩

/-- What is not negative makes no number greater when it is taken away, be one of the two infinite.
-/
theorem sub_le {x y : Float} (dx : Scalar.isUndefined x = false)
    (nonneg : Scalar.le Scalar.zero y = true)
    (finite : Scalar.isFinite x = true ∨ Scalar.isFinite y = true)
    : Scalar.le (x - y) x = true := by
  obtain ⟨-, dy, some⟩ := (le_iff Scalar.zero y).mp nonneg
  have defined : Scalar.isUndefined (x - y) = false := by
    rw [isUndefined_eq] at *
    rw [unpacked_sub, settled_isNaN]
    exact sub_finite dx dy finite
  refine (le_iff (x - y) x).mpr ⟨defined, dx, ?_⟩
  rw [extent_zero] at some
  calc extent (x - y)
      = roundedExtent (extent x - extent y) := extent_sub defined
    _ ≤ roundedExtent (extent x) := roundedExtent_mono (by omega)
    _ = extent x := roundedExtent_kept (unpacked_isRounded x)

/-- A number with an extent in range is no infinity. -/
theorem isFinite_of_extent {x : Float} (defined : Scalar.isUndefined x = false)
    (above : 0 ≤ extent x) (below : extent x < limit)
    : Scalar.isFinite x = true := by
  have pos := limit_pos
  have far := limit_le_farthest
  rw [isFinite_eq]
  rw [isUndefined_eq] at defined
  unfold extent at above below
  cases shape : unpacked x with
  | notANumber =>
      rw [shape] at defined
      cases defined
  | infinity s =>
      rw [shape, extentOf_infinity] at above below
      cases s <;> simp only [Sign.apply] at above below <;> omega
  | _ => rfl

-----------------------------------------------------------------------------------------
-- The axis
-----------------------------------------------------------------------------------------

/-- Extent of the share of its year that has passed before a day. -/
def passed (d : Date) : Nat :=
  capped (nearestDoubleRatio ((d.dayOfYear - 1) * scaled (2 ^ 52) (-52)) (daysInYear d.year))

theorem passed_mono {d e : Date} (year : d.year = e.year) (before : d.dayOfYear ≤ e.dayOfYear)
    : passed d ≤ passed e := by
  have bounds := daysInYear_bounds e.year
  unfold passed
  rw [year]
  exact capped_mono (nearestDoubleRatio_mono (by omega) (by omega)
    (Nat.mul_le_mul_right _ (Nat.mul_le_mul_right _ (by omega))))

/-- No more than a year has passed. -/
theorem passed_le (d : Date) : passed d ≤ scaled (2 ^ 52) (-52) := by
  have bounds := daysInYear_bounds d.year
  have inside := d.dayOfYear_le
  rw [← capped_one, ← nearestDoubleRatio_self (n := daysInYear d.year) (by omega)]
  exact capped_mono (nearestDoubleRatio_mono (by omega) (by omega)
    (Nat.mul_le_mul_right _ (Nat.mul_le_mul_right _ (by omega))))

/-- The place of a day is its year and the share of it that has passed, rounded. -/
theorem extent_yearFraction (d : Date)
    : Scalar.isUndefined (d.yearFraction : Float) = false
      ∧ extent d.yearFraction
        = roundedExtent (d.year * scaled (2 ^ 52) (-52) + passed d : Nat) := by
  have year := d.year_le
  have days := daysInYear_bounds d.year
  have inside := d.dayOfYear_le
  obtain ⟨number, quotient⟩ := quotient_ofNat (k := d.dayOfYear - 1) (n := daysInYear d.year)
    (by omega) (by omega) (by omega)
  have finite := isFinite_ofNat (n := d.year) (by omega)
  have place : (d.yearFraction : Float) = Scalar.ofNat d.year
      + Scalar.ofNat (d.dayOfYear - 1) / Scalar.ofNat (daysInYear d.year) := rfl
  rw [place]
  have number' : Scalar.isUndefined (Scalar.ofNat d.year : Float) = false :=
    (ofNat_hasSign d.year).isNaN
  obtain ⟨defined, sum⟩ := extent_add number' number finite
  refine ⟨defined, ?_⟩
  rw [sum, quotient, extent_ofNat (by omega), ← Int.natCast_add]
  rfl

/-- The place is below that of the year after, so it is finite. -/
theorem isFinite_yearFraction (d : Date) : Scalar.isFinite (d.yearFraction : Float) = true := by
  have year := d.year_le
  have short : d.year + 1 < 2 ^ 53 := by omega
  obtain ⟨defined, place⟩ := extent_yearFraction d
  have next := (extentOf_bounds (unpacked_isRounded _) (isFinite_ofNat short)).2
  have below : extent d.yearFraction ≤ extent (Scalar.ofNat (d.year + 1)) := by
    have more : d.year * scaled (2 ^ 52) (-52) + passed d
        ≤ (d.year + 1) * scaled (2 ^ 52) (-52) := by
      rw [Nat.succ_mul]
      exact Nat.add_le_add_left (passed_le d) _
    calc extent d.yearFraction
        = roundedExtent (d.year * scaled (2 ^ 52) (-52) + passed d : Nat) := place
      _ ≤ roundedExtent ((d.year + 1) * scaled (2 ^ 52) (-52) : Nat) :=
          roundedExtent_mono (Int.ofNat_le.mpr more)
      _ = extent (Scalar.ofNat (d.year + 1)) := by
          rw [← extent_ofNat short]
          exact roundedExtent_kept (unpacked_isRounded _)
  have above : 0 ≤ extent d.yearFraction := by
    rw [place, ← roundedExtent_zero]
    exact roundedExtent_mono (Int.natCast_nonneg _)
  exact isFinite_of_extent defined above (Int.lt_of_le_of_lt below next)

instance : Scalar.AxisRules Float where
  le_trans := le_trans
  yearFraction_le {d e} before := by
    obtain ⟨dd, place⟩ := extent_yearFraction d
    obtain ⟨de, place'⟩ := extent_yearFraction e
    refine (le_iff d.yearFraction e.yearFraction).mpr ⟨dd, de, ?_⟩
    rw [place, place']
    refine roundedExtent_mono (Int.ofNat_le.mpr ?_)
    rcases d.year_cases before with less | ⟨same, less⟩
    · calc d.year * scaled (2 ^ 52) (-52) + passed d
          ≤ d.year * scaled (2 ^ 52) (-52) + scaled (2 ^ 52) (-52) :=
            Nat.add_le_add_left (passed_le d) _
        _ = (d.year + 1) * scaled (2 ^ 52) (-52) := (Nat.succ_mul ..).symm
        _ ≤ e.year * scaled (2 ^ 52) (-52) := Nat.mul_le_mul_right _ less
        _ ≤ e.year * scaled (2 ^ 52) (-52) + passed e := Nat.le_add_right ..
    · rw [same]
      exact Nat.add_le_add_left (passed_mono same less) _
  back_le d {window} nonneg := by
    have finite : Scalar.isFinite (Scalar.ofDecimal false 1 (-9) : Float) = true := by rfl
    have positive := ofRatio_hasSign false (Decimal.Ratio.shift ⟨1, 1⟩ (-9))
    have margin : Scalar.le Scalar.zero (Scalar.ofDecimal false 1 (-9) : Float) = true := by
      refine (le_iff Scalar.zero _).mpr ⟨rfl, positive.isNaN, ?_⟩
      rw [extent_zero]
      exact positive.nonneg
    have back := sub_le (extent_yearFraction d).1 nonneg (Or.inl (isFinite_yearFraction d))
    have number := ((le_iff (d.yearFraction - window) d.yearFraction).mp back).1
    exact le_trans (sub_le number margin (Or.inr finite)) back

end Prognosis.Double
