import Mathlib
import Prognosis.Scalar.Double

/-! Doubles taken apart: a double is a number with a sign, a mantissa and an exponent, an infinity
or no number. A number that is packed into a double is read back as it was, but for one that is
too large, which becomes an infinity.
-/

namespace Prognosis.Double

open Float.Model Float.Model.UnpackedFloat

/-- The double taken apart. -/
def unpacked (x : Float) : UnpackedFloat :=
  x.toModel.unpack

/-- What is left of a number that is packed into a double. -/
def settled (u : UnpackedFloat) : UnpackedFloat :=
  (Float.Model.pack u).unpack

theorem unpacked_add (x y : Float)
    : unpacked (x + y) = settled (UnpackedFloat.add .binary64 (unpacked x) (unpacked y)) := rfl

theorem unpacked_sub (x y : Float)
    : unpacked (x - y) = settled (UnpackedFloat.sub .binary64 (unpacked x) (unpacked y)) := rfl

theorem unpacked_mul (x y : Float)
    : unpacked (x * y) = settled (UnpackedFloat.mul .binary64 (unpacked x) (unpacked y)) := rfl

theorem unpacked_div (x y : Float)
    : unpacked (x / y) = settled (UnpackedFloat.div .binary64 (unpacked x) (unpacked y)) := rfl

theorem unpacked_abs (x : Float)
    : unpacked (Scalar.abs x) = settled (UnpackedFloat.abs (unpacked x)) := rfl

theorem isUndefined_eq (x : Float) : Scalar.isUndefined x = (unpacked x).isNaN := rfl

theorem isFinite_eq (x : Float) : Scalar.isFinite x = (unpacked x).isFinite := rfl

-----------------------------------------------------------------------------------------
-- Fields
-----------------------------------------------------------------------------------------

/-- Equal parts make equal numbers. -/
theorem finite_congr {s t : Sign} {m n : Nat} {e f : Int} {hm : 0 < m} {hn : 0 < n}
    (sign : s = t) (mantissa : m = n) (exponent : e = f)
    : UnpackedFloat.finite s m e hm = .finite t n f hn := by
  subst sign mantissa exponent
  rfl

/-- The number with a sign, a field of 11 bits for the exponent and one of 52 for the mantissa. -/
def ofFields (s : Sign) (exponent mantissa : Nat) : UnpackedFloat :=
  if exponent = 2047 then if mantissa = 0 then .infinity s else .notANumber
  else if exponent = 0 then
    if h : mantissa = 0 then .zero s else .finite s mantissa (-1074) (Nat.pos_of_ne_zero h)
  else .finite s (2 ^ 52 + mantissa) (exponent - 1075) (by omega)

/-- The leading one of a mantissa is not among its bits. -/
theorem toNat_leading (m : BitVec 52) : (1#1 ++ m).toNat = 2 ^ 52 + m.toNat := by
  rw [BitVec.toNat_append, ← Nat.shiftLeft_add_eq_or_of_lt m.isLt]
  rfl

theorem unpack_eq (b : BitVec 64)
    : UnpackedFloat.unpack .binary64 b
      = ofFields (Sign.ofBitVec (@unpackSign .binary64 b))
          (@unpackExponent .binary64 b).toNat
          (@unpackMantissa .binary64 b).toNat := by
  have full : @unpackExponent .binary64 b = -1#11
      ↔ (@unpackExponent .binary64 b).toNat = 2047 := BitVec.toNat_inj.symm
  have least : @unpackExponent .binary64 b = 0#11
      ↔ (@unpackExponent .binary64 b).toNat = 0 := BitVec.toNat_inj.symm
  have empty : @unpackMantissa .binary64 b = 0#52
      ↔ (@unpackMantissa .binary64 b).toNat = 0 := BitVec.toNat_inj.symm
  have bias : ((Format.binary64.exponentBias : Nat) : Int) = 1023 := rfl
  unfold UnpackedFloat.unpack ofFields
  simp only [full, least, empty]
  split
  case isTrue => rfl
  case isFalse =>
    split
    case isTrue zero =>
      split
      case isTrue => rfl
      case isFalse => exact finite_congr rfl rfl (by rw [zero, bias]; rfl)
    case isFalse => exact finite_congr rfl (toNat_leading _) (by rw [bias]; omega)

theorem sign_packComponents (s : Sign) (e : BitVec 11) (m : BitVec 52)
    : Sign.ofBitVec (unpackSign (packComponents .binary64 s e m)) = s := by
  have field : unpackSign (packComponents .binary64 s e m) = s.toBitVec := by
    refine BitVec.eq_of_getLsbD_eq fun i bound => ?_
    obtain rfl : i = 0 := by omega
    simp only [unpackSign, packComponents, BitVec.getLsbD_cast, BitVec.getLsbD_extract,
      BitVec.getLsbD_append]
    simp
  rw [field]
  cases s <;> rfl

theorem unpack_packComponents (s : Sign) (e : BitVec 11) (m : BitVec 52)
    : UnpackedFloat.unpack .binary64 (packComponents .binary64 s e m)
      = ofFields s e.toNat m.toNat := by
  rw [unpack_eq, sign_packComponents, unpackExponent_packComponents,
    unpackMantissa_packComponents]

-----------------------------------------------------------------------------------------
-- Packing
-----------------------------------------------------------------------------------------

/-- The number was rounded to 53 bits: they are used up unless the exponent is the least one. -/
def IsRounded : UnpackedFloat → Prop
  | .finite _ m e _ => m < 2 ^ 53 ∧ -1074 ≤ e ∧ (2 ^ 52 ≤ m ∨ e = -1074)
  | _ => True

/-- The number does not exceed the exponents of doubles. -/
def InRange : UnpackedFloat → Prop
  | .finite _ _ e _ => e ≤ 971
  | _ => True

theorem ofFields_isRounded (s : Sign) {exponent mantissa : Nat} (narrow : exponent < 2 ^ 11)
    (short : mantissa < 2 ^ 52)
    : IsRounded (ofFields s exponent mantissa) ∧ InRange (ofFields s exponent mantissa) := by
  unfold ofFields
  split
  case isTrue => split <;> exact ⟨trivial, trivial⟩
  case isFalse =>
    split
    case isTrue =>
      split
      case isTrue => exact ⟨trivial, trivial⟩
      case isFalse =>
        exact ⟨⟨by omega, Int.le_refl _, Or.inr rfl⟩, by dsimp only [InRange]; omega⟩
    case isFalse =>
      exact ⟨⟨by omega, by omega, Or.inl (by omega)⟩, by dsimp only [InRange]; omega⟩

/-- Every double is a rounded number in range. -/
theorem unpacked_isRounded (x : Float) : IsRounded (unpacked x) ∧ InRange (unpacked x) := by
  unfold unpacked Float.Model.unpack
  rw [unpack_eq]
  exact ofFields_isRounded _ (BitVec.isLt _) (BitVec.isLt _)

@[simp]
theorem settled_notANumber : settled .notANumber = .notANumber := rfl

@[simp]
theorem settled_infinity (s : Sign) : settled (.infinity s) = .infinity s := by
  cases s <;> rfl

@[simp]
theorem settled_zero (s : Sign) : settled (.zero s) = .zero s := by
  cases s <;> rfl

/-- A rounded number is packed as it is or, where it is too large, as an infinity. The three cases
are those of a leading one, of the least exponent, and of exponents beyond the field.
-/
theorem settled_finite {s : Sign} {m : Nat} {e : Int} {pos : 0 < m}
    (rounded : IsRounded (.finite s m e pos))
    : settled (.finite s m e pos) = if e ≤ 971 then .finite s m e pos else .infinity s := by
  obtain ⟨short, least, full⟩ := rounded
  have biased : (e + Format.binary64.exponentBias + (52 : Nat)).toNat = (e + 1075).toNat := by
    have bias : ((Format.binary64.exponentBias : Nat) : Int) = 1023 := rfl
    omega
  unfold settled Float.Model.pack Float.Model.unpack
  simp only [UnpackedFloat.pack, biased]
  by_cases inRange : e ≤ 971
  · rw [if_neg (by omega), if_pos inRange]
    by_cases leading : 2 ^ 52 ≤ m
    · have bits : m.log2 = 52 := (Nat.log2_eq_iff (by omega)).mpr ⟨leading, short⟩
      have exponent : (BitVec.ofNat 11 (e + 1075).toNat).toNat = (e + 1075).toNat := by
        rw [BitVec.toNat_ofNat]
        omega
      have mantissa : (BitVec.ofNat 52 m).toNat = m - 2 ^ 52 := by
        rw [BitVec.toNat_ofNat]
        omega
      rw [if_pos (by rw [bits]; rfl), unpack_packComponents, exponent, mantissa, ofFields,
        if_neg (by omega), if_neg (by omega)]
      exact finite_congr rfl (by omega) (by omega)
    · have bits : m.log2 < 52 := (Nat.log2_lt (by omega)).mpr (Nat.lt_of_not_le leading)
      have mantissa : (BitVec.ofNat 52 m).toNat = m := by
        rw [BitVec.toNat_ofNat]
        omega
      rw [if_neg (by change ¬m.log2 + 1 = 53; omega), unpack_packComponents, mantissa, ofFields,
        if_neg (by decide), if_pos (by rfl), dif_neg (by omega)]
      exact finite_congr rfl rfl (by omega)
  · rw [if_pos (by omega), if_neg inRange]
    exact settled_infinity s

/-- What is packed already stays as it is. -/
theorem settled_of_isRounded {u : UnpackedFloat} (rounded : IsRounded u) (inRange : InRange u)
    : settled u = u := by
  cases u with
  | notANumber => rfl
  | infinity s => exact settled_infinity s
  | zero s => exact settled_zero s
  | finite s m e pos =>
      rw [settled_finite rounded]
      exact if_pos inRange

-----------------------------------------------------------------------------------------
-- Signs
-----------------------------------------------------------------------------------------

/-- The number has a sign, so it is one. -/
inductive HasSign (s : Sign) : UnpackedFloat → Prop
  | infinity : HasSign s (.infinity s)
  | zero : HasSign s (.zero s)
  | finite (m : Nat) (e : Int) (pos : 0 < m) : HasSign s (.finite s m e pos)

theorem HasSign.isNaN {s : Sign} {u : UnpackedFloat} (signed : HasSign s u) : u.isNaN = false := by
  cases signed <;> rfl

theorem ofFields_hasSign (s : Sign) {exponent mantissa : Nat} (bounded : exponent ≠ 2047)
    : HasSign s (ofFields s exponent mantissa) := by
  unfold ofFields
  rw [if_neg bounded]
  split
  case isTrue =>
    split
    case isTrue => exact .zero
    case isFalse => exact .finite _ _ _
  case isFalse => exact .finite _ _ _

/-- Packing keeps the sign, also of a number that was not rounded. -/
theorem HasSign.settled {s : Sign} {u : UnpackedFloat} (signed : HasSign s u)
    : HasSign s (settled u) := by
  cases signed with
  | infinity =>
      rw [settled_infinity]
      exact .infinity
  | zero =>
      rw [settled_zero]
      exact .zero
  | finite m e pos =>
      unfold Double.settled Float.Model.pack Float.Model.unpack
      simp only [UnpackedFloat.pack]
      split
      case isTrue =>
        have packed : HasSign s (Double.settled (.infinity s)) := by
          rw [settled_infinity]
          exact .infinity
        exact packed
      case isFalse inside =>
        change ¬2 ^ 11 ≤ _ at inside
        split
        case isTrue =>
          rw [unpack_packComponents]
          refine ofFields_hasSign s ?_
          rw [BitVec.toNat_ofNat]
          omega
        case isFalse =>
          rw [unpack_packComponents]
          exact ofFields_hasSign s (by decide)

-----------------------------------------------------------------------------------------
-- Bits
-----------------------------------------------------------------------------------------

theorem mantissa_toNat (b : UInt64)
    : (@unpackMantissa .binary64 b.toBitVec).toNat = (b &&& 0xfffffffffffff).toNat := by
  have mask : (0xfffffffffffff : UInt64).toNat = 2 ^ 52 - 1 := rfl
  rw [UInt64.toNat_and, mask, Nat.and_two_pow_sub_one_eq_mod]
  simp [unpackMantissa, BitVec.extractLsb, BitVec.extractLsb'_toNat]

theorem exponent_toNat (b : UInt64)
    : (@unpackExponent .binary64 b.toBitVec).toNat = ((b >>> 52) &&& 0x7ff).toNat := by
  have mask : (0x7ff : UInt64).toNat = 2 ^ 11 - 1 := rfl
  rw [UInt64.toNat_and, mask, Nat.and_two_pow_sub_one_eq_mod, UInt64.toNat_shiftRight]
  simp [unpackExponent, BitVec.extractLsb, BitVec.extractLsb'_toNat]

theorem sign_isNegative (b : UInt64)
    : (Sign.ofBitVec (@unpackSign .binary64 b.toBitVec) == .negative)
      = (b >>> 63 == 1) := by
  have field : (@unpackSign .binary64 b.toBitVec).toNat = (b >>> 63).toNat := by
    rw [UInt64.toNat_shiftRight]
    simp only [unpackSign, BitVec.extractLsb, BitVec.toNat_cast, BitVec.extractLsb'_toNat]
    have bound := b.toNat_lt
    change b.toNat >>> 63 % 2 ^ 1 = b.toNat >>> 63
    omega
  have word : (b >>> 63 == 1) = ((b >>> 63).toNat == 1) := by
    rw [Bool.eq_iff_iff, beq_iff_eq, beq_iff_eq, ← UInt64.toNat_inj]
    rfl
  rw [word, ← field]
  generalize @unpackSign .binary64 b.toBitVec = v
  revert v
  decide

/-- The parts under which a number is shown. -/
def shownParts : UnpackedFloat → Decimal.Parts
  | .notANumber => .nan
  | .infinity s => .infinite (s == .negative)
  | .zero s => .finite (s == .negative) 0 (-1074)
  | .finite s m e _ => .finite (s == .negative) m e

/-- The parts of a double are those of the number that it stands for. -/
theorem parts_eq (x : Float) : parts x = shownParts (unpacked x) := by
  have bits : x.toBits = x.toModel.toBits := rfl
  unfold unpacked Float.Model.unpack parts
  rw [unpack_eq, bits, mantissa_toNat, exponent_toNat]
  generalize x.toModel.toBits = b
  simp only [← sign_isNegative, ofFields, beq_iff_eq]
  generalize ((b >>> 52) &&& 0x7ff).toNat = exponent
  generalize (b &&& 0xfffffffffffff).toNat = mantissa
  split
  case isTrue => split <;> rfl
  case isFalse =>
    split
    case isTrue =>
      split
      case isTrue zero =>
        rw [zero]
        rfl
      case isFalse => rfl
    case isFalse =>
      rw [shownParts, Nat.add_comm]
      rfl

end Prognosis.Double
