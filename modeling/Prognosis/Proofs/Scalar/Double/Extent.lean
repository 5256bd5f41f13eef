import Prognosis.Proofs.Scalar.Double.Nearest

/-! Doubles as whole numbers. Every finite double is a multiple of the least one, so it has an
extent among the integers; the infinities have one beyond all of them. Comparisons of doubles are
comparisons of their extents, and rounding is arithmetic on extents.
-/

namespace Prognosis.Double

open Float.Model Float.Model.UnpackedFloat

-----------------------------------------------------------------------------------------
-- Extents
-----------------------------------------------------------------------------------------

/-- Extent of a mantissa with an exponent, which is that of the least double or greater. -/
def scaled (m : Nat) (e : Int) : Nat :=
  m * 2 ^ (e + 1074).toNat

/-- The least extent beyond those of finite doubles. -/
def limit : Nat :=
  scaled (2 ^ 52) 972

/-- Extent of an infinity, so far away that no finite number makes a difference. -/
def farthest : Nat :=
  2 * limit

/-- Count of least doubles in a number; none in what is no number. -/
def extentOf : UnpackedFloat → Int
  | .notANumber => 0
  | .infinity s => s.apply farthest
  | .zero _ => 0
  | .finite s m e _ => s.apply (scaled m e)

theorem extentOf_infinity (s : Sign) : extentOf (.infinity s) = s.apply farthest := rfl

theorem extentOf_zero (s : Sign) : extentOf (.zero s) = 0 := rfl

/-- Extent of a double. -/
def extent (x : Float) : Int :=
  extentOf (unpacked x)

theorem scaled_pos {m : Nat} (pos : 0 < m) (e : Int) : 0 < scaled m e :=
  Nat.mul_pos pos (Nat.two_pow_pos _)

theorem limit_pos : 0 < limit :=
  scaled_pos (by decide) 972

theorem limit_le_farthest : limit ≤ farthest := by
  unfold farthest
  omega

theorem farthest_pos : 0 < farthest :=
  Nat.lt_of_lt_of_le limit_pos limit_le_farthest

/-- A smaller exponent makes a smaller number, as long as the greater one has a leading one. -/
theorem scaled_lt_scaled {m n : Nat} {e f : Int} (least : -1074 ≤ e) (short : m < 2 ^ 53)
    (full : 2 ^ 52 ≤ n) (less : e < f)
    : scaled m e < scaled n f := by
  calc m * 2 ^ (e + 1074).toNat
      < 2 ^ 53 * 2 ^ (e + 1074).toNat := Nat.mul_lt_mul_of_pos_right short (Nat.two_pow_pos _)
    _ = 2 ^ (53 + (e + 1074).toNat) := (Nat.pow_add ..).symm
    _ ≤ 2 ^ (52 + (f + 1074).toNat) := Nat.pow_le_pow_right (by decide) (by omega)
    _ = 2 ^ 52 * 2 ^ (f + 1074).toNat := Nat.pow_add ..
    _ ≤ n * 2 ^ (f + 1074).toNat := Nat.mul_le_mul_right _ full

/-- A rounded mantissa stays below the limit as long as its exponent is in range. -/
theorem scaled_lt_limit {m : Nat} {e : Int} (least : -1074 ≤ e) (short : m < 2 ^ 53)
    (inRange : e ≤ 971)
    : scaled m e < limit :=
  scaled_lt_scaled least short (Nat.le_refl _) (by omega)

theorem limit_le_scaled {m : Nat} {e : Int} (full : 2 ^ 52 ≤ m) (beyond : 971 < e)
    : limit ≤ scaled m e :=
  Nat.mul_le_mul full (Nat.pow_le_pow_right (by decide) (by omega))

attribute [irreducible] limit

/-- Zeros behind a mantissa go along with a smaller exponent. -/
theorem scaled_mul {m : Nat} {e f : Int} {d : Nat} (least : -1074 ≤ f) (same : e = f + d)
    : scaled (m * 2 ^ d) f = scaled m e := by
  have exponents : d + (f + 1074).toNat = (e + 1074).toNat := by omega
  rw [scaled, Nat.mul_assoc, ← Nat.pow_add, exponents]
  rfl

/-- The extent of a finite double is smaller than that of an infinity. -/
theorem scaled_bounds {s : Sign} {m : Nat} {e : Int} {pos : 0 < m}
    (rounded : IsRounded (.finite s m e pos)) (inRange : InRange (.finite s m e pos))
    : 0 < scaled m e ∧ scaled m e < farthest :=
  ⟨scaled_pos pos e,
    Nat.lt_of_lt_of_le (scaled_lt_limit rounded.2.1 rounded.1 inRange) limit_le_farthest⟩

-----------------------------------------------------------------------------------------
-- Comparisons
-----------------------------------------------------------------------------------------

/-- Exponents decide before mantissas, and both together compare the extents. -/
theorem compare_scaled {s t : Sign} {m n : Nat} {e f : Int} {hm : 0 < m} {hn : 0 < n}
    (first : IsRounded (.finite s m e hm)) (second : IsRounded (.finite t n f hn))
    : (compare e f).then (compare m n) = compare (scaled m e) (scaled n f) := by
  obtain ⟨short, least, full⟩ := first
  obtain ⟨short', least', full'⟩ := second
  rcases Int.lt_trichotomy e f with less | rfl | more
  · rw [Int.compare_eq_lt.mpr less]
    exact (Nat.compare_eq_lt.mpr (scaled_lt_scaled least short (by omega) less)).symm
  · have factor := Nat.two_pow_pos (e + 1074).toNat
    rw [Int.compare_eq_eq.mpr rfl]
    rcases Nat.lt_trichotomy m n with less | rfl | more
    · exact (Nat.compare_eq_lt.mpr less).trans
        (Nat.compare_eq_lt.mpr (Nat.mul_lt_mul_of_pos_right less factor)).symm
    · exact (Nat.compare_eq_eq.mpr rfl).trans (Nat.compare_eq_eq.mpr rfl).symm
    · exact (Nat.compare_eq_gt.mpr more).trans
        (Nat.compare_eq_gt.mpr (Nat.mul_lt_mul_of_pos_right more factor)).symm
  · rw [Int.compare_eq_gt.mpr more]
    exact (Nat.compare_eq_gt.mpr (scaled_lt_scaled least' short' (by omega) more)).symm

theorem compare_natCast (a b : Nat) : compare (a : Int) (b : Int) = compare a b := by
  rcases Nat.lt_trichotomy a b with less | rfl | more
  · rw [Nat.compare_eq_lt.mpr less, Int.compare_eq_lt.mpr (by omega)]
  · rw [Nat.compare_eq_eq.mpr rfl, Int.compare_eq_eq.mpr rfl]
  · rw [Nat.compare_eq_gt.mpr more, Int.compare_eq_gt.mpr (by omega)]

theorem compare_neg_natCast (a b : Nat)
    : compare (-(a : Int)) (-(b : Int)) = (compare a b).swap := by
  rcases Nat.lt_trichotomy a b with less | rfl | more
  · rw [Nat.compare_eq_lt.mpr less, Int.compare_eq_gt.mpr (by omega)]
    rfl
  · rw [Nat.compare_eq_eq.mpr rfl, Int.compare_eq_eq.mpr rfl]
    rfl
  · rw [Nat.compare_eq_gt.mpr more, Int.compare_eq_lt.mpr (by omega)]
    rfl

theorem compare_undefined {u v : UnpackedFloat} (undefined : u.isNaN = true ∨ v.isNaN = true)
    : u.compare v = none := by
  rcases undefined with first | second
  · cases u with
    | notANumber => rfl
    | _ => cases first
  · cases v with
    | notANumber => rcases u with _ | ⟨_ | _⟩ | _ | _ <;> rfl
    | _ => cases second

/-- Numbers compare like their extents. Where the kinds or the signs of the numbers differ, these
decide; what is left are two finite numbers of one sign.
-/
theorem compare_eq {u v : UnpackedFloat} (hu : IsRounded u ∧ InRange u)
    (hv : IsRounded v ∧ InRange v) (du : u.isNaN = false) (dv : v.isNaN = false)
    : u.compare v = some (compare (extentOf u) (extentOf v)) := by
  have far : 0 < farthest := farthest_pos
  have less {a b : Int} (lt : a < b) : some Ordering.lt = some (compare a b) := by
    rw [Int.compare_eq_lt.mpr lt]
  have more {a b : Int} (lt : b < a) : some Ordering.gt = some (compare a b) := by
    rw [Int.compare_eq_gt.mpr lt]
  have same (a : Int) : some Ordering.eq = some (compare a a) := by
    rw [Int.compare_eq_eq.mpr rfl]
  cases u with
  | notANumber => cases du
  | infinity s =>
      cases v with
      | notANumber => cases dv
      | infinity t =>
          cases s <;> cases t
          · exact same _
          · exact less (show -(farthest : Int) < farthest by omega)
          · exact more (show -(farthest : Int) < farthest by omega)
          · exact same _
      | zero t =>
          cases s
          · exact less (show -(farthest : Int) < 0 by omega)
          · exact more (show 0 < (farthest : Int) by omega)
      | finite t n f pos =>
          have bounds := scaled_bounds hv.1 hv.2
          cases s <;> cases t
          · exact less (show -(farthest : Int) < -(scaled n f : Int) by omega)
          · exact less (show -(farthest : Int) < scaled n f by omega)
          · exact more (show -(scaled n f : Int) < farthest by omega)
          · exact more (show (scaled n f : Int) < farthest by omega)
  | zero s =>
      cases v with
      | notANumber => cases dv
      | infinity t =>
          cases t
          · exact more (show -(farthest : Int) < 0 by omega)
          · exact less (show 0 < (farthest : Int) by omega)
      | zero t => exact same _
      | finite t n f pos =>
          have bounds := scaled_bounds hv.1 hv.2
          cases t
          · exact more (show -(scaled n f : Int) < 0 by omega)
          · exact less (show 0 < (scaled n f : Int) by omega)
  | finite s m e pos =>
      have bounds := scaled_bounds hu.1 hu.2
      cases v with
      | notANumber => cases dv
      | infinity t =>
          cases s <;> cases t
          · exact more (show -(farthest : Int) < -(scaled m e : Int) by omega)
          · exact less (show -(scaled m e : Int) < farthest by omega)
          · exact more (show -(farthest : Int) < scaled m e by omega)
          · exact less (show (scaled m e : Int) < farthest by omega)
      | zero t =>
          cases s
          · exact less (show -(scaled m e : Int) < 0 by omega)
          · exact more (show 0 < (scaled m e : Int) by omega)
      | finite t n f pos' =>
          have bounds' := scaled_bounds hv.1 hv.2
          have together := compare_scaled hu.1 hv.1
          cases s <;> cases t
          · exact congrArg some ((congrArg _ together).trans (compare_neg_natCast _ _).symm)
          · exact less (show -(scaled m e : Int) < scaled n f by omega)
          · exact more (show -(scaled n f : Int) < scaled m e by omega)
          · exact congrArg some (together.trans (compare_natCast _ _).symm)

theorem lt_eq (x y : Float) : Scalar.lt x y = (unpacked x).lt (unpacked y) := by
  have same : x < y ↔ (unpacked x).lt (unpacked y) = true := by
    change x.lt y = true ↔ _
    rw [Float.lt, decide_eq_true_eq]
    rfl
  change decide (x < y) = _
  rw [Bool.eq_iff_iff, decide_eq_true_eq, same]

theorem le_eq (x y : Float) : Scalar.le x y = (unpacked x).le (unpacked y) := by
  have same : x ≤ y ↔ (unpacked x).le (unpacked y) = true := by
    change x.le y = true ↔ _
    rw [Float.le, decide_eq_true_eq]
    rfl
  change decide (x ≤ y) = _
  rw [Bool.eq_iff_iff, decide_eq_true_eq, same]

theorem lt_iff (x y : Float)
    : Scalar.lt x y = true
      ↔ Scalar.isUndefined x = false ∧ Scalar.isUndefined y = false ∧ extent x < extent y := by
  rw [lt_eq, isUndefined_eq, isUndefined_eq, UnpackedFloat.lt, beq_iff_eq]
  cases dx : (unpacked x).isNaN with
  | true => simp [compare_undefined (Or.inl dx)]
  | false =>
      cases dy : (unpacked y).isNaN with
      | true => simp [compare_undefined (Or.inr dy)]
      | false =>
          simp [compare_eq (unpacked_isRounded x) (unpacked_isRounded y) dx dy, extent,
            Int.compare_eq_lt]

theorem le_iff (x y : Float)
    : Scalar.le x y = true
      ↔ Scalar.isUndefined x = false ∧ Scalar.isUndefined y = false ∧ extent x ≤ extent y := by
  rw [le_eq, isUndefined_eq, isUndefined_eq, UnpackedFloat.le]
  cases dx : (unpacked x).isNaN with
  | true => simp [compare_undefined (Or.inl dx)]
  | false =>
      cases dy : (unpacked y).isNaN with
      | true => simp [compare_undefined (Or.inr dy)]
      | false =>
          simp [compare_eq (unpacked_isRounded x) (unpacked_isRounded y) dx dy, extent,
            Int.isLE_compare]

theorem eq_iff (x y : Float)
    : Scalar.eq x y = true
      ↔ Scalar.isUndefined x = false ∧ Scalar.isUndefined y = false ∧ extent x = extent y := by
  have same : Scalar.eq x y = (unpacked x).beq (unpacked y) := rfl
  rw [same, isUndefined_eq, isUndefined_eq, UnpackedFloat.beq, beq_iff_eq]
  cases dx : (unpacked x).isNaN with
  | true => simp [compare_undefined (Or.inl dx)]
  | false =>
      cases dy : (unpacked y).isNaN with
      | true => simp [compare_undefined (Or.inr dy)]
      | false =>
          simp [compare_eq (unpacked_isRounded x) (unpacked_isRounded y) dx dy, extent]

-----------------------------------------------------------------------------------------
-- Rounding
-----------------------------------------------------------------------------------------

/-- An extent, or that of an infinity where no finite double has it. -/
def capped (n : Nat) : Nat :=
  if n < limit then n else farthest

theorem capped_mono {m n : Nat} (le : m ≤ n) : capped m ≤ capped n := by
  unfold capped farthest
  split <;> split <;> omega

theorem capped_zero : capped 0 = 0 :=
  if_pos limit_pos

theorem capped_pos {n : Nat} (pos : 0 < n) : 0 < capped n := by
  have limit := limit_pos
  unfold capped farthest
  split <;> omega

theorem extentOf_settled {s : Sign} {m : Nat} {e : Int}
    (rounded : m ≠ 0 → m < 2 ^ 53 ∧ -1074 ≤ e ∧ (2 ^ 52 ≤ m ∨ e = -1074))
    : extentOf (settled (ofMantissa s m e)) = s.apply (capped (scaled m e)) := by
  unfold ofMantissa
  split
  case isTrue zero =>
    have small : scaled 0 e < limit := by
      rw [scaled, Nat.zero_mul]
      exact limit_pos
    rw [settled_zero, zero, capped, if_pos small, scaled, Nat.zero_mul]
    cases s <;> rfl
  case isFalse some =>
    obtain ⟨short, least, full⟩ := rounded some
    rw [settled_finite ⟨short, least, full⟩]
    split
    case isTrue inRange =>
      rw [capped, if_pos (scaled_lt_limit least short inRange)]
      rfl
    case isFalse beyond =>
      rw [capped, if_neg (Nat.not_lt.mpr (limit_le_scaled (by omega) (by omega)))]
      rfl

theorem extentOf_roundWithAccuracy {s : Sign} {m : Nat} {e : Int} (a : Accuracy)
    (fine : IsFine m e)
    : extentOf (settled (roundWithAccuracy .binary64 s m e a))
      = s.apply (capped (scaled (kept m e a) (e + excess m e))) := by
  have least := (excess_bounds m e).1
  have bound := kept_le m e a
  rw [roundWithAccuracy_eq]
  split
  case isTrue short => exact extentOf_settled fun _ => ⟨short, least, fine.kept_full a⟩
  case isFalse long =>
    have full : kept m e a = 2 ^ 52 * 2 ^ 1 := by omega
    rw [extentOf_settled fun _ => ⟨by decide, by omega, Or.inl (by decide)⟩, full,
      scaled_mul least rfl]
    rfl

theorem log2_mul_two_pow {m : Nat} (pos : 0 < m) (j : Nat)
    : (m * 2 ^ j).log2 = m.log2 + j := by
  have some : m * 2 ^ j ≠ 0 := Nat.ne_of_gt (Nat.mul_pos pos (Nat.two_pow_pos j))
  refine (Nat.log2_eq_iff some).mpr ⟨?_, ?_⟩
  · rw [Nat.pow_add]
    exact Nat.mul_le_mul_right _ (Nat.log2_self_le (by omega))
  · rw [Nat.add_right_comm, Nat.pow_add]
    exact Nat.mul_lt_mul_of_pos_right Nat.lt_log2_self (Nat.two_pow_pos j)

theorem log2_div_two_pow (n k : Nat) : (n / 2 ^ k).log2 = n.log2 - k := by
  rw [Nat.log2_eq_log_two, Nat.log2_eq_log_two, Nat.log_div_base_pow]

/-- Where a fine mantissa is cut off is where its extent is. -/
theorem scaled_nearest {m : Nat} {e : Int} (pos : 0 < m) (least : -1074 ≤ e) (fine : IsFine m e)
    : scaled (nearest m (excess m e)) (e + excess m e) = nearestDouble (scaled m e) := by
  have places : (scaled m e).log2 - 52 = excess m e + (e + 1074).toNat := by
    unfold IsFine at fine
    rw [scaled, log2_mul_two_pow pos]
    unfold excess
    omega
  have exponents : (e + excess m e + 1074).toNat = excess m e + (e + 1074).toNat := by omega
  rw [nearestDouble, places, scaled, scaled, nearest_mul, exponents]

theorem extentOf_round {s : Sign} {m : Nat} {e : Int} (pos : 0 < m) (least : -1074 ≤ e)
    : extentOf (settled (UnpackedFloat.round .binary64 s m e))
      = s.apply (capped (nearestDouble (scaled m e))) := by
  unfold UnpackedFloat.round decreaseExponent
  dsimp only
  rw [targetExponent_eq, Nat.shiftLeft_eq]
  generalize shift : (e - max (m.log2 + e - 52) (-1074)).toNat = d
  have bits : (m * 2 ^ d).log2 = m.log2 + d := log2_mul_two_pow pos d
  have fine : IsFine (m * 2 ^ d) (e - d) := by
    unfold IsFine
    omega
  rw [extentOf_roundWithAccuracy _ fine, kept_exact,
    scaled_nearest (Nat.mul_pos pos (Nat.two_pow_pos d)) (by omega) fine,
    scaled_mul (e := e) (by omega) (by omega)]

/-- Extent of the double nearest to a number with an extent. -/
def roundedExtent (z : Int) : Int :=
  z.sign * (capped (nearestDouble z.natAbs) : Nat)

theorem extentOf_normalize (z : Int) {e : Int} (least : -1074 ≤ e)
    : extentOf (settled (UnpackedFloat.normalize .binary64 z e .positive))
      = roundedExtent (z * (2 ^ (e + 1074).toNat : Nat)) := by
  have power := Nat.two_pow_pos (e + 1074).toNat
  have size : (z * (2 ^ (e + 1074).toNat : Nat)).natAbs = scaled z.natAbs e := by
    rw [Int.natAbs_mul, Int.natAbs_natCast]
    rfl
  have sign : (z * (2 ^ (e + 1074).toNat : Nat)).sign = z.sign := by
    rw [Int.sign_mul, Int.sign_eq_one_of_pos (Int.natCast_pos.mpr power), Int.mul_one]
  unfold UnpackedFloat.normalize roundedExtent
  rw [size, sign]
  rcases Int.lt_trichotomy z 0 with negative | rfl | positive
  · have part : (-z).toNat = z.natAbs := by omega
    rw [Int.compare_eq_lt.mpr negative, Int.sign_eq_neg_one_of_neg negative]
    dsimp only
    rw [part, extentOf_round (by omega) least, Int.neg_one_mul]
    rfl
  · rw [Int.compare_eq_eq.mpr rfl]
    dsimp only
    rw [settled_zero, Int.sign_zero, Int.zero_mul]
    rfl
  · have part : z.toNat = z.natAbs := by omega
    rw [Int.compare_eq_gt.mpr positive, Int.sign_eq_one_of_pos positive]
    dsimp only
    rw [part, extentOf_round (by omega) least, Int.one_mul]
    rfl

theorem roundedExtent_zero : roundedExtent 0 = 0 := by
  rw [roundedExtent, Int.sign_zero, Int.zero_mul]

theorem roundedExtent_natCast {n : Nat} (pos : 0 < n)
    : roundedExtent n = (capped (nearestDouble n) : Nat) := by
  rw [roundedExtent, Int.sign_eq_one_of_pos (by omega), Int.natAbs_natCast, Int.one_mul]

theorem roundedExtent_neg (z : Int) : roundedExtent (-z) = -roundedExtent z := by
  rw [roundedExtent, roundedExtent, Int.sign_neg, Int.natAbs_neg, Int.neg_mul]

/-- What is not zero is not rounded to zero. -/
theorem roundedExtent_pos {z : Int} (pos : 0 < z) : 0 < roundedExtent z := by
  obtain ⟨n, rfl⟩ := Int.eq_ofNat_of_zero_le (Int.le_of_lt pos)
  have some := capped_pos (nearestDouble_pos (Int.natCast_pos.mp pos))
  rw [roundedExtent_natCast (Int.natCast_pos.mp pos)]
  omega

/-- Rounding keeps the order. -/
theorem roundedExtent_mono_of_pos {y z : Int} (pos : 0 < y) (le : y ≤ z)
    : roundedExtent y ≤ roundedExtent z := by
  obtain ⟨m, rfl⟩ := Int.eq_ofNat_of_zero_le (Int.le_of_lt pos)
  obtain ⟨n, rfl⟩ := Int.eq_ofNat_of_zero_le (Int.le_of_lt (Int.lt_of_lt_of_le pos le))
  rw [roundedExtent_natCast (by omega), roundedExtent_natCast (by omega)]
  exact Int.ofNat_le.mpr (capped_mono (nearestDouble_mono (Int.ofNat_le.mp le)))

/-- A mantissa of 53 bits is not changed by rounding, whatever zeros stand behind it. -/
theorem nearestDouble_scaled {m : Nat} {e : Int} (pos : 0 < m) (short : m < 2 ^ 53)
    : nearestDouble (scaled m e) = scaled m e := by
  have bits : m.log2 < 53 := (Nat.log2_lt (by omega)).mpr short
  generalize behind : (scaled m e).log2 - 52 = j
  rw [scaled, log2_mul_two_pow pos] at behind
  obtain ⟨d, exponent⟩ : ∃ d, (e + 1074).toNat = d + j := ⟨(e + 1074).toNat - j, by omega⟩
  have apart : scaled m e = m * 2 ^ d * 2 ^ j := by
    rw [scaled, exponent, Nat.pow_add, Nat.mul_assoc]
  have exact : nearest (m * 2 ^ d * 2 ^ j) j = m * 2 ^ d := by
    have zeros := nearest_mul (m * 2 ^ d) 0 j
    rw [Nat.zero_add] at zeros
    rw [zeros, nearest_zero]
  have places : (scaled m e).log2 - 52 = j := by
    rw [scaled, log2_mul_two_pow pos]
    exact behind
  rw [nearestDouble, places, apart, exact]

/-- The extent of a double is not changed by rounding. -/
theorem roundedExtent_extentOf {s : Sign} {m : Nat} {e : Int} {pos : 0 < m}
    (rounded : IsRounded (.finite s m e pos)) (inRange : InRange (.finite s m e pos))
    : roundedExtent (extentOf (.finite s m e pos)) = extentOf (.finite s m e pos) := by
  have kept : roundedExtent (scaled m e) = scaled m e := by
    rw [roundedExtent_natCast (scaled_pos pos e), nearestDouble_scaled pos rounded.1, capped,
      if_pos (scaled_lt_limit rounded.2.1 rounded.1 inRange)]
  cases s with
  | negative =>
      have opposite : roundedExtent (-(scaled m e : Int)) = -(scaled m e : Int) := by
        rw [roundedExtent_neg, kept]
      exact opposite
  | positive => exact kept

end Prognosis.Double
