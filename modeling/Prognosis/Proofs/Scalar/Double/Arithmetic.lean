import Prognosis.Proofs.Scalar.Double.Extent

/-! Arithmetic of doubles by signs and extents. A difference has the rounded difference of the
extents, so it is zero only where there is none, and differences are ordered like the numbers they
are taken of. Products and quotients follow the rule of signs, and a quotient by a number that is
not greater is at least one.
-/

namespace Prognosis.Double

open Float.Model Float.Model.UnpackedFloat

-----------------------------------------------------------------------------------------
-- Signs
-----------------------------------------------------------------------------------------

theorem exists_hasSign {u : UnpackedFloat} (defined : u.isNaN = false) : ∃ s, HasSign s u := by
  cases u with
  | notANumber => cases defined
  | infinity s => exact ⟨s, .infinity⟩
  | zero s => exact ⟨s, .zero⟩
  | finite s m e pos => exact ⟨s, .finite m e pos⟩

theorem settled_isNaN (u : UnpackedFloat) : (settled u).isNaN = u.isNaN := by
  cases defined : u.isNaN with
  | false =>
      obtain ⟨s, signed⟩ := exists_hasSign defined
      exact signed.settled.isNaN
  | true =>
      cases u with
      | notANumber => rfl
      | _ => cases defined

/-- The extent does not lie on the other side of the sign. -/
theorem HasSign.extent {s : Sign} {u : UnpackedFloat} (signed : HasSign s u)
    : 0 ≤ s.apply (extentOf u) := by
  cases signed with
  | infinity => cases s <;> simp only [extentOf, Sign.apply] <;> omega
  | zero => cases s <;> exact Int.le_refl 0
  | finite m e pos => cases s <;> simp only [extentOf, Sign.apply] <;> omega

theorem HasSign.nonneg {u : UnpackedFloat} (signed : HasSign .positive u) : 0 ≤ extentOf u :=
  signed.extent

theorem HasSign.nonpos {u : UnpackedFloat} (signed : HasSign .negative u) : extentOf u ≤ 0 :=
  Int.neg_nonneg.mp signed.extent

/-- Only a zero has a sign and no extent. -/
theorem HasSign.eq_zero {s : Sign} {u : UnpackedFloat} (signed : HasSign s u)
    (none : extentOf u = 0)
    : u = .zero s := by
  have far := limit_pos
  cases signed with
  | infinity => cases s <;> simp only [extentOf, Sign.apply, farthest] at none <;> omega
  | zero => rfl
  | finite m e pos =>
      have some := scaled_pos pos e
      cases s <;> simp only [extentOf, Sign.apply] at none <;> omega

theorem hasSign_of_pos {u : UnpackedFloat} (pos : 0 < extentOf u) : HasSign .positive u := by
  rcases defined : u.isNaN with _ | _
  · obtain ⟨_ | _, signed⟩ := exists_hasSign defined
    · have nonpos := signed.nonpos
      omega
    · exact signed
  · cases u <;> first | cases pos | cases defined

theorem hasSign_of_neg {u : UnpackedFloat} (neg : extentOf u < 0) : HasSign .negative u := by
  rcases defined : u.isNaN with _ | _
  · obtain ⟨_ | _, signed⟩ := exists_hasSign defined
    · exact signed
    · have nonneg := signed.nonneg
      omega
  · cases u <;> first | cases neg | cases defined

/-- A number that is not finite is an infinity. -/
theorem HasSign.eq_infinity {s : Sign} {u : UnpackedFloat} (signed : HasSign s u)
    (infinite : u.isFinite = false)
    : u = .infinity s := by
  cases signed with
  | infinity => rfl
  | zero => cases infinite
  | finite m e pos => cases infinite

theorem mul_hasSign {s t : Sign} {u v : UnpackedFloat} (hu : HasSign s u) (hv : HasSign t v)
    : (UnpackedFloat.mul .binary64 u v).isNaN = true
      ∨ HasSign (s * t) (UnpackedFloat.mul .binary64 u v) := by
  cases hu with
  | infinity =>
      cases hv with
      | infinity => exact Or.inr .infinity
      | zero => exact Or.inl rfl
      | finite n f pos => exact Or.inr .infinity
  | zero =>
      cases hv with
      | infinity => exact Or.inl rfl
      | zero => exact Or.inr .zero
      | finite n f pos => exact Or.inr .zero
  | finite m e pos =>
      cases hv with
      | infinity => exact Or.inr .infinity
      | zero => exact Or.inr .zero
      | finite n f pos' => exact Or.inr (roundWithAccuracy_hasSign _ _ _ _)

theorem div_hasSign {s t : Sign} {u v : UnpackedFloat} (hu : HasSign s u) (hv : HasSign t v)
    : (UnpackedFloat.div .binary64 u v).isNaN = true
      ∨ HasSign (s / t) (UnpackedFloat.div .binary64 u v) := by
  cases hu with
  | infinity =>
      cases hv with
      | infinity => exact Or.inl rfl
      | zero => exact Or.inr .infinity
      | finite n f pos => exact Or.inr .infinity
  | zero =>
      cases hv with
      | infinity => exact Or.inr .zero
      | zero => exact Or.inl rfl
      | finite n f pos => exact Or.inr .zero
  | finite m e pos =>
      cases hv with
      | infinity => exact Or.inr .zero
      | zero => exact Or.inr .infinity
      | finite n f pos' => exact Or.inr (roundWithAccuracy_hasSign _ _ _ _)

theorem extentOf_settled_undefined {u : UnpackedFloat} (undefined : u.isNaN = true)
    : extentOf (settled u) = 0 := by
  cases u with
  | notANumber => rfl
  | _ => cases undefined

theorem extentOf_zero_mul (s : Sign) (v : UnpackedFloat)
    : extentOf (settled (UnpackedFloat.mul .binary64 (.zero s) v)) = 0 := by
  cases v with
  | notANumber => exact extentOf_settled_undefined rfl
  | infinity t => exact extentOf_settled_undefined rfl
  | zero t => exact congrArg extentOf (settled_zero (s * t))
  | finite t n f pos => exact congrArg extentOf (settled_zero (s * t))

theorem extentOf_mul_zero (u : UnpackedFloat) (t : Sign)
    : extentOf (settled (UnpackedFloat.mul .binary64 u (.zero t))) = 0 := by
  cases u with
  | notANumber => exact extentOf_settled_undefined rfl
  | infinity s => exact extentOf_settled_undefined rfl
  | zero s => exact congrArg extentOf (settled_zero (s * t))
  | finite s m e pos => exact congrArg extentOf (settled_zero (s * t))

/-- A product of numbers that are not negative is not negative, be they negative zeros. -/
theorem HasSign.mul_nonneg {s t : Sign} {u v : UnpackedFloat} (su : HasSign s u)
    (sv : HasSign t v) (hu : 0 ≤ extentOf u) (hv : 0 ≤ extentOf v)
    : 0 ≤ extentOf (Double.settled (UnpackedFloat.mul .binary64 u v)) := by
  cases s with
  | negative =>
      rw [su.eq_zero (Int.le_antisymm su.nonpos hu)]
      exact Int.le_of_eq (extentOf_zero_mul _ _).symm
  | positive =>
      cases t with
      | negative =>
          rw [sv.eq_zero (Int.le_antisymm sv.nonpos hv)]
          exact Int.le_of_eq (extentOf_mul_zero _ _).symm
      | positive =>
          rcases mul_hasSign su sv with undefined | signed
          · exact Int.le_of_eq (extentOf_settled_undefined undefined).symm
          · exact signed.settled.nonneg

-----------------------------------------------------------------------------------------
-- Differences
-----------------------------------------------------------------------------------------

theorem roundedExtent_pos_iff (z : Int) : 0 < roundedExtent z ↔ 0 < z := by
  refine ⟨fun rounded => ?_, roundedExtent_pos⟩
  rcases Int.lt_trichotomy z 0 with negative | rfl | positive
  · have opposite := roundedExtent_pos (Int.neg_pos.mpr negative)
    rw [roundedExtent_neg] at opposite
    omega
  · rw [roundedExtent_zero] at rounded
    omega
  · exact positive

theorem roundedExtent_neg_iff (z : Int) : roundedExtent z < 0 ↔ z < 0 := by
  have opposite := roundedExtent_pos_iff (-z)
  rw [roundedExtent_neg] at opposite
  omega

/-- Rounding keeps the order, below zero as above it. -/
theorem roundedExtent_mono {y z : Int} (le : y ≤ z) : roundedExtent y ≤ roundedExtent z := by
  by_cases positive : 0 < y
  · exact roundedExtent_mono_of_pos positive le
  · by_cases negative : z < 0
    · have opposite := roundedExtent_mono_of_pos (y := -z) (z := -y) (by omega) (by omega)
      rw [roundedExtent_neg, roundedExtent_neg] at opposite
      omega
    · have below := roundedExtent_pos_iff y
      have above := roundedExtent_neg_iff z
      omega

/-- Beyond the limit everything is rounded to an infinity. -/
theorem roundedExtent_far {z : Int} (far : (limit : Int) ≤ z) : roundedExtent z = farthest := by
  have pos := limit_pos
  obtain ⟨n, rfl⟩ := Int.eq_ofNat_of_zero_le (a := z) (by omega)
  have kept : nearestDouble limit = limit := by
    unfold limit
    exact nearestDouble_scaled (by decide) (by decide)
  have beyond := nearestDouble_mono (Int.ofNat_le.mp far)
  rw [roundedExtent_natCast (by omega), capped, if_neg (by omega)]

theorem roundedExtent_far_below {z : Int} (far : z ≤ -(limit : Int))
    : roundedExtent z = -(farthest : Int) := by
  have opposite := roundedExtent_far (z := -z) (by omega)
  rw [roundedExtent_neg] at opposite
  omega

/-- Rounding changes no double. -/
theorem roundedExtent_kept {u : UnpackedFloat} (hu : IsRounded u ∧ InRange u)
    : roundedExtent (extentOf u) = extentOf u := by
  have far : (limit : Int) ≤ farthest := Int.ofNat_le.mpr limit_le_farthest
  cases u with
  | notANumber => exact roundedExtent_zero
  | infinity s =>
      cases s with
      | negative => exact roundedExtent_far_below (Int.neg_le_neg far)
      | positive => exact roundedExtent_far far
  | zero s => exact roundedExtent_zero
  | finite s m e pos => exact roundedExtent_extentOf hu.1 hu.2

theorem extentOf_bounds {u : UnpackedFloat} (hu : IsRounded u ∧ InRange u)
    (finite : u.isFinite = true)
    : -(limit : Int) < extentOf u ∧ extentOf u < limit := by
  have pos := limit_pos
  cases u with
  | notANumber => cases finite
  | infinity s => cases finite
  | zero s => exact ⟨show -(limit : Int) < 0 by omega, show 0 < (limit : Int) by omega⟩
  | finite s m e some =>
      have low := scaled_pos some e
      have high := scaled_lt_limit hu.1.2.1 hu.1.1 hu.2
      cases s
      · exact ⟨show -(limit : Int) < -(scaled m e : Int) by omega,
          show -(scaled m e : Int) < limit by omega⟩
      · exact ⟨show -(limit : Int) < scaled m e by omega, show (scaled m e : Int) < limit by omega⟩

/-- A mantissa is widened to a smaller exponent without a change of the extent. -/
theorem apply_widened (s : Sign) (m : Nat) {e f : Int} (least : -1074 ≤ f) (le : f ≤ e)
    : s.apply (m <<< (e - f).toNat : Nat) * (2 ^ (f + 1074).toNat : Nat)
      = s.apply (scaled m e) := by
  have same : (m <<< (e - f).toNat) * 2 ^ (f + 1074).toNat = scaled m e := by
    rw [Nat.shiftLeft_eq]
    exact scaled_mul least (by omega)
  rw [← same, Int.natCast_mul]
  cases s with
  | negative => exact Int.neg_mul _ _
  | positive => rfl

/-- The difference of finite numbers is taken with the smaller exponent of the two. -/
theorem extentOf_sub_finite {s t : Sign} {m n : Nat} {e f : Int} {hm : 0 < m} {hn : 0 < n}
    (hu : IsRounded (.finite s m e hm)) (hv : IsRounded (.finite t n f hn))
    : extentOf (settled (UnpackedFloat.sub .binary64 (.finite s m e hm) (.finite t n f hn)))
      = roundedExtent (extentOf (.finite s m e hm) - extentOf (.finite t n f hn)) := by
  have least : -1074 ≤ min e f := by
    have he := hu.2.1
    have hf := hv.2.1
    omega
  have difference : UnpackedFloat.sub .binary64 (.finite s m e hm) (.finite t n f hn)
      = UnpackedFloat.normalize .binary64
          (s.apply (m <<< (e - min e f).toNat : Nat) - t.apply (n <<< (f - min e f).toNat : Nat))
          (min e f) .positive := rfl
  rw [difference, extentOf_normalize _ least, Int.sub_mul,
    apply_widened s m least (Int.min_le_left e f), apply_widened t n least (Int.min_le_right e f)]
  rfl

theorem extentOf_sub {u v : UnpackedFloat} (hu : IsRounded u ∧ InRange u)
    (hv : IsRounded v ∧ InRange v) (defined : (UnpackedFloat.sub .binary64 u v).isNaN = false)
    : extentOf (settled (UnpackedFloat.sub .binary64 u v))
      = roundedExtent (extentOf u - extentOf v) := by
  have far : farthest = 2 * limit := rfl
  have minuend (s : Sign) {v : UnpackedFloat} (hv : IsRounded v ∧ InRange v)
      (finite : v.isFinite = true)
      : extentOf (settled (.infinity s)) = roundedExtent (extentOf (.infinity s) - extentOf v) := by
    have bounds := extentOf_bounds hv finite
    rw [settled_infinity]
    cases s with
    | negative =>
        exact (roundedExtent_far_below
          (show -(farthest : Int) - extentOf v ≤ -(limit : Int) by omega)).symm
    | positive =>
        exact (roundedExtent_far (show (limit : Int) ≤ farthest - extentOf v by omega)).symm
  have subtrahend (t : Sign) {u : UnpackedFloat} (hu : IsRounded u ∧ InRange u)
      (finite : u.isFinite = true)
      : extentOf (settled (.infinity (-t)))
        = roundedExtent (extentOf u - extentOf (.infinity t)) := by
    have bounds := extentOf_bounds hu finite
    rw [settled_infinity]
    cases t with
    | negative =>
        have far : (limit : Int) ≤ extentOf u - -(farthest : Int) := by omega
        exact (roundedExtent_far far).symm
    | positive =>
        exact (roundedExtent_far_below
          (show extentOf u - (farthest : Int) ≤ -(limit : Int) by omega)).symm
  cases u with
  | notANumber => cases defined
  | infinity s =>
      cases v with
      | notANumber => cases defined
      | infinity t =>
          cases s <;> cases t
          · cases defined
          · exact (roundedExtent_far_below
              (show -(farthest : Int) - farthest ≤ -(limit : Int) by omega)).symm
          · exact (roundedExtent_far
              (show (limit : Int) ≤ farthest - -(farthest : Int) by omega)).symm
          · cases defined
      | zero t => exact minuend s hv rfl
      | finite t n f pos => exact minuend s hv rfl
  | zero s =>
      cases v with
      | notANumber => cases defined
      | infinity t => exact subtrahend t hu rfl
      | zero t =>
          rw [extentOf_zero, extentOf_zero, Int.sub_self, roundedExtent_zero]
          cases s <;> cases t <;> rfl
      | finite t n f pos =>
          have opposite : IsRounded (.finite (-t) n f pos) ∧ InRange (.finite (-t) n f pos) := hv
          have swapped : extentOf (.zero s) - extentOf (.finite t n f pos)
              = extentOf (.finite (-t) n f pos) := by
            rw [extentOf_zero, Int.zero_sub]
            cases t with
            | negative => exact Int.neg_neg _
            | positive => rfl
          rw [swapped, roundedExtent_extentOf opposite.1 opposite.2]
          exact congrArg extentOf (settled_of_isRounded opposite.1 opposite.2)
  | finite s m e pos =>
      cases v with
      | notANumber => cases defined
      | infinity t => exact subtrahend t hu rfl
      | zero t =>
          rw [extentOf_zero, Int.sub_zero, roundedExtent_extentOf hu.1 hu.2]
          exact congrArg extentOf (settled_of_isRounded hu.1 hu.2)
      | finite t n f pos' => exact extentOf_sub_finite hu.1 hv.1

theorem normalize_isNaN (z e : Int)
    : (UnpackedFloat.normalize .binary64 z e .positive).isNaN = false := by
  unfold UnpackedFloat.normalize UnpackedFloat.round
  split
  · exact (roundWithAccuracy_hasSign _ _ _ _).isNaN
  · rfl
  · exact (roundWithAccuracy_hasSign _ _ _ _).isNaN

/-- A difference of numbers is undefined only between infinities of one sign. -/
theorem sub_isNaN {u v : UnpackedFloat} (du : u.isNaN = false) (dv : v.isNaN = false)
    (apart : ∀ s, u = .infinity s → v ≠ .infinity s)
    : (UnpackedFloat.sub .binary64 u v).isNaN = false := by
  cases u with
  | notANumber => cases du
  | infinity s =>
      cases v with
      | notANumber => cases dv
      | infinity t => cases s <;> cases t <;> first | rfl | exact absurd rfl (apart _ rfl)
      | zero t => rfl
      | finite t n f pos => rfl
  | zero s =>
      cases v with
      | notANumber => cases dv
      | infinity t => rfl
      | zero t => cases s <;> cases t <;> rfl
      | finite t n f pos => rfl
  | finite s m e pos =>
      cases v with
      | notANumber => cases dv
      | infinity t => rfl
      | zero t => rfl
      | finite t n f pos' => exact normalize_isNaN _ _

theorem sub_defined {u v : UnpackedFloat} (du : u.isNaN = false) (dv : v.isNaN = false)
    (apart : extentOf u ≠ extentOf v)
    : (UnpackedFloat.sub .binary64 u v).isNaN = false :=
  sub_isNaN du dv fun _ infinite same => apart (by rw [infinite, same])

/-- Differences with a finite number are defined. -/
theorem sub_finite {u v : UnpackedFloat} (du : u.isNaN = false) (dv : v.isNaN = false)
    (finite : u.isFinite = true ∨ v.isFinite = true)
    : (UnpackedFloat.sub .binary64 u v).isNaN = false := by
  refine sub_isNaN du dv fun s infinite same => ?_
  rw [infinite, same] at finite
  rcases finite with finite | finite <;> cases finite

-----------------------------------------------------------------------------------------
-- Sums
-----------------------------------------------------------------------------------------

theorem extentOf_neg (u : UnpackedFloat) : extentOf (UnpackedFloat.neg u) = -extentOf u := by
  cases u with
  | notANumber => rfl
  | infinity s => cases s <;> simp [UnpackedFloat.neg, extentOf, Sign.apply]
  | zero s => rfl
  | finite s m e pos => cases s <;> simp [UnpackedFloat.neg, extentOf, Sign.apply]

/-- A sum is the difference with the opposite number. -/
theorem add_eq_sub_neg (u v : UnpackedFloat)
    : UnpackedFloat.add .binary64 u v
      = UnpackedFloat.sub .binary64 u (UnpackedFloat.neg v) := by
  cases u with
  | notANumber => rfl
  | infinity s =>
      cases v with
      | infinity t => cases s <;> cases t <;> rfl
      | _ => rfl
  | zero s =>
      cases v with
      | notANumber => rfl
      | infinity t => cases t <;> rfl
      | zero t => cases s <;> cases t <;> rfl
      | finite t n f pos => cases t <;> rfl
  | finite s m e pos =>
      cases v with
      | infinity t => cases t <;> rfl
      | finite t n f pos' =>
          have opposite (z : Int) (k : Nat) : z + t.apply k = z - (-t).apply k := by
            cases t with
            | negative => exact rfl
            | positive => exact (Int.sub_neg z k).symm
          exact congrArg (UnpackedFloat.normalize .binary64 · (min e f) .positive) (opposite _ _)
      | _ => rfl

theorem neg_isRounded {u : UnpackedFloat} (hu : IsRounded u ∧ InRange u)
    : IsRounded (UnpackedFloat.neg u) ∧ InRange (UnpackedFloat.neg u) := by
  cases u <;> exact hu

/-- Sums with a finite number are defined. -/
theorem add_finite {u v : UnpackedFloat} (du : u.isNaN = false) (dv : v.isNaN = false)
    (finite : u.isFinite = true ∨ v.isFinite = true)
    : (UnpackedFloat.add .binary64 u v).isNaN = false := by
  rw [add_eq_sub_neg]
  refine sub_finite du ?_ (finite.imp_right fun finite => ?_)
  · cases v <;> exact dv
  · cases v <;> exact finite

theorem extentOf_add {u v : UnpackedFloat} (hu : IsRounded u ∧ InRange u)
    (hv : IsRounded v ∧ InRange v) (defined : (UnpackedFloat.add .binary64 u v).isNaN = false)
    : extentOf (settled (UnpackedFloat.add .binary64 u v))
      = roundedExtent (extentOf u + extentOf v) := by
  rw [add_eq_sub_neg] at *
  rw [extentOf_sub hu (neg_isRounded hv) defined, extentOf_neg, Int.sub_neg]

-----------------------------------------------------------------------------------------
-- Quotients
-----------------------------------------------------------------------------------------

theorem divCore_eq (m : Nat) (e : Int) (n : Nat) (f : Int)
    : divCore .binary64 m e n f
      = let t := min (e - f) (max (m.log2 + e - (n.log2 + f) - 53) (-1074))
        (m <<< (e - f - t).toNat / n, t,
          accuracyOfFraction (m <<< (e - f - t).toNat % n) n) := by
  have target : Format.binary64.targetExponent (totalExponent m e - totalExponent n f)
      = max (m.log2 + e - (n.log2 + f) - 53) (-1074) := by
    have least : Format.binary64.minExponent = -1074 := by decide
    have width : (Format.binary64.mantissaBits : Int) = 53 := by decide
    unfold Format.targetExponent totalExponent
    omega
  unfold divCore
  rw [target]

/-- The quotient of mantissas has 53 bits unless its exponent is small. -/
theorem quotient_isFine {m n : Nat} {e f t : Int} (hm : 0 < m) (hn : 0 < n)
    (small : t ≤ max (m.log2 + e - (n.log2 + f) - 53) (-1074)) (le : t ≤ e - f)
    : IsFine (m <<< (e - f - t).toNat / n) t := by
  unfold IsFine
  rw [Nat.shiftLeft_eq]
  by_cases least : t ≤ -1074
  · exact Or.inr least
  · have long : 2 ^ 52 ≤ m * 2 ^ (e - f - t).toNat / n := by
      rw [Nat.le_div_iff_mul_le hn]
      calc 2 ^ 52 * n
          ≤ 2 ^ 52 * 2 ^ (n.log2 + 1) := Nat.mul_le_mul_left _ (Nat.le_of_lt Nat.lt_log2_self)
        _ = 2 ^ (52 + (n.log2 + 1)) := (Nat.pow_add ..).symm
        _ ≤ 2 ^ (m.log2 + (e - f - t).toNat) := Nat.pow_le_pow_right (by decide) (by omega)
        _ = 2 ^ m.log2 * 2 ^ (e - f - t).toNat := Nat.pow_add ..
        _ ≤ m * 2 ^ (e - f - t).toNat :=
            Nat.mul_le_mul_right _ (Nat.log2_self_le (Nat.ne_of_gt hm))
    exact Or.inl ((Nat.le_log2 (by omega)).mpr long)

/-- What a quotient of mantissas has in surplus is what the ratio of the numbers has. -/
theorem excess_quotient {m n a b : Nat} {t : Int} (hn : 0 < n) (hb : 0 < b)
    (fine : IsFine (m / n) t)
    (same : m * b * 2 ^ (t + 1074).toNat = a * n * 2 ^ (-(t + 1074)).toNat)
    : (t + excess (m / n) t + 1074).toNat = surplus a b := by
  unfold IsFine at fine
  unfold surplus excess
  rcases Int.le_total 0 (t + 1074) with above | below
  · have none : (-(t + 1074)).toNat = 0 := by omega
    rw [none, Nat.pow_zero, Nat.mul_one] at same
    have ratio : a / b / 2 ^ (t + 1074).toNat = m / n := by
      rw [Nat.div_div_eq_div_mul]
      refine ratio_div_eq (Nat.mul_pos hb (Nat.two_pow_pos _)) hn ?_
      rw [← same, Nat.mul_assoc]
    have logs := log2_div_two_pow (a / b) (t + 1074).toNat
    rw [ratio] at logs
    omega
  · have none : (t + 1074).toNat = 0 := by omega
    rw [none, Nat.pow_zero, Nat.mul_one] at same
    have ratio : m / n / 2 ^ (-(t + 1074)).toNat = a / b := by
      rw [Nat.div_div_eq_div_mul]
      refine ratio_div_eq (Nat.mul_pos hn (Nat.two_pow_pos _)) hb ?_
      rw [same, Nat.mul_assoc]
    have logs := log2_div_two_pow (m / n) (-(t + 1074)).toNat
    rw [ratio] at logs
    omega

theorem kept_fraction {n : Nat} (pos : 0 < n) (m : Nat) (t : Int)
    : kept (m / n) t (accuracyOfFraction (m % n) n)
      = nearestRatio m (2 ^ excess (m / n) t * n) := by
  rw [kept, quarters_fraction pos, cutOff_marked pos, nearestRatio]

/-- A quotient of mantissas that is fine is rounded as the ratio of the numbers is. -/
theorem scaled_quotient {m n a b : Nat} {t : Int} (hn : 0 < n) (hb : 0 < b)
    (fine : IsFine (m / n) t)
    (same : m * b * 2 ^ (t + 1074).toNat = a * n * 2 ^ (-(t + 1074)).toNat)
    : scaled (kept (m / n) t (accuracyOfFraction (m % n) n)) (t + excess (m / n) t)
      = nearestDoubleRatio a b := by
  have places := excess_quotient hn hb fine same
  have least := (excess_bounds (m / n) t).1
  have ratio : m * (2 ^ surplus a b * b) = a * (2 ^ excess (m / n) t * n) := by
    have exponents : surplus a b + (-(t + 1074)).toNat
        = excess (m / n) t + (t + 1074).toNat := by omega
    refine Nat.eq_of_mul_eq_mul_right (Nat.two_pow_pos (-(t + 1074)).toNat) ?_
    calc m * (2 ^ surplus a b * b) * 2 ^ (-(t + 1074)).toNat
        = m * b * 2 ^ (surplus a b + (-(t + 1074)).toNat) := by rw [Nat.pow_add]; ring
      _ = m * b * 2 ^ (t + 1074).toNat * 2 ^ excess (m / n) t := by
          rw [exponents, Nat.pow_add]
          ring
      _ = a * (2 ^ excess (m / n) t * n) * 2 ^ (-(t + 1074)).toNat := by
          rw [same]
          ring
  have power := Nat.two_pow_pos
  rw [scaled, kept_fraction hn, places, nearestDoubleRatio]
  refine congrArg (· * _) (nearestRatio_congr ?_ ?_ ratio)
  · exact Nat.mul_pos (power _) hn
  · exact Nat.mul_pos (power _) hb

/-- A quotient of finite numbers is the double nearest to the ratio of their extents. -/
theorem extentOf_div {s t : Sign} {m n : Nat} {e f : Int} {hm : 0 < m} {hn : 0 < n}
    (hu : IsRounded (.finite s m e hm)) (hv : IsRounded (.finite t n f hn))
    : extentOf (settled (UnpackedFloat.div .binary64 (.finite s m e hm) (.finite t n f hn)))
      = (s / t).apply
          (capped (nearestDoubleRatio (scaled m e * scaled (2 ^ 52) (-52)) (scaled n f))
            : Nat) := by
  have quotient : UnpackedFloat.div .binary64 (.finite s m e hm) (.finite t n f hn)
      = roundWithAccuracy .binary64 (s / t) (divCore .binary64 m e n f).1
          (divCore .binary64 m e n f).2.1 (divCore .binary64 m e n f).2.2 := rfl
  rw [quotient, divCore_eq]
  dsimp only
  have small := Int.min_le_right (e - f) (max (m.log2 + e - (n.log2 + f) - 53) (-1074))
  have below := Int.min_le_left (e - f) (max (m.log2 + e - (n.log2 + f) - 53) (-1074))
  generalize min (e - f) (max (m.log2 + e - (n.log2 + f) - 53) (-1074)) = r at *
  have fine := quotient_isFine hm hn small below
  obtain ⟨w, places, whole⟩ : ∃ w : Nat, (w : Int) = 1074 ∧ scaled (2 ^ 52) (-52) = 2 ^ w :=
    ⟨52 + (-52 + 1074 : Int).toNat, by omega, (Nat.pow_add ..).symm⟩
  have ratio : m <<< (e - f - r).toNat * scaled n f * 2 ^ (r + 1074).toNat
      = scaled m e * scaled (2 ^ 52) (-52) * n * 2 ^ (-(r + 1074)).toNat := by
    have exponents : (e - f - r).toNat + (f + 1074).toNat + (r + 1074).toNat
        = (e + 1074).toNat + w + (-(r + 1074)).toNat := by
      have he := hu.2.1
      have hf := hv.2.1
      omega
    calc m <<< (e - f - r).toNat * scaled n f * 2 ^ (r + 1074).toNat
        = m * n * 2 ^ ((e - f - r).toNat + (f + 1074).toNat + (r + 1074).toNat) := by
          rw [Nat.shiftLeft_eq, scaled, Nat.pow_add, Nat.pow_add]
          ring
      _ = scaled m e * scaled (2 ^ 52) (-52) * n * 2 ^ (-(r + 1074)).toNat := by
          rw [exponents, Nat.pow_add, Nat.pow_add, whole, scaled]
          ring
  rw [extentOf_roundWithAccuracy _ fine, scaled_quotient hn (scaled_pos hn f) fine ratio]

/-- Nothing is lost where a number is divided by itself, or by nothing but it. -/
theorem nearestDoubleRatio_self {n : Nat} (pos : 0 < n)
    : nearestDoubleRatio (n * scaled (2 ^ 52) (-52)) n = scaled (2 ^ 52) (-52) := by
  have single : nearestDoubleRatio (n * scaled (2 ^ 52) (-52)) n
      = nearestDoubleRatio (scaled (2 ^ 52) (-52)) 1 :=
    nearestDoubleRatio_congr pos (by decide) (by rw [Nat.mul_one, Nat.mul_comm])
  rw [single, ← nearestDouble_eq, nearestDouble_scaled (by decide) (by decide)]

theorem capped_one : capped (scaled (2 ^ 52) (-52)) = scaled (2 ^ 52) (-52) :=
  if_pos (scaled_lt_limit (by decide) (by decide) (by decide))

/-- A positive number divided by a finite one that is not greater gives at least one. -/
theorem one_le_div {u v : UnpackedFloat} (hu : IsRounded u) (hv : IsRounded v)
    (finite : v.isFinite = true) (pos : 0 < extentOf v) (le : extentOf v ≤ extentOf u)
    : (scaled (2 ^ 52) (-52) : Int)
      ≤ extentOf (settled (UnpackedFloat.div .binary64 u v)) := by
  have hasSign := hasSign_of_pos pos
  cases hasSign with
  | infinity => cases finite
  | zero => cases pos
  | finite n f hn =>
      have hasSign := hasSign_of_pos (Int.lt_of_lt_of_le pos le)
      cases hasSign with
      | infinity =>
          have one : scaled (2 ^ 52) (-52) < limit :=
            scaled_lt_limit (by decide) (by decide) (by decide)
          have far := limit_le_farthest
          rw [show UnpackedFloat.div .binary64 (.infinity .positive) (.finite .positive n f hn)
            = .infinity .positive from rfl, settled_infinity, extentOf_infinity]
          exact Int.ofNat_le.mpr (by omega)
      | zero => exact absurd (Int.lt_of_lt_of_le pos le) (Int.lt_irrefl 0)
      | finite m e hm =>
          have order : scaled n f ≤ scaled m e := Int.ofNat_le.mp le
          have some := scaled_pos hn f
          rw [extentOf_div hu hv]
          refine Int.ofNat_le.mpr ?_
          calc scaled (2 ^ 52) (-52)
              = capped (nearestDoubleRatio (scaled n f * scaled (2 ^ 52) (-52)) (scaled n f)) := by
                rw [nearestDoubleRatio_self some, capped_one]
            _ ≤ capped (nearestDoubleRatio (scaled m e * scaled (2 ^ 52) (-52)) (scaled n f)) :=
                capped_mono (nearestDoubleRatio_mono some some
                  (Nat.mul_le_mul_right _ (Nat.mul_le_mul_right _ order)))

end Prognosis.Double
