import Prognosis.Proofs.Scalar.Double.Unpacked

/-! Rounding to doubles as arithmetic on natural numbers. What is cut off behind a mantissa is
counted in quarters of its last place, which is all that rounding to the nearest looks at; so
rounding keeps the order of numbers, whatever the places at which they are cut.
-/

namespace Prognosis.Double

open Float.Model Float.Model.UnpackedFloat

-----------------------------------------------------------------------------------------
-- Quarters
-----------------------------------------------------------------------------------------

/-- A mantissa with what is cut off behind it, in quarters of the last place: one quarter stands
for all that is less than a half, and three stand for all that is more.
-/
def quarters (em : ExtendedMantissa) : Nat :=
  4 * em.mantissa + (2 * em.roundBit.toNat + em.stickyBit.toNat)

/-- The quarters after one more bit is cut off. -/
def halved (q : Nat) : Nat :=
  2 * (q / 4) + if q % 4 = 0 then 0 else 1

/-- The quarters after a number of bits is cut off. -/
def cutOff (k q : Nat) : Nat :=
  Nat.repeat halved k q

/-- The nearest whole number to a count of quarters, from halfway the even one. -/
def rounded (q : Nat) : Nat :=
  q / 4 + if q % 4 = 3 then 1 else if q % 4 = 2 then q / 4 % 2 else 0

theorem cutOff_succ (k q : Nat) : cutOff (k + 1) q = halved (cutOff k q) := rfl

theorem quarters_shiftRightOne (em : ExtendedMantissa)
    : quarters em.shiftRightOne = halved (quarters em) := by
  obtain ⟨m, round, sticky⟩ := em
  have parity := Nat.mod_two_eq_zero_or_one m
  cases round <;> cases sticky <;> rcases parity with even | odd <;>
    simp [quarters, halved, ExtendedMantissa.shiftRightOne, *] <;> omega

theorem quarters_shiftRight (em : ExtendedMantissa) (k : Nat)
    : quarters (em >>> k) = cutOff k (quarters em) := by
  induction k with
  | zero => rfl
  | succ k ih =>
      rw [cutOff_succ, ← ih, ← quarters_shiftRightOne]
      rfl

theorem roundedMantissa_eq (em : ExtendedMantissa)
    : em.roundedMantissa = rounded (quarters em) := by
  obtain ⟨m, round, sticky⟩ := em
  cases round <;> cases sticky <;>
    simp [quarters, rounded, ExtendedMantissa.roundedMantissa, ExtendedMantissa.accuracy,
      Accuracy.roundToNearestEven] <;> omega

/-- Whatever the accuracy, the quarters lie behind the mantissa. -/
theorem quarters_div (m : Nat) (a : Accuracy)
    : quarters (.ofMantissaAndAccuracy m a) / 4 = m := by
  cases a with
  | exact => simp [quarters, ExtendedMantissa.ofMantissaAndAccuracy]
  | inexact o => cases o <;> simp [quarters, ExtendedMantissa.ofMantissaAndAccuracy] <;> omega

theorem rounded_mono {p q : Nat} (le : p ≤ q) : rounded p ≤ rounded q := by
  unfold rounded
  grind

/-- Rounding stays next to the whole number below. -/
theorem rounded_bounds (q : Nat) : q / 4 ≤ rounded q ∧ rounded q ≤ q / 4 + 1 := by
  unfold rounded
  grind

theorem cutOff_div (k q : Nat) : cutOff k q / 4 = q / 4 / 2 ^ k := by
  induction k with
  | zero => simp [cutOff, Nat.repeat]
  | succ k ih =>
      have half : halved (cutOff k q) / 4 = cutOff k q / 4 / 2 := by
        unfold halved
        split <;> omega
      rw [cutOff_succ, half, ih, Nat.div_div_eq_div_mul, Nat.pow_succ]

theorem cutOff_add (k j q : Nat) : cutOff (k + j) q = cutOff k (cutOff j q) := by
  induction k with
  | zero =>
      rw [Nat.zero_add]
      rfl
  | succ k ih => rw [Nat.succ_add, cutOff_succ, cutOff_succ, ih]

/-- Cutting off zeros loses nothing. -/
theorem cutOff_zeros (j m : Nat) : cutOff j (4 * (m * 2 ^ j)) = 4 * m := by
  induction j generalizing m with
  | zero => simp [cutOff, Nat.repeat]
  | succ j ih =>
      have shifted : m * 2 ^ (j + 1) = m * 2 * 2 ^ j := by
        rw [Nat.pow_succ', Nat.mul_assoc]
      have one : halved (4 * (m * 2)) = 4 * m := by
        unfold halved
        rw [if_pos (by omega)]
        omega
      rw [cutOff_succ, shifted, ih, one]

-----------------------------------------------------------------------------------------
-- Ratios
-----------------------------------------------------------------------------------------

/-- Twice the whole part of a ratio, and one more where that is not all of it. -/
def marked (a b : Nat) : Nat :=
  2 * (a / b) + if a % b = 0 then 0 else 1

theorem marked_mul {c : Nat} (pos : 0 < c) (a b : Nat) : marked (c * a) (c * b) = marked a b := by
  have rest : c * a % (c * b) = 0 ↔ a % b = 0 := by
    rw [Nat.mul_mod_mul_left, Nat.mul_eq_zero]
    omega
  simp only [marked, Nat.mul_div_mul_left _ _ pos, rest]

theorem halved_marked {b : Nat} (pos : 0 < b) (a : Nat)
    : halved (marked (2 * a) b) = marked a b := by
  have whole : 2 * a / b / 2 = a / b := by
    rw [Nat.div_div_eq_div_mul, Nat.mul_comm b, Nat.mul_div_mul_left _ _ (by decide)]
  have left : 2 * (a % b) = 2 * a % b + b * (2 * a / b % 2) := by
    rw [← Nat.mod_mul, Nat.mul_comm b, Nat.mul_mod_mul_left]
  have parity : b * (2 * a / b % 2) = 0 ↔ 2 * a / b % 2 = 0 := by
    rw [Nat.mul_eq_zero]
    omega
  unfold halved marked
  split <;> split <;> split <;> omega

/-- What is cut off goes to the lower part of the ratio. -/
theorem cutOff_marked {b : Nat} (pos : 0 < b) (a k : Nat)
    : cutOff k (marked (2 * a) b) = marked (2 * a) (2 ^ k * b) := by
  induction k with
  | zero => rw [Nat.pow_zero, Nat.one_mul]; rfl
  | succ k ih =>
      have some : 0 < 2 ^ k * b := Nat.mul_pos (Nat.two_pow_pos k) pos
      rw [cutOff_succ, ih, halved_marked some, Nat.pow_succ', Nat.mul_assoc,
        marked_mul (by decide)]

/-- A quotient is the whole part of a ratio, and its accuracy says how what is left compares with a
half.
-/
theorem quarters_fraction {b : Nat} (pos : 0 < b) (a : Nat)
    : quarters (.ofMantissaAndAccuracy (a / b) (accuracyOfFraction (a % b) b))
      = marked (2 * a) b := by
  have twice : 2 * a = 2 * (a % b) + b * (2 * (a / b)) := by
    have split := Nat.mod_add_div a b
    rw [Nat.mul_left_comm]
    omega
  have whole : 2 * a / b = 2 * (a % b) / b + 2 * (a / b) := by
    rw [twice, Nat.add_mul_div_left _ _ pos]
  have left : 2 * a % b = 2 * (a % b) % b := by
    rw [twice, Nat.add_mul_mod_self_left]
  have less := Nat.mod_lt a pos
  unfold marked
  rw [whole, left]
  generalize a % b = r at less ⊢
  generalize a / b = q
  unfold accuracyOfFraction
  rcases Nat.eq_zero_or_pos r with rfl | some
  · change 4 * q = _
    simp
    omega
  · rw [if_neg (by omega)]
    rcases Nat.lt_trichotomy (2 * r) b with below | half | above
    · rw [Nat.compare_eq_lt.mpr below, Nat.div_eq_of_lt below, Nat.mod_eq_of_lt below,
        if_neg (by omega)]
      change 4 * q + 1 = _
      omega
    · rw [Nat.compare_eq_eq.mpr half, half, Nat.div_self pos, Nat.mod_self, if_pos rfl]
      change 4 * q + 2 = _
      omega
    · have once : 2 * r / b = 1 := by
        rw [Nat.div_eq_iff pos]
        omega
      have rest : 2 * r % b = 2 * r - b := by
        have split := Nat.mod_add_div (2 * r) b
        rw [once] at split
        omega
      rw [Nat.compare_eq_gt.mpr above, once, rest, if_neg (by omega)]
      change 4 * q + 3 = _
      omega

theorem ratio_div_le {a b c d : Nat} (hb : 0 < b) (hd : 0 < d) (le : a * d ≤ c * b)
    : a / b ≤ c / d := by
  rw [Nat.le_div_iff_mul_le hd]
  refine Nat.le_of_mul_le_mul_right ?_ hb
  calc a / b * d * b
      = a / b * b * d := Nat.mul_right_comm ..
    _ ≤ a * d := Nat.mul_le_mul_right d (Nat.div_mul_le_self a b)
    _ ≤ c * b := le

theorem ratio_div_eq {a b c d : Nat} (hb : 0 < b) (hd : 0 < d) (same : a * d = c * b)
    : a / b = c / d :=
  Nat.le_antisymm (ratio_div_le hb hd (Nat.le_of_eq same))
    (ratio_div_le hd hb (Nat.le_of_eq same.symm))

/-- A greater ratio is marked higher: where the whole parts are the same, nothing is left of the
smaller one if nothing is left of the greater one.
-/
theorem marked_mono {a b c d : Nat} (hb : 0 < b) (hd : 0 < d) (le : a * d ≤ c * b)
    : marked a b ≤ marked c d := by
  have whole := ratio_div_le hb hd le
  have all (same : a / b = c / d) (none : c % d = 0) : a % b = 0 := by
    have exact : c = c / d * d := by
      have split := Nat.div_add_mod' c d
      omega
    have bound : a ≤ a / b * b := by
      refine Nat.le_of_mul_le_mul_right ?_ hd
      calc a * d
          ≤ c * b := le
        _ = a / b * b * d := by rw [same, Nat.mul_right_comm, ← exact]
    have split := Nat.div_add_mod' a b
    omega
  unfold marked
  split <;> split <;> grind

/-- The whole number nearest to a ratio, from halfway the even one. -/
def nearestRatio (a b : Nat) : Nat :=
  rounded (marked (2 * a) b)

theorem nearestRatio_mono {a b c d : Nat} (hb : 0 < b) (hd : 0 < d) (le : a * d ≤ c * b)
    : nearestRatio a b ≤ nearestRatio c d := by
  refine rounded_mono (marked_mono hb hd ?_)
  rw [Nat.mul_assoc, Nat.mul_assoc]
  exact Nat.mul_le_mul_left 2 le

theorem nearestRatio_congr {a b c d : Nat} (hb : 0 < b) (hd : 0 < d) (same : a * d = c * b)
    : nearestRatio a b = nearestRatio c d :=
  Nat.le_antisymm (nearestRatio_mono hb hd (Nat.le_of_eq same))
    (nearestRatio_mono hd hb (Nat.le_of_eq same.symm))

theorem nearestRatio_bounds (a b : Nat)
    : a / b ≤ nearestRatio a b ∧ nearestRatio a b ≤ a / b + 1 := by
  have whole : marked (2 * a) b / 4 = a / b := by
    have half : 2 * a / b / 2 = a / b := by
      rw [Nat.div_div_eq_div_mul, Nat.mul_comm b, Nat.mul_div_mul_left _ _ (by decide)]
    unfold marked
    split <;> omega
  have bounds := rounded_bounds (marked (2 * a) b)
  rwa [whole] at bounds

/-- Count of bits of the whole part of a ratio for which a double has no place. -/
def surplus (a b : Nat) : Nat :=
  (a / b).log2 - 52

/-- The number nearest to a ratio among those of 53 bits with zeros behind them. -/
def nearestDoubleRatio (a b : Nat) : Nat :=
  nearestRatio a (2 ^ surplus a b * b) * 2 ^ surplus a b

theorem nearestRatio_le (a b : Nat)
    : nearestRatio a (2 ^ surplus a b * b) ≤ 2 ^ 53 := by
  have floor : a / (2 ^ surplus a b * b) < 2 ^ 53 := by
    rw [Nat.mul_comm, ← Nat.div_div_eq_div_mul, Nat.div_lt_iff_lt_mul (Nat.two_pow_pos _),
      ← Nat.pow_add]
    refine Nat.lt_of_lt_of_le Nat.lt_log2_self (Nat.pow_le_pow_right (by decide) ?_)
    unfold surplus
    omega
  have bound := (nearestRatio_bounds a (2 ^ surplus a b * b)).2
  omega

theorem le_nearestRatio {a b : Nat} (long : 52 ≤ (a / b).log2)
    : 2 ^ 52 ≤ nearestRatio a (2 ^ surplus a b * b) := by
  refine Nat.le_trans ?_ (nearestRatio_bounds a _).1
  have bits : 52 + surplus a b = (a / b).log2 := by
    unfold surplus
    omega
  rw [Nat.mul_comm, ← Nat.div_div_eq_div_mul, Nat.le_div_iff_mul_le (Nat.two_pow_pos _),
    ← Nat.pow_add, bits]
  refine Nat.log2_self_le fun none => ?_
  rw [none, Nat.log2_zero] at long
  omega

/-- Rounding keeps the order. Of two ratios that are cut at different places the smaller one is
rounded to at most the power of two above it, and the greater one to at least the power of two
below it.
-/
theorem nearestDoubleRatio_mono {a b c d : Nat} (hb : 0 < b) (hd : 0 < d) (le : a * d ≤ c * b)
    : nearestDoubleRatio a b ≤ nearestDoubleRatio c d := by
  have whole := ratio_div_le hb hd le
  have logs : (a / b).log2 ≤ (c / d).log2 := by
    rcases Nat.eq_zero_or_pos (a / b) with zero | some
    · simp [zero]
    · exact (Nat.le_log2 (by omega)).mpr
        (Nat.le_trans (Nat.log2_self_le (Nat.ne_of_gt some)) whole)
  unfold nearestDoubleRatio
  rcases Nat.eq_or_lt_of_le (Nat.sub_le_sub_right logs 52) with same | less
  · have places : surplus a b = surplus c d := same
    have power := Nat.two_pow_pos (surplus c d)
    rw [places]
    refine Nat.mul_le_mul_right _
      (nearestRatio_mono (Nat.mul_pos power hb) (Nat.mul_pos power hd) ?_)
    rw [Nat.mul_left_comm, Nat.mul_left_comm c]
    exact Nat.mul_le_mul_left _ le
  · have places : surplus a b < surplus c d := less
    have long : 52 ≤ (c / d).log2 := by
      unfold surplus at places
      omega
    calc nearestRatio a (2 ^ surplus a b * b) * 2 ^ surplus a b
        ≤ 2 ^ 53 * 2 ^ surplus a b := Nat.mul_le_mul_right _ (nearestRatio_le a b)
      _ = 2 ^ (53 + surplus a b) := (Nat.pow_add ..).symm
      _ ≤ 2 ^ (52 + surplus c d) := Nat.pow_le_pow_right (by decide) (by omega)
      _ = 2 ^ 52 * 2 ^ surplus c d := Nat.pow_add ..
      _ ≤ nearestRatio c (2 ^ surplus c d * d) * 2 ^ surplus c d :=
          Nat.mul_le_mul_right _ (le_nearestRatio long)

theorem nearestDoubleRatio_zero (b : Nat) : nearestDoubleRatio 0 b = 0 := by
  simp [nearestDoubleRatio, nearestRatio, marked, rounded]

theorem nearestDoubleRatio_congr {a b c d : Nat} (hb : 0 < b) (hd : 0 < d) (same : a * d = c * b)
    : nearestDoubleRatio a b = nearestDoubleRatio c d :=
  Nat.le_antisymm (nearestDoubleRatio_mono hb hd (Nat.le_of_eq same))
    (nearestDoubleRatio_mono hd hb (Nat.le_of_eq same.symm))

-----------------------------------------------------------------------------------------
-- Nearest numbers
-----------------------------------------------------------------------------------------

/-- The whole number nearest to `m / 2 ^ k`. -/
def nearest (m k : Nat) : Nat :=
  rounded (cutOff k (4 * m))

theorem nearest_eq (m k : Nat) : nearest m k = nearestRatio m (2 ^ k) := by
  have fourfold : 4 * m = marked (2 * m) 1 := by
    simp only [marked, Nat.div_one, Nat.mod_one, if_true]
    omega
  rw [nearest, fourfold, cutOff_marked (by decide), Nat.mul_one]
  rfl

theorem nearest_zero (m : Nat) : nearest m 0 = m := by
  simp [nearest, cutOff, Nat.repeat, rounded]

/-- Zeros make no difference. -/
theorem nearest_mul (m k j : Nat) : nearest (m * 2 ^ j) (k + j) = nearest m k := by
  rw [nearest, cutOff_add, cutOff_zeros, nearest]

/-- The number nearest to a number among those of 53 bits with zeros behind them. -/
def nearestDouble (n : Nat) : Nat :=
  nearest n (n.log2 - 52) * 2 ^ (n.log2 - 52)

theorem nearestDouble_eq (n : Nat) : nearestDouble n = nearestDoubleRatio n 1 := by
  rw [nearestDouble, nearestDoubleRatio, nearest_eq, surplus, Nat.div_one, Nat.mul_one]

theorem nearestDouble_mono {m n : Nat} (le : m ≤ n) : nearestDouble m ≤ nearestDouble n := by
  rw [nearestDouble_eq, nearestDouble_eq]
  exact nearestDoubleRatio_mono (by decide) (by decide) (Nat.mul_le_mul_right 1 le)

theorem nearestDouble_pos {n : Nat} (pos : 0 < n) : 0 < nearestDouble n := by
  have one : nearestDouble 1 = 1 := by decide
  have least := nearestDouble_mono pos
  rwa [one] at least

-----------------------------------------------------------------------------------------
-- Rounded numbers
-----------------------------------------------------------------------------------------

/-- Count of bits of a mantissa for which a double has no place. -/
def excess (m : Nat) (e : Int) : Nat :=
  (max (m.log2 + e - 52) (-1074) - e).toNat

theorem targetExponent_eq (m : Nat) (e : Int)
    : Format.binary64.targetExponent (totalExponent m e) = max (m.log2 + e - 52) (-1074) := by
  have least : Format.binary64.minExponent = -1074 := by decide
  have width : (Format.binary64.mantissaBits : Int) = 53 := by decide
  unfold Format.targetExponent totalExponent
  omega

theorem shiftToTargetExponent_eq (m : Nat) (e : Int) (a : Accuracy)
    : shiftToTargetExponent .binary64 m e a
      = (ExtendedMantissa.ofMantissaAndAccuracy m a >>> excess m e, e + excess m e) := by
  unfold shiftToTargetExponent shiftToExponent
  rw [targetExponent_eq]
  rfl

theorem excess_bounds (m : Nat) (e : Int)
    : -1074 ≤ e + excess m e ∧ m.log2 ≤ 52 + excess m e := by
  unfold excess
  omega

theorem excess_of_lt {m : Nat} {e : Int} (short : m < 2 ^ 53) (least : -1074 ≤ e)
    : excess m e = 0 := by
  have bits : m.log2 ≤ 52 := by
    rcases Nat.eq_zero_or_pos m with rfl | pos
    · simp
    · exact Nat.lt_succ_iff.mp ((Nat.log2_lt (by omega)).mpr short)
  unfold excess
  omega

theorem excess_two_pow {e : Int} (least : -1074 ≤ e) : excess (2 ^ 53) e = 1 := by
  unfold excess
  rw [Nat.log2_two_pow]
  omega

/-- What is kept of a mantissa when it is rounded. -/
def kept (m : Nat) (e : Int) (a : Accuracy) : Nat :=
  rounded (cutOff (excess m e) (quarters (.ofMantissaAndAccuracy m a)))

theorem kept_exact (m : Nat) (e : Int) : kept m e .exact = nearest m (excess m e) := rfl

theorem kept_bounds (m : Nat) (e : Int) (a : Accuracy)
    : m / 2 ^ excess m e ≤ kept m e a ∧ kept m e a ≤ m / 2 ^ excess m e + 1 := by
  have bounds := rounded_bounds (cutOff (excess m e) (quarters (.ofMantissaAndAccuracy m a)))
  rw [cutOff_div, quarters_div] at bounds
  exact bounds

theorem kept_le (m : Nat) (e : Int) (a : Accuracy) : kept m e a ≤ 2 ^ 53 := by
  have floor : m / 2 ^ excess m e < 2 ^ 53 := by
    have bits := (excess_bounds m e).2
    rw [Nat.div_lt_iff_lt_mul (Nat.two_pow_pos _), ← Nat.pow_add]
    exact Nat.lt_of_lt_of_le Nat.lt_log2_self (Nat.pow_le_pow_right (by decide) (by omega))
  have bound := (kept_bounds m e a).2
  omega

/-- The mantissa is long enough, or its exponent is small enough, for a rounded result. -/
def IsFine (m : Nat) (e : Int) : Prop :=
  52 ≤ m.log2 ∨ e ≤ -1074

/-- A fine mantissa uses up all bits unless the exponent is the least one. -/
theorem IsFine.kept_full {m : Nat} {e : Int} (fine : IsFine m e) (a : Accuracy)
    : 2 ^ 52 ≤ kept m e a ∨ e + excess m e = -1074 := by
  by_cases least : e + excess m e = -1074
  · exact Or.inr least
  · have bits : m.log2 = 52 + excess m e := by
      unfold IsFine at fine
      unfold excess at *
      omega
    refine Or.inl (Nat.le_trans ?_ (kept_bounds m e a).1)
    rw [Nat.le_div_iff_mul_le (Nat.two_pow_pos _), ← Nat.pow_add, ← bits]
    refine Nat.log2_self_le ?_
    rintro rfl
    rw [Nat.log2_zero] at bits
    omega

/-- The number with a mantissa, which may be zero. -/
def ofMantissa (s : Sign) (m : Nat) (e : Int) : UnpackedFloat :=
  if h : m = 0 then .zero s else .finite s m e (Nat.pos_of_ne_zero h)

theorem ofMantissa_hasSign (s : Sign) (m : Nat) (e : Int) : HasSign s (ofMantissa s m e) := by
  unfold ofMantissa
  split
  case isTrue => exact .zero
  case isFalse => exact .finite _ _ _

/-- A mantissa is rounded once. Where that fills one bit too many, the last one is zero and is cut
off without a loss.
-/
theorem roundWithAccuracy_eq (s : Sign) (m : Nat) (e : Int) (a : Accuracy)
    : roundWithAccuracy .binary64 s m e a
      = if kept m e a < 2 ^ 53 then ofMantissa s (kept m e a) (e + excess m e)
        else ofMantissa s (2 ^ 52) (e + excess m e + 1) := by
  have least := (excess_bounds m e).1
  have bound := kept_le m e a
  have first : (ExtendedMantissa.ofMantissaAndAccuracy m a >>> excess m e).roundedMantissa
      = kept m e a := by
    rw [roundedMantissa_eq, quarters_shiftRight]
    rfl
  have twice : roundWithAccuracy .binary64 s m e a
      = ofMantissa s
          (ExtendedMantissa.ofMantissaAndAccuracy (kept m e a) .exact
            >>> excess (kept m e a) (e + excess m e)).mantissa
          (e + excess m e + excess (kept m e a) (e + excess m e)) := by
    unfold roundWithAccuracy
    simp only [shiftToTargetExponent_eq, first]
    rfl
  rw [twice]
  split
  case isTrue short =>
    rw [excess_of_lt short least, Int.natCast_zero, Int.add_zero]
    rfl
  case isFalse long =>
    have full : kept m e a = 2 ^ 53 := by omega
    rw [full, excess_two_pow least]
    rfl

theorem roundWithAccuracy_hasSign (s : Sign) (m : Nat) (e : Int) (a : Accuracy)
    : HasSign s (roundWithAccuracy .binary64 s m e a) := by
  rw [roundWithAccuracy_eq]
  split <;> exact ofMantissa_hasSign _ _ _

end Prognosis.Double
