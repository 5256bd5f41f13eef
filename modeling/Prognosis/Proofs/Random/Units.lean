import Prognosis.Proofs.Scalar.Double.Rules
import Prognosis.Random.Stream

/-! Units of the standard source: what it draws lies from zero, included, to one, excluded. A unit
is a count of 53 bits divided by the number of such counts, a power of two, so it is exact.
-/

namespace Prognosis

/-- Units lie from zero, included, to one, excluded. -/
def RandomSource.HasUnits {σ α : Type} [Scalar α] (source : RandomSource σ α) : Prop :=
  ∀ s, Scalar.lt (source.unit s).1 Scalar.zero = false
    ∧ Scalar.lt (source.unit s).1 Scalar.one = true

namespace Double

open Float.Model Float.Model.UnpackedFloat

theorem unpacked_toFloat (w : UInt64)
    : unpacked w.toFloat = settled (UnpackedFloat.normalize .binary64 w.toNat 0 .positive) := rfl

/-- A count of 53 bits is exact as a double. -/
theorem extent_toFloat {w : UInt64} (short : w.toNat < 2 ^ 53)
    : extent w.toFloat = (scaled w.toNat 0 : Nat) := by
  have size : (w.toNat : Int) * (2 ^ ((0 : Int) + 1074).toNat : Nat)
      = (scaled w.toNat 0 : Nat) := rfl
  rw [extent, unpacked_toFloat, extentOf_normalize _ (by decide), size]
  rcases Nat.eq_zero_or_pos w.toNat with zero | pos
  · rw [zero, scaled, Nat.zero_mul]
    exact roundedExtent_zero
  · rw [roundedExtent_natCast (scaled_pos pos 0), nearestDouble_scaled pos short, capped,
      if_pos (scaled_lt_limit (by decide) short (by decide))]

theorem one_le_count {n : Nat} (pos : 0 < n) : scaled (2 ^ 52) (-52) ≤ scaled n 0 := by
  have one : scaled (1 * 2 ^ 52) (-52) = scaled 1 0 := scaled_mul (by decide) (by decide)
  rw [Nat.one_mul] at one
  rw [one]
  exact Nat.mul_le_mul_right _ pos

/-- Such a count is zero or has 53 bits, of which those behind the point are zero. -/
theorem count_cases {w : UInt64} (short : w.toNat < 2 ^ 53)
    : (∃ s, unpacked w.toFloat = .zero s)
      ∨ ∃ m e pos, unpacked w.toFloat = .finite .positive m e pos
        ∧ 2 ^ 52 ≤ m ∧ m < 2 ^ 53 ∧ -52 ≤ e ∧ e ≤ 0 := by
  have number : (unpacked w.toFloat).isNaN = false := by
    rw [unpacked_toFloat, settled_isNaN]
    exact normalize_isNaN _ _
  have rounded := (unpacked_isRounded w.toFloat).1
  have size : extentOf (unpacked w.toFloat) = (scaled w.toNat 0 : Nat) := extent_toFloat short
  have bound := scaled_lt_limit (m := w.toNat) (e := 0) (by decide) short (by decide)
  have far := limit_le_farthest
  cases shape : unpacked w.toFloat with
  | notANumber =>
      rw [shape] at number
      cases number
  | zero s => exact Or.inl ⟨s, rfl⟩
  | infinity s =>
      rw [shape, extentOf_infinity] at size
      cases s with
      | negative =>
          change -(farthest : Int) = _ at size
          omega
      | positive =>
          change (farthest : Int) = _ at size
          omega
  | finite s m e pos =>
      rw [shape] at size rounded
      obtain ⟨shortened, least, full⟩ := rounded
      have some := scaled_pos pos e
      cases s with
      | negative =>
          change -(scaled m e : Int) = _ at size
          omega
      | positive =>
          have same : scaled m e = scaled w.toNat 0 := Int.ofNat_inj.mp size
          have count : 0 < w.toNat := by
            refine Nat.pos_of_ne_zero fun none => ?_
            rw [none, scaled, scaled, Nat.zero_mul] at same
            rw [scaled] at some
            omega
          have large := one_le_count count
          have above : -52 ≤ e := Int.not_lt.mp fun less => by
            have small := scaled_lt_scaled (n := 2 ^ 52) least shortened (by decide) less
            omega
          have below : e ≤ 0 := Int.not_lt.mp fun more => by
            have small := scaled_lt_scaled (by decide) short (show 2 ^ 52 ≤ m by omega) more
            omega
          exact Or.inr ⟨m, e, pos, rfl, by omega, shortened, above, below⟩

/-- The number of such counts. -/
theorem unpacked_counts
    : unpacked (9007199254740992.0 : Float) = .finite .positive (2 ^ 52) 1 (by decide) := by
  rfl

/-- The quotient of a count by the number of counts has one bit too many, which is zero. -/
theorem extentOf_share {m : Nat} {e : Int} (pos : 0 < m) (full : 2 ^ 52 ≤ m) (short : m < 2 ^ 53)
    (above : -52 ≤ e) (below : e ≤ 0)
    : extentOf (settled (UnpackedFloat.div .binary64 (.finite .positive m e pos)
        (.finite .positive (2 ^ 52) 1 (by decide)))) = (scaled m (e - 53) : Nat) := by
  have quotient : UnpackedFloat.div .binary64 (.finite .positive m e pos)
        (.finite .positive (2 ^ 52) 1 (by decide))
      = roundWithAccuracy .binary64 .positive (divCore .binary64 m e (2 ^ 52) 1).1
          (divCore .binary64 m e (2 ^ 52) 1).2.1 (divCore .binary64 m e (2 ^ 52) 1).2.2 := rfl
  have bits : m.log2 = 52 := (Nat.log2_eq_iff (by omega)).mpr ⟨full, short⟩
  have place : min (e - 1) (max (m.log2 + e - ((2 ^ 52).log2 + 1) - 53) (-1074)) = e - 54 := by
    rw [bits, Nat.log2_two_pow]
    omega
  have shift : (e - 1 - (e - 54)).toNat = 53 := by omega
  have twice : m <<< 53 / 2 ^ 52 = m * 2 ^ 1 := by
    rw [Nat.shiftLeft_eq]
    omega
  have exact : m <<< 53 % 2 ^ 52 = 0 := by
    rw [Nat.shiftLeft_eq]
    omega
  have more : (m * 2 ^ 1).log2 = 53 := by rw [log2_mul_two_pow pos, bits]
  have one : excess (m * 2 ^ 1) (e - 54) = 0 + 1 := by
    unfold excess
    rw [more]
    omega
  have kept : nearest (m * 2 ^ 1) (0 + 1) = m := by
    rw [nearest_mul, nearest_zero]
  rw [quotient, divCore_eq]
  simp only [place, shift, twice, exact]
  rw [accuracyOfFraction, if_pos rfl, extentOf_roundWithAccuracy _ (Or.inl (by omega)), kept_exact,
    one, kept]
  have same : e - 54 + (0 + 1 : Nat) = e - 53 := by omega
  rw [same, capped, if_pos (scaled_lt_limit (by omega) short (by omega))]
  rfl

/-- A count divided by the number of counts is a number from zero to one. -/
theorem share_bounds {w : UInt64} (short : w.toNat < 2 ^ 53)
    : Scalar.isUndefined (w.toFloat / 9007199254740992.0) = false
      ∧ 0 ≤ extent (w.toFloat / 9007199254740992.0)
      ∧ extent (w.toFloat / 9007199254740992.0) < extent Scalar.one := by
  rw [extent_one]
  rcases count_cases short with ⟨s, zero⟩ | ⟨m, e, pos, count, full, shortened, above, below⟩
  · have quotient : unpacked (w.toFloat / 9007199254740992.0) = .zero (s / .positive) := by
      rw [unpacked_div, unpacked_counts, zero]
      exact settled_zero _
    have one := scaled_pos (show 0 < 2 ^ 52 by decide) (-52)
    rw [isUndefined_eq, extent, quotient, extentOf_zero]
    exact ⟨rfl, Int.le_refl 0, Int.natCast_pos.mpr one⟩
  · have less := scaled_lt_scaled (m := m) (e := e - 53) (n := 2 ^ 52) (f := -52) (by omega)
      shortened (by decide) (by omega)
    have some := scaled_pos pos (e - 53)
    have quotient : extent (w.toFloat / 9007199254740992.0) = (scaled m (e - 53) : Nat) := by
      rw [extent, unpacked_div, unpacked_counts, count,
        extentOf_share pos full shortened above below]
    exact ⟨defined_of_extent (by omega), by omega, by omega⟩

/-- The standard source draws units, each of 53 bits of its generator. -/
theorem standard_hasUnits : RandomSource.standard.HasUnits := by
  intro g
  have short : (g.next.1 >>> 11).toNat < 2 ^ 53 := by
    have word := g.next.1.toNat_lt
    rw [UInt64.toNat_shiftRight]
    change g.next.1.toNat >>> 11 < 2 ^ 53
    rw [Nat.shiftRight_eq_div_pow]
    omega
  have unit : (RandomSource.standard.unit g).1
      = (g.next.1 >>> 11).toFloat / 9007199254740992.0 := rfl
  obtain ⟨number, nonneg, less⟩ := share_bounds short
  rw [unit, nonneg_iff, lt_iff]
  exact ⟨nonneg, number, rfl, less⟩

end Double

end Prognosis
