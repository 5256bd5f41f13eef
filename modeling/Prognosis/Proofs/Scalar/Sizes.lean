import Prognosis.Proofs.Scalar.Double.Axis
import Prognosis.Proofs.Scalar.Exact

/-! Numbers that measure how far something moves. Distances of finite numbers are such sizes, and so
are shares of them in percent and sums, also where these are too large to be finite.
-/

namespace Prognosis

namespace Scalar

variable {α : Type}

/-- The number is neither undefined nor below zero. -/
def IsSize [Scalar α] (x : α) : Prop :=
  isUndefined x = false ∧ lt x zero = false

/-- What is computed of sizes is a size. -/
class SizeRules (α : Type) [Scalar α] : Prop where
  zero : IsSize (zero : α)
  distance {x y : α} (left : isFinite x = true) (right : isFinite y = true) : IsSize (abs (x - y))
  share {x y : α} (size : IsSize x) (finite : isFinite y = true) (some : isTrue y = true)
    : IsSize (x / abs y)
  percent {x : α} (size : IsSize x) : IsSize (x * ofNat 100)
  add {x y : α} (left : IsSize x) (right : IsSize y) : IsSize (x + y)

/-- Sizes add up to a size. By induction along the list, with what was added before. -/
theorem isSize_sum [Scalar α] [SizeRules α] {xs : List α} (sizes : ∀ x ∈ xs, IsSize x)
    : IsSize (sum xs) := by
  have added (first : α) (started : IsSize first) : IsSize (xs.foldl (· + ·) first) := by
    induction xs generalizing first with
    | nil => exact started
    | cons x rest ih =>
        obtain ⟨size, others⟩ := List.forall_mem_cons.mp sizes
        exact ih others (first + x) (SizeRules.add started size)
  exact added zero SizeRules.zero

end Scalar

-----------------------------------------------------------------------------------------
-- Doubles
-----------------------------------------------------------------------------------------

namespace Double

open Float.Model Float.Model.UnpackedFloat Scalar

theorem isSize_iff (x : Float) : IsSize x ↔ isUndefined x = false ∧ 0 ≤ extent x := by
  rw [IsSize, nonneg_iff]

/-- What is positive is a size. -/
theorem isSize_of_hasSign {x : Float} (signed : HasSign .positive (unpacked x)) : IsSize x :=
  (isSize_iff x).mpr ⟨signed.isNaN, signed.nonneg⟩

/-- A finite number is a number. -/
theorem isUndefined_of_isFinite {x : Float} (finite : isFinite x = true)
    : isUndefined x = false := by
  rw [isFinite_eq] at finite
  rw [isUndefined_eq]
  cases shape : unpacked x with
  | notANumber =>
      rw [shape] at finite
      cases finite
  | _ => rfl

theorem abs_hasSign {x : Float} (defined : isUndefined x = false)
    : HasSign .positive (unpacked (Scalar.abs x)) := by
  rw [isUndefined_eq] at defined
  rw [unpacked_abs]
  cases shape : unpacked x with
  | notANumber =>
      rw [shape] at defined
      cases defined
  | infinity s => exact HasSign.infinity.settled
  | zero s => exact HasSign.zero.settled
  | finite s m e pos => exact (HasSign.finite m e pos).settled

/-- A finite number that is not zero, without its sign. -/
theorem unpacked_abs_finite {x : Float} (finite : isFinite x = true) (some : isTrue x = true)
    : ∃ (m : Nat) (e : Int) (pos : 0 < m),
      unpacked (Scalar.abs x) = .finite .positive m e pos := by
  have rounded := unpacked_isRounded x
  rw [unpacked_abs]
  rw [isFinite_eq] at finite
  cases shape : unpacked x with
  | notANumber =>
      rw [shape] at finite
      cases finite
  | infinity s =>
      rw [shape] at finite
      cases finite
  | zero s =>
      have zero : Scalar.eq x Scalar.zero = true := by
        rw [eq_iff, extent_zero, extent, isUndefined_eq, shape]
        exact ⟨rfl, rfl, rfl⟩
      rw [Scalar.isTrue, zero] at some
      cases some
  | finite s m e pos =>
      rw [shape] at rounded
      exact ⟨m, e, pos, settled_of_isRounded (u := .finite .positive m e pos) rounded.1 rounded.2⟩

/-- A quotient by a finite number that is not zero is a number. -/
theorem div_isNaN {u : UnpackedFloat} (defined : u.isNaN = false) (s : Sign) {m : Nat} (e : Int)
    (pos : 0 < m)
    : (UnpackedFloat.div .binary64 u (.finite s m e pos)).isNaN = false := by
  cases u with
  | notANumber => cases defined
  | infinity t => rfl
  | zero t => rfl
  | finite t n f some => exact (roundWithAccuracy_hasSign _ _ _ _).isNaN

/-- So is a product with one. -/
theorem mul_isNaN {u : UnpackedFloat} (defined : u.isNaN = false) (s : Sign) {m : Nat} (e : Int)
    (pos : 0 < m)
    : (UnpackedFloat.mul .binary64 u (.finite s m e pos)).isNaN = false := by
  cases u with
  | notANumber => cases defined
  | infinity t => rfl
  | zero t => rfl
  | finite t n f some => exact (roundWithAccuracy_hasSign _ _ _ _).isNaN

/-- A quotient of a number that is not negative, be it a negative zero, by a positive one. -/
theorem HasSign.div_nonneg {s : Sign} {u v : UnpackedFloat} (su : HasSign s u)
    (sv : HasSign .positive v) (hu : 0 ≤ extentOf u)
    : 0 ≤ extentOf (Double.settled (UnpackedFloat.div .binary64 u v)) := by
  cases s with
  | negative =>
      rw [su.eq_zero (Int.le_antisymm su.nonpos hu)]
      cases sv with
      | infinity => exact Int.le_of_eq (congrArg extentOf (settled_zero _)).symm
      | zero => exact Int.le_of_eq (extentOf_settled_undefined rfl).symm
      | finite n f pos => exact Int.le_of_eq (congrArg extentOf (settled_zero _)).symm
  | positive =>
      rcases div_hasSign su sv with undefined | signed
      · exact Int.le_of_eq (extentOf_settled_undefined undefined).symm
      · exact signed.settled.nonneg

instance : SizeRules Float where
  zero := isSize_of_hasSign (unpacked_zero ▸ .zero)
  distance {x y} left right := by
    refine isSize_of_hasSign (abs_hasSign ?_)
    rw [isUndefined_eq, unpacked_sub, settled_isNaN]
    exact sub_finite (isUndefined_of_isFinite left) (isUndefined_of_isFinite right) (Or.inl left)
  share {x y} size finite some := by
    obtain ⟨defined, nonneg⟩ := (isSize_iff x).mp size
    obtain ⟨m, e, pos, divisor⟩ := unpacked_abs_finite finite some
    obtain ⟨s, signed⟩ := exists_hasSign defined
    rw [isSize_iff, isUndefined_eq, extent, unpacked_div, settled_isNaN, divisor]
    exact ⟨div_isNaN defined .positive e pos, signed.div_nonneg (.finite m e pos) nonneg⟩
  percent {x} size := by
    obtain ⟨m, e, pos, hundred, -⟩ := unpacked_ofNat (n := 100) (by decide) (by decide)
    refine ⟨?_, FactorRules.mul_nonneg size.2 ?_⟩
    · rw [isUndefined_eq, unpacked_mul, settled_isNaN, hundred]
      exact mul_isNaN size.1 .positive e pos
    · exact (isSize_of_hasSign (hundred ▸ .finite m e pos)).2
  add {x y} left right := by
    obtain ⟨dx, nx⟩ := (isSize_iff x).mp left
    obtain ⟨dy, ny⟩ := (isSize_iff y).mp right
    have far := farthest_pos
    have defined : (UnpackedFloat.add .binary64 (unpacked x) (unpacked y)).isNaN = false := by
      rw [add_eq_sub_neg]
      refine sub_isNaN dx ?_ fun s infinite opposite => ?_
      · rw [isUndefined_eq] at dy
        cases shape : unpacked y <;> rw [shape] at dy <;> first | rfl | cases dy
      · -- of two opposite infinities one is below zero
        have extents : extent x = -extent y := by
          rw [extent, extent, ← extentOf_neg, infinite, opposite]
        have some : extent x ≠ 0 := by
          rw [extent, infinite, extentOf_infinity]
          cases s <;> simp only [Sign.apply] <;> omega
        omega
    rw [isSize_iff, isUndefined_eq, extent, unpacked_add, settled_isNaN,
      extentOf_add (unpacked_isRounded x) (unpacked_isRounded y) defined]
    exact ⟨defined, roundedExtent_zero ▸ roundedExtent_mono (Int.add_nonneg nx ny)⟩

end Double

-----------------------------------------------------------------------------------------
-- Whole numbers
-----------------------------------------------------------------------------------------

namespace Scalar

theorem isSize_int_iff (x : Int) : IsSize x ↔ 0 ≤ x := by
  have order : lt x zero = Decidable.decide (x < 0) := rfl
  rw [IsSize, order, decide_eq_false_iff_not, Int.not_lt]
  exact ⟨And.right, fun nonneg => ⟨rfl, nonneg⟩⟩

instance : SizeRules Int where
  zero := (isSize_int_iff 0).mpr (Int.le_refl 0)
  distance {x y} _ _ := (isSize_int_iff _).mpr (Int.natCast_nonneg (x - y).natAbs)
  share {x y} size _ _ := by
    rw [isSize_int_iff] at *
    exact Int.ediv_nonneg size (Int.natCast_nonneg y.natAbs)
  percent {x} size := by
    rw [isSize_int_iff] at *
    exact Int.mul_nonneg size (by decide)
  add left right := by
    rw [isSize_int_iff] at *
    exact Int.add_nonneg left right

instance : OrderRules Int where
  defined_of_lt _ := ⟨rfl, rfl⟩
  lt_irrefl x := decide_eq_false (Int.lt_irrefl x)
  lt_trans first second :=
    decide_eq_true (Int.lt_trans (of_decide_eq_true first) (of_decide_eq_true second))
  le_iff x y := by
    change Decidable.decide (x ≤ y) = true ↔ _ ∧ _ ∧ Decidable.decide (y < x) = false
    rw [decide_eq_true_iff, decide_eq_false_iff_not, Int.not_lt]
    exact ⟨fun le => ⟨rfl, rfl, le⟩, fun le => le.2.2⟩
  lt_of_lt_of_le first second :=
    decide_eq_true (Int.lt_of_lt_of_le (of_decide_eq_true first) (of_decide_eq_true second))
  lt_of_le_of_lt first second :=
    decide_eq_true (Int.lt_of_le_of_lt (of_decide_eq_true first) (of_decide_eq_true second))
  zero_lt_sub _ _ := decide_eq_decide.mpr Int.sub_pos
  sub_lt_zero _ _ := decide_eq_decide.mpr ⟨Int.lt_of_sub_neg, Int.sub_neg_of_lt⟩
  sub_le_sub {x y z} _ second :=
    decide_eq_true (Int.sub_le_sub_right (Int.le_of_lt (of_decide_eq_true second)) x)

end Scalar

end Prognosis
