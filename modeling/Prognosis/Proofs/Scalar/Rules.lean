import Prognosis.Random.Source

/-! Rules of numbers with undefined and infinite values. They say of the operations what the
formulas of the library rely on and no more, so that theorems about these formulas hold of doubles
with all their roundings.
-/

namespace Prognosis.Scalar

variable {α : Type}

/-- Undefined values stay undefined, and no comparison with one holds. -/
class UndefinedRules (α : Type) [Scalar α] : Prop where
  add {x y : α} (either : isUndefined x = true ∨ isUndefined y = true) : isUndefined (x + y) = true
  sub {x y : α} (either : isUndefined x = true ∨ isUndefined y = true) : isUndefined (x - y) = true
  mul {x y : α} (either : isUndefined x = true ∨ isUndefined y = true) : isUndefined (x * y) = true
  div {x y : α} (either : isUndefined x = true ∨ isUndefined y = true) : isUndefined (x / y) = true
  neg {x : α} (undefined : isUndefined x = true) : isUndefined (-x) = true
  lt {x y : α} (either : isUndefined x = true ∨ isUndefined y = true) : lt x y = false

/-- Nothing is equal to an undefined value. -/
class EqualityRules (α : Type) [Scalar α] : Prop where
  undefined {x y : α} (either : isUndefined x = true ∨ isUndefined y = true) : eq x y = false

section Defined

variable [Scalar α] [UndefinedRules α] {x y : α}

theorem UndefinedRules.defined_of_sub (defined : isUndefined (x - y) = false)
    : isUndefined x = false ∧ isUndefined y = false := by
  simp only [← Bool.not_eq_true] at *
  exact ⟨fun left => defined (sub (Or.inl left)), fun right => defined (sub (Or.inr right))⟩

theorem UndefinedRules.defined_of_mul (defined : isUndefined (x * y) = false)
    : isUndefined x = false ∧ isUndefined y = false := by
  simp only [← Bool.not_eq_true] at *
  exact ⟨fun left => defined (mul (Or.inl left)), fun right => defined (mul (Or.inr right))⟩

theorem UndefinedRules.defined_of_div (defined : isUndefined (x / y) = false)
    : isUndefined x = false ∧ isUndefined y = false := by
  simp only [← Bool.not_eq_true] at *
  exact ⟨fun left => defined (div (Or.inl left)), fun right => defined (div (Or.inr right))⟩

end Defined

/-- Finite numbers have a whole part, and infinite ones leave no remainder that is defined. -/
class RangeRules (α : Type) [Scalar α] : Prop where
  truncate?_eq_none_iff (x : α) : truncate? x = none ↔ isFinite x = false
  isUndefined_remainder {x y : α} (left : isUndefined x = false) (right : isUndefined y = false)
    (some : isTrue y = true)
    : isUndefined (remainder x y) = !isFinite x

/-- Numbers that are not undefined are ordered, and differences are ordered like the numbers that
they are taken of.
-/
class OrderRules (α : Type) [Scalar α] : Prop where
  defined_of_lt {x y : α} (less : lt x y = true) : isUndefined x = false ∧ isUndefined y = false
  lt_irrefl (x : α) : lt x x = false
  lt_trans {x y z : α} (first : lt x y = true) (second : lt y z = true) : lt x z = true
  le_iff (x y : α)
    : le x y = true ↔ isUndefined x = false ∧ isUndefined y = false ∧ lt y x = false
  lt_of_lt_of_le {x y z : α} (first : lt x y = true) (second : le y z = true) : lt x z = true
  lt_of_le_of_lt {x y z : α} (first : le x y = true) (second : lt y z = true) : lt x z = true
  zero_lt_sub (x y : α) : lt zero (x - y) = lt y x
  sub_lt_zero (x y : α) : lt (x - y) zero = lt x y
  sub_le_sub {x y z : α} (first : lt x y = true) (second : lt y z = true)
    : le (y - x) (z - x) = true

theorem OrderRules.lt_asymm [Scalar α] [OrderRules α] {x y : α} (less : lt x y = true)
    : lt y x = false := by
  rw [← Bool.not_eq_true]
  intro more
  have circle := lt_trans less more
  rw [lt_irrefl] at circle
  cases circle

/-- Of two numbers that are not undefined one is less, or at most the other. -/
theorem OrderRules.lt_of_not_le [Scalar α] [OrderRules α] {x y : α}
    (dx : isUndefined x = false) (dy : isUndefined y = false) (more : le x y = false)
    : lt y x = true := by
  cases less : lt y x with
  | true => rfl
  | false =>
      rw [(le_iff x y).mpr ⟨dx, dy, less⟩] at more
      cases more

/-- Products and quotients follow the rule of signs, also where they are infinite. -/
class FactorRules (α : Type) [Scalar α] : Prop where
  mul_nonneg {x y : α} (left : lt x zero = false) (right : lt y zero = false)
    : lt (x * y) zero = false
  mul_infinite {x y : α} (left : lt zero x = true) (right : lt zero y = true)
    (infinite : isFinite y = false)
    : lt zero (x * y) = true ∧ isFinite (x * y) = false
  infinite_mul_neg {x y : α} (left : lt zero x = true) (infinite : isFinite x = false)
    (right : lt y zero = true)
    : lt (x * y) zero = true
  infinite_of_le {x y : α} (pos : lt zero x = true) (infinite : isFinite x = false)
    (less : le x y = true)
    : isFinite y = false
  neg_div_pos {x y : α} (left : lt x zero = true) (right : lt zero y = true)
    : lt zero (x / y) = false
  one_le_div {x y : α} (pos : lt zero y = true) (finite : isFinite y = true)
    (less : le y x = true)
    : le one (x / y) = true
  infinite_div_infinite {x y : α} (left : isFinite x = false) (right : isFinite y = false)
    : isUndefined (x / y) = true

/-- What is not negative carries no minus sign, be it zero or undefined, and what is above zero
carries none.
-/
class MinusRules (α : Type) [Scalar α] : Prop where
  pos {x : α} (pos : lt zero x = true) : RandomSource.carriesMinus x = false
  ofNat (n : Nat) : RandomSource.carriesMinus (ofNat n : α) = false
  abs (x : α) : RandomSource.carriesMinus (abs x) = false
  sub_self (x : α) : RandomSource.carriesMinus (x - x) = false
  mul {x y : α} (left : RandomSource.carriesMinus x = false)
    (right : RandomSource.carriesMinus y = false)
    : RandomSource.carriesMinus (x * y) = false
  div {x y : α} (left : RandomSource.carriesMinus x = false)
    (right : RandomSource.carriesMinus y = false)
    : RandomSource.carriesMinus (x / y) = false

end Prognosis.Scalar
