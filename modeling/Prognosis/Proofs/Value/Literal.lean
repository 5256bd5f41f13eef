import Prognosis.Proofs.Value.Breakdown

/-! Expressions of literals alone: the number that is found without evaluation against the one that
evaluation finds. Behind signs both keep a percentage on the scale from 0 to 100. Under an operator
between operands evaluation reads it as a fraction, and the number that is found without evaluation
does not.
-/

namespace Prognosis

open Grammar

/-- The operators that are applied to literals without evaluation. -/
def BinaryOp.IsArithmetic (op : BinaryOp) : Prop :=
  op = .add ∨ op = .sub ∨ op = .mul ∨ op = .div

namespace Expr

variable {α : Type} [Scalar α] {env : Env α} {e : Expr α} {x : α}

-----------------------------------------------------------------------------------------
-- Arithmetic
-----------------------------------------------------------------------------------------

/-- Arithmetic reads both operands. -/
theorem shortcut_of_isArithmetic {op : BinaryOp} (arithmetic : op.IsArithmetic) (x : α)
    : shortcut op x = none := by
  rcases arithmetic with rfl | rfl | rfl | rfl <;> rfl

/-- Arithmetic has a result for all numbers. -/
theorem exists_applyStrict_of_isArithmetic {op : BinaryOp} (arithmetic : op.IsArithmetic)
    (x y : α)
    : ∃ z, applyStrict op x y = .ok z := by
  rcases arithmetic with rfl | rfl | rfl | rfl <;> exact ⟨_, rfl⟩

theorem value_of_isArithmetic {op : BinaryOp} (arithmetic : op.IsArithmetic)
    {left right : Expr α} {span : Option Span} {x y : α} (first : value env left = .ok x)
    (second : value env right = .ok y)
    : value env (binary op left right span) = applyStrict op x y := by
  rw [value_binary, first]
  simp only [Except.bind, shortcut_of_isArithmetic arithmetic, second]

/-- What is found behind a sign. -/
theorem literal?_unary {op : UnaryOp} {operand : Expr α} {span : Option Span}
    (folded : (unary op operand span).literal? = some x)
    : ∃ y, operand.literal? = some y ∧ applyUnary op y = x ∧ op ≠ .not := by
  simp only [literal?] at folded
  cases op <;> cases found : operand.literal? <;> rw [found] at folded <;> cases folded <;>
    exact ⟨_, rfl, rfl, nofun⟩

/-- What is found under an operator between operands. -/
theorem literal?_binary {op : BinaryOp} {left right : Expr α} {span : Option Span}
    (folded : (binary op left right span).literal? = some x)
    : op.IsArithmetic ∧ ∃ y z, left.literal? = some y ∧ right.literal? = some z
        ∧ applyStrict op y z = .ok x := by
  simp only [literal?] at folded
  cases first : left.literal? with
  | none =>
      rw [first] at folded
      cases op <;> cases folded
  | some y =>
      cases second : right.literal? with
      | none =>
          rw [first, second] at folded
          cases op <;> cases folded
      | some z =>
          rw [first, second] at folded
          cases op with
          | add =>
              cases folded
              exact ⟨Or.inl rfl, y, z, rfl, rfl, rfl⟩
          | sub =>
              cases folded
              exact ⟨Or.inr (Or.inl rfl), y, z, rfl, rfl, rfl⟩
          | mul =>
              cases folded
              exact ⟨Or.inr (Or.inr (Or.inl rfl)), y, z, rfl, rfl, rfl⟩
          | div =>
              refine ⟨Or.inr (Or.inr (Or.inr rfl)), y, z, rfl, rfl, ?_⟩
              simp only at folded
              split at folded
              · rename_i some
                cases folded
                rw [applyStrict, if_pos some]
              · cases folded
          | _ => cases folded

-----------------------------------------------------------------------------------------
-- Evaluation
-----------------------------------------------------------------------------------------

/-- Where a number is found without evaluation, evaluation finds one too, and the same in every
environment.
-/
theorem value_of_literal? (folded : e.literal? = some x)
    : ∃ y, ∀ env, value env e = .ok y := by
  induction e using induction_on_children generalizing x with
  | step e ih =>
      cases e with
      | number y span => exact ⟨y, fun _ => rfl⟩
      | percentage y span => exact ⟨y / Scalar.ofNat 100, fun _ => rfl⟩
      | currency y _ _ span => exact ⟨y, fun _ => rfl⟩
      | unary op operand span =>
          obtain ⟨z, inner, -, -⟩ := literal?_unary folded
          obtain ⟨y, evaluated⟩ := ih operand (by simp [children]) inner
          refine ⟨applyUnary op y, fun env => ?_⟩
          rw [value_unary, evaluated env]
          rfl
      | binary op left right span =>
          obtain ⟨arithmetic, _, _, first, second, -⟩ := literal?_binary folded
          obtain ⟨y, evaluatedLeft⟩ := ih left (by simp [children]) first
          obtain ⟨z, evaluatedRight⟩ := ih right (by simp [children]) second
          obtain ⟨result, applied⟩ := exists_applyStrict_of_isArithmetic arithmetic y z
          refine ⟨result, fun env => ?_⟩
          rw [value_of_isArithmetic arithmetic (evaluatedLeft env) (evaluatedRight env), applied]
      | text | boolean | name | call => cases folded

/-- The expression with its percentages written as fractions. -/
def fractions : Expr α → Expr α
  | percentage x span => number (x / Scalar.ofNat 100) span
  | unary op operand span => unary op operand.fractions span
  | binary op left right span => binary op left.fractions right.fractions span
  | e => e

/-- Evaluation finds the number that is found without it once percentages are written as
fractions.
-/
theorem value_of_literal?_fractions (folded : e.fractions.literal? = some x)
    : value env e = .ok x := by
  induction e using induction_on_children generalizing x with
  | step e ih =>
      cases e with
      | number y span | currency y _ _ span =>
          cases folded
          rfl
      | percentage y span =>
          cases folded
          rfl
      | unary op operand span =>
          obtain ⟨y, inner, rfl, -⟩ := literal?_unary folded
          rw [value_unary, ih operand (by simp [children]) inner]
          rfl
      | binary op left right span =>
          obtain ⟨arithmetic, y, z, first, second, applied⟩ := literal?_binary folded
          rw [value_of_isArithmetic arithmetic (ih left (by simp [children]) first)
            (ih right (by simp [children]) second), applied]
      | text | boolean | name | call => cases folded

omit [Scalar α] in
theorem isPercentage_of_child {part : Expr α} (child : part ∈ e.children)
    (none : ∀ node ∈ e.nodes, node.isPercentage = false)
    : ∀ node ∈ part.nodes, node.isPercentage = false :=
  fun node below => none node (mem_nodes_of_child child below)

/-- Without percentages there is nothing to write otherwise. -/
theorem fractions_eq_self (none : ∀ node ∈ e.nodes, node.isPercentage = false)
    : e.fractions = e := by
  induction e using induction_on_children with
  | step e ih =>
      have parts (part : Expr α) (child : part ∈ e.children) : part.fractions = part :=
        ih part child (isPercentage_of_child child none)
      cases e with
      | percentage y span => cases none _ (self_mem_nodes _)
      | unary op operand span => rw [fractions, parts operand (by simp [children])]
      | binary op left right span =>
          rw [fractions, parts left (by simp [children]), parts right (by simp [children])]
      | number | currency | text | boolean | name | call => rfl

-----------------------------------------------------------------------------------------
-- Declared magnitudes
-----------------------------------------------------------------------------------------

/-- Percentages stand alone, behind signs at most: no operator between operands has one below it.
-/
def PercentagesAlone (e : Expr α) : Prop :=
  ∀ op left right span, binary op left right span ∈ e.nodes →
    ∀ node ∈ (binary op left right span).nodes, node.isPercentage = false

omit [Scalar α] in
theorem percentagesAlone_of_none (none : ∀ node ∈ e.nodes, node.isPercentage = false)
    : e.PercentagesAlone :=
  fun _ _ _ _ below node inside => none node (mem_nodes_trans below inside)

omit [Scalar α] in
theorem PercentagesAlone.of_child {part : Expr α} (alone : e.PercentagesAlone)
    (child : part ∈ e.children)
    : part.PercentagesAlone :=
  fun op left right span below => alone op left right span (mem_nodes_of_child child below)

/-- Where percentages stand alone, the declared magnitude is the number that is found without
evaluation.
-/
theorem magnitude_of_percentagesAlone (alone : e.PercentagesAlone) (folded : e.literal? = some x)
    : magnitude env e = .ok x := by
  induction e using induction_on_children generalizing x with
  | step e ih =>
      cases e with
      | number y span | percentage y span | currency y _ _ span =>
          cases folded
          rfl
      | unary op operand span =>
          obtain ⟨y, inner, rfl, some⟩ := literal?_unary folded
          have child : operand ∈ (unary op operand span).children := by simp [children]
          have found := ih operand child (alone.of_child child) inner
          cases op with
          | not => exact absurd rfl some
          | plus | plusMinus => exact found
          | minus =>
              rw [magnitude, found]
              rfl
      | binary op left right span =>
          have none := alone op left right span (self_mem_nodes _)
          rw [← fractions_eq_self none] at folded
          exact value_of_literal?_fractions folded
      | text | boolean | name | call => cases folded

/-- Where a number is found without evaluation, there is a declared magnitude, and the same in every
environment.
-/
theorem exists_magnitude_of_literal? (folded : e.literal? = some x)
    : ∃ y, ∀ env, magnitude env e = .ok y := by
  induction e using induction_on_children generalizing x with
  | step e ih =>
      cases e with
      | number y span | percentage y span | currency y _ _ span => exact ⟨y, fun _ => rfl⟩
      | unary op operand span =>
          obtain ⟨_, inner, -, some⟩ := literal?_unary folded
          obtain ⟨y, found⟩ := ih operand (by simp [children]) inner
          cases op with
          | not => exact absurd rfl some
          | plus | plusMinus => exact ⟨y, found⟩
          | minus =>
              refine ⟨-y, fun env => ?_⟩
              rw [magnitude, found env]
      | binary => exact value_of_literal? folded
      | text | boolean | name | call => cases folded

/-- An expression for which a number is found without evaluation has a declared magnitude, and the
same in every environment. It is the number found where percentages stand alone. Under operators
between operands it is not (`percentage_in_sum_misread`): there evaluation reads percentages as
fractions (`value_of_literal?_fractions`).

Witness: `literal_product_read`
-/
theorem magnitude_of_literal? (folded : e.literal? = some x)
    : (∃ y, ∀ env, magnitude env e = .ok y)
      ∧ (e.PercentagesAlone → ∀ env, magnitude env e = .ok x) :=
  ⟨exists_magnitude_of_literal? folded,
    fun alone _ => magnitude_of_percentagesAlone alone folded⟩

/-- A product with a sign is the same number in both readings. -/
theorem literal_product_read
    : let product : Expr Float := unary .minus (binary .mul (number (Scalar.ofNat 6) none)
        (currency (Scalar.ofNat 3) .usd none none) none) none
      product.literal? = some (-Scalar.ofNat 18) ∧ product.PercentagesAlone
        ∧ ∀ env, magnitude env product = .ok (-Scalar.ofNat 18) := by
  intro product
  have folded : product.literal? = some (-Scalar.ofNat 18) := by rfl
  have alone : product.PercentagesAlone := percentagesAlone_of_none (by
    simp [product, nodes, walk, children, isPercentage])
  exact ⟨folded, alone, (magnitude_of_literal? folded).2 alone⟩

/-- The number found for a sum with a percentage is not the one that evaluation finds. -/
theorem percentage_in_sum_misread
    : ∃ p, expression (TokenText.scan "100% + 5" : TokenText Extended).tokens = .ok p
      ∧ p.rest = [] ∧ p.value.literal? = some (.whole 105)
      ∧ magnitude [] p.value = .ok (.whole 6) := by
  -- which numbers they are makes no difference to how they are read
  have sum (x y : Extended)
      : (expression [⟨.percentage x, "100%", ⟨1, 1⟩⟩, ⟨.sign .plus, "+", ⟨1, 6⟩⟩,
          ⟨.number y, "5", ⟨1, 8⟩⟩]).toOption.map (fun p => (p.value, p.rest))
        = some (binary .add (percentage x (some ⟨1, 1⟩)) (number y (some ⟨1, 8⟩)) (some ⟨1, 6⟩),
          []) := by
    cbv
  have source : (TokenText.scan "100% + 5" : TokenText Extended).tokens
      = [⟨.percentage (.whole 100), "100%", ⟨1, 1⟩⟩, ⟨.sign .plus, "+", ⟨1, 6⟩⟩,
        ⟨.number (.whole 5), "5", ⟨1, 8⟩⟩] := by
    cbv
  obtain ⟨p, read, same, rest⟩ := exists_read source (sum (.whole 100) (.whole 5))
  refine ⟨p, read, rest, ?_⟩
  rw [same]
  exact ⟨by rfl, by rfl⟩

end Expr

end Prognosis
