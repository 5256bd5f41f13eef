import Prognosis.Proofs.Scalar.Double.Rules
import Prognosis.Proofs.Scalar.Exact
import Prognosis.Simulation.Summary
import Prognosis.Value.Model

/-! Undefined parameters of growth models. Where a parameter is a term or a factor of the value it
leaves the value undefined, and statistics count the value as such and leave it out. Where it only
enters an exponent it does not: exponents are moved into bounds, and a bound takes the place of one
that is undefined.
-/

namespace Prognosis

variable {α : Type} [Scalar α]

-----------------------------------------------------------------------------------------
-- Statistics
-----------------------------------------------------------------------------------------

namespace Summary

/-- Statistics count the undefined values of a sample. -/
theorem undefinedCount_of_ofValues {order : SumOrder} {percentiles values : List α}
    {s : Summary α} (made : ofValues order percentiles values = .ok s)
    : s.undefinedCount = values.countP Scalar.isUndefined := by
  have split : values.length
      = values.countP Scalar.isUndefined + (Sample.definedOnes values).length := by
    rw [List.length_eq_countP_add_countP Scalar.isUndefined, Sample.definedOnes,
      ← List.countP_eq_length_filter]
    simp
  unfold ofValues at made
  split at made
  · cases made
  · cases made
    change values.length - (Sample.definedOnes values).length = _
    omega

end Summary

namespace Sample

/-- The value is counted as undefined wherever it stands in a sample, and is not among the values
that statistics are made of.
-/
def CountsAsUndefined (v : α) : Prop :=
  ∀ (order : SumOrder) (percentiles before after : List α) (s : Summary α),
    Summary.ofValues order percentiles (before ++ v :: after) = .ok s →
      s.undefinedCount = (before ++ after).countP Scalar.isUndefined + 1
        ∧ definedOnes (before ++ v :: after) = definedOnes (before ++ after)

theorem countsAsUndefined {v : α} (undefined : Scalar.isUndefined v = true)
    : CountsAsUndefined v := by
  intro order percentiles before after s made
  constructor
  · rw [Summary.undefinedCount_of_ofValues made, List.countP_append, List.countP_append,
      List.countP_cons_of_pos undefined, Nat.add_assoc]
  · simp [definedOnes, undefined]

end Sample

namespace Model

variable {m : Model α} {env : Env α} {time origin : α}

-----------------------------------------------------------------------------------------
-- Parameters
-----------------------------------------------------------------------------------------

/-- Names of the coefficients of a polynomial from the given power on, up to the first one that is
missing.
-/
def coefficientNames (m : Model α) : (bound power : Nat) → List (List String)
  | 0, _ => []
  | bound + 1, power =>
      let names := ["c" ++ Decimal.wholeText power]
      if (m.parameter? names).isSome then names :: coefficientNames m bound (power + 1) else []

/-- Names of the parameters that are terms or factors of the value. -/
def scaleNames (m : Model α) : List (List String) :=
  match m.kind with
  | .linear => [["intercept"], ["slope"]]
  | .exponential => [["base"]]
  | .logistic => [["max", "ceiling"]]
  | .polynomial => m.coefficientNames (m.parameters.length + 1) 0
  | .sigmoid | .spline => []

/-- Names of the parameters that enter an exponent. -/
def exponentNames (m : Model α) : List (List String) :=
  match m.kind with
  | .exponential => [["rate"]]
  | .logistic => [["k", "rate"], ["midpoint"]]
  | .sigmoid => [["k"], ["midpoint"]]
  | .linear | .polynomial | .spline => []

/-- The parameters of the model have values, and the powers of time that it takes have, too. -/
structure Evaluates (m : Model α) (env : Env α) (elapsed : α) : Prop where
  parameters : ∀ names ∈ m.scaleNames ++ m.exponentNames, ∀ e, m.parameter? names = some e →
    ∃ x, e.magnitude env = .ok x
  powers : m.kind = .polynomial → ∀ power < m.scaleNames.length,
    ∃ factor, wholePower elapsed power = .ok factor

/-- A parameter with one of the names is given, and its value is undefined. -/
def Undefines (m : Model α) (env : Env α) (names : List String) : Prop :=
  ∃ e x, m.parameter? names = some e ∧ e.magnitude env = .ok x ∧ Scalar.isUndefined x = true

theorem Undefines.isUndefined {names : List String} (undefines : m.Undefines env names)
    {otherwise x : α} (found : m.parameter env names otherwise = .ok x)
    : Scalar.isUndefined x = true := by
  obtain ⟨e, y, given, is, undefined⟩ := undefines
  simp only [Model.parameter, given, is] at found
  cases found
  exact undefined

theorem Evaluates.parameter {elapsed : α} (evaluates : m.Evaluates env elapsed)
    (names : List String) (used : names ∈ m.scaleNames ++ m.exponentNames) (otherwise : α)
    : ∃ x, m.parameter env names otherwise = .ok x := by
  simp only [Model.parameter]
  cases given : m.parameter? names with
  | none => exact ⟨otherwise, rfl⟩
  | some e => exact evaluates.parameters names used e given

-----------------------------------------------------------------------------------------
-- Formulas
-----------------------------------------------------------------------------------------

section Formulas

variable (evaluates : m.Evaluates env (time - origin))

include evaluates

theorem Evaluates.linear (kind : m.kind = .linear)
    : ∃ intercept slope, m.parameter env ["intercept"] Scalar.zero = .ok intercept
      ∧ m.parameter env ["slope"] Scalar.zero = .ok slope
      ∧ m.value env time origin = .ok (intercept + slope * (time - origin)) := by
  obtain ⟨intercept, first⟩ := evaluates.parameter ["intercept"]
    (by simp [scaleNames, kind]) Scalar.zero
  obtain ⟨slope, second⟩ := evaluates.parameter ["slope"]
    (by simp [scaleNames, kind]) Scalar.zero
  refine ⟨intercept, slope, first, second, ?_⟩
  simp only [value, kind, first, second]
  rfl

theorem Evaluates.exponential (kind : m.kind = .exponential)
    : ∃ rate base, m.parameter env ["rate"] (Scalar.ofDecimal false 5 (-2)) = .ok rate
      ∧ m.parameter env ["base"] Scalar.one = .ok base
      ∧ m.value env time origin
        = .ok (base * Scalar.exp (bounded (rate * (time - origin)))) := by
  obtain ⟨rate, first⟩ := evaluates.parameter ["rate"]
    (by simp [exponentNames, kind]) (Scalar.ofDecimal false 5 (-2))
  obtain ⟨base, second⟩ := evaluates.parameter ["base"]
    (by simp [scaleNames, kind]) Scalar.one
  refine ⟨rate, base, first, second, ?_⟩
  simp only [value, kind, first, second]
  rfl

theorem Evaluates.logistic (kind : m.kind = .logistic)
    : ∃ steepness midpoint ceiling,
      m.parameter env ["k", "rate"] (Scalar.ofDecimal false 1 (-1)) = .ok steepness
      ∧ m.parameter env ["midpoint"] (origin + Scalar.ofNat 10) = .ok midpoint
      ∧ m.parameter env ["max", "ceiling"] Scalar.one = .ok ceiling
      ∧ m.value env time origin
        = .ok (ceiling * logisticCurve (steepness * (time - midpoint))) := by
  obtain ⟨steepness, first⟩ := evaluates.parameter ["k", "rate"]
    (by simp [exponentNames, kind]) (Scalar.ofDecimal false 1 (-1))
  obtain ⟨midpoint, second⟩ := evaluates.parameter ["midpoint"]
    (by simp [exponentNames, kind]) (origin + Scalar.ofNat 10)
  obtain ⟨ceiling, third⟩ := evaluates.parameter ["max", "ceiling"]
    (by simp [scaleNames, kind]) Scalar.one
  refine ⟨steepness, midpoint, ceiling, first, second, third, ?_⟩
  simp only [value, kind, first, second, third]
  rfl

theorem Evaluates.sigmoid (kind : m.kind = .sigmoid)
    : ∃ steepness midpoint, m.parameter env ["k"] (Scalar.ofDecimal false 5 (-1)) = .ok steepness
      ∧ m.parameter env ["midpoint"] (origin + Scalar.ofNat 10) = .ok midpoint
      ∧ m.value env time origin = .ok (logisticCurve (steepness * (time - midpoint))) := by
  obtain ⟨steepness, first⟩ := evaluates.parameter ["k"]
    (by simp [exponentNames, kind]) (Scalar.ofDecimal false 5 (-1))
  obtain ⟨midpoint, second⟩ := evaluates.parameter ["midpoint"]
    (by simp [exponentNames, kind]) (origin + Scalar.ofNat 10)
  refine ⟨steepness, midpoint, first, second, ?_⟩
  simp only [value, kind, first, second]
  rfl

end Formulas

-----------------------------------------------------------------------------------------
-- Polynomials
-----------------------------------------------------------------------------------------

variable [Scalar.UndefinedRules α]

/-- A sum of terms is undefined if what it starts from is or if one of its coefficients is. -/
theorem polynomial_undefined {elapsed : α} {bound power : Nat} {total : α}
    (parameters : ∀ names ∈ m.coefficientNames bound power, ∀ e, m.parameter? names = some e →
      ∃ x, e.magnitude env = .ok x)
    (powers : ∀ n < (m.coefficientNames bound power).length,
      ∃ factor, wholePower elapsed (power + n) = .ok factor)
    (undefined : Scalar.isUndefined total = true
      ∨ ∃ names ∈ m.coefficientNames bound power, m.Undefines env names)
    : ∃ v, m.polynomial env elapsed bound power total = .ok v ∧ Scalar.isUndefined v = true := by
  induction bound generalizing power total with
  | zero =>
      rcases undefined with undefined | ⟨names, among, -⟩
      · exact ⟨total, rfl, undefined⟩
      · cases among
  | succ bound ih =>
      simp only [polynomial]
      cases given : m.parameter? ["c" ++ Decimal.wholeText power] with
      | none =>
          rcases undefined with undefined | ⟨names, among, -⟩
          · exact ⟨total, rfl, undefined⟩
          · simp [coefficientNames, given] at among
      | some e =>
          have listed : m.coefficientNames (bound + 1) power
              = ["c" ++ Decimal.wholeText power] :: m.coefficientNames bound (power + 1) := by
            simp [coefficientNames, given]
          rw [listed] at parameters powers undefined
          obtain ⟨coefficient, found⟩ := parameters _ List.mem_cons_self e given
          obtain ⟨factor, raised⟩ := powers 0 (by simp)
          rw [Nat.add_zero] at raised
          simp only [found, raised]
          refine ih (fun names among => parameters names (List.mem_cons_of_mem _ among)) ?_ ?_
          · intro n within
            have later := powers (n + 1) (by simpa using within)
            rwa [Nat.add_comm n, ← Nat.add_assoc] at later
          · rcases undefined with undefined | ⟨names, among, undefines⟩
            · exact Or.inl (Scalar.UndefinedRules.add (Or.inl undefined))
            · rcases List.mem_cons.mp among with rfl | later
              · obtain ⟨e', x, given', found', undefined⟩ := undefines
                rw [given] at given'
                cases given'
                rw [found] at found'
                cases found'
                exact Or.inl (Scalar.UndefinedRules.add
                  (Or.inr (Scalar.UndefinedRules.mul (Or.inl undefined))))
              · exact Or.inr ⟨names, later, undefines⟩

-----------------------------------------------------------------------------------------
-- Values
-----------------------------------------------------------------------------------------

/-- A model whose parameters have values has an undefined value where one of its terms or factors
is undefined, and that value is counted as undefined. Exponents are not among these
(`value_of_undefined_exponent`), and a power of time that exceeds all bounds is a fault.

Witness: `undefined_slope_counts`
-/
theorem value_undefined (evaluates : m.Evaluates env (time - origin)) {names : List String}
    (used : names ∈ m.scaleNames) (undefines : m.Undefines env names)
    : ∃ v, m.value env time origin = .ok v ∧ Scalar.isUndefined v = true
      ∧ Sample.CountsAsUndefined v := by
  suffices found : ∃ v, m.value env time origin = .ok v ∧ Scalar.isUndefined v = true by
    obtain ⟨v, is, undefined⟩ := found
    exact ⟨v, is, undefined, Sample.countsAsUndefined undefined⟩
  cases kind : m.kind with
  | linear =>
      simp only [scaleNames, kind] at used
      obtain ⟨intercept, slope, first, second, is⟩ := evaluates.linear kind
      refine ⟨_, is, ?_⟩
      rcases List.mem_pair.mp used with rfl | rfl
      · exact Scalar.UndefinedRules.add (Or.inl (undefines.isUndefined first))
      · exact Scalar.UndefinedRules.add
          (Or.inr (Scalar.UndefinedRules.mul (Or.inl (undefines.isUndefined second))))
  | exponential =>
      simp only [scaleNames, kind] at used
      obtain rfl := List.mem_singleton.mp used
      obtain ⟨rate, base, -, second, is⟩ := evaluates.exponential kind
      exact ⟨_, is, Scalar.UndefinedRules.mul (Or.inl (undefines.isUndefined second))⟩
  | logistic =>
      simp only [scaleNames, kind] at used
      obtain rfl := List.mem_singleton.mp used
      obtain ⟨steepness, midpoint, ceiling, -, -, third, is⟩ := evaluates.logistic kind
      exact ⟨_, is, Scalar.UndefinedRules.mul (Or.inl (undefines.isUndefined third))⟩
  | polynomial =>
      have powers := evaluates.powers kind
      simp only [scaleNames, kind] at used powers
      have parameters : ∀ names ∈ m.coefficientNames (m.parameters.length + 1) 0, ∀ e,
          m.parameter? names = some e → ∃ x, e.magnitude env = .ok x := by
        intro names among
        refine evaluates.parameters names (List.mem_append_left _ ?_)
        simpa only [scaleNames, kind] using among
      simp only [value, kind]
      exact polynomial_undefined parameters (by simpa using powers)
        (Or.inr ⟨names, used, undefines⟩)
  | sigmoid | spline =>
      simp only [scaleNames, kind] at used
      cases used

section Sources

open Prognosis.Expr

/-- A model with one parameter, the root of a negative number. -/
def rootModel (α : Type) [Scalar α] (kind : ModelKind) (name : String) : Model α where
  kind := kind
  parameters := [(name, call "sqrt" [unary .minus (number Scalar.one none) none] [] none)]
  span := ⟨1, 1⟩

/-- A slope that is undefined makes the value undefined. -/
theorem undefined_slope_counts
    : ∃ v, (rootModel Float .linear "slope").value [] (Scalar.ofNat 2025) (Scalar.ofNat 2020)
        = .ok v
      ∧ Scalar.isUndefined v = true ∧ Sample.CountsAsUndefined v := by
  have evaluates : (rootModel Float .linear "slope").Evaluates []
      (Scalar.ofNat 2025 - Scalar.ofNat 2020) := {
    parameters := by
      intro names used e given
      rcases List.mem_pair.mp used with rfl | rfl
      · cases given
      · cases given
        exact ⟨_, rfl⟩
    powers := nofun
  }
  have used : ["slope"] ∈ (rootModel Float .linear "slope").scaleNames := by
    simp [scaleNames, rootModel]
  exact value_undefined evaluates used ⟨_, _, rfl, rfl, rfl⟩

/-- A rate that is undefined does not: the value is the one at the least exponent. -/
theorem undefined_rate_lost
    : (rootModel Float .exponential "rate").Undefines [] ["rate"]
      ∧ (rootModel Float .exponential "rate").value [] (Scalar.ofNat 2025) (Scalar.ofNat 2020)
        = .ok (Scalar.one * Scalar.exp (-exponentLimit))
      ∧ (rootModel Extended .exponential "rate").Undefines [] ["rate"]
      ∧ (rootModel Extended .exponential "rate").value [] (.whole 2025) (.whole 2020)
        = .ok (.whole (-700)) :=
  ⟨⟨_, _, rfl, rfl, rfl⟩, rfl, ⟨_, _, rfl, rfl, rfl⟩, rfl⟩

end Sources

-----------------------------------------------------------------------------------------
-- Exponents
-----------------------------------------------------------------------------------------

/-- A bound takes the place of what is undefined. -/
theorem bounded_of_undefined {x : α} (undefined : Scalar.isUndefined x = true)
    : bounded x = -exponentLimit := by
  have kept : Scalar.least x exponentLimit = x := by
    rw [Scalar.least, Scalar.UndefinedRules.lt (Or.inr undefined)]
    rfl
  rw [bounded, kept, Scalar.greatest, Scalar.UndefinedRules.lt (Or.inr undefined)]
  rfl

/-- The value with the exponent at its lower bound; zero where there is no exponent. -/
def valueAtBound (m : Model α) (env : Env α) : Except Halt α :=
  match m.kind with
  | .exponential => do
      let base ← m.parameter env ["base"] Scalar.one
      return base * Scalar.exp (-exponentLimit)
  | .logistic => do
      let ceiling ← m.parameter env ["max", "ceiling"] Scalar.one
      return ceiling * (Scalar.one / (Scalar.one + Scalar.exp (-exponentLimit)))
  | .sigmoid => return Scalar.one / (Scalar.one + Scalar.exp (-exponentLimit))
  | .linear | .polynomial | .spline => return Scalar.zero

theorem logisticCurve_of_undefined {x : α} (undefined : Scalar.isUndefined x = true)
    : logisticCurve x = Scalar.one / (Scalar.one + Scalar.exp (-exponentLimit)) := by
  rw [logisticCurve, bounded_of_undefined (Scalar.UndefinedRules.neg undefined)]

/-- A product is undefined if the steepness in it is, or the middle of the time in it. -/
theorem isUndefined_exponent {names steep middle : List String} {otherwise otherwise' k x : α}
    (used : names ∈ [steep, middle]) (undefines : m.Undefines env names)
    (first : m.parameter env steep otherwise = .ok k)
    (second : m.parameter env middle otherwise' = .ok x)
    : Scalar.isUndefined (k * (time - x)) = true := by
  rcases List.mem_pair.mp used with rfl | rfl
  · exact Scalar.UndefinedRules.mul (Or.inl (undefines.isUndefined first))
  · exact Scalar.UndefinedRules.mul
      (Or.inr (Scalar.UndefinedRules.sub (Or.inr (undefines.isUndefined second))))

/-- A model whose parameters have values does not become undefined with an exponent: its value is
the one at the lower bound of the exponent, whatever the time.
-/
theorem value_of_undefined_exponent (evaluates : m.Evaluates env (time - origin))
    {names : List String} (used : names ∈ m.exponentNames) (undefines : m.Undefines env names)
    : m.value env time origin = m.valueAtBound env := by
  cases kind : m.kind with
  | exponential =>
      simp only [exponentNames, kind] at used
      obtain rfl := List.mem_singleton.mp used
      obtain ⟨rate, base, first, second, is⟩ := evaluates.exponential kind
      have exponent : Scalar.isUndefined (rate * (time - origin)) = true :=
        Scalar.UndefinedRules.mul (Or.inl (undefines.isUndefined first))
      simp only [is, valueAtBound, kind, second, bounded_of_undefined exponent]
      rfl
  | logistic =>
      simp only [exponentNames, kind] at used
      obtain ⟨steepness, midpoint, ceiling, first, second, third, is⟩ := evaluates.logistic kind
      have exponent : Scalar.isUndefined (steepness * (time - midpoint)) = true :=
        isUndefined_exponent used undefines first second
      simp only [is, valueAtBound, kind, third, logisticCurve_of_undefined exponent]
      rfl
  | sigmoid =>
      simp only [exponentNames, kind] at used
      obtain ⟨steepness, midpoint, first, second, is⟩ := evaluates.sigmoid kind
      have exponent : Scalar.isUndefined (steepness * (time - midpoint)) = true :=
        isUndefined_exponent used undefines first second
      simp only [is, valueAtBound, kind, logisticCurve_of_undefined exponent]
      rfl
  | linear | polynomial | spline =>
      simp only [exponentNames, kind] at used
      cases used

end Model

end Prognosis
