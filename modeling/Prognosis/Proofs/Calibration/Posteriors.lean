import Mathlib.Data.List.TakeWhile
import Prognosis.Calibration.Posterior
import Prognosis.Proofs.Check.Reads
import Prognosis.Proofs.Scalar.Exact
import Prognosis.Proofs.Simulation.Moments

/-! Posteriors as they are written, and the signs of their deviations. No prior has a negative one,
no method makes one, and none is written into a posterior; zero deviations are possible, since equal
observations have one. All parameters of a posterior are numbers, so they are read the same
everywhere, and of all that can be wrong with them only the sign of a deviation remains.
-/

namespace Prognosis

-----------------------------------------------------------------------------------------
-- Signs
-----------------------------------------------------------------------------------------

/-- Rules of signs. They hold of real numbers, and of doubles too, where every comparison with an
undefined value fails and a negative zero is not below zero.
-/
class Scalar.SignRules (α : Type) [Scalar α] : Prop where
  ofNat (n : Nat) : Scalar.lt (Scalar.ofNat n : α) Scalar.zero = false
  abs (x : α) : Scalar.lt (Scalar.abs x) Scalar.zero = false
  sqrt (x : α) : Scalar.lt (Scalar.sqrt x) Scalar.zero = false
  mul {x y : α} (left : Scalar.lt x Scalar.zero = false) (right : Scalar.lt y Scalar.zero = false)
    : Scalar.lt (x * y) Scalar.zero = false
  div {x y : α} (left : Scalar.lt x Scalar.zero = false) (right : Scalar.lt y Scalar.zero = false)
    (some : Scalar.isTrue y = true)
    : Scalar.lt (x / y) Scalar.zero = false
  isTrue_ofNat {n : Nat} (some : 0 < n) : Scalar.isTrue (Scalar.ofNat n : α) = true
  isTrue_sqrt {n : Nat} (some : 0 < n) : Scalar.isTrue (Scalar.sqrt (Scalar.ofNat n) : α) = true
  /-- Half of the weight of observations is less than one. -/
  blend (count : Nat)
    : Scalar.lt
        (Scalar.one - Calibration.ensembleWeight count * Scalar.ofDecimal false 5 (-1) : α)
        Scalar.zero
      = false

/-- Real numbers follow the rules. -/
instance : Scalar.SignRules ℝ where
  ofNat n := by simp
  abs x := by simp
  sqrt x := by simp
  mul left right := by
    simp only [Scalar.lt_real, Scalar.zero_real, decide_eq_false_iff_not, not_lt] at *
    exact mul_nonneg left right
  div left right _ := by
    simp only [Scalar.lt_real, Scalar.zero_real, decide_eq_false_iff_not, not_lt] at *
    exact div_nonneg left right
  isTrue_ofNat some := by simp [some.ne']
  isTrue_sqrt some := by
    simpa using (Real.sqrt_pos.mpr (Nat.cast_pos.mpr some)).ne'
  blend count := by
    simp only [Calibration.ensembleWeight, Scalar.lt_real, Scalar.zero_real, Scalar.one_real,
      Scalar.least_real, Scalar.ofDecimal_real, decide_eq_false_iff_not, not_lt]
    have bound := min_le_left (7 / 10 : ℝ) (count / 20)
    norm_num
    linarith

namespace Calibration

open Scalar (SignRules)

variable {α : Type} [Scalar α] [Scalar.SignRules α]

/-- The number is not below zero; an undefined one is not. -/
def NotNegative (x : α) : Prop :=
  Scalar.lt x Scalar.zero = false

theorem notNegative_of_checkedSqrt {x root : α} (checked : Distribution.checkedSqrt x = .ok root)
    : NotNegative root := by
  simp only [Distribution.checkedSqrt] at checked
  split at checked
  · cases checked
  · cases checked
    exact SignRules.sqrt _

-----------------------------------------------------------------------------------------
-- Priors
-----------------------------------------------------------------------------------------

/-- No family has a negative deviation around any value. -/
theorem notNegative_of_momentsWith {d : Distribution α} {parameters : List α} {base : α}
    {mean deviation : α} (plain : d.kind ≠ .lognormal)
    (found : d.momentsWith parameters base = .ok (some (mean, deviation)))
    : NotNegative deviation := by
  simp only [Distribution.momentsWith] at found
  split at found
  case h_1 =>
    split at found
    · cases found
      exact SignRules.div (SignRules.mul (SignRules.abs _) (SignRules.abs _)) (SignRules.ofNat _)
        (SignRules.isTrue_ofNat (by decide))
    · cases found
      exact SignRules.abs _
  case h_2 =>
    cases found
    exact SignRules.abs _
  case h_3 =>
    cases found
    exact SignRules.div (SignRules.abs _) (SignRules.sqrt _) (SignRules.isTrue_sqrt (by decide))
  case h_4 =>
    cases found
    exact SignRules.sqrt _
  case h_5 =>
    obtain ⟨mean, -, found⟩ := exists_of_bind_eq_ok found
    obtain ⟨variance, -, found⟩ := exists_of_bind_eq_ok found
    obtain ⟨root, checked, found⟩ := exists_of_bind_eq_ok found
    cases found
    exact notNegative_of_checkedSqrt checked
  case h_6 => exact absurd ‹d.kind = .lognormal› plain
  case h_7 => cases found

/-- No prior has a negative deviation. -/
theorem notNegative_of_prior {d : Distribution α} {base : α} {prior : Prior α}
    (read : Prior.ofDistribution? d base = .ok (some prior))
    : NotNegative prior.moments.deviation := by
  simp only [Prior.ofDistribution?] at read
  split at read
  case h_1 =>
    split at read
    · split at read
      · obtain ⟨mean, -, read⟩ := exists_of_bind_eq_ok read
        obtain ⟨deviation, -, read⟩ := exists_of_bind_eq_ok read
        cases read
        exact SignRules.abs _
      · cases read
    · cases read
  case h_2 plain =>
    obtain ⟨moments, valued, read⟩ := exists_of_bind_eq_ok read
    cases moments with
    | none => cases read
    | some moments =>
        cases read
        simp only [Distribution.moments] at valued
        split at valued
        · cases valued
        · cases valued
        · rename_i parameters _
          cases evaluated : d.momentsWith parameters base with
          | error fault => simp [evaluated, Halt.lift] at valued
          | ok found =>
              simp only [evaluated, Halt.lift, Except.ok.injEq] at valued
              subst valued
              exact notNegative_of_momentsWith plain evaluated

-----------------------------------------------------------------------------------------
-- Updates
-----------------------------------------------------------------------------------------

/-- No method makes a deviation negative. -/
theorem notNegative_of_update {method : CalibrationMethod} {prior moments : Moments α}
    {values : List α} (start : NotNegative prior.deviation)
    (updated : update method prior values = .ok moments)
    : NotNegative moments.deviation := by
  cases method with
  | bayesianUpdate =>
      simp only [update, bayesianUpdate] at updated
      split at updated
      · cases updated
        exact start
      · obtain ⟨noise, -, updated⟩ := exists_of_bind_eq_ok updated
        obtain ⟨spread, -, updated⟩ := exists_of_bind_eq_ok updated
        obtain ⟨priorPrecision, -, updated⟩ := exists_of_bind_eq_ok updated
        obtain ⟨likelihoodPrecision, -, updated⟩ := exists_of_bind_eq_ok updated
        obtain ⟨mean, -, updated⟩ := exists_of_bind_eq_ok updated
        obtain ⟨variance, -, updated⟩ := exists_of_bind_eq_ok updated
        obtain ⟨deviation, checked, updated⟩ := exists_of_bind_eq_ok updated
        cases updated
        exact notNegative_of_checkedSqrt checked
  | maximumLikelihood =>
      cases updated
      simp only [maximumLikelihood]
      split
      · exact SignRules.sqrt _
      · exact start
  | ensemble =>
      cases updated
      exact SignRules.mul start (SignRules.blend _)

end Calibration

variable {α : Type}

-----------------------------------------------------------------------------------------
-- Numerals
-----------------------------------------------------------------------------------------

/-- The expression is a written number, perhaps with a percent sign or behind the sign `±`. -/
inductive Expr.IsNumeral (x : α) : Expr α → Prop
  | number (span) : IsNumeral x (.number x span)
  | percentage (span) : IsNumeral x (.percentage x span)
  | signed {e} (numeral : IsNumeral x e) (span) : IsNumeral x (.unary .plusMinus e span)

namespace Expr.IsNumeral

variable {x : α} {e : Expr α}

/-- All nodes of a numeral are numerals, by induction on it. -/
theorem of_mem_nodes (numeral : IsNumeral x e) {node : Expr α} (below : node ∈ e.nodes)
    : IsNumeral x node := by
  induction numeral with
  | number span | percentage span =>
      rw [nodes_eq] at below
      cases List.mem_singleton.mp below
      constructor
  | @signed operand inner span ih =>
      rw [nodes_eq] at below
      rcases List.mem_cons.mp below with rfl | deeper
      · exact .signed inner span
      · exact ih (by simpa [children] using deeper)

/-- A numeral reads no names. -/
theorem names (numeral : IsNumeral x e) : e.names = [] := by
  refine List.filterMap_eq_nil_iff.mpr fun node below => ?_
  cases numeral.of_mem_nodes below <;> rfl

theorem roots (numeral : IsNumeral x e) : e.roots = [] := by
  rw [Expr.roots, numeral.names, List.map_nil]

/-- Nothing is wrong with a numeral. -/
theorem checkExpression (numeral : IsNumeral x e) (symbols : Symbols α) (scope : Check.Scope)
    (owner : Owner) (span : Option Span)
    : Check.checkExpression symbols scope owner span e = [] := by
  simp only [Check.checkExpression, numeral.names, List.filterMap_nil, List.append_nil]
  refine List.filterMap_eq_nil_iff.mpr fun node below => ?_
  cases numeral.of_mem_nodes below <;> rfl

variable [Scalar α]

theorem literal? (numeral : IsNumeral x e) : e.literal? = some x := by
  induction numeral with
  | number span | percentage span => rfl
  | signed _ span ih => simp [Expr.literal?, ih]

theorem literals {xs : List α} {es : List (Expr α)} (numerals : List.Forall₂ IsNumeral xs es)
    : es.map Expr.literal? = xs.map some := by
  induction numerals with
  | nil => rfl
  | cons first _ ih => rw [List.map_cons, List.map_cons, first.literal?, ih]

/-- Its magnitude is the number, whatever the names are worth. -/
theorem magnitude (numeral : IsNumeral x e) (env : Env α) : e.magnitude env = .ok x := by
  induction numeral with
  | number span | percentage span => rfl
  | signed _ span ih => rw [Expr.magnitude, ih]

theorem magnitudes {xs : List α} {es : List (Expr α)} (numerals : List.Forall₂ IsNumeral xs es)
    (env : Env α)
    : Expr.magnitudes env es = .ok xs := by
  induction numerals with
  | nil => rfl
  | cons first _ ih => simp only [Expr.magnitudes, first.magnitude, ih]

end Expr.IsNumeral

-----------------------------------------------------------------------------------------
-- Parameters by position
-----------------------------------------------------------------------------------------

namespace Distribution

/-- Without named parameters the parameters are those by position. -/
theorem arguments_of_positional {d : Distribution α} (plain : d.named = [])
    : d.arguments = d.positional.map some := by
  have gone (count : Nat) (es : List (Expr α))
      : dropMissing (es.map some ++ List.replicate count none) = es.map some := by
    have missing
        : (List.replicate count (none : Option (Expr α))).dropWhile Option.isNone = [] := by
      rw [List.dropWhile_eq_nil_iff]
      intro slot member
      rw [(List.mem_replicate.mp member).2]
      rfl
    have kept : (es.map some).reverse.dropWhile Option.isNone = (es.map some).reverse := by
      rw [← List.map_reverse]
      cases es.reverse <;> rfl
    rw [dropMissing, List.reverse_append, List.reverse_replicate, List.dropWhile_append, missing,
      List.isEmpty_nil, if_pos rfl, kept, List.reverse_reverse]
  simp only [arguments, plain, List.foldl_nil, gone]

end Distribution

namespace Calibration

open Check
open Scalar (SignRules)

variable [Scalar α] (d : Distribution α)
  (form : PriorForm) (m : Moments α)

-----------------------------------------------------------------------------------------
-- What is written
-----------------------------------------------------------------------------------------

/-- The deviation in hundredths of the size of the mean, or in hundredths where the mean is zero. -/
def share : α :=
  let size := Scalar.abs m.mean
  m.deviation / (if Scalar.isTrue size then size else Scalar.one) * Scalar.ofNat 100

/-- The numbers that a posterior of a form consists of. -/
def written : List α :=
  match form with
  | .relative => [share m]
  | .logarithmic | .absolute => [m.mean, m.deviation]

theorem posterior_named : (posterior d form m).named = [] := by
  cases form <;> rfl

theorem posterior_kind
    : (posterior d form m).kind = if form = .logarithmic then .lognormal else .normal := by
  cases form <;> rfl

omit [Scalar α] in
theorem isNumeral_literalLike (x : α) (template : Option (Expr α))
    : (literalLike x template).IsNumeral x := by
  simp only [literalLike]
  split
  · split
    · exact .percentage none
    · exact .number none
  · exact .number none

/-- A posterior consists of its numbers. -/
theorem posterior_positional
    : List.Forall₂ Expr.IsNumeral (written form m) (posterior d form m).positional := by
  cases form with
  | relative => exact .cons (.signed (.percentage none) none) .nil
  | logarithmic => exact .cons (.number none) (.cons (.number none) .nil)
  | absolute =>
      exact .cons (isNumeral_literalLike _ _) (.cons (isNumeral_literalLike _ _) .nil)

theorem posterior_span : (posterior d form m).span = d.span := by
  cases form <;> rfl

theorem isNumeral_of_mem_expressions {e : Expr α} (member : e ∈ (posterior d form m).expressions)
    : ∃ x, e.IsNumeral x := by
  rw [Distribution.expressions, posterior_named, List.map_nil, List.append_nil] at member
  obtain ⟨place, bound, rfl⟩ := List.getElem_of_mem member
  have numerals := posterior_positional d form m
  exact ⟨_, numerals.get (numerals.length_eq ▸ bound) bound⟩

/-- It reads no names. -/
theorem posterior_roots : (posterior d form m).expressions.flatMap Expr.roots = [] := by
  refine List.flatMap_eq_nil_iff.mpr fun e member => ?_
  obtain ⟨x, numeral⟩ := isNumeral_of_mem_expressions d form m member
  exact numeral.roots

/-- So all that reads them finds the numbers, whatever names are worth. -/
theorem posterior_parameterValues (env : Env α)
    : (posterior d form m).parameterValues env = some (.ok (written form m)) := by
  rw [Distribution.parameterValues, Distribution.arguments_of_positional (posterior_named d form m),
    Distribution.mapM_id_map_some, Option.map_some,
    Expr.IsNumeral.magnitudes (posterior_positional d form m)]

-----------------------------------------------------------------------------------------
-- What can be wrong
-----------------------------------------------------------------------------------------

variable {d form m}

theorem notNegative_share [SignRules α] (deviation : NotNegative m.deviation)
    : NotNegative (share m) := by
  have size : NotNegative (Scalar.abs m.mean) := SignRules.abs _
  refine SignRules.mul ?_ (SignRules.ofNat 100)
  by_cases some : Scalar.isTrue (Scalar.abs m.mean) = true
  · rw [if_pos some]
    exact SignRules.div deviation size some
  · rw [if_neg some]
    exact SignRules.div deviation (SignRules.ofNat 1) (SignRules.isTrue_ofNat Nat.one_pos)

/-- The number and the order of its parameters are right, unless a logarithmic posterior is left
without spread.
-/
theorem checkArguments_posterior [SignRules α] (deviation : NotNegative m.deviation) (owner : Owner)
    : checkArguments (posterior d form m) owner
      = if form = .logarithmic ∧ Scalar.lt Scalar.zero m.deviation = false then
          some (.lognormalSpread owner m.deviation)
        else none := by
  have arguments := Distribution.arguments_of_positional (posterior_named d form m)
  have numerals := posterior_positional d form m
  have count : (posterior d form m).arguments.length = (written form m).length := by
    rw [arguments, List.length_map, numerals.length_eq]
  have complete : (posterior d form m).arguments.all Option.isSome = true := by
    simp [arguments]
  have literals : (posterior d form m).arguments.map (fun argument => argument.bind Expr.literal?)
      = (written form m).map some := by
    rw [arguments, List.map_map]
    exact Expr.IsNumeral.literals numerals
  simp only [checkArguments, posterior_kind, literals, complete, count]
  have share := notNegative_share deviation
  rw [NotNegative] at share deviation
  cases form with
  | relative => simp [written, share]
  | absolute => simp [written, deviation]
  | logarithmic =>
      cases positive : Scalar.lt Scalar.zero m.deviation <;>
        simp [written, checkParameters, DistributionKind.parameters, positive]

/-- Nothing else can be wrong with a posterior. -/
theorem checkDistribution_posterior [SignRules α] (deviation : NotNegative m.deviation)
    (symbols : Symbols α) (scope : Scope) (owner : Owner)
    : checkDistribution symbols scope owner (posterior d form m)
      = if form = .logarithmic ∧ Scalar.lt Scalar.zero m.deviation = false then
          [⟨.lognormalSpread owner m.deviation, some d.span⟩]
        else [] := by
  have expressions : ((posterior d form m).expressions.flatMap
      (checkExpression symbols scope owner (some d.span))) = [] := by
    refine List.flatMap_eq_nil_iff.mpr fun e member => ?_
    obtain ⟨x, numeral⟩ := isNumeral_of_mem_expressions d form m member
    exact numeral.checkExpression symbols scope owner _
  simp only [checkDistribution, posterior_span, expressions, posterior_named,
    checkArguments_posterior deviation]
  split <;> rfl

end Calibration

end Prognosis
