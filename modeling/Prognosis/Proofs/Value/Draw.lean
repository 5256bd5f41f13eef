import Prognosis.Proofs.Check.Reads
import Prognosis.Proofs.Random.Units
import Prognosis.Proofs.Value.Literal
import Prognosis.Value.Distribution

/-! Draws that break down. A draw is guarded against parameters that stray out of the domain of its
family at run time: spreads are taken without their sign, bounds are put in order and exponents are
moved below a limit. Three guards are missing, and a draw breaks down exactly where one of them is.
-/

namespace Prognosis

variable {σ α : Type} [Scalar α]

namespace Distribution

/-- The mode lies above ends that are no finite distance apart. -/
structure Gapes (low mode high : α) : Prop where
  ends : Scalar.lt low high = true
  beyond : Scalar.lt high mode = true
  apart : Scalar.isFinite (high - low) = false

/-- The parameters, or the value they surround, are such that no number can be drawn, with the fault
that the attempt ends in.
-/
inductive Strays (base : α) : DistributionKind → List α → Fault → Prop
  /-- The bounds are no finite distance apart; in particular one of them is undefined. -/
  | uniform {low high : α} {more : List α}
      (apart : Scalar.isFinite
        (Scalar.greatest (uniformBounds low high base).1 (uniformBounds low high base).2
          - Scalar.least (uniformBounds low high base).1 (uniformBounds low high base).2) = false)
      : Strays base .uniform (low :: high :: more) .overflow
  /-- The ends gape under the mode. -/
  | triangular {low mode high : α} {more : List α} (gapes : Gapes low mode high)
      : Strays base .triangular (low :: mode :: high :: more) .domain
  /-- A parameter is zero or negative. -/
  | beta {a b : α} {more : List α}
      (small : Scalar.le a Scalar.zero = true ∨ Scalar.le b Scalar.zero = true)
      : Strays base .beta (a :: b :: more) .domain

section Families

variable {source : RandomSource σ α} {s : σ} {fault : Fault}

-----------------------------------------------------------------------------------------
-- Bounds and spreads
-----------------------------------------------------------------------------------------

section Bounds

variable [Scalar.OrderRules α] [Scalar.MinusRules α]

/-- The distance between two numbers in order carries no minus sign. -/
theorem carriesMinus_width (x y : α)
    : RandomSource.carriesMinus (Scalar.greatest x y - Scalar.least x y) = false := by
  unfold Scalar.greatest Scalar.least
  cases up : Scalar.lt x y with
  | true =>
      rw [Scalar.OrderRules.lt_asymm up]
      refine Scalar.MinusRules.pos ?_
      rw [Scalar.OrderRules.zero_lt_sub]
      exact up
  | false =>
      cases down : Scalar.lt y x with
      | true =>
          refine Scalar.MinusRules.pos ?_
          rw [Scalar.OrderRules.zero_lt_sub]
          exact down
      | false => exact Scalar.MinusRules.sub_self x

theorem uniform_fault_iff (low high : α)
    : source.uniform (Scalar.least low high) (Scalar.greatest low high) s = .error fault
      ↔ fault = .overflow
        ∧ Scalar.isFinite (Scalar.greatest low high - Scalar.least low high) = false := by
  simp only [RandomSource.uniform, carriesMinus_width]
  cases Scalar.isFinite (Scalar.greatest low high - Scalar.least low high) with
  | false => simpa using eq_comm
  | true => simp

end Bounds

/-- A spread without a minus sign does no harm. -/
theorem normal_ok (mean : α) {spread : α} (plain : RandomSource.carriesMinus spread = false)
    : ∃ r, source.normal mean spread s = .ok r := by
  unfold RandomSource.normal
  rw [plain]
  exact ⟨_, rfl⟩

theorem betaNumber_fault_iff (a b : α)
    : source.betaNumber a b s = .error fault
      ↔ fault = .domain
        ∧ (Scalar.le a Scalar.zero = true ∨ Scalar.le b Scalar.zero = true) := by
  unfold RandomSource.betaNumber
  cases Scalar.le a Scalar.zero <;> cases Scalar.le b Scalar.zero <;> simp <;> exact eq_comm

-----------------------------------------------------------------------------------------
-- Triangles
-----------------------------------------------------------------------------------------

section Triangles

open Scalar (UndefinedRules OrderRules FactorRules)

theorem checkedSqrt_of_nonneg {x : α} (nonneg : Scalar.lt x Scalar.zero = false)
    : checkedSqrt x = .ok (Scalar.sqrt x) := by
  rw [checkedSqrt, nonneg]
  rfl

theorem checkedSqrt_of_neg {x : α} (neg : Scalar.lt x Scalar.zero = true)
    : checkedSqrt x = .error .domain := by
  rw [checkedSqrt, neg]
  rfl

variable [UndefinedRules α] [OrderRules α] [FactorRules α] {low mode high u : α}

omit [UndefinedRules α] [FactorRules α] in
/-- The ends are not a negative distance apart, be they undefined. -/
theorem width_nonneg (ends : Scalar.le high low = false)
    : Scalar.lt (high - low) Scalar.zero = false := by
  rw [OrderRules.sub_lt_zero, ← Bool.not_eq_true]
  intro under
  obtain ⟨dh, dl⟩ := OrderRules.defined_of_lt under
  rw [(OrderRules.le_iff high low).mpr ⟨dh, dl, OrderRules.lt_asymm under⟩] at ends
  cases ends

/-- A unit does not lie below a cut while the mode lies under the lower end: the cut is negative
then.
-/
theorem rise_nonneg (unit : Scalar.lt u Scalar.zero = false) (ends : Scalar.le high low = false)
    (below : Scalar.lt u ((mode - low) / (high - low)) = true)
    : Scalar.lt (mode - low) Scalar.zero = false := by
  rw [← Bool.not_eq_true]
  intro negative
  obtain ⟨number, cut⟩ := OrderRules.defined_of_lt below
  obtain ⟨-, dz⟩ := OrderRules.defined_of_lt negative
  obtain ⟨dh, dl⟩ := UndefinedRules.defined_of_sub (UndefinedRules.defined_of_div cut).2
  have width : Scalar.lt Scalar.zero (high - low) = true := by
    rw [OrderRules.zero_lt_sub]
    exact OrderRules.lt_of_not_le dh dl ends
  have positive : Scalar.lt Scalar.zero ((mode - low) / (high - low)) = true :=
    OrderRules.lt_of_le_of_lt ((OrderRules.le_iff _ _).mpr ⟨dz, number, unit⟩) below
  rw [FactorRules.neg_div_pos negative width] at positive
  cases positive

/-- Above gaping ends there is no cut: it is a quotient of infinities. -/
theorem Gapes.not_below (gapes : Gapes low mode high)
    : Scalar.lt u ((mode - low) / (high - low)) = false := by
  have width : Scalar.lt Scalar.zero (high - low) = true := by
    rw [OrderRules.zero_lt_sub]
    exact gapes.ends
  have rise : Scalar.isFinite (mode - low) = false :=
    FactorRules.infinite_of_le width gapes.apart
      (OrderRules.sub_le_sub gapes.ends gapes.beyond)
  exact UndefinedRules.lt (Or.inr (FactorRules.infinite_div_infinite rise gapes.apart))

/-- What is taken the root of above the cut is negative only over gaping ends. -/
theorem fall_neg_iff (unit : Scalar.lt u Scalar.one = true) (ends : Scalar.le high low = false)
    (above : Scalar.lt u ((mode - low) / (high - low)) = false)
    : Scalar.lt ((Scalar.one - u) * (high - low) * (high - mode)) Scalar.zero = true
      ↔ Gapes low mode high := by
  have rest : Scalar.lt Scalar.zero (Scalar.one - u) = true := by
    rw [OrderRules.zero_lt_sub]
    exact unit
  constructor
  · intro negative
    have beyond : Scalar.lt high mode = true := by
      rw [← Bool.not_eq_false]
      intro inside
      rw [← OrderRules.sub_lt_zero] at inside
      rw [FactorRules.mul_nonneg (FactorRules.mul_nonneg (OrderRules.lt_asymm rest)
        (width_nonneg ends)) inside] at negative
      cases negative
    obtain ⟨product, -⟩ := OrderRules.defined_of_lt negative
    obtain ⟨area, -⟩ := UndefinedRules.defined_of_mul product
    obtain ⟨dh, dl⟩ := UndefinedRules.defined_of_sub (UndefinedRules.defined_of_mul area).2
    have order := OrderRules.lt_of_not_le dh dl ends
    refine ⟨order, beyond, ?_⟩
    -- over a finite distance the cut is at least one, and the unit lies below it
    rw [← Bool.not_eq_true]
    intro finite
    have width : Scalar.lt Scalar.zero (high - low) = true := by
      rw [OrderRules.zero_lt_sub]
      exact order
    rw [OrderRules.lt_of_lt_of_le unit (FactorRules.one_le_div width finite
      (OrderRules.sub_le_sub order beyond))] at above
    cases above
  · intro gapes
    have width : Scalar.lt Scalar.zero (high - low) = true := by
      rw [OrderRules.zero_lt_sub]
      exact gapes.ends
    have fall : Scalar.lt (high - mode) Scalar.zero = true := by
      rw [OrderRules.sub_lt_zero]
      exact gapes.beyond
    obtain ⟨area, infinite⟩ := FactorRules.mul_infinite rest width gapes.apart
    exact FactorRules.infinite_mul_neg area infinite fall

/-- A triangular draw breaks down over gaping ends alone. -/
theorem triangular_fault_iff (units : source.HasUnits)
    : triangular source low mode high s = .error fault
      ↔ fault = .domain ∧ Gapes low mode high := by
  obtain ⟨nonneg, small⟩ := units s
  unfold triangular
  cases ends : Scalar.le high low with
  | true =>
      refine iff_of_false nofun ?_
      rintro ⟨-, gapes⟩
      obtain ⟨-, -, order⟩ := (OrderRules.le_iff high low).mp ends
      rw [gapes.ends] at order
      cases order
  | false =>
      simp only [Bool.false_eq_true, if_false]
      cases below : Scalar.lt (source.unit s).1 ((mode - low) / (high - low)) with
      | true =>
          have root := checkedSqrt_of_nonneg (FactorRules.mul_nonneg
            (FactorRules.mul_nonneg nonneg (width_nonneg ends)) (rise_nonneg nonneg ends below))
          simp only [if_true, root]
          refine iff_of_false nofun ?_
          rintro ⟨-, gapes⟩
          rw [gapes.not_below] at below
          cases below
      | false =>
          simp only [Bool.false_eq_true, if_false]
          rw [← fall_neg_iff small ends below]
          cases negative : Scalar.lt ((Scalar.one - (source.unit s).1) * (high - low)
              * (high - mode)) Scalar.zero with
          | true =>
              rw [checkedSqrt_of_neg negative]
              simpa [Except.map] using eq_comm
          | false =>
              rw [checkedSqrt_of_nonneg negative]
              simp [Except.map]

end Triangles

end Families

-----------------------------------------------------------------------------------------
-- Checked parameters
-----------------------------------------------------------------------------------------

section Checked

open Check

variable {owner : Owner} {d : Distribution α} {xs : List α}

/-- No parameter is missing among checked ones. -/
theorem exists_arguments (checked : checkArguments d owner = none)
    : ∃ es : List (Expr α), d.arguments = es.map some := by
  refine exists_map_some ?_
  by_contra missing
  rw [Bool.not_eq_true] at missing
  simp only [checkArguments, missing, Bool.not_false, Bool.true_or, if_true] at checked
  split at checked <;> cases checked

omit [Scalar α] in
theorem mem_expressions_of_arguments {es : List (Expr α)} (arguments : d.arguments = es.map some)
    {e : Expr α} (member : e ∈ es)
    : e ∈ d.expressions :=
  mem_expressions_of_argument (arguments ▸ List.mem_map_of_mem member)

/-- Magnitudes are read up to the first one that has no value. -/
theorem exists_of_magnitudes_error {env : Env α} {es : List (Expr α)} {halt : Halt}
    (stopped : Expr.magnitudes env es = .error halt)
    : ∃ e ∈ es, Expr.value env e = .error halt := by
  induction es with
  | nil => cases stopped
  | cons e rest ih =>
      simp only [Expr.magnitudes] at stopped
      cases first : Expr.magnitude env e with
      | error other =>
          rw [first] at stopped
          cases stopped
          exact ⟨e, List.mem_cons_self, (Expr.magnitude_error_iff e).mp first⟩
      | ok x =>
          rw [first] at stopped
          cases others : Expr.magnitudes env rest with
          | error other =>
              rw [others] at stopped
              cases stopped
              obtain ⟨e', member, broken⟩ := ih others
              exact ⟨e', List.mem_cons_of_mem e member, broken⟩
          | ok xs =>
              rw [others] at stopped
              cases stopped

/-- Reading checked parameters breaks down only where one of them does. -/
theorem exists_breaks_of_parameterValues [Scalar.RangeRules α] {env : Env α} {fault : Fault}
    (checked : checkArguments d owner = none)
    (broken : d.parameterValues env = some (.error (.fault fault)))
    : ∃ e ∈ d.expressions, ∃ node, Expr.Reaches env e node ∧ Expr.Breaks env node fault := by
  obtain ⟨es, arguments⟩ := exists_arguments checked
  rw [Distribution.parameterValues, arguments, mapM_id_map_some, Option.map_some,
    Option.some.injEq] at broken
  obtain ⟨e, member, stopped⟩ := exists_of_magnitudes_error broken
  exact ⟨e, mem_expressions_of_arguments arguments member, Expr.exists_breaks stopped⟩

/-- The parameters are literals with these numbers, in which percentages stand alone. -/
def WrittenAs (d : Distribution α) (xs : List α) : Prop :=
  ∃ es : List (Expr α), d.arguments = es.map some
    ∧ List.Forall₂ (fun e x => Expr.PercentagesAlone e ∧ e.literal? = some x) es xs

/-- They have these numbers wherever they are evaluated. -/
theorem WrittenAs.parameterValues (written : d.WrittenAs xs) (env : Env α)
    : d.parameterValues env = some (.ok xs) := by
  obtain ⟨es, arguments, literals⟩ := written
  rw [Distribution.parameterValues, arguments, mapM_id_map_some, Option.map_some]
  congr 1
  clear arguments
  induction literals with
  | nil => rfl
  | cons first _ ih =>
      simp only [Expr.magnitudes, Expr.magnitude_of_percentagesAlone first.1 first.2, ih]

/-- The check finds these numbers, too. -/
theorem WrittenAs.literals (written : d.WrittenAs xs)
    : d.arguments.map (fun argument => argument.bind Expr.literal?) = xs.map some := by
  obtain ⟨es, arguments, literals⟩ := written
  rw [arguments, List.map_map]
  clear arguments
  induction literals with
  | nil => rfl
  | cons first _ ih => simp [first.2, ih]

/-- Where checked parameters are literals, their numbers were checked. -/
theorem WrittenAs.checked (written : d.WrittenAs xs) (checked : checkArguments d owner = none)
    (other : d.kind ≠ .normal)
    : xs.length = d.kind.parameters.length ∧ checkParameters d.kind owner xs = none := by
  have same : d.arguments.length = xs.length := by
    simpa using congrArg List.length written.literals
  simp only [checkArguments, written.literals, mapM_id_map_some] at checked
  split at checked
  · cases checked
  · rename_i complete
    simp only [Bool.or_eq_true, bne_iff_ne, not_or, not_not] at complete
    exact ⟨same ▸ complete.2, checked⟩

/-- Numbers that were checked do not stray, but for bounds. -/
theorem WrittenAs.kind_of_strays [Scalar.OrderRules α] (written : d.WrittenAs xs)
    (checked : checkArguments d owner = none) {base : α} {fault : Fault}
    (strays : Strays base d.kind xs fault)
    : d.kind = .uniform := by
  have not_lt {x y : α} (most : Scalar.le x y = true) : Scalar.lt y x ≠ true := by
    rw [((Scalar.OrderRules.le_iff x y).mp most).2.2]
    exact Bool.false_ne_true
  generalize kind : d.kind = k at strays
  cases strays with
  | uniform => rfl
  | @triangular low mode high more gapes =>
      obtain ⟨count, fit⟩ := written.checked checked (by simp [kind])
      rw [kind] at count fit
      obtain rfl : more = [] := by simpa [DistributionKind.parameters] using count
      have inside : Scalar.le mode high = true := by
        by_contra apart
        simp [checkParameters, apart] at fit
      exact absurd gapes.beyond (not_lt inside)
  | @beta a b more small =>
      obtain ⟨count, fit⟩ := written.checked checked (by simp [kind])
      rw [kind] at count fit
      obtain rfl : more = [] := by simpa [DistributionKind.parameters] using count
      have positive : Scalar.lt Scalar.zero a = true ∧ Scalar.lt Scalar.zero b = true := by
        by_contra apart
        simp only [checkParameters, Bool.and_eq_true, if_neg apart] at fit
        cases fit
      rcases small with small | small
      · exact absurd positive.1 (not_lt small)
      · exact absurd positive.2 (not_lt small)

end Checked

-----------------------------------------------------------------------------------------
-- Draws
-----------------------------------------------------------------------------------------

section Draws

variable {source : RandomSource σ α} {s : σ} {fault : Fault} [Scalar.UndefinedRules α]
  [Scalar.OrderRules α] [Scalar.FactorRules α] [Scalar.MinusRules α]

open Scalar (MinusRules)

/-- With its parameters evaluated a draw breaks down exactly where they stray. -/
theorem drawWith_fault_iff (units : source.HasUnits) (d : Distribution α) (parameters : List α)
    (base : α)
    : drawWith source d parameters base s = .error fault
      ↔ Strays base d.kind parameters fault := by
  have unbroken {result : Except Fault (α × σ)} (ok : ∃ r, result = .ok r)
      : result ≠ .error fault := by
    obtain ⟨r, rfl⟩ := ok
    exact nofun
  cases kind : d.kind with
  | normal =>
      refine iff_of_false ?_ nofun
      rcases parameters with _ | ⟨mean, _ | ⟨spread, more⟩⟩
      · simp [drawWith, kind]
      · simp only [drawWith, kind]
        split
        · exact unbroken (normal_ok _ (MinusRules.div (MinusRules.mul (MinusRules.abs _)
            (MinusRules.abs _)) (MinusRules.ofNat _)))
        · exact unbroken (normal_ok _ (MinusRules.abs _))
      · simp only [drawWith, kind]
        exact unbroken (normal_ok _ (MinusRules.abs _))
  | uniform =>
      rcases parameters with _ | ⟨low, _ | ⟨high, more⟩⟩
      · exact iff_of_false (by simp [drawWith, kind]) nofun
      · exact iff_of_false (by simp [drawWith, kind]) nofun
      · simp only [drawWith, kind]
        rw [uniform_fault_iff]
        constructor
        · rintro ⟨rfl, apart⟩
          exact .uniform apart
        · intro strays
          cases strays with
          | uniform apart => exact ⟨rfl, apart⟩
  | triangular =>
      rcases parameters with _ | ⟨low, _ | ⟨mode, _ | ⟨high, more⟩⟩⟩
      · exact iff_of_false (by simp [drawWith, kind]) nofun
      · exact iff_of_false (by simp [drawWith, kind]) nofun
      · exact iff_of_false (by simp [drawWith, kind]) nofun
      · simp only [drawWith, kind]
        rw [triangular_fault_iff units]
        constructor
        · rintro ⟨rfl, gapes⟩
          exact .triangular gapes
        · intro strays
          cases strays with
          | triangular gapes => exact ⟨rfl, gapes⟩
  | beta =>
      rcases parameters with _ | ⟨a, _ | ⟨b, more⟩⟩
      · exact iff_of_false (by simp [drawWith, kind]) nofun
      · exact iff_of_false (by simp [drawWith, kind]) nofun
      · simp only [drawWith, kind]
        rw [betaNumber_fault_iff]
        constructor
        · rintro ⟨rfl, small⟩
          exact .beta small
        · intro strays
          cases strays with
          | beta small => exact ⟨rfl, small⟩
  | lognormal =>
      refine iff_of_false ?_ nofun
      rcases parameters with _ | ⟨mean, _ | ⟨spread, more⟩⟩
      · simp [drawWith, kind]
      · simp [drawWith, kind]
      · simp only [drawWith, kind]
        obtain ⟨r, drawn⟩ : ∃ r, source.normal mean (Scalar.abs spread) s = .ok r :=
          normal_ok mean (MinusRules.abs spread)
        rw [drawn]
        exact nofun

theorem lift_eq_error_iff {β : Type} {result : Except Fault β} {halt : Halt}
    : Halt.lift result = .error halt ↔ ∃ fault, halt = .fault fault ∧ result = .error fault := by
  cases result <;> simp [Halt.lift, eq_comm]

/-- A draw ends without a number where its parameters have no values or stray. -/
theorem draw_error_iff (units : source.HasUnits) (d : Distribution α) (base : α) (env : Env α)
    (s : σ) {halt : Halt}
    : d.draw source base env s = .error halt
      ↔ d.parameterValues env = some (.error halt)
        ∨ ∃ fault parameters, halt = .fault fault ∧ d.parameterValues env = some (.ok parameters)
          ∧ Strays base d.kind parameters fault := by
  unfold draw
  cases d.parameterValues env with
  | none => simp
  | some outcome =>
      cases outcome with
      | error halt' => simp
      | ok parameters => simp [lift_eq_error_iff, drawWith_fault_iff units]

open Check in
/-- A draw whose parameters are all there has a number where they have values and do not stray. -/
theorem draw_ok_iff (units : source.HasUnits) {owner : Owner} {d : Distribution α}
    (checked : checkArguments d owner = none) (base : α) (env : Env α) (s : σ)
    : (∃ r, d.draw source base env s = .ok r)
      ↔ ∃ parameters, d.parameterValues env = some (.ok parameters)
        ∧ ∀ fault, ¬ Strays base d.kind parameters fault := by
  obtain ⟨es, arguments⟩ := exists_arguments checked
  have values : d.parameterValues env = some (Expr.magnitudes env es) := by
    rw [Distribution.parameterValues, arguments, mapM_id_map_some, Option.map_some]
  cases found : Expr.magnitudes env es with
  | error halt => simp [draw, values, found]
  | ok parameters =>
      have astray (fault : Fault) : Strays base d.kind parameters fault
          ↔ drawWith source d parameters base s = .error fault :=
        (drawWith_fault_iff units d parameters base).symm
      simp only [draw, values, found, Option.some.injEq, Except.ok.injEq, exists_eq_left', astray]
      cases drawWith source d parameters base s with
      | error fault => simp [Halt.lift]
      | ok r => simp [Halt.lift]

open Check in
/-- A draw from a distribution that was checked without an error has a number exactly where the
parameters have values that do not stray. It breaks down exactly where they do, or where reading
them breaks down, which is where one of them comes to a remainder of an infinite number or to a
rounding without a result. Literals are read, and those that were checked do not stray but for the
bounds of a uniform distribution, which are shares of the value that they surround.

Witness: `undefined_mode_drawn`
-/
theorem draw_unless_astray [Scalar.RangeRules α] (units : source.HasUnits) {symbols : Symbols α}
    {scope : Check.Scope} {owner : Owner} {d : Distribution α}
    (clean : Clean (checkDistribution symbols scope owner d)) (base : α) (env : Env α) (s : σ)
    : ((∃ r, d.draw source base env s = .ok r)
        ↔ ∃ parameters, d.parameterValues env = some (.ok parameters)
          ∧ ∀ fault, ¬ Strays base d.kind parameters fault)
      ∧ (∀ fault, d.draw source base env s = .error (.fault fault)
        ↔ d.parameterValues env = some (.error (.fault fault))
          ∨ ∃ parameters, d.parameterValues env = some (.ok parameters)
            ∧ Strays base d.kind parameters fault)
      ∧ (∀ fault, d.parameterValues env = some (.error (.fault fault))
        → ∃ e ∈ d.expressions, ∃ node, Expr.Reaches env e node ∧ Expr.Breaks env node fault)
      ∧ (∀ xs, d.WrittenAs xs → d.kind ≠ .uniform → ∃ r, d.draw source base env s = .ok r) := by
  have checked := checkArguments_of_clean clean
  have drawn_iff := draw_ok_iff units checked base env s
  refine ⟨drawn_iff, ?_, fun fault => exists_breaks_of_parameterValues checked, ?_⟩
  · intro fault
    rw [draw_error_iff units]
    simp
  · intro xs written other
    refine drawn_iff.mpr ⟨xs, written.parameterValues env, fun fault strays => ?_⟩
    exact other (written.kind_of_strays checked strays)

end Draws

section Samples

open Check
open Prognosis.Expr

/-- A distribution with these parameters. -/
def ofParameters (kind : DistributionKind) (parameters : List (Expr α)) : Distribution α :=
  ⟨kind, parameters, [], ⟨1, 1⟩⟩

theorem clean_ofParameters {symbols : Symbols α} {scope : Check.Scope} {owner : Owner}
    {kind : DistributionKind} {parameters : List (Expr α)}
    (reads : ∀ e ∈ parameters, ∀ span, checkExpression symbols scope owner span e = [])
    (fit : checkArguments (ofParameters kind parameters) owner = none)
    : Clean (checkDistribution symbols scope owner (ofParameters kind parameters)) := by
  have expressions : (ofParameters kind parameters).expressions = parameters := by
    simp [Distribution.expressions, ofParameters]
  have clean : checkDistribution symbols scope owner (ofParameters kind parameters) = [] := by
    rw [checkDistribution, fit, expressions,
      List.flatMap_eq_nil_iff.mpr fun e given => reads e given _]
    rfl
  rw [clean]
  exact List.forall_mem_nil _

omit [Scalar α] in
theorem checkExpression_number (symbols : Symbols α) (scope : Check.Scope) (owner : Owner)
    (span : Option Span) (x : α)
    : checkExpression symbols scope owner span (number x none) = [] := by
  simp [checkExpression, checkCall, names, name?, nodes, walk, children]

/-- An undefined mode and an undefined value do no harm. -/
theorem undefined_mode_drawn
    : let mode : Expr Float := call "sqrt" [unary .minus (number Scalar.one none) none] [] none
      let d := ofParameters .triangular
        [number (Scalar.ofNat 1) none, mode, number (Scalar.ofNat 4) none]
      Clean (checkDistribution [] .declared (.calibrate "x") d)
        ∧ ∀ g, ∃ r, d.draw RandomSource.standard Scalar.undefined [] g = .ok r := by
  intro mode d
  have known : Builtin.ofName? "sqrt" = some .sqrt := by rfl
  have root (span : Option Span)
      : checkExpression [] .declared (.calibrate "x") span mode = [] := by
    simp [checkExpression, checkCall, names, name?, nodes, walk, children, mode, known]
  have clean : Clean (checkDistribution [] .declared (.calibrate "x") d) :=
    clean_ofParameters (by simp [checkExpression_number, root]) rfl
  refine ⟨clean, fun g => ?_⟩
  refine (draw_unless_astray Double.standard_hasUnits clean Scalar.undefined [] g).1.mpr
    ⟨_, rfl, ?_⟩
  intro fault strays
  cases strays with
  | triangular gapes => cases gapes.beyond

/-- Shares of an undefined value leave no bounds to draw between. -/
theorem undefined_shares_break
    : let d : Distribution Float := ofParameters .uniform
        [number (Scalar.ofDecimal false 9 (-1)) none, number (Scalar.ofDecimal false 11 (-1)) none]
      Clean (checkDistribution [] .declared (.calibrate "x") d)
        ∧ ∀ g, d.draw RandomSource.standard Scalar.undefined [] g = .error (.fault .overflow) :=
  ⟨clean_ofParameters (by simp [checkExpression_number]) rfl, fun _ => rfl⟩

end Samples

end Distribution

end Prognosis
