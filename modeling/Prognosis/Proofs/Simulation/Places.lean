import Prognosis.Proofs.Simulation.Reads
import Prognosis.Proofs.Syntax.Places
import Prognosis.Value.Distribution
import Prognosis.Value.Model

/-! Places do not count: expressions, distributions and models have the values of what they are
without places, and declarations that are the same up to places draw the same constants and have the
same values at each point in time.
-/

namespace Prognosis

variable {σ α : Type} [Scalar α]

namespace Expr

variable {env : Env α}

theorem values_unplaced {es : List (Expr α)}
    (each : ∀ e ∈ es, value env e.unplaced = value env e)
    : values env (unplacedAll es) = values env es := by
  induction es with
  | nil => rfl
  | cons e rest ih =>
      simp only [unplacedAll, values]
      rw [each e (by simp), ih fun other member => each other (List.mem_cons_of_mem _ member)]

theorem namedValues_unplaced {named : List (String × Expr α)}
    (each : ∀ e ∈ named.map (·.2), value env e.unplaced = value env e)
    : namedValues env (unplacedNamed named) = namedValues env named := by
  induction named with
  | nil => rfl
  | cons entry rest ih =>
      obtain ⟨key, e⟩ := entry
      simp only [unplacedNamed, unplacedEntry, namedValues, entryValue]
      rw [each e (by simp), ih fun other member => each other (List.mem_cons_of_mem _ member)]

/-- Up to the place of a fault nothing changes: a halt holds no place. By induction on parts. -/
theorem value_unplaced (e : Expr α) : value env e.unplaced = value env e := by
  induction e using induction_on_children with
  | step e ih =>
      cases e with
      | number | percentage | currency | text | boolean => rfl
      | name path span => rfl
      | unary op operand span =>
          simp only [unplaced, value]
          rw [ih operand (by simp [children])]
      | binary op left right span =>
          simp only [unplaced, value]
          rw [ih left (by simp [children]), ih right (by simp [children])]
      | call function positional named span =>
          simp only [unplaced, value]
          rw [values_unplaced fun e member => ih e (by simp [children, member]),
            namedValues_unplaced fun e member =>
              ih e (List.mem_append_right positional member)]

/-- The same holds of magnitudes, by induction on leading signs. -/
theorem magnitude_unplaced (e : Expr α) : magnitude env e.unplaced = magnitude env e := by
  induction e using induction_on_children with
  | step e ih =>
      have whole : e.unplaced.value env = e.value env := value_unplaced e
      cases e with
      | unary op operand span =>
          have inner := ih operand (by simp [children])
          cases op with
          | not => exact whole
          | minus | plus | plusMinus => simp only [unplaced, magnitude, inner]
      | percentage => rfl
      | number | currency | text | boolean | name | binary | call => exact whole

theorem magnitudes_unplaced (es : List (Expr α))
    : magnitudes env (es.map unplaced) = magnitudes env es := by
  induction es with
  | nil => rfl
  | cons e rest ih => simp only [List.map_cons, magnitudes, magnitude_unplaced, ih]

end Expr

namespace Distribution

theorem mapM_id_map {β γ : Type} (f : β → γ) (slots : List (Option β))
    : (slots.map (Option.map f)).mapM id = (slots.mapM id).map (List.map f) := by
  induction slots with
  | nil => rfl
  | cons slot rest ih =>
      cases slot with
      | none => simp [List.mapM_cons]
      | some x =>
          simp only [List.map_cons, List.mapM_cons, ih]
          cases rest.mapM id <;> rfl

theorem draw_unplaced (source : RandomSource σ α) (d : Distribution α) (base : α)
    : d.unplaced.draw source base = d.draw source base := by
  funext env s
  have parameters : d.unplaced.parameterValues env = d.parameterValues env := by
    simp only [parameterValues, arguments_unplaced, mapM_id_map, Option.map_map]
    congr 1
    funext parameters
    exact Expr.magnitudes_unplaced parameters
  have drawn (values : List α)
      : drawWith source d.unplaced values base s = drawWith source d values base s := by
    simp only [drawWith, isRelative_unplaced]
    rfl
  simp only [draw, parameters, drawn]

end Distribution

namespace Model

variable {env : Env α}

theorem parameter_unplaced (m : Model α) (names : List String) (otherwise : α)
    : m.unplaced.parameter env names otherwise = m.parameter env names otherwise := by
  simp only [parameter, parameter?_unplaced]
  cases m.parameter? names with
  | none => rfl
  | some e => exact Expr.magnitude_unplaced e

theorem polynomial_unplaced (m : Model α) (elapsed : α) (bound power : Nat) (total : α)
    : m.unplaced.polynomial env elapsed bound power total
      = m.polynomial env elapsed bound power total := by
  induction bound generalizing power total with
  | zero => rfl
  | succ bound ih =>
      simp only [polynomial, parameter?_unplaced]
      cases m.parameter? ["c" ++ Decimal.wholeText power] with
      | none => rfl
      | some e => simp only [Option.map_some, Expr.magnitude_unplaced, ih]

theorem value_unplaced (m : Model α) (time origin : α)
    : m.unplaced.value env time origin = m.value env time origin := by
  have count : m.unplaced.parameters.length = m.parameters.length := by simp [unplaced]
  simp only [value, parameter_unplaced, polynomial_unplaced, count]
  rfl

end Model

-----------------------------------------------------------------------------------------
-- Declarations
-----------------------------------------------------------------------------------------

theorem declaredBase_unplaced (value : Option (Expr α)) (env : Env α)
    : declaredBase (value.map Expr.unplaced) env = declaredBase value env := by
  cases value with
  | none => rfl
  | some e => exact Expr.magnitude_unplaced e

theorem drawAround_unplaced (source : RandomSource σ α)
    (distribution : Option (Distribution α)) (base : α)
    : drawAround source (distribution.map Distribution.unplaced) base
      = drawAround source distribution base := by
  funext env s
  cases distribution with
  | none => rfl
  | some d => exact congrFun (congrFun (Distribution.draw_unplaced source d base) env) s

theorem Quantity.drawConstant_unplaced (source : RandomSource σ α) (pins : Env α)
    (q : Quantity α)
    : q.unplaced.drawConstant source pins = q.drawConstant source pins := by
  funext env s
  cases q with
  | assumption a =>
      simp only [unplaced, drawConstant, Assumption.draw, Assumption.unplaced,
        declaredBase_unplaced, drawAround_unplaced]
  | parameter p =>
      have drawn : p.unplaced.draw source env s = p.draw source env s := by
        simp only [Parameter.draw, Parameter.unplaced, drawAround_unplaced]
        cases value : p.value with
        | some e => simp only [← declaredBase_unplaced (some e)]; rfl
        | none =>
            cases p.range with
            | none => rfl
            | some range =>
                obtain ⟨low, high⟩ := range
                simp only [Option.map_none, Option.map_some, Expr.magnitude_unplaced]
      simp only [unplaced, drawConstant, drawn]
      rfl
  | varying v => rfl
  | impact i => rfl

theorem Variable.interpolant_unplaced (v : Variable α) (constants : Env α)
    : v.unplaced.interpolant constants = v.interpolant constants := by
  have spline : (v.model.map Model.unplaced).any (·.kind == .spline)
      = v.model.any (·.kind == .spline) := by
    cases v.model <;> rfl
  have method : v.unplaced.method = v.method := by
    simp only [Variable.method, Variable.unplaced, spline]
  have times : (v.unplaced.anchors.mapM fun a => a.date.yearFraction (α := α))
      = v.anchors.mapM fun a => a.date.yearFraction := by
    simp only [Variable.unplaced, List.mapM_map]
    rfl
  have values : v.unplaced.anchors.map (·.value)
      = (v.anchors.map (·.value)).map Expr.unplaced := by
    simp only [Variable.unplaced, List.map_map]
    rfl
  simp only [Variable.interpolant, method, times, values, Expr.magnitudes_unplaced]

theorem Impact.value_unplaced (i : Impact α) (env : Env α)
    : i.unplaced.value env = i.value env := by
  simp only [Impact.value, Impact.unplaced]
  cases i.formula with
  | none => rfl
  | some e => exact Expr.value_unplaced e

theorem Quantity.valueAt_unplaced (source : RandomSource σ α) (constants : Env α)
    (time origin : α) (q : Quantity α)
    : q.unplaced.valueAt source constants time origin
      = q.valueAt source constants time origin := by
  funext env s
  cases q with
  | varying v =>
      have base : v.unplaced.baseAt constants env time origin
          = v.baseAt constants env time origin := by
        have anchors : v.unplaced.anchors = v.anchors.map Anchor.unplaced := rfl
        have model : v.unplaced.model = v.model.map Model.unplaced := rfl
        simp only [Variable.baseAt, anchors, model, Variable.interpolant_unplaced]
        cases v.anchors with
        | cons first rest => rfl
        | nil =>
            cases v.model with
            | none => rfl
            | some m => exact Model.value_unplaced m time origin
      have uncertainty : v.unplaced.uncertainty = v.uncertainty.map Distribution.unplaced := rfl
      simp only [unplaced, valueAt, base, uncertainty, drawAround_unplaced]
  | impact i => simp only [unplaced, valueAt, Impact.value_unplaced]
  | assumption a => rfl
  | parameter p => rfl

section Same

variable {q other : Quantity α}

/-- Constants that are the same up to places are drawn alike. -/
theorem Quantity.drawConstant_eq_of_unplaced (source : RandomSource σ α) (pins : Env α)
    (same : q.unplaced = other.unplaced)
    : q.drawConstant source pins = other.drawConstant source pins := by
  rw [← q.drawConstant_unplaced, same, other.drawConstant_unplaced]

/-- Variables and impacts that are the same up to places have the same values. -/
theorem Quantity.valueAt_eq_of_unplaced (source : RandomSource σ α) (constants : Env α)
    (time origin : α) (same : q.unplaced = other.unplaced)
    : q.valueAt source constants time origin = other.valueAt source constants time origin := by
  rw [← q.valueAt_unplaced, same, other.valueAt_unplaced]

end Same

end Prognosis
