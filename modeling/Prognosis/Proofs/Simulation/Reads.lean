import Prognosis.Proofs.Value.Reads
import Prognosis.Proofs.Value.Resolved

/-! What is read by the declarations of a scenario: by the draw of a constant, by the anchors of
a variable, and while a point in time is computed. Nothing else decides what they give, and where
their functions are known and their names have values, they give a value.
-/

namespace Prognosis

variable {σ α : Type} [Scalar α]

/-! ### Names that are read -/

namespace Quantity

/-- The expressions that are read when a constant is drawn. -/
def constantExpressions : Quantity α → List (Expr α)
  | .assumption a => a.value.toList ++ a.uncertainty.toList.flatMap Distribution.expressions
  | .parameter p =>
      p.value.toList ++ (p.range.toList.flatMap fun (low, high) => [low, high])
        ++ p.uncertainty.toList.flatMap Distribution.expressions
  | _ => []

/-- The expressions that are read when the function through anchors is built. -/
def anchorExpressions : Quantity α → List (Expr α)
  | .varying v => v.anchors.map (·.value)
  | _ => []

/-- Names that are read when a constant is drawn. -/
def constantRoots (q : Quantity α) : List String :=
  q.constantExpressions.flatMap Expr.roots

/-- Names that are read when the function through anchors is built. -/
def anchorRoots (q : Quantity α) : List String :=
  q.anchorExpressions.flatMap Expr.roots

/-- What an impact without a formula sums. -/
def summedRoots : Quantity α → List String
  | .impact i => if i.formula.isNone then i.derivesFrom.map (·.root) else []
  | _ => []

/-- Names that are read while a point in time is computed. -/
def timedRoots (q : Quantity α) : List String :=
  q.expressions.flatMap Expr.roots ++ q.summedRoots

/-- All names that are read. -/
def reads (q : Quantity α) : List String :=
  q.constantRoots ++ q.anchorRoots ++ q.timedRoots

end Quantity

/-! ### Draws of constants -/

section Constants

variable {env env' : Env α}

theorem declaredBase_congr (value : Option (Expr α))
    (agree : AgreeOn (value.toList.flatMap Expr.roots) env env')
    : declaredBase value env = declaredBase value env' := by
  cases value with
  | none => rfl
  | some e => exact Expr.magnitude_congr e (agree.of_flatMap (by simp))

theorem drawAround_congr (source : RandomSource σ α) (distribution : Option (Distribution α))
    (base : α)
    (agree
      : AgreeOn ((distribution.toList.flatMap Distribution.expressions).flatMap Expr.roots)
          env env')
    : drawAround source distribution base env = drawAround source distribution base env' := by
  cases distribution with
  | none => rfl
  | some d =>
      funext s
      have same := Distribution.draw_congr source d base (agree.mono fun _ read => by
        simpa using read)
      simp only [drawAround, same]

/-- The draw of a constant depends only on what its declaration reads and on its pin. -/
theorem Quantity.drawConstant_congr (source : RandomSource σ α) {pins pins' : Env α}
    (q : Quantity α) (pinned : pins.lookup q.name = pins'.lookup q.name)
    (agree : AgreeOn q.constantRoots env env')
    : q.drawConstant source pins env = q.drawConstant source pins' env' := by
  funext s
  cases q with
  | assumption a =>
      have base := declaredBase_congr a.value (agree.mono fun _ read => by
        simp only [Quantity.constantRoots, Quantity.constantExpressions,
          List.flatMap_append, List.mem_append]
        exact Or.inl read)
      have around (x : α) := drawAround_congr source a.uncertainty x (agree.mono fun _ read => by
        simp only [Quantity.constantRoots, Quantity.constantExpressions,
          List.flatMap_append, List.mem_append]
        exact Or.inr read)
      simp only [Quantity.drawConstant, Assumption.draw, base, around]
  | parameter p =>
      have base := declaredBase_congr p.value (agree.mono fun _ read => by
        simp only [Quantity.constantRoots, Quantity.constantExpressions,
          List.flatMap_append, List.mem_append]
        exact Or.inl (Or.inl read))
      have around (x : α) := drawAround_congr source p.uncertainty x (agree.mono fun _ read => by
        simp only [Quantity.constantRoots, Quantity.constantExpressions,
          List.flatMap_append, List.mem_append]
        exact Or.inr read)
      have bounds (low high : Expr α) (range : p.range = some (low, high))
          : low.magnitude env = low.magnitude env'
            ∧ high.magnitude env = high.magnitude env' := by
        constructor
        · refine Expr.magnitude_congr low (agree.mono fun _ read => ?_)
          simp [Quantity.constantRoots, Quantity.constantExpressions, range, read]
        · refine Expr.magnitude_congr high (agree.mono fun _ read => ?_)
          simp [Quantity.constantRoots, Quantity.constantExpressions, range, read]
      have drawn : p.draw source env s = p.draw source env' s := by
        simp only [Parameter.draw]
        cases value : p.value with
        | some e =>
            rw [value] at base
            simp only [base, around]
        | none =>
            rw [value] at base
            cases range : p.range with
            | none => simp only [base, around]
            | some pair =>
                obtain ⟨low, high⟩ := pair
                obtain ⟨sameLow, sameHigh⟩ := bounds low high range
                simp only [sameLow, sameHigh]
      have pin : pins.lookup p.name = pins'.lookup p.name := pinned
      simp only [Quantity.drawConstant, pin, drawn]
  | varying v => rfl
  | impact i => rfl

end Constants

/-! ### Values at a point in time -/

/-- Value of a variable before uncertainty, the function through its anchors being built anew.
-/
def Variable.baseAt (v : Variable α) (constants env : Env α) (time origin : α)
    : Except Halt α :=
  match v.anchors, v.model with
  | _ :: _, _ => (v.interpolant constants).map (·.value time)
  | [], some m => m.value env time origin
  | [], none => .ok Scalar.zero

/-- Value of a variable or impact by its declaration, without a state to remember anything. -/
def Quantity.valueAt (source : RandomSource σ α) (q : Quantity α) (constants : Env α)
    (time origin : α) (env : Env α) (s : σ) : Except Halt (α × σ) :=
  match q with
  | .varying v =>
      match v.baseAt constants env time origin with
      | .error halt => .error halt
      | .ok base => drawAround source v.uncertainty base env s
  | .impact i => (i.value env).map fun x => (x, s)
  | _ => .ok (Scalar.zero, s)

section Timed

variable {env env' constants constants' : Env α}

theorem Variable.interpolant_congr (v : Variable α)
    (agree : AgreeOn (Quantity.varying v).anchorRoots constants constants')
    : v.interpolant constants = v.interpolant constants' := by
  simp only [Variable.interpolant]
  have values : Expr.magnitudes constants (v.anchors.map (·.value))
      = Expr.magnitudes constants' (v.anchors.map (·.value)) :=
    Expr.magnitudes_congr _ agree
  rw [values]

theorem Variable.baseAt_congr (v : Variable α) (time origin : α)
    (anchors : AgreeOn (Quantity.varying v).anchorRoots constants constants')
    (agree : AgreeOn (Quantity.varying v).timedRoots env env')
    : v.baseAt constants env time origin = v.baseAt constants' env' time origin := by
  simp only [Variable.baseAt]
  cases v.anchors with
  | cons first rest => simp only [Variable.interpolant_congr v anchors]
  | nil =>
      cases model : v.model with
      | none => rfl
      | some m =>
          refine Model.value_congr m (agree.mono fun root read => ?_) time origin
          simp only [Model.roots, List.mem_flatMap] at read
          obtain ⟨entry, member, below⟩ := read
          simp only [Quantity.timedRoots, Quantity.expressions, model, List.mem_append]
          exact Or.inl (List.mem_flatMap.mpr ⟨entry.2, by simp; exact Or.inl ⟨entry.1, member⟩,
            below⟩)

omit [Scalar α] in
theorem mapM_congr_of_mem {β γ : Type} {f g : β → Except Halt γ} {items : List β}
    (same : ∀ x ∈ items, f x = g x)
    : items.mapM f = items.mapM g := by
  induction items with
  | nil => rfl
  | cons first rest ih =>
      rw [List.mapM_cons, List.mapM_cons, same first (by simp),
        ih fun x member => same x (List.mem_cons_of_mem _ member)]

theorem Impact.value_congr (i : Impact α)
    (agree : AgreeOn (Quantity.impact i).timedRoots env env')
    : i.value env = i.value env' := by
  simp only [Impact.value]
  cases formula : i.formula with
  | some e =>
      refine Expr.value_congr e (agree.mono fun _ read => ?_)
      simp [Quantity.timedRoots, Quantity.expressions, formula, read]
  | none =>
      have terms (path : Path) (member : path ∈ i.derivesFrom)
          : (Expr.name path none).value env = (Expr.name path none).value env' := by
        simp only [Expr.value]
        rw [agree path.root (by
          simp only [Quantity.timedRoots, Quantity.summedRoots, formula, Option.isNone_none,
            if_true, List.mem_append]
          exact Or.inr (List.mem_map_of_mem member))]
      simp only [mapM_congr_of_mem terms]

/-- The value at a point in time depends only on what the declaration reads then, and on what
its anchors read of the constants.
-/
theorem Quantity.valueAt_congr (source : RandomSource σ α) (q : Quantity α) (time origin : α)
    (anchors : AgreeOn q.anchorRoots constants constants')
    (agree : AgreeOn q.timedRoots env env')
    : q.valueAt source constants time origin env
      = q.valueAt source constants' time origin env' := by
  funext s
  cases q with
  | varying v =>
      have base := Variable.baseAt_congr v time origin anchors agree
      have around (x : α) := drawAround_congr source v.uncertainty x (agree.mono fun _ read => by
        simp only [Quantity.timedRoots, Quantity.expressions, List.flatMap_append,
          List.mem_append]
        exact Or.inl (Or.inr read))
      simp only [Quantity.valueAt, base, around]
  | impact i => simp only [Quantity.valueAt, Impact.value_congr i agree]
  | assumption a => rfl
  | parameter p => rfl

end Timed

/-! ### Known functions and names with values -/

namespace Quantity

/-- All functions that the declaration calls are known. -/
structure CallsKnown (q : Quantity α) : Prop where
  constant : ∀ e ∈ q.constantExpressions, e.CallsKnown
  anchor : ∀ e ∈ q.anchorExpressions, e.CallsKnown
  timed : ∀ e ∈ q.expressions, e.CallsKnown

end Quantity

omit [Scalar α] in
/-- Expressions are resolved by values of all names that they read together. -/
theorem Expr.resolvedIn_of_flatMap {env : Env α} {es : List (Expr α)}
    (calls : ∀ e ∈ es, e.CallsKnown) (names : ∀ root ∈ es.flatMap roots, env.lookup root ≠ none)
    {e : Expr α} (member : e ∈ es)
    : e.ResolvedIn env := {
  calls := calls e member
  names := fun root read => names root (List.mem_flatMap.mpr ⟨e, member, read⟩)
}

section Constants

variable {env : Env α}

theorem declaredBase_resolves {value : Option (Expr α)}
    (resolved : ∀ e ∈ value.toList, e.ResolvedIn env)
    : Resolves (declaredBase value env) fun _ => True := by
  cases value with
  | none => trivial
  | some e => exact Expr.magnitude_resolves e (resolved e (by simp))

theorem drawAround_resolves (source : RandomSource σ α) {distribution : Option (Distribution α)}
    (base : α)
    (resolved
      : ∀ e ∈ distribution.toList.flatMap Distribution.expressions, e.ResolvedIn env)
    (s : σ)
    : Resolves (drawAround source distribution base env s) fun _ => True := by
  cases distribution with
  | none => trivial
  | some d =>
      exact Distribution.draw_resolves source d base (fun e member =>
        resolved e (by simpa using member)) s

theorem Parameter.draw_resolves (source : RandomSource σ α) (p : Parameter α)
    (resolved : ∀ e ∈ (Quantity.parameter p).constantExpressions, e.ResolvedIn env) (s : σ)
    : Resolves (p.draw source env s) fun _ => True := by
  have base : Resolves (declaredBase p.value env) fun _ => True :=
    declaredBase_resolves fun e member => resolved e (by
      simp only [Quantity.constantExpressions, List.mem_append]
      exact Or.inl (Or.inl member))
  have around (x : α) : Resolves (drawAround source p.uncertainty x env s) fun _ => True :=
    drawAround_resolves source x (fun e member => resolved e (by
      simp only [Quantity.constantExpressions, List.mem_append]
      exact Or.inr member)) s
  simp only [Parameter.draw]
  split
  case h_1 low high value range =>
    have bounds (e : Expr α) (either : e = low ∨ e = high)
        : Resolves (e.magnitude env) fun _ => True :=
      Expr.magnitude_resolves e (resolved e (by
        simp only [Quantity.constantExpressions, range, List.mem_append]
        exact Or.inl (Or.inr (by simpa using either))))
    exact (bounds low (Or.inl rfl)).bind fun _ _ =>
      (bounds high (Or.inr rfl)).bind fun _ _ => Resolves.lift _
  case h_2 => exact base.bind fun x _ => around x

/-- The draw of a constant misses nothing when all that it reads has a value. -/
theorem Quantity.drawConstant_resolves (source : RandomSource σ α) (pins : Env α)
    {q : Quantity α} (calls : q.CallsKnown)
    (names : ∀ root ∈ q.constantRoots, env.lookup root ≠ none) (s : σ)
    : Resolves (q.drawConstant source pins env s) fun _ => True := by
  have resolved : ∀ e ∈ q.constantExpressions, e.ResolvedIn env :=
    fun e member => Expr.resolvedIn_of_flatMap calls.constant names member
  cases q with
  | assumption a =>
      have base : Resolves (declaredBase a.value env) fun _ => True :=
        declaredBase_resolves fun e member => resolved e (List.mem_append_left _ member)
      exact base.bind fun x _ => drawAround_resolves source x (fun e member =>
        resolved e (List.mem_append_right _ member)) s
  | parameter p =>
      simp only [Quantity.drawConstant]
      cases pins.lookup p.name with
      | some x => trivial
      | none => exact Parameter.draw_resolves source p resolved s
  | varying v => trivial
  | impact i => trivial

end Constants

section Timed

variable {env constants : Env α}

theorem Variable.interpolant_resolves {v : Variable α}
    (calls : (Quantity.varying v).CallsKnown)
    (names : ∀ root ∈ (Quantity.varying v).anchorRoots, constants.lookup root ≠ none)
    : Resolves (v.interpolant constants) fun _ => True := by
  have values : Resolves (Expr.magnitudes constants (v.anchors.map (·.value))) fun _ => True :=
    Expr.magnitudes_resolve _ fun e member =>
      Expr.resolvedIn_of_flatMap calls.anchor names member
  exact (Resolves.lift _).bind fun _ _ => values.bind fun _ _ => Resolves.lift _

theorem Variable.baseAt_resolves {v : Variable α} (calls : (Quantity.varying v).CallsKnown)
    (time origin : α)
    (anchors : ∀ root ∈ (Quantity.varying v).anchorRoots, constants.lookup root ≠ none)
    (names : ∀ root ∈ (Quantity.varying v).timedRoots, env.lookup root ≠ none)
    : Resolves (v.baseAt constants env time origin) fun _ => True := by
  simp only [Variable.baseAt]
  cases v.anchors with
  | cons first rest => exact (Variable.interpolant_resolves calls anchors).map
  | nil =>
      cases model : v.model with
      | none => trivial
      | some m =>
          refine Model.value_resolves (fun entry member => ?_) time origin
          refine Expr.resolvedIn_of_flatMap calls.timed
            (fun root read => names root (List.mem_append_left _ read)) ?_
          simp only [Quantity.expressions, model, Option.toList_some, List.flatMap_cons,
            List.flatMap_nil, List.append_nil, List.mem_append]
          exact Or.inl (List.mem_map_of_mem member)

theorem Impact.value_resolves {i : Impact α} (calls : (Quantity.impact i).CallsKnown)
    (names : ∀ root ∈ (Quantity.impact i).timedRoots, env.lookup root ≠ none)
    : Resolves (i.value env) fun _ => True := by
  simp only [Impact.value]
  cases formula : i.formula with
  | some e =>
      refine Expr.value_resolves e (Expr.resolvedIn_of_flatMap calls.timed
        (fun root read => names root (List.mem_append_left _ read)) ?_)
      simp [Quantity.expressions, formula]
  | none =>
      refine Resolves.map (Resolves.mapM fun path member => ?_)
      have bound : env.lookup path.root ≠ none := by
        apply names
        simp only [Quantity.timedRoots, Quantity.summedRoots, formula, Option.isNone_none,
          if_true, List.mem_append]
        exact Or.inr (List.mem_map_of_mem member)
      simp only [Expr.value]
      cases found : env.lookup path.root with
      | none => exact absurd found bound
      | some x => trivial

/-- The value at a point in time misses nothing when the constants that anchors read and all
that the declaration reads then have values.
-/
theorem Quantity.valueAt_resolves (source : RandomSource σ α) {q : Quantity α}
    (calls : q.CallsKnown) (time origin : α)
    (anchors : ∀ root ∈ q.anchorRoots, constants.lookup root ≠ none)
    (names : ∀ root ∈ q.timedRoots, env.lookup root ≠ none) (s : σ)
    : Resolves (q.valueAt source constants time origin env s) fun _ => True := by
  cases q with
  | varying v =>
      have base := Variable.baseAt_resolves calls time origin anchors names
      simp only [Quantity.valueAt]
      cases found : v.baseAt constants env time origin with
      | error halt => exact base.reason found
      | ok x =>
          refine drawAround_resolves source x (fun e member => ?_) s
          refine Expr.resolvedIn_of_flatMap calls.timed
            (fun root read => names root (List.mem_append_left _ read)) ?_
          exact List.mem_append_right _ member
  | impact i => exact (Impact.value_resolves calls names).map
  | assumption a => trivial
  | parameter p => trivial

end Timed

end Prognosis
