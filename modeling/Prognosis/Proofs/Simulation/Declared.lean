import Prognosis.Observation.Watch
import Prognosis.Proofs.Check.Soundness
import Prognosis.Proofs.Entries
import Prognosis.Proofs.Simulation.Settled
import Prognosis.Proofs.Steps
import Prognosis.Sensitivity

/-! Declared values of constants. Runs, watch rules and knobs each go through the constants on their
own. Where nothing random enters these, all of them arrive at the same values, and values that are
pinned to the ones declared make no difference to what is drawn.
-/

namespace Prognosis

variable {σ α : Type}

-----------------------------------------------------------------------------------------
-- Declared values
-----------------------------------------------------------------------------------------

/-- The value that a constant declares, if it does. -/
def Quantity.declared? : Quantity α → Option (Expr α)
  | .assumption a => a.value
  | .parameter p => p.value
  | _ => none

variable [Scalar α]

/-- Values of constants in the order of their declarations, each by those before it. A constant that
declares none is zero.
-/
def declaredFrom (env : Env α) : List (Quantity α) → Except Halt (Env α)
  | [] => .ok env
  | q :: rest =>
      if q.isConstant then do
        let x ← declaredBase q.declared? env
        declaredFrom ((q.name, x) :: env) rest
      else declaredFrom env rest

section Declared

variable {env all : Env α} {q : Quantity α} {qs rest : List (Quantity α)}

theorem declaredFrom_cons_ok (constant : q.isConstant = true)
    : declaredFrom env (q :: rest) = .ok all
      ↔ ∃ x, declaredBase q.declared? env = .ok x
          ∧ declaredFrom ((q.name, x) :: env) rest = .ok all := by
  rw [declaredFrom, if_pos constant, bind_eq_ok]

/-- Variables and impacts are passed over. -/
theorem declaredFrom_filter (env : Env α) (qs : List (Quantity α))
    : declaredFrom env (qs.filter (·.isConstant)) = declaredFrom env qs := by
  induction qs generalizing env with
  | nil => rfl
  | cons q rest ih =>
      cases constant : q.isConstant with
      | false =>
          simp only [List.filter_cons, constant, Bool.false_eq_true, if_false, declaredFrom, ih]
      | true => simp only [List.filter_cons, constant, if_true, declaredFrom, ih]

/-- The value of a name that is not declared stays. By induction along the declarations. -/
theorem declaredFrom_kept (declared : declaredFrom env qs = .ok all) {name : String}
    (other : name ∉ qs.map (·.name))
    : all.lookup name = env.lookup name := by
  induction qs generalizing env with
  | nil =>
      cases declared
      rfl
  | cons q rest ih =>
      simp only [List.map_cons, List.mem_cons, not_or] at other
      cases constant : q.isConstant with
      | false =>
          rw [declaredFrom, if_neg (by simp [constant])] at declared
          exact ih declared other.2
      | true =>
          obtain ⟨x, -, later⟩ := (declaredFrom_cons_ok constant).mp declared
          rw [ih later other.2, Entries.lookup_cons_of_ne other.1]

/-- The first constant keeps the value that it gets. -/
theorem declaredFrom_head {x : α} (distinct : ((q :: rest).map (·.name)).Nodup)
    (declared : declaredFrom ((q.name, x) :: env) rest = .ok all)
    : all.lookup q.name = some x := by
  rw [declaredFrom_kept declared (List.nodup_cons.mp distinct).1, List.lookup_cons_self]

/-- Each constant has a value then. By induction along the declarations. -/
theorem declaredFrom_known (distinct : (qs.map (·.name)).Nodup)
    (declared : declaredFrom env qs = .ok all) {q : Quantity α} (among : q ∈ qs)
    (constant : q.isConstant = true)
    : ∃ x, all.lookup q.name = some x := by
  induction qs generalizing env with
  | nil => cases among
  | cons first rest ih =>
      have later := (List.nodup_cons.mp distinct).2
      cases fixed : first.isConstant with
      | false =>
          rw [declaredFrom, if_neg (by simp [fixed])] at declared
          rcases List.mem_cons.mp among with rfl | among
          · rw [constant] at fixed
            cases fixed
          · exact ih later declared among
      | true =>
          obtain ⟨x, -, others⟩ := (declaredFrom_cons_ok fixed).mp declared
          rcases List.mem_cons.mp among with rfl | among
          · exact ⟨x, declaredFrom_head distinct others⟩
          · exact ih later others among

end Declared

-----------------------------------------------------------------------------------------
-- Draws
-----------------------------------------------------------------------------------------

namespace RunState

variable {source : RandomSource σ α} {opened : String → σ} {pins : Env α}
  {state : RunState σ α} {q : Quantity α} {qs : List (Quantity α)}

/-- A certain constant has its declared value, and so it has where it is pinned to this one. -/
theorem drawConstant_declared (certain : q.IsCertain) (constant : q.isConstant = true)
    {env : Env α} (pinned : ∀ x, pins.lookup q.name = some x → declaredBase q.declared? env = .ok x)
    (s : σ)
    : q.drawConstant source pins env s = (declaredBase q.declared? env).map fun x => (x, s) := by
  cases q with
  | assumption a =>
      have fixed : a.uncertainty = none := certain
      simp only [Quantity.drawConstant, Assumption.draw, fixed, Quantity.declared?]
      cases declaredBase a.value env <;> rfl
  | parameter p =>
      obtain ⟨fixed, stated⟩ := certain
      obtain ⟨e, value⟩ := Option.ne_none_iff_exists'.mp stated
      simp only [Quantity.drawConstant, Parameter.draw, fixed, value, Quantity.declared?]
      cases pin : pins.lookup p.name with
      | none => cases declaredBase (some e) env <;> rfl
      | some x =>
          have same := pinned x pin
          simp only [Quantity.declared?, value] at same
          rw [same]
          rfl
  | varying v => cases constant
  | impact i => cases constant

/-- Certain constants that are not pinned are drawn as they are declared, and drawing them stops
where a declared value cannot be computed. By induction along the declarations.
-/
theorem drawConstants_declared (certain : ∀ q ∈ qs, q.IsCertain)
    (constant : ∀ q ∈ qs, q.isConstant = true)
    : (state.drawConstants source opened [] qs).map (·.constants)
      = declaredFrom state.constants qs := by
  induction qs generalizing state with
  | nil => rfl
  | cons q rest ih =>
      rw [List.forall_mem_cons] at certain constant
      rw [drawConstants, drawConstant_eq,
        drawConstant_declared certain.1 constant.1 (by simp), declaredFrom,
        if_pos constant.1]
      cases declaredBase q.declared? state.constants with
      | error halt => rfl
      | ok x => exact ih certain.2 constant.2

/-- Pins at the declared values make no difference to the state that the draws leave. By induction
along the declarations.
-/
theorem drawConstants_pinned (certain : ∀ q ∈ qs, q.IsCertain)
    (constant : ∀ q ∈ qs, q.isConstant = true) (distinct : (qs.map (·.name)).Nodup) {all : Env α}
    (declared : declaredFrom state.constants qs = .ok all)
    (pinned : ∀ q ∈ qs, ∀ x, pins.lookup q.name = some x → all.lookup q.name = some x)
    : state.drawConstants source opened pins qs = state.drawConstants source opened [] qs := by
  induction qs generalizing state with
  | nil => rfl
  | cons q rest ih =>
      rw [List.forall_mem_cons] at certain constant pinned
      obtain ⟨x, base, later⟩ := (declaredFrom_cons_ok constant.1).mp declared
      have own (y : α) (pin : pins.lookup q.name = some y)
          : declaredBase q.declared? state.constants = .ok y := by
        have known := pinned.1 y pin
        rw [declaredFrom_head distinct later] at known
        cases known
        exact base
      rw [drawConstants, drawConstants, drawConstant_eq, drawConstant_eq,
        drawConstant_declared certain.1 constant.1 own,
        drawConstant_declared certain.1 constant.1 (by simp), base]
      exact ih certain.2 constant.2 (List.nodup_cons.mp distinct).2 later pinned.2

end RunState

-----------------------------------------------------------------------------------------
-- Watch rules
-----------------------------------------------------------------------------------------

/-- Where all constants declare a value that can be computed, watch rules know these values. By
induction along the declarations.
-/
theorem Watch.constantsFrom_declared {env all : Env α} {qs : List (Quantity α)}
    (stated : ∀ q ∈ qs, q.isConstant = true → q.declared? ≠ none)
    (declared : declaredFrom env qs = .ok all)
    : Watch.constantsFrom env qs = .ok all := by
  induction qs generalizing env with
  | nil =>
      cases declared
      rfl
  | cons q rest ih =>
      rw [List.forall_mem_cons] at stated
      cases constant : q.isConstant with
      | false =>
          rw [declaredFrom, if_neg (by simp [constant])] at declared
          have skipped := ih stated.2 declared
          cases q with
          | assumption a => cases constant
          | parameter p => cases constant
          | varying v => exact skipped
          | impact i => exact skipped
      | true =>
          obtain ⟨x, base, later⟩ := (declaredFrom_cons_ok constant).mp declared
          have others := ih stated.2 later
          obtain ⟨e, value⟩ := Option.ne_none_iff_exists'.mp (stated.1 constant)
          rw [value] at base
          have computed : e.magnitude env = .ok x := base
          cases q with
          | assumption a =>
              have value : a.value = some e := value
              simp only [Watch.constantsFrom, value, computed]
              exact others
          | parameter p =>
              have value : p.value = some e := value
              simp only [Watch.constantsFrom, value, computed]
              exact others
          | varying v => cases constant
          | impact i => cases constant

-----------------------------------------------------------------------------------------
-- Knobs
-----------------------------------------------------------------------------------------

namespace Knob

/-- The knob of a constant by the values of all constants, if it has one. -/
def ofConstant (all : Env α) : Quantity α → Except Halt (List (Knob α))
  | .parameter p => do
      let range ← rangeOf all p.range
      return (ofParameter? p ((all.lookup p.name).getD Scalar.zero) range).toList
  | _ => .ok []

variable {env env' all : Env α} {qs : List (Quantity α)}

theorem rangeOf_congr {p : Parameter α}
    (agree : AgreeOn (Quantity.parameter p).constantRoots env env')
    : rangeOf env p.range = rangeOf env' p.range := by
  cases range : p.range with
  | none => rfl
  | some bounds =>
      obtain ⟨low, high⟩ := bounds
      have sameLow : low.magnitude env = low.magnitude env' := by
        refine Expr.magnitude_congr low (agree.mono fun _ read => ?_)
        simp [Quantity.constantRoots, Quantity.constantExpressions, range, read]
      have sameHigh : high.magnitude env = high.magnitude env' := by
        refine Expr.magnitude_congr high (agree.mono fun _ read => ?_)
        simp [Quantity.constantRoots, Quantity.constantExpressions, range, read]
      simp only [rangeOf, sameLow, sameHigh]

/-- Variables and impacts are passed over. -/
theorem collect_filter (env : Env α) (qs : List (Quantity α))
    : collect env (qs.filter (·.isConstant)) = collect env qs := by
  induction qs generalizing env with
  | nil => rfl
  | cons q rest ih =>
      cases q with
      | assumption a =>
          have constant : (Quantity.assumption a).isConstant = true := rfl
          simp only [List.filter_cons, constant, if_true, collect, ih]
      | parameter p =>
          have constant : (Quantity.parameter p).isConstant = true := rfl
          simp only [List.filter_cons, constant, if_true, collect, ih]
      | varying v =>
          have varies : (Quantity.varying v).isConstant = false := rfl
          simp only [List.filter_cons, varies, Bool.false_eq_true, if_false, collect, ih]
      | impact i =>
          have varies : (Quantity.impact i).isConstant = false := rfl
          simp only [List.filter_cons, varies, Bool.false_eq_true, if_false, collect, ih]

theorem collect_assumption (env : Env α) (a : Assumption α) (rest : List (Quantity α))
    : collect env (.assumption a :: rest)
      = declaredBase a.value env >>= fun x => collect ((a.name, x) :: env) rest := by
  have base : (a.value.map fun e => e.magnitude env).getD (.ok Scalar.zero)
      = declaredBase a.value env := by
    cases a.value <;> rfl
  rw [collect, base]
  cases declaredBase a.value env <;> rfl

theorem collect_parameter (env : Env α) {p : Parameter α} (stated : p.value ≠ none)
    (rest : List (Quantity α))
    : collect env (.parameter p :: rest)
      = do
        let range ← rangeOf env p.range
        let x ← declaredBase p.value env
        let others ← collect ((p.name, x) :: env) rest
        return (ofParameter? p x range).toList ++ others := by
  obtain ⟨e, value⟩ := Option.ne_none_iff_exists'.mp stated
  rw [collect, value]
  cases rangeOf env p.range with
  | error halt => rfl
  | ok range =>
      have base : defaultOf env p range = declaredBase (some e) env := by
        simp only [defaultOf, value, declaredBase]
      simp only [base]
      cases declaredBase (some e) env with
      | error halt => rfl
      | ok x =>
          simp only [bind, Except.bind]
          cases collect ((p.name, x) :: env) rest <;> rfl

/-- Where the knobs are known, so are the declared values. By induction along the declarations. -/
theorem declared_of_collect {knobs : List (Knob α)} (constant : ∀ q ∈ qs, q.isConstant = true)
    (stated : ∀ p, .parameter p ∈ qs → p.value ≠ none) (is : collect env qs = .ok knobs)
    : ∃ all, declaredFrom env qs = .ok all := by
  induction qs generalizing env knobs with
  | nil => exact ⟨env, rfl⟩
  | cons q rest ih =>
      rw [List.forall_mem_cons] at constant
      have later := fun p member => stated p (List.mem_cons_of_mem _ member)
      cases q with
      | assumption a =>
          rw [collect_assumption] at is
          obtain ⟨x, base, others⟩ := bind_eq_ok.mp is
          obtain ⟨all, declared⟩ := ih constant.2 later others
          exact ⟨all, (declaredFrom_cons_ok constant.1).mpr ⟨x, base, declared⟩⟩
      | parameter p =>
          rw [collect_parameter env (stated p List.mem_cons_self)] at is
          obtain ⟨range, -, more⟩ := bind_eq_ok.mp is
          obtain ⟨x, base, more⟩ := bind_eq_ok.mp more
          obtain ⟨knobs', others, -⟩ := bind_eq_ok.mp more
          obtain ⟨all, declared⟩ := ih constant.2 later others
          exact ⟨all, (declaredFrom_cons_ok constant.1).mpr ⟨x, base, declared⟩⟩
      | varying v => cases constant.1
      | impact i => cases constant.1

/-- The knobs of constants that read only those before them are those by the values of all. By
induction along the declarations.
-/
theorem collect_declared {given : String → Prop} {source : RandomSource σ α} {pins : Env α}
    (ready : Cell.Ready given (qs.map (RunState.constantCell source pins)))
    (distinct : (qs.map (·.name)).Nodup) (constant : ∀ q ∈ qs, q.isConstant = true)
    (stated : ∀ p, .parameter p ∈ qs → p.value ≠ none) (declared : declaredFrom env qs = .ok all)
    : collect env qs = (qs.mapM (ofConstant all)).map List.flatten := by
  induction qs generalizing given env with
  | nil => rfl
  | cons q rest ih =>
      have kept (name : String) (known : given name) : env.lookup name = all.lookup name := by
        refine (declaredFrom_kept declared fun among => ?_).symm
        obtain ⟨other, member, rfl⟩ := List.mem_map.mp among
        exact ready.new_of_mem (List.mem_map_of_mem member) known
      cases ready with
      | cons reads new others =>
          have agree : AgreeOn q.constantRoots env all := fun root read =>
            kept root (reads root read)
          rw [List.forall_mem_cons] at constant
          obtain ⟨x, base, later⟩ := (declaredFrom_cons_ok constant.1).mp declared
          have head := declaredFrom_head distinct later
          have tail := ih others (List.nodup_cons.mp distinct).2 constant.2
            (fun p member => stated p (List.mem_cons_of_mem _ member)) later
          rw [List.mapM_cons]
          cases q with
          | assumption a =>
              have base : declaredBase a.value env = .ok x := base
              rw [collect_assumption, base]
              refine tail.trans ?_
              simp only [ofConstant]
              cases rest.mapM (ofConstant all) <;> rfl
          | parameter p =>
              have base : declaredBase p.value env = .ok x := base
              have head : all.lookup p.name = some x := head
              have tail : collect ((p.name, x) :: env) rest = _ := tail
              rw [collect_parameter env (stated p List.mem_cons_self), base, rangeOf_congr agree]
              simp only [ofConstant, head, Option.getD_some]
              cases rangeOf all p.range with
              | error halt => rfl
              | ok range =>
                  simp only [bind, Except.bind]
                  rw [tail]
                  cases rest.mapM (ofConstant all) <;> rfl
          | varying v => cases constant.1
          | impact i => cases constant.1

end Knob

-----------------------------------------------------------------------------------------
-- Scenarios
-----------------------------------------------------------------------------------------

omit [Scalar α] in
/-- A parameter that has a knob: it has a range or is a slider. -/
def Quantity.adjustable? : Quantity α → Option (Parameter α)
  | .parameter p => if p.range.isSome || p.control == some .slider then some p else none
  | _ => none

/-- The knob of a constant that has a value stands at this value. -/
theorem Knob.ofConstant_default {all : Env α} {q : Quantity α} {knobs : List (Knob α)}
    (known : ∃ x, all.lookup q.name = some x) (is : Knob.ofConstant all q = .ok knobs)
    : knobs.map (fun k => (k.name, some k.default))
      = q.adjustable?.toList.map fun p => (p.name, all.lookup p.name) := by
  obtain ⟨x, known⟩ := known
  cases q with
  | parameter p =>
      have known : all.lookup p.name = some x := known
      obtain ⟨range, bounds, same⟩ := bind_eq_ok.mp is
      cases same
      simp only [Quantity.adjustable?, known, Option.getD_some]
      cases written : p.range with
      | none =>
          rw [written] at bounds
          cases bounds
          simp only [Knob.ofParameter?, Option.isSome_none, Bool.false_or]
          split <;> simp [known]
      | some pair =>
          obtain ⟨low, high⟩ := pair
          rw [written] at bounds
          obtain ⟨l, -, more⟩ := bind_eq_ok.mp bounds
          obtain ⟨h, -, rest⟩ := bind_eq_ok.mp more
          cases rest
          simp [Knob.ofParameter?, known]
  | assumption a => cases is; rfl
  | varying v => cases is; rfl
  | impact i => cases is; rfl

/-- So do those of a list of constants. By induction along the list. -/
theorem Knob.ofConstants_default {all : Env α} {qs : List (Quantity α)}
    {results : List (List (Knob α))} (known : ∀ q ∈ qs, ∃ x, all.lookup q.name = some x)
    (are : qs.mapM (Knob.ofConstant all) = .ok results)
    : results.flatten.map (fun k => (k.name, some k.default))
      = (qs.filterMap (·.adjustable?)).map fun p => (p.name, all.lookup p.name) := by
  have pairs := mapM_eq_ok_iff.mp are
  clear are
  induction pairs with
  | nil => rfl
  | @cons q knobs rest others is _ ih =>
      rw [List.forall_mem_cons] at known
      rw [List.flatten_cons, List.map_append, Knob.ofConstant_default known.1 is, ih known.2,
        List.filterMap_cons]
      cases q.adjustable? <;> rfl

namespace Scenario

variable {s : Scenario α} {graph : CausalGraph} {all : Env α}

omit [Scalar α] in
/-- The parameters that have knobs, in order. -/
def adjustable (s : Scenario α) : List (Parameter α) :=
  s.quantities.filterMap (·.adjustable?)

omit [Scalar α] in
/-- The constants of a scenario, in order. -/
def constants (s : Scenario α) : List (Quantity α) :=
  s.quantities.filter (·.isConstant)

omit [Scalar α] in
theorem adjustable_eq (s : Scenario α)
    : s.constants.filterMap (·.adjustable?) = s.adjustable := by
  rw [constants, List.filterMap_filter, adjustable]
  refine List.filterMap_congr fun q _ => ?_
  cases q <;> rfl

theorem Accepted.constants_eq (accepted : s.Accepted graph) (order : List String)
    (times : List α) (seed : Int) (pins : Env α)
    : (Plan.ofScenario s order times seed pins).constants = s.constants := by
  rw [Plan.constants, accepted.owners_eq, constants]

omit [Scalar α] in
theorem constant_of_mem {q : Quantity α} (among : q ∈ s.constants) : q.isConstant = true :=
  (List.mem_filter.mp among).2

theorem Accepted.constants_distinct (accepted : s.Accepted graph)
    : (s.constants.map (·.name)).Nodup :=
  accepted.quantities_distinct.sublist (List.filter_sublist.map _)

/-- Nothing random enters a constant. A parameter has a value then. -/
def HasCertainConstants (s : Scenario α) : Prop :=
  ∀ q ∈ s.quantities, q.isConstant = true → q.IsCertain

omit [Scalar α] in
theorem HasCertainConstants.stated (certain : s.HasCertainConstants) (p : Parameter α)
    (among : .parameter p ∈ s.constants)
    : p.value ≠ none := by
  have both : (Quantity.parameter p).IsCertain := certain _ (List.mem_filter.mp among).1 rfl
  exact both.2

omit [Scalar α] in
theorem HasCertainConstants.isCertain (certain : s.HasCertainConstants) (q : Quantity α)
    (among : q ∈ s.constants)
    : q.IsCertain :=
  certain q (List.mem_filter.mp among).1 (constant_of_mem among)

/-- The knobs of a scenario whose parameters have values, by the declared values of all constants.
-/
theorem Accepted.knobs_eq (accepted : s.Accepted graph) (source : RandomSource σ α)
    (stated : ∀ p, .parameter p ∈ s.constants → p.value ≠ none)
    (declared : declaredFrom [] s.constants = .ok all)
    : Knob.ofScenario s = (s.constants.mapM (Knob.ofConstant all)).map List.flatten := by
  have ready := RunState.constantCells_ready (accepted.sound accepted.isOrder [] 0 []) source
  rw [accepted.constants_eq] at ready
  rw [Knob.ofScenario, ← Knob.collect_filter]
  exact Knob.collect_declared ready accepted.constants_distinct (fun _ => constant_of_mem) stated
    declared

/-- They are there when all ranges can be evaluated. -/
theorem Accepted.knobs_iff (accepted : s.Accepted graph) (source : RandomSource σ α)
    (stated : ∀ p, .parameter p ∈ s.constants → p.value ≠ none)
    (declared : declaredFrom [] s.constants = .ok all)
    : (∃ knobs, Knob.ofScenario s = .ok knobs)
      ↔ ∀ p, .parameter p ∈ s.quantities → ∃ range, Knob.rangeOf all p.range = .ok range := by
  rw [accepted.knobs_eq source stated declared, ← isOk_iff, isOk_map, isOk_mapM]
  constructor
  · intro each p member
    obtain ⟨knobs, is⟩ := isOk_iff.mp (each (.parameter p) (List.mem_filter.mpr ⟨member, rfl⟩))
    obtain ⟨range, bounds, -⟩ := bind_eq_ok.mp is
    exact ⟨range, bounds⟩
  · intro ranges q among
    cases q with
    | parameter p =>
        obtain ⟨range, bounds⟩ := ranges p (List.mem_filter.mp among).1
        exact isOk_iff.mpr ⟨_, bind_eq_ok.mpr ⟨range, bounds, rfl⟩⟩
    | assumption a => rfl
    | varying v => rfl
    | impact i => rfl

/-- Each of them stands at the declared value of its parameter. -/
theorem Accepted.knobs_defaults (accepted : s.Accepted graph) (source : RandomSource σ α)
    (stated : ∀ p, .parameter p ∈ s.constants → p.value ≠ none)
    (declared : declaredFrom [] s.constants = .ok all) {knobs : List (Knob α)}
    (is : Knob.ofScenario s = .ok knobs)
    : knobs.map (fun k => (k.name, some k.default))
      = s.adjustable.map fun p => (p.name, all.lookup p.name) := by
  rw [accepted.knobs_eq source stated declared] at is
  obtain ⟨results, are, rfl⟩ := exists_of_map_eq_ok is
  rw [← adjustable_eq]
  refine Knob.ofConstants_default (fun q among => ?_) are
  exact declaredFrom_known accepted.constants_distinct declared among (constant_of_mem among)

end Scenario

end Prognosis
