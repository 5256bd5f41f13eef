import Prognosis.Entries
import Prognosis.Simulation.Plan
import Prognosis.Value.Distribution
import Prognosis.Value.Interpolant
import Prognosis.Value.Model

/-! One run of a simulation. Constants are drawn first; then, at each point in time, variables
and impacts are computed in order and the branches that have not been decided yet are looked at.
Every random quantity draws from a stream of its own.
-/

namespace Prognosis

variable {σ α : Type} [Scalar α]

/-! ### Declared values -/

/-- A draw around a base; without a distribution it is the base itself. -/
def drawAround (source : RandomSource σ α) (distribution : Option (Distribution α)) (base : α)
    (env : Env α) (s : σ) : Except Halt (α × σ) :=
  match distribution with
  | none => .ok (base, s)
  | some d => d.draw source base env s

/-- Declared magnitude of a value, zero where there is none. -/
def declaredBase (value : Option (Expr α)) (env : Env α) : Except Halt α :=
  match value with
  | none => .ok Scalar.zero
  | some e => e.magnitude env

/-- A draw of an assumption. -/
def Assumption.draw (source : RandomSource σ α) (a : Assumption α) (env : Env α) (s : σ)
    : Except Halt (α × σ) := do
  let base ← declaredBase a.value env
  drawAround source a.uncertainty base env s

/-- A draw of a parameter that is not pinned. Without a value it lies anywhere in its range. -/
def Parameter.draw (source : RandomSource σ α) (p : Parameter α) (env : Env α) (s : σ)
    : Except Halt (α × σ) :=
  match p.value, p.range with
  | none, some (low, high) => do
      let low ← low.magnitude env
      let high ← high.magnitude env
      Halt.lift (source.uniform low high s)
  | value, _ => do
      let base ← declaredBase value env
      drawAround source p.uncertainty base env s

/-- A draw of a constant; a pinned parameter has its pinned value. -/
def Quantity.drawConstant (source : RandomSource σ α) (pins : Env α) (q : Quantity α)
    (env : Env α) (s : σ) : Except Halt (α × σ) :=
  match q with
  | .assumption a => a.draw source env s
  | .parameter p =>
      match pins.lookup p.name with
      | some x => .ok (x, s)
      | none => p.draw source env s
  | _ => .ok (Scalar.zero, s)

/-- How values between the anchors of a variable are found. -/
def Variable.method (v : Variable α) : Interpolation :=
  if v.model.any (·.kind == .spline) then .spline else v.interpolation.getD .linear

/-- The function through the anchors of a variable. -/
def Variable.interpolant (v : Variable α) (constants : Env α)
    : Except Halt (Interpolant α) := do
  let times ← Halt.lift (v.anchors.mapM fun a => a.date.yearFraction)
  let values ← Expr.magnitudes constants (v.anchors.map (·.value))
  Halt.lift (Interpolant.ofAnchors v.method ((times.zip values).map fun (t, x) => ⟨t, x⟩))

/-- Value of an impact; without a formula it is the sum of what it derives from. -/
def Impact.value (i : Impact α) (env : Env α) : Except Halt α :=
  match i.formula with
  | some e => e.value env
  | none => (i.derivesFrom.mapM fun path => (Expr.name path none).value env).map Scalar.sum

/-! ### State of a run -/

/-- A declaration with the stream that it draws from. -/
structure InForce (α : Type) where
  declaration : Quantity α
  stream : String

/-- What changes in the course of a run. -/
structure RunState (σ α : Type) where
  /-- Streams that something was drawn from, by name. -/
  streams : Entries σ
  /-- The declarations in force, by name. -/
  inForce : Entries (InForce α)
  /-- Values of assumptions and parameters. -/
  constants : Env α
  /-- Functions through anchors that were built before, by the names of their variables. -/
  interpolants : Entries (Interpolant α)
  /-- Branches whose condition has held. -/
  decided : List String
  /-- Branches that were taken. -/
  activated : List String

namespace RunState

/-- The state before anything is drawn. -/
def start (plan : Plan α) : RunState σ α := {
  streams := []
  inForce := plan.owners.map fun q => (q.name, ⟨q, q.name⟩)
  constants := []
  interpolants := []
  decided := []
  activated := []
}

/-- A draw from the stream of a name, which is opened where nothing was drawn from it yet. -/
def drawFrom (opened : String → σ) (state : RunState σ α) (stream : String)
    (draw : σ → Except Halt (α × σ)) : Except Halt (α × RunState σ α) :=
  match draw ((state.streams.lookup stream).getD (opened stream)) with
  | .error halt => .error halt
  | .ok (x, s) => .ok (x, { state with streams := state.streams.put stream s })

/-- Draws a constant from a stream and keeps its value. -/
def drawConstant (source : RandomSource σ α) (opened : String → σ) (pins : Env α)
    (state : RunState σ α) (stream : String) (q : Quantity α)
    : Except Halt (RunState σ α) :=
  match state.drawFrom opened stream (q.drawConstant source pins state.constants) with
  | .error halt => .error halt
  | .ok (x, state) => .ok { state with constants := (q.name, x) :: state.constants }

/-- Draws constants one after the other. -/
def drawConstants (source : RandomSource σ α) (opened : String → σ) (pins : Env α)
    (state : RunState σ α) : List (Quantity α) → Except Halt (RunState σ α)
  | [] => .ok state
  | q :: rest =>
      match state.drawConstant source opened pins q.name q with
      | .error halt => .error halt
      | .ok state => drawConstants source opened pins state rest

/-- Value of the function through the anchors of a variable; the function is built once. -/
def anchoredValue (state : RunState σ α) (v : Variable α) (time : α)
    : Except Halt (α × RunState σ α) :=
  match state.interpolants.lookup v.name with
  | some f => .ok (f.value time, state)
  | none =>
      match v.interpolant state.constants with
      | .error halt => .error halt
      | .ok f =>
          .ok (f.value time, { state with interpolants := state.interpolants.put v.name f })

/-- Value of a variable before uncertainty: that of its anchors, else that of its model. -/
def variableBase (state : RunState σ α) (v : Variable α) (env : Env α) (time origin : α)
    : Except Halt (α × RunState σ α) :=
  match v.anchors, v.model with
  | _ :: _, _ => state.anchoredValue v time
  | [], some m => (m.value env time origin).map fun x => (x, state)
  | [], none => .ok (Scalar.zero, state)

/-- Value of a variable or impact by its declaration in force. -/
def quantityValue (source : RandomSource σ α) (opened : String → σ) (state : RunState σ α)
    (current : InForce α) (env : Env α) (time origin : α)
    : Except Halt (α × RunState σ α) :=
  match current.declaration with
  | .varying v =>
      match state.variableBase v env time origin with
      | .error halt => .error halt
      | .ok (base, state) =>
          match v.uncertainty with
          | none => .ok (base, state)
          | some d => state.drawFrom opened current.stream (d.draw source base env)
  | .impact i => (i.value env).map fun x => (x, state)
  | _ => .ok (Scalar.zero, state)

/-- Computes names in order. What is computed joins the values that later names read. -/
def computeAll (source : RandomSource σ α) (opened : String → σ) (time origin : α)
    : List String → Env α → RunState σ α → Except Halt (Env α × RunState σ α)
  | [], env, state => .ok (env, state)
  | name :: rest, env, state =>
      match state.inForce.lookup name with
      | none => computeAll source opened time origin rest env state
      | some current =>
          match state.quantityValue source opened current env time origin with
          | .error halt => .error halt
          | .ok (x, state) =>
              computeAll source opened time origin rest ((name, x) :: env) state

/-! ### Branches -/

/-- Name of the stream that decides whether a branch is taken. -/
def gateStream (branch : String) : String :=
  "branch:" ++ branch

/-- Name of the stream of a declaration inside a branch. -/
def overrideStream (branch name : String) : String :=
  branch ++ "/" ++ name

/-- Puts a declaration of a branch in the place of the one of its name and kind. A constant is
drawn anew, and whatever may have read it is built anew.
-/
def override (source : RandomSource σ α) (opened : String → σ) (pins : Env α)
    (branch : String) (state : RunState σ α) (nested : Quantity α)
    : Except Halt (RunState σ α) :=
  match state.inForce.lookup nested.name with
  | none => .ok state
  | some current =>
      if current.declaration.kind == nested.kind then
        let stream := overrideStream branch nested.name
        let replaced :=
          { state with inForce := state.inForce.put nested.name ⟨nested, stream⟩ }
        if nested.isConstant then
          match replaced.drawConstant source opened pins stream nested with
          | .error halt => .error halt
          | .ok drawn => .ok { drawn with interpolants := [] }
        else .ok { replaced with interpolants := replaced.interpolants.without nested.name }
      else .ok state

/-- Puts declarations of a branch in place, one after the other. -/
def overrideAll (source : RandomSource σ α) (opened : String → σ) (pins : Env α)
    (branch : String) (state : RunState σ α) : List (Quantity α) → Except Halt (RunState σ α)
  | [] => .ok state
  | nested :: rest =>
      match override source opened pins branch state nested with
      | .error halt => .error halt
      | .ok state => overrideAll source opened pins branch state rest

/-- Probability of a branch that declares none. -/
def standardProbability : α :=
  Scalar.ofDecimal false 5 (-1)

/-- Looks at a branch. The first time that its condition holds, a draw decides for the whole
run whether the branch is taken.
-/
def decide (source : RandomSource σ α) (opened : String → σ) (pins env : Env α)
    (state : RunState σ α) (b : Branch α) : Except Halt (RunState σ α) :=
  if state.decided.contains b.name then .ok state
  else
    match b.condition.value env with
    | .error halt => .error halt
    | .ok holds =>
        if !Scalar.isTrue holds then .ok state
        else
          let state := { state with decided := b.name :: state.decided }
          match state.drawFrom opened (gateStream b.name) fun s => .ok (source.unit s) with
          | .error halt => .error halt
          | .ok (draw, state) =>
              if Scalar.le (b.probability.getD standardProbability) draw then .ok state
              else
                overrideAll source opened pins b.name
                  { state with activated := b.name :: state.activated } b.overrides

/-- Looks at branches, one after the other. -/
def decideAll (source : RandomSource σ α) (opened : String → σ) (pins env : Env α)
    (state : RunState σ α) : List (Branch α) → Except Halt (RunState σ α)
  | [] => .ok state
  | b :: rest =>
      match state.decide source opened pins env b with
      | .error halt => .error halt
      | .ok state => decideAll source opened pins env state rest

end RunState

/-! ### Runs -/

/-- What came out of a run: the values at each point in time, and the branches taken. -/
structure Outcome (α : Type) where
  steps : List (Env α)
  activated : List String

namespace Plan

/-- The points in time from the given ones on, each with the state that the one before left. -/
def runThrough (source : RandomSource σ α) (opened : String → σ) (plan : Plan α)
    : List α → RunState σ α → Except Halt (List (Env α) × RunState σ α)
  | [], state => .ok ([], state)
  | time :: rest, state =>
      match state.computeAll source opened time plan.origin plan.order state.constants with
      | .error halt => .error halt
      | .ok (env, state) =>
          match state.decideAll source opened plan.pins env plan.branches with
          | .error halt => .error halt
          | .ok state =>
              match runThrough source opened plan rest state with
              | .error halt => .error halt
              | .ok (steps, state) => .ok (env :: steps, state)

/-- The run with the given number. -/
def run (source : RandomSource σ α) (plan : Plan α) (number : Nat)
    : Except Halt (Outcome α) :=
  let opened := source.stream plan.seed number
  match (RunState.start plan).drawConstants source opened plan.pins plan.constants with
  | .error halt => .error halt
  | .ok state =>
      match plan.runThrough source opened plan.times state with
      | .error halt => .error halt
      | .ok (steps, state) => .ok ⟨steps, state.activated⟩

end Plan

end Prognosis
