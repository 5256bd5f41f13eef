import Prognosis.Proofs.Simulation.Looks

/-! Runs with what they do to the tables that all runs share. A run reads nothing there: what it
does is told by the plan and by its number.
-/

namespace Prognosis

variable {σ α : Type}

-----------------------------------------------------------------------------------------
-- Deeds
-----------------------------------------------------------------------------------------

/-- What a run does that other runs could notice. Rows of tables belong to runs, and columns to
points in time.
-/
inductive Deed (α : Type) where
  | start
  /-- A value is put into the table of a name. -/
  | keep (name : String) (row column : Nat) (value : α)
  /-- The flag of a branch is set. -/
  | mark (branch : String) (row : Nat)

namespace Deed

/-- The run starts. -/
def started? : Deed α → Option Unit
  | start => some ()
  | _ => none

/-- The value that is put into a cell of the table of a name. -/
def kept? (name : String) (row column : Nat) : Deed α → Option α
  | keep other r c value => if other = name ∧ r = row ∧ c = column then some value else none
  | _ => none

/-- The flag of a branch is set in a row. -/
def marked? (branch : String) (row : Nat) : Deed α → Option Unit
  | mark other r => if other = branch ∧ r = row then some () else none
  | _ => none

end Deed

/-- What a computation did, also when it halted, and what came out of it. -/
structure Traced (α β : Type) where
  deeds : List (Deed α)
  result : Except Halt β

namespace Traced

variable {β γ : Type}

/-- A computation that touches no table. -/
def silent (result : Except Halt β) : Traced α β :=
  ⟨[], result⟩

/-- A deed by itself. -/
def note (deed : Deed α) : Traced α Unit :=
  ⟨[deed], .ok ()⟩

instance : Monad (Traced α) where
  pure x := ⟨[], .ok x⟩
  bind t next :=
    match t.result with
    | .error halt => ⟨t.deeds, .error halt⟩
    | .ok x => ⟨t.deeds ++ (next x).deeds, (next x).result⟩

@[simp]
theorem pure_result (x : β) : (pure x : Traced α β).result = .ok x := rfl

@[simp]
theorem pure_deeds (x : β) : (pure x : Traced α β).deeds = [] := rfl

@[simp]
theorem bind_result (t : Traced α β) (next : β → Traced α γ)
    : (t >>= next).result
        = match t.result with
          | .error halt => .error halt
          | .ok x => (next x).result := by
  obtain ⟨deeds, result⟩ := t
  cases result <;> rfl

/-- What is done by two computations in a row when the first one ends well. -/
theorem bind_deeds {t : Traced α β} {next : β → Traced α γ} {x : β} (ended : t.result = .ok x)
    : (t >>= next).deeds = t.deeds ++ (next x).deeds := by
  obtain ⟨deeds, result⟩ := t
  cases ended
  rfl

@[simp]
theorem silent_result (result : Except Halt β) : (silent (α := α) result).result = result := rfl

@[simp]
theorem silent_deeds (result : Except Halt β) : (silent (α := α) result).deeds = [] := rfl

@[simp]
theorem note_result (deed : Deed α) : (note deed).result = .ok () := rfl

/-- A computation that touched nothing and ended well only hands on what came out of it. -/
@[simp]
theorem silent_bind (x : β) (next : β → Traced α γ) : (silent (.ok x) >>= next) = next x := rfl

@[simp]
theorem note_bind_deeds (deed : Deed α) (next : Unit → Traced α γ)
    : (note deed >>= next).deeds = deed :: (next ()).deeds := rfl

end Traced

-----------------------------------------------------------------------------------------
-- Traced runs
-----------------------------------------------------------------------------------------

variable [Scalar α]

namespace RunState

variable (source : RandomSource σ α) (opened : String → σ) (number : Nat)

/-- Computes names in order; each value is kept as soon as it is found. -/
def computeTraced (column : Nat) (time origin : α)
    : List String → Env α → RunState σ α → Traced α (Env α × RunState σ α)
  | [], env, state => pure (env, state)
  | name :: rest, env, state =>
      match state.inForce.lookup name with
      | none => computeTraced column time origin rest env state
      | some current => do
          let (x, state) ← .silent (state.quantityValue source opened current env time origin)
          .note (.keep name number column x)
          computeTraced column time origin rest ((name, x) :: env) state

/-- Looks at a branch; its flag is set before its declarations are put in place. -/
def decideTraced (pins env : Env α) (state : RunState σ α) (b : Branch α)
    : Traced α (RunState σ α) :=
  if state.decided.contains b.name then pure state
  else do
    let holds ← .silent (b.condition.value env)
    if !Scalar.isTrue holds then pure state
    else do
      let (draw, state) ← .silent
        ({ state with decided := b.name :: state.decided }.drawFrom opened (gateStream b.name)
          fun s => .ok (source.unit s))
      if Scalar.le (b.probability.getD standardProbability) draw then pure state
      else do
        .note (.mark b.name number)
        .silent (overrideAll source opened pins b.name
          { state with activated := b.name :: state.activated } b.overrides)

/-- Looks at branches, one after the other. -/
def decideAllTraced (pins env : Env α) (state : RunState σ α)
    : List (Branch α) → Traced α (RunState σ α)
  | [] => pure state
  | b :: rest => do
      let state ← decideTraced source opened number pins env state b
      decideAllTraced pins env state rest

end RunState

namespace Plan

/-- The points in time from a column on. -/
def runThroughTraced (source : RandomSource σ α) (opened : String → σ) (plan : Plan α)
    (number : Nat) : Nat → List α → RunState σ α → Traced α (List (Env α) × RunState σ α)
  | _, [], state => pure ([], state)
  | column, time :: rest, state => do
      let (env, state) ←
        state.computeTraced source opened number column time plan.origin plan.order state.constants
      let state ← state.decideAllTraced source opened number plan.pins env plan.branches
      let (steps, state) ← runThroughTraced source opened plan number (column + 1) rest state
      return (env :: steps, state)

/-- The run with the given number. -/
def runTraced (source : RandomSource σ α) (plan : Plan α) (number : Nat)
    : Traced α (Outcome α) := do
  let opened := source.stream plan.seed number
  .note .start
  let state ← .silent
    ((RunState.start plan).drawConstants source opened plan.pins plan.constants)
  let (steps, state) ← plan.runThroughTraced source opened number 0 plan.times state
  return ⟨steps, state.activated⟩

end Plan

-----------------------------------------------------------------------------------------
-- What comes out of them
-----------------------------------------------------------------------------------------

namespace RunState

variable {source : RandomSource σ α} {opened : String → σ} {number : Nat}

theorem computeTraced_result {column : Nat} {time origin : α} (names : List String) (env : Env α)
    (state : RunState σ α)
    : (computeTraced source opened number column time origin names env state).result
        = state.computeAll source opened time origin names env := by
  induction names generalizing env state with
  | nil => rfl
  | cons name rest ih =>
      simp only [computeTraced, computeAll]
      cases state.inForce.lookup name with
      | none => exact ih env state
      | some current =>
          simp only [Traced.bind_result, Traced.silent_result]
          cases state.quantityValue source opened current env time origin with
          | error halt => rfl
          | ok found => exact ih _ _

theorem decideTraced_result (pins env : Env α) (state : RunState σ α) (b : Branch α)
    : (decideTraced source opened number pins env state b).result
        = state.decide source opened pins env b := by
  simp only [decideTraced, decide]
  split
  · rfl
  · simp only [Traced.bind_result, Traced.silent_result]
    cases b.condition.value env with
    | error halt => rfl
    | ok holds =>
        simp only [drawFrom]
        split
        · rfl
        · simp only [Traced.bind_result, Traced.silent_result]
          split <;> rfl

theorem decideAllTraced_result (pins env : Env α) (branches : List (Branch α))
    (state : RunState σ α)
    : (decideAllTraced source opened number pins env state branches).result
        = state.decideAll source opened pins env branches := by
  induction branches generalizing state with
  | nil => rfl
  | cons b rest ih =>
      simp only [decideAllTraced, decideAll, Traced.bind_result, decideTraced_result]
      cases state.decide source opened pins env b with
      | error halt => rfl
      | ok next => exact ih next

end RunState

namespace Plan

variable {source : RandomSource σ α} {opened : String → σ} {plan : Plan α} {number : Nat}

theorem runThroughTraced_result (column : Nat) (times : List α) (state : RunState σ α)
    : (plan.runThroughTraced source opened number column times state).result
        = plan.runThrough source opened times state := by
  induction times generalizing column state with
  | nil => rfl
  | cons time rest ih =>
      simp only [runThroughTraced, runThrough, Traced.bind_result, RunState.computeTraced_result]
      cases state.computeAll source opened time plan.origin plan.order state.constants with
      | error halt => rfl
      | ok computed =>
          obtain ⟨env, computed⟩ := computed
          simp only [RunState.decideAllTraced_result]
          cases computed.decideAll source opened plan.pins env plan.branches with
          | error halt => rfl
          | ok decided =>
              simp only [ih]
              cases plan.runThrough source opened rest decided <;> rfl

/-- A run is its traced run without the trace. -/
theorem runTraced_result (source : RandomSource σ α) (plan : Plan α) (number : Nat)
    : (plan.runTraced source number).result = plan.run source number := by
  simp only [runTraced, run, Traced.bind_result, Traced.note_result, Traced.silent_result]
  cases (RunState.start plan).drawConstants source (source.stream plan.seed number) plan.pins
      plan.constants with
  | error halt => rfl
  | ok drawn =>
      simp only [runThroughTraced_result]
      cases plan.runThrough source (source.stream plan.seed number) plan.times drawn <;> rfl

end Plan

end Prognosis
