import Prognosis.Proofs.Run.Lifecycle

/-! Runs that remember no functions through anchors. They have the same outcome as runs that do,
since whatever is remembered when a value is computed is what would be built at that moment.
-/

namespace Prognosis

variable {σ α : Type}

namespace RunState

-----------------------------------------------------------------------------------------
-- States without memory
-----------------------------------------------------------------------------------------

/-- The state in which no function is remembered. -/
def forget (state : RunState σ α) : RunState σ α :=
  { state with interpolants := [] }

theorem forget_eq_of_setting {a b : RunState σ α} (setting : SameSetting a b)
    (streams : b.streams = a.streams)
    : b.forget = a.forget := by
  obtain ⟨inForce, constants, decided, activated⟩ := setting
  simp only [forget, inForce, constants, decided, activated, streams]

variable [Scalar α] {source : RandomSource σ α} {opened : String → σ} {pins env : Env α}
  {state ended : RunState σ α} {time origin : α}

/-- Computes names in order. Each value is computed with nothing remembered, so that every
function through anchors is built anew.
-/
def computeAnew (source : RandomSource σ α) (opened : String → σ) (time origin : α)
    : List String → Env α → RunState σ α → Except Halt (Env α × RunState σ α)
  | [], env, state => .ok (env, state)
  | name :: rest, env, state =>
      match state.inForce.lookup name with
      | none => computeAnew source opened time origin rest env state
      | some current =>
          match state.forget.quantityValue source opened current env time origin with
          | .error halt => .error halt
          | .ok (x, state) =>
              computeAnew source opened time origin rest ((name, x) :: env) state.forget

theorem Coherent.forget (coherent : state.Coherent) : state.forget.Coherent :=
  ⟨coherent.named, fun _ _ known => nomatch known⟩

-----------------------------------------------------------------------------------------
-- Computation without memory
-----------------------------------------------------------------------------------------

omit [Scalar α] in
theorem drawFrom_forget (state : RunState σ α) (stream : String)
    (draw : σ → Except Halt (α × σ))
    : state.forget.drawFrom opened stream draw
      = (state.drawFrom opened stream draw).map (Prod.map id RunState.forget) := by
  simp only [drawFrom_eq]
  have streams : state.forget.streamAt opened = state.streamAt opened := rfl
  rw [streams]
  cases draw (state.streamAt opened stream) with
  | error halt => rfl
  | ok result => rfl

/-- A base is the same with and without memory, and so is the state that it leaves, but for what
is remembered.
-/
theorem variableBase_forget (coherent : state.Coherent) {v : Variable α} {stream : String}
    (found : state.inForce.lookup v.name = some ⟨.varying v, stream⟩) (env : Env α)
    (time origin : α)
    : (state.forget.variableBase v env time origin).map (Prod.map id RunState.forget)
      = (state.variableBase v env time origin).map (Prod.map id RunState.forget) := by
  have constants : state.forget.constants = state.constants := rfl
  rcases variableBase_cases coherent v stream found env time origin with
    ⟨halt, pure, based⟩ | ⟨base, ended, pure, based, remembers⟩ <;>
  rcases variableBase_cases coherent.forget v stream found env time origin with
    ⟨halt', pure', based'⟩ | ⟨base', ended', pure', based', remembers'⟩ <;>
  rw [constants, pure] at pure' <;> cases pure'
  · rw [based, based']
  · have states : ended'.forget = ended.forget :=
      (forget_eq_of_setting remembers'.setting remembers'.streams).trans
        (forget_eq_of_setting remembers.setting remembers.streams).symm
    rw [based, based']
    exact congrArg (fun e => Except.ok (base, e)) states

/-- So is a value. -/
theorem quantityValue_forget (coherent : state.Coherent) {name : String} {current : InForce α}
    (found : state.inForce.lookup name = some current) (env : Env α) (time origin : α)
    : (state.forget.quantityValue source opened current env time origin).map
          (Prod.map id RunState.forget)
      = (state.quantityValue source opened current env time origin).map
          (Prod.map id RunState.forget) := by
  obtain ⟨declaration, stream⟩ := current
  cases declaration with
  | assumption a | parameter p => rfl
  | impact i =>
      simp only [quantityValue]
      cases i.value env <;> rfl
  | varying v =>
      have named : v.name = name := coherent.named name _ found
      subst named
      have bases := variableBase_forget coherent found env time origin
      simp only [quantityValue]
      cases based : state.variableBase v env time origin with
      | error halt =>
          rw [based] at bases
          cases anew : state.forget.variableBase v env time origin with
          | error other =>
              rw [anew] at bases
              cases bases
              rfl
          | ok result =>
              rw [anew] at bases
              cases bases
      | ok result =>
          obtain ⟨base, next⟩ := result
          rw [based] at bases
          obtain ⟨⟨base', next'⟩, anew, same⟩ := exists_of_map_eq_ok bases
          have bases : base' = base := congrArg Prod.fst same
          have states : next'.forget = next.forget := congrArg Prod.snd same
          subst bases
          simp only [anew]
          cases v.uncertainty with
          | none => exact congrArg (fun e => Except.ok (base', e)) states
          | some d =>
              simp only [← drawFrom_forget]
              rw [states]

/-- Computing names without memory is computing them with it, by induction along the names. -/
theorem computeAnew_forget (coherent : state.Coherent) (order : List String) (env : Env α)
    : state.forget.computeAnew source opened time origin order env
      = (state.computeAll source opened time origin order env).map
          (Prod.map id RunState.forget) := by
  induction order generalizing state env with
  | nil => rfl
  | cons name rest ih =>
      simp only [computeAnew, computeAll]
      have inForce : state.forget.inForce = state.inForce := rfl
      rw [inForce]
      cases found : state.inForce.lookup name with
      | none => exact ih coherent env
      | some current =>
          have values := @quantityValue_forget σ α _ source opened state coherent name current
            found env time origin
          have twice : state.forget.forget = state.forget := rfl
          simp only [twice]
          rcases quantityValue_cases source opened coherent found env time origin
            with ⟨halt, -, valued⟩ | ⟨x, s, next, -, valued, -, -, left⟩
          · rw [valued] at values ⊢
            cases anew : state.forget.quantityValue source opened current env time origin with
            | error other =>
                rw [anew] at values
                cases values
                rfl
            | ok result =>
                rw [anew] at values
                cases values
          · rw [valued] at values
            obtain ⟨⟨y, next'⟩, anew, same⟩ := exists_of_map_eq_ok values
            have equal : y = x := congrArg Prod.fst same
            have states : next'.forget = next.forget := congrArg Prod.snd same
            simp only [valued, anew, equal, states]
            exact ih left _

-----------------------------------------------------------------------------------------
-- Branches without memory
-----------------------------------------------------------------------------------------

/-- What a declaration of a branch does is the same with and without memory. -/
theorem override_forget (branch : String) (nested : Quantity α)
    : override source opened pins branch state.forget nested
      = (override source opened pins branch state nested).map RunState.forget := by
  have lookups : state.forget.inForce = state.inForce := rfl
  have constants : state.forget.constants = state.constants := rfl
  have streams (inForce : Entries (InForce α)) (interpolants : Entries (Interpolant α))
      : streamAt opened { state with inForce := inForce, interpolants := interpolants }
        = state.streamAt opened :=
    rfl
  simp only [override, lookups]
  cases state.inForce.lookup nested.name with
  | none => rfl
  | some current =>
      by_cases kind : current.declaration.kind = nested.kind
      · cases nested.isConstant with
        | false => simp [kind, forget, Except.map, Entries.without]
        | true =>
            simp only [kind, beq_self_eq_true, if_true, drawConstant_eq, RunState.forget, streams]
            cases nested.drawConstant source pins state.constants
                (state.streamAt opened (overrideStream branch nested.name)) with
            | error halt => rfl
            | ok result => rfl
      · simp [kind, Except.map]

/-- So is what several of them do, by induction along the declarations. -/
theorem overrideAll_forget (branch : String) (nested : List (Quantity α))
    : overrideAll source opened pins branch state.forget nested
      = (overrideAll source opened pins branch state nested).map RunState.forget := by
  induction nested generalizing state with
  | nil => rfl
  | cons q rest ih =>
      simp only [overrideAll, override_forget]
      cases override source opened pins branch state q with
      | error halt => rfl
      | ok next => exact ih

theorem decide_forget (b : Branch α)
    : decide source opened pins env state.forget b
      = (decide source opened pins env state b).map RunState.forget := by
  simp only [decide_eq]
  have decided : state.forget.decided = state.decided := rfl
  have stream : state.forget.streamAt opened = state.streamAt opened := rfl
  have taking : (state.forget.gated source opened b.name).taking b.name
      = ((state.gated source opened b.name).taking b.name).forget := rfl
  rw [decided, stream, taking, overrideAll_forget]
  split
  · rfl
  · cases b.condition.value env with
    | error halt => rfl
    | ok holds =>
        simp only
        split
        · rfl
        · split <;> rfl

/-- So are looks at branches, by induction along them. -/
theorem decideAll_forget (branches : List (Branch α))
    : decideAll source opened pins env state.forget branches
      = (decideAll source opened pins env state branches).map RunState.forget := by
  induction branches generalizing state with
  | nil => rfl
  | cons b rest ih =>
      simp only [decideAll, decide_forget]
      cases decide source opened pins env state b with
      | error halt => rfl
      | ok next => exact ih

-----------------------------------------------------------------------------------------
-- What is remembered stays right
-----------------------------------------------------------------------------------------

/-- What a declaration of a branch leaves remembered is right. -/
theorem Coherent.override (coherent : state.Coherent) {branch : String} {nested : Quantity α}
    (done : RunState.override source opened pins branch state nested = .ok ended)
    : ended.Coherent := by
  rcases override_cases source opened pins branch state nested with
    ⟨-, same⟩ | ⟨current, found, kind, ⟨-, same⟩ | ⟨-, same⟩⟩
  · rw [same] at done
    cases done
    exact coherent
  · rw [same] at done
    cases done
    exact coherent.replacing branch nested fun _ _ => Entries.lookup_without
  · rw [same] at done
    obtain ⟨⟨x, s⟩, -, is⟩ := exists_of_map_eq_ok done
    cases is
    have replaced : (state.replacing branch nested []).Coherent :=
      coherent.replacing branch nested (by simp)
    exact ⟨replaced.named, fun _ _ known => nomatch known⟩

/-- So is what several of them leave, by induction along the declarations. -/
theorem Coherent.overrideAll (coherent : state.Coherent) {branch : String}
    {nested : List (Quantity α)}
    (done : RunState.overrideAll source opened pins branch state nested = .ok ended)
    : ended.Coherent := by
  induction nested generalizing state with
  | nil =>
      cases done
      exact coherent
  | cons q rest ih =>
      obtain ⟨middle, first, more⟩ := overrideAll_cons_ok done
      exact ih (coherent.override first) more

theorem Coherent.decide (coherent : state.Coherent) {b : Branch α}
    (done : RunState.decide source opened pins env state b = .ok ended)
    : ended.Coherent := by
  have gated : (state.gated source opened b.name).Coherent :=
    ⟨coherent.named, coherent.remembered⟩
  cases decide_looked done with
  | known | waiting => exact coherent
  | refused => exact gated
  | taken fresh holds below replaced =>
      have taken : ((state.gated source opened b.name).taking b.name).Coherent :=
        ⟨gated.named, gated.remembered⟩
      exact taken.overrideAll replaced

/-- So do looks at branches, by induction along them. -/
theorem Coherent.decideAll (coherent : state.Coherent) {branches : List (Branch α)}
    (done : RunState.decideAll source opened pins env state branches = .ok ended)
    : ended.Coherent := by
  induction branches generalizing state with
  | nil =>
      cases done
      exact coherent
  | cons b rest ih =>
      obtain ⟨middle, first, more⟩ := decideAll_cons_ok done
      exact ih (coherent.decide first) more

end RunState

namespace Plan

open RunState

variable [Scalar α] {plan : Plan α} {source : RandomSource σ α} {opened : String → σ}
  {state ended : RunState σ α}

/-- Once constants are drawn nothing is remembered, and declarations stand under their names. -/
theorem coherent_of_drawn
    (drawn
      : (RunState.start plan).drawConstants source opened plan.pins plan.constants = .ok state)
    : state.Coherent := by
  obtain ⟨inForce, interpolants, -, -⟩ := drawConstants_frame drawn
  constructor
  · intro name current found
    obtain ⟨q, -, named, rfl⟩ := lookup_start (inForce ▸ found)
    exact named
  · intro name f known
    rw [interpolants] at known
    cases known

/-- Every point in time leaves what it remembers right. -/
theorem moment_coherent {time : α} {m : Moment σ α} (coherent : state.Coherent)
    (passed : plan.moment source opened time state = .ok m)
    : m.left.Coherent := by
  obtain ⟨-, -, computed, looked⟩ := moment_ok passed
  exact (lookAll_induction (P := RunState.Coherent)
    (fun _ coherent done => coherent.decide done) (computeAll_frame coherent computed).2 looked).2

-----------------------------------------------------------------------------------------
-- Runs without memory
-----------------------------------------------------------------------------------------

/-- The points in time from the given ones on, without memory. -/
def runThroughAnew (source : RandomSource σ α) (opened : String → σ) (plan : Plan α)
    : List α → RunState σ α → Except Halt (List (Env α) × RunState σ α)
  | [], state => .ok ([], state)
  | time :: rest, state =>
      match state.computeAnew source opened time plan.origin plan.order state.constants with
      | .error halt => .error halt
      | .ok (env, state) =>
          match state.decideAll source opened plan.pins env plan.branches with
          | .error halt => .error halt
          | .ok state =>
              match runThroughAnew source opened plan rest state with
              | .error halt => .error halt
              | .ok (steps, state) => .ok (env :: steps, state)

/-- The run with the given number, in which no function through anchors is remembered. -/
def runAnew (source : RandomSource σ α) (plan : Plan α) (number : Nat)
    : Except Halt (Outcome α) :=
  let opened := source.stream plan.seed number
  match (RunState.start plan).drawConstants source opened plan.pins plan.constants with
  | .error halt => .error halt
  | .ok state =>
      match plan.runThroughAnew source opened plan.times state with
      | .error halt => .error halt
      | .ok (steps, state) => .ok ⟨steps, state.activated⟩

/-- Points in time pass alike with and without memory, by induction along them. What is remembered
stays right from each of them to the next.
-/
theorem runThroughAnew_forget (coherent : state.Coherent) (times : List α)
    : plan.runThroughAnew source opened times state.forget
      = (plan.runThrough source opened times state).map (Prod.map id RunState.forget) := by
  induction times generalizing state with
  | nil => rfl
  | cons time rest ih =>
      have constants : state.forget.constants = state.constants := rfl
      simp only [runThroughAnew, runThrough, constants, computeAnew_forget coherent]
      cases computed : state.computeAll source opened time plan.origin plan.order
          state.constants with
      | error halt => rfl
      | ok result =>
          obtain ⟨env, next⟩ := result
          have coherentNext := (computeAll_frame coherent computed).2
          simp only [Except.map, Prod.map, id, decideAll_forget]
          cases decided : next.decideAll source opened plan.pins env plan.branches with
          | error halt => rfl
          | ok later =>
              simp only [Except.map, ih (coherentNext.decideAll decided)]
              cases plan.runThrough source opened rest later <;> rfl

/-- The run with the given number comes to compute a name at a point in time: the points in time
before it have passed, and so have the names before it in the order.
-/
inductive ComesTo (source : RandomSource σ α) (plan : Plan α) (number : Nat) (time : α)
    (name : String) (env : Env α) (state : RunState σ α) : Prop
  | intro {before after : List α} {earlier later : List String} {passed : List (Moment σ α)}
    {drawn started : RunState σ α} (times : plan.times = before ++ time :: after)
    (order : plan.order = earlier ++ name :: later)
    (draws
      : (RunState.start plan).drawConstants source (source.stream plan.seed number) plan.pins
          plan.constants = .ok drawn)
    (moments
      : plan.moments source (source.stream plan.seed number) before drawn = .ok (passed, started))
    (computed
      : started.computeAll source (source.stream plan.seed number) time plan.origin earlier
          started.constants = .ok (env, state))

theorem ComesTo.coherent {number : Nat} {time : α} {name : String} {env : Env α}
    (comes : plan.ComesTo source number time name env state)
    : state.Coherent := by
  obtain ⟨-, -, draws, moments, computed⟩ := comes
  have started := (moments_induction (P := RunState.Coherent)
    (fun coherent passed => moment_coherent coherent passed) (coherent_of_drawn draws) moments).2
  exact (computeAll_frame started computed).2

/-- Memory is transparent: whenever a run comes to compute a variable and a function through its
anchors is remembered, it is the one that the declaration in force gives with the constants of
that moment, and the run has the outcome of the one that remembers nothing, or stops as that one
does. Witness: `costly_memory_transparent`.
-/
theorem memory_transparent (plan : Plan α) (source : RandomSource σ α) (number : Nat)
    : (∀ time name env (state : RunState σ α), plan.ComesTo source number time name env state
          → ∀ v stream f, state.inForce.lookup name = some ⟨.varying v, stream⟩
            → state.interpolants.lookup v.name = some f
            → v.interpolant state.constants = .ok f)
        ∧ plan.runAnew source number = plan.run source number := by
  constructor
  · intro time name env state comes v stream f found known
    have named : v.name = name := comes.coherent.named name _ found
    exact comes.coherent.remembered v.name f known v stream (named ▸ found)
  · simp only [runAnew, run]
    cases draws : (RunState.start plan).drawConstants source (source.stream plan.seed number)
        plan.pins plan.constants with
    | error halt => rfl
    | ok drawn =>
        obtain ⟨-, interpolants, -, -⟩ := drawConstants_frame draws
        have empty : drawn.interpolants = [] := interpolants
        have blank : drawn.forget = drawn := by
          rw [forget, ← empty]
        have through := @runThroughAnew_forget σ α _ plan source (source.stream plan.seed number)
          drawn (coherent_of_drawn draws) plan.times
        rw [blank] at through
        simp only [through]
        cases plan.runThrough source (source.stream plan.seed number) plan.times drawn <;> rfl

end Plan

namespace Harvest

/-- Two years of the costly harvest. -/
def costlyPlan : Plan Int :=
  Plan.ofScenario costly costlyGraph.order [2025, 2026] 7 []

/-- The state in which its second year starts. -/
def secondYear : Except Halt (RunState Nat Int) := do
  let opened := RandomSource.counting.stream costlyPlan.seed 0
  let drawn ← (RunState.start costlyPlan).drawConstants .counting opened costlyPlan.pins
    costlyPlan.constants
  (costlyPlan.moments .counting opened [2025] drawn).map (·.2)

theorem secondYear_facts
    : secondYear.toOption.map (fun state =>
          (state.activated, (state.interpolants.lookup crop.name).isSome))
        = some (["drought"], true)
        ∧ secondYear.toOption.bind (·.inForce.lookup "crop") = some ⟨.varying crop, "crop"⟩ := by
  constructor
  · decide +kernel
  · rfl

/-- In the costly harvest the function of the crop is built in the first year. It is remembered in
the second one, after the drought has replaced the stock, and it is still the right one.
-/
theorem costly_memory_transparent
    : (∃ env state, costlyPlan.ComesTo .counting 0 2026 "crop" env state
          ∧ state.activated = ["drought"]
          ∧ ∃ f, state.inForce.lookup "crop" = some ⟨.varying crop, "crop"⟩
            ∧ state.interpolants.lookup crop.name = some f
            ∧ crop.interpolant state.constants = .ok f)
        ∧ costlyPlan.runAnew .counting 0 = costlyPlan.run .counting 0 := by
  obtain ⟨right, same⟩ := Plan.memory_transparent costlyPlan .counting 0
  refine ⟨?_, same⟩
  obtain ⟨facts, held⟩ := secondYear_facts
  cases reached : secondYear with
  | error halt =>
      rw [reached] at facts
      cases facts
  | ok state =>
      rw [reached] at facts held
      obtain ⟨drawn, draws, more⟩ := exists_of_bind_eq_ok reached
      obtain ⟨⟨passed, started⟩, moments, rfl⟩ := exists_of_map_eq_ok more
      have order : costlyPlan.order = [] ++ "crop" :: ["upkeep", "stock", "income"] := rfl
      have comes : costlyPlan.ComesTo .counting 0 2026 "crop" started.constants started :=
        .intro rfl order draws moments rfl
      obtain ⟨activated, known⟩ := Prod.mk.inj (Option.some.inj facts)
      obtain ⟨f, remembered⟩ := Option.isSome_iff_exists.mp known
      exact ⟨_, started, comes, activated, f, held, remembered,
        right 2026 "crop" _ started comes crop "crop" f held remembered⟩

end Harvest

end Prognosis
