import Prognosis.Proofs.Simulation.Validity
import Prognosis.Proofs.Steps
import Prognosis.Simulation.Run

/-! Runs with all that happens in them: at each point in time the state in which it starts, the
values, and the looks at branches with the states before and after each of them. A run is what
remains when only the values and the branches taken in the end are kept. Each stage of a run that
ended has ended itself, and the next stage started in the state that it left.
-/

namespace Prognosis

variable {σ α : Type}

-----------------------------------------------------------------------------------------
-- Stages
-----------------------------------------------------------------------------------------

section Stages

variable [Scalar α]

omit [Scalar α] in
/-- What comes out of a mapped computation came out of it before. -/
theorem exists_of_map_eq_ok {ε β γ : Type} {f : β → γ} {result : Except ε β} {y : γ}
    (mapped : result.map f = .ok y)
    : ∃ x, result = .ok x ∧ f x = y := by
  cases result with
  | error halt => cases mapped
  | ok x => exact ⟨x, rfl, Except.ok.inj mapped⟩

namespace RunState

variable {source : RandomSource σ α} {opened : String → σ} {pins env : Env α}
  {state ended : RunState σ α}

theorem overrideAll_cons_ok {branch : String} {first : Quantity α} {rest : List (Quantity α)}
    (done : overrideAll source opened pins branch state (first :: rest) = .ok ended)
    : ∃ middle, override source opened pins branch state first = .ok middle
        ∧ overrideAll source opened pins branch middle rest = .ok ended := by
  simp only [overrideAll] at done
  cases next : override source opened pins branch state first with
  | error halt => simp [next] at done
  | ok middle => exact ⟨middle, rfl, by simpa only [next] using done⟩

theorem decideAll_cons_ok {first : Branch α} {rest : List (Branch α)}
    (done : decideAll source opened pins env state (first :: rest) = .ok ended)
    : ∃ middle, decide source opened pins env state first = .ok middle
        ∧ decideAll source opened pins env middle rest = .ok ended := by
  simp only [decideAll] at done
  cases next : decide source opened pins env state first with
  | error halt => simp [next] at done
  | ok middle => exact ⟨middle, rfl, by simpa only [next] using done⟩

end RunState

namespace Plan

variable {source : RandomSource σ α} {plan : Plan α} {state ended : RunState σ α}

/-- A point in time is computed, then the branches are looked at, then time goes on. -/
theorem runThrough_cons_ok {opened : String → σ} {time : α} {rest : List α}
    {steps : List (Env α)}
    (ran : plan.runThrough source opened (time :: rest) state = .ok (steps, ended))
    : ∃ env computed decided others,
        state.computeAll source opened time plan.origin plan.order state.constants
            = .ok (env, computed)
          ∧ computed.decideAll source opened plan.pins env plan.branches = .ok decided
          ∧ plan.runThrough source opened rest decided = .ok (others, ended)
          ∧ steps = env :: others := by
  simp only [runThrough] at ran
  cases first : state.computeAll source opened time plan.origin plan.order state.constants with
  | error halt => simp [first] at ran
  | ok result =>
      obtain ⟨env, computed⟩ := result
      simp only [first] at ran
      cases second : computed.decideAll source opened plan.pins env plan.branches with
      | error halt => simp [second] at ran
      | ok decided =>
          simp only [second] at ran
          cases third : plan.runThrough source opened rest decided with
          | error halt => simp [third] at ran
          | ok remaining =>
              obtain ⟨others, last⟩ := remaining
              simp only [third] at ran
              cases ran
              exact ⟨env, computed, decided, others, rfl, second, third, rfl⟩

/-- Constants are drawn, then all points in time pass. -/
theorem run_ok {number : Nat} {outcome : Outcome α}
    (ran : plan.run source number = .ok outcome)
    : ∃ drawn ended,
        (RunState.start plan).drawConstants source (source.stream plan.seed number) plan.pins
            plan.constants = .ok drawn
          ∧ plan.runThrough source (source.stream plan.seed number) plan.times drawn
            = .ok (outcome.steps, ended)
          ∧ outcome.activated = ended.activated := by
  simp only [run] at ran
  cases first : (RunState.start plan).drawConstants source (source.stream plan.seed number)
      plan.pins plan.constants with
  | error halt => simp [first] at ran
  | ok drawn =>
      simp only [first] at ran
      cases second : plan.runThrough source (source.stream plan.seed number) plan.times drawn with
      | error halt => simp [second] at ran
      | ok result =>
          obtain ⟨steps, ended⟩ := result
          simp only [second] at ran
          cases ran
          exact ⟨drawn, ended, rfl, second, rfl⟩

end Plan

end Stages

-----------------------------------------------------------------------------------------
-- Moments
-----------------------------------------------------------------------------------------

/-- A look at a branch, with the states before and after it. -/
structure Look (σ α : Type) where
  branch : Branch α
  before : RunState σ α
  after : RunState σ α

/-- The branch is taken: it joins those that were taken before. -/
def Look.takes (l : Look σ α) : Bool :=
  l.after.activated != l.before.activated

theorem Look.takes_eq_false {l : Look σ α} (same : l.after.activated = l.before.activated)
    : l.takes = false := by
  rw [takes, same]
  exact bne_self_eq_false _

theorem Look.takes_eq_true {l : Look σ α} {branch : String}
    (grown : l.after.activated = branch :: l.before.activated)
    : l.takes = true := by
  rw [takes, grown]
  simp

/-- A point in time of a run. -/
structure Moment (σ α : Type) where
  time : α
  /-- The state that the point in time before left. -/
  start : RunState σ α
  values : Env α
  /-- The state once all values are computed. -/
  computed : RunState σ α
  /-- The looks at branches, in order. -/
  looks : List (Look σ α)
  /-- The state that the last look leaves. -/
  left : RunState σ α

variable [Scalar α]

namespace RunState

variable {source : RandomSource σ α} {opened : String → σ} {pins env : Env α}
  {state ended : RunState σ α}

/-- Looks at branches, one after the other, and keeps all states. -/
def lookAll (source : RandomSource σ α) (opened : String → σ) (pins env : Env α)
    : RunState σ α → List (Branch α) → Except Halt (List (Look σ α) × RunState σ α)
  | state, [] => .ok ([], state)
  | state, b :: rest => do
      let next ← state.decide source opened pins env b
      let (others, ended) ← lookAll source opened pins env next rest
      return (⟨b, state, next⟩ :: others, ended)

theorem lookAll_decideAll (state : RunState σ α) (branches : List (Branch α))
    : (lookAll source opened pins env state branches).map (·.2)
      = state.decideAll source opened pins env branches := by
  induction branches generalizing state with
  | nil => rfl
  | cons b rest ih =>
      simp only [lookAll, decideAll]
      cases state.decide source opened pins env b with
      | error halt => rfl
      | ok next =>
          simp only [← ih next, bind, Except.bind]
          cases lookAll source opened pins env next rest <;> rfl

/-- Looks that end are looks of the run. -/
theorem decideAll_of_lookAll {branches : List (Branch α)} {looks : List (Look σ α)}
    (looked : lookAll source opened pins env state branches = .ok (looks, ended))
    : state.decideAll source opened pins env branches = .ok ended := by
  rw [← lookAll_decideAll, looked]
  rfl

theorem lookAll_cons_ok {b : Branch α} {rest : List (Branch α)} {looks : List (Look σ α)}
    (looked : lookAll source opened pins env state (b :: rest) = .ok (looks, ended))
    : ∃ next others, state.decide source opened pins env b = .ok next
        ∧ lookAll source opened pins env next rest = .ok (others, ended)
        ∧ looks = ⟨b, state, next⟩ :: others := by
  obtain ⟨next, decided, more⟩ := exists_of_bind_eq_ok looked
  obtain ⟨⟨others, last⟩, later, same⟩ := exists_of_bind_eq_ok more
  cases same
  exact ⟨next, others, decided, later, rfl⟩

/-- The looks are at the branches, in order. -/
theorem lookAll_branches {branches : List (Branch α)} {looks : List (Look σ α)}
    (looked : lookAll source opened pins env state branches = .ok (looks, ended))
    : looks.map (·.branch) = branches := by
  induction branches generalizing state looks with
  | nil =>
      cases looked
      rfl
  | cons b rest ih =>
      obtain ⟨next, others, -, more, rfl⟩ := lookAll_cons_ok looked
      rw [List.map_cons, ih more]

/-- Looks in a longer row are looks in its front and then in its rest. -/
theorem lookAll_append_ok {front rest : List (Branch α)} {looks : List (Look σ α)}
    (looked : lookAll source opened pins env state (front ++ rest) = .ok (looks, ended))
    : ∃ first middle others, lookAll source opened pins env state front = .ok (first, middle)
        ∧ lookAll source opened pins env middle rest = .ok (others, ended)
        ∧ looks = first ++ others := by
  induction front generalizing state looks with
  | nil => exact ⟨[], state, looks, rfl, looked, rfl⟩
  | cons b front ih =>
      obtain ⟨next, more, decided, later, rfl⟩ := lookAll_cons_ok looked
      obtain ⟨first, middle, others, before, after, rfl⟩ := ih later
      refine ⟨⟨b, state, next⟩ :: first, middle, others, ?_, after, rfl⟩
      simp only [lookAll, decided, bind, Except.bind, before]
      rfl

end RunState

namespace Plan

variable {source : RandomSource σ α} {opened : String → σ} {plan : Plan α}
  {state ended : RunState σ α}

/-- A point in time from the state in which it starts. -/
def moment (source : RandomSource σ α) (opened : String → σ) (plan : Plan α) (time : α)
    (state : RunState σ α) : Except Halt (Moment σ α) := do
  let (values, computed) ←
    state.computeAll source opened time plan.origin plan.order state.constants
  let (looks, left) ← computed.lookAll source opened plan.pins values plan.branches
  return ⟨time, state, values, computed, looks, left⟩

/-- The points in time from the given ones on. -/
def moments (source : RandomSource σ α) (opened : String → σ) (plan : Plan α)
    : List α → RunState σ α → Except Halt (List (Moment σ α) × RunState σ α)
  | [], state => .ok ([], state)
  | time :: rest, state => do
      let m ← plan.moment source opened time state
      let (later, ended) ← moments source opened plan rest m.left
      return (m :: later, ended)

/-- All points in time of the run with the given number, and the state in the end. -/
def history (source : RandomSource σ α) (plan : Plan α) (number : Nat)
    : Except Halt (List (Moment σ α) × RunState σ α) := do
  let opened := source.stream plan.seed number
  let drawn ← (RunState.start plan).drawConstants source opened plan.pins plan.constants
  plan.moments source opened plan.times drawn

theorem moment_ok {time : α} {m : Moment σ α}
    (passed : plan.moment source opened time state = .ok m)
    : m.time = time ∧ m.start = state
      ∧ state.computeAll source opened time plan.origin plan.order state.constants
          = .ok (m.values, m.computed)
      ∧ m.computed.lookAll source opened plan.pins m.values plan.branches
          = .ok (m.looks, m.left) := by
  obtain ⟨⟨values, computed⟩, first, more⟩ := exists_of_bind_eq_ok passed
  obtain ⟨⟨looks, left⟩, looked, same⟩ := exists_of_bind_eq_ok more
  cases same
  exact ⟨rfl, rfl, first, looked⟩

theorem moments_cons_ok {time : α} {rest : List α} {moments : List (Moment σ α)}
    (passed : plan.moments source opened (time :: rest) state = .ok (moments, ended))
    : ∃ m later, plan.moment source opened time state = .ok m
        ∧ plan.moments source opened rest m.left = .ok (later, ended)
        ∧ moments = m :: later := by
  obtain ⟨m, first, more⟩ := exists_of_bind_eq_ok passed
  obtain ⟨⟨later, last⟩, others, same⟩ := exists_of_bind_eq_ok more
  cases same
  exact ⟨m, later, first, others, rfl⟩

/-- Only the values and the last state are what passing through points in time leaves. -/
theorem moments_runThrough (times : List α) (state : RunState σ α)
    : (plan.moments source opened times state).map
          (fun (moments, ended) => (moments.map (·.values), ended))
        = plan.runThrough source opened times state := by
  induction times generalizing state with
  | nil => rfl
  | cons time rest ih =>
      simp only [Plan.moments, runThrough, moment]
      cases state.computeAll source opened time plan.origin plan.order state.constants with
      | error halt => rfl
      | ok result =>
          obtain ⟨values, computed⟩ := result
          simp only [bind, Except.bind, ← RunState.lookAll_decideAll]
          cases computed.lookAll source opened plan.pins values plan.branches with
          | error halt => rfl
          | ok result =>
              obtain ⟨looks, left⟩ := result
              simp only [pure, Except.pure, Except.map, ← ih left]
              cases plan.moments source opened rest left <;> rfl

/-- A run is its history without the states. -/
theorem history_run (plan : Plan α) (source : RandomSource σ α) (number : Nat)
    : (plan.history source number).map
          (fun (moments, ended) => ⟨moments.map (·.values), ended.activated⟩)
        = plan.run source number := by
  simp only [history, run]
  cases (RunState.start plan).drawConstants source (source.stream plan.seed number) plan.pins
      plan.constants with
  | error halt => rfl
  | ok drawn =>
      simp only [bind, Except.bind, ← moments_runThrough]
      cases plan.moments source (source.stream plan.seed number) plan.times drawn <;> rfl

/-- A run that ends has a history. -/
theorem exists_history {number : Nat} {outcome : Outcome α}
    (ran : plan.run source number = .ok outcome)
    : ∃ moments ended, plan.history source number = .ok (moments, ended)
        ∧ outcome = ⟨moments.map (·.values), ended.activated⟩ := by
  rw [← history_run] at ran
  obtain ⟨⟨moments, ended⟩, happened, rfl⟩ := exists_of_map_eq_ok ran
  exact ⟨moments, ended, happened, rfl⟩

theorem history_ok {number : Nat} {moments : List (Moment σ α)}
    (happened : plan.history source number = .ok (moments, ended))
    : ∃ drawn,
        (RunState.start plan).drawConstants source (source.stream plan.seed number) plan.pins
            plan.constants = .ok drawn
          ∧ plan.moments source (source.stream plan.seed number) plan.times drawn
            = .ok (moments, ended) :=
  exists_of_bind_eq_ok happened

/-- What the state before time runs satisfies, and every point in time keeps, holds whenever a
point in time starts and in the end. By induction along the points in time.
-/
theorem moments_induction {P : RunState σ α → Prop}
    (keeps
      : ∀ {time state m}, P state → plan.moment source opened time state = .ok m → P m.left)
    {times : List α} {moments : List (Moment σ α)} (holds : P state)
    (passed : plan.moments source opened times state = .ok (moments, ended))
    : (∀ m ∈ moments, P m.start ∧ plan.moment source opened m.time m.start = .ok m)
      ∧ P ended := by
  induction times generalizing state moments with
  | nil =>
      cases passed
      exact ⟨by simp, holds⟩
  | cons time rest ih =>
      obtain ⟨m, later, first, more, rfl⟩ := moments_cons_ok passed
      obtain ⟨others, last⟩ := ih (keeps holds first) more
      obtain ⟨sameTime, sameStart, -, -⟩ := moment_ok first
      refine ⟨fun other member => ?_, last⟩
      rcases List.mem_cons.mp member with rfl | among
      · rw [sameTime, sameStart]
        exact ⟨holds, first⟩
      · exact others other among

/-- Points in time are passed in two parts, the second one from the state that the first one leaves.
-/
theorem moments_append_ok {times : List α} {earlier later : List (Moment σ α)}
    (passed : plan.moments source opened times state = .ok (earlier ++ later, ended))
    : ∃ before after middle, times = before ++ after
        ∧ plan.moments source opened before state = .ok (earlier, middle)
        ∧ plan.moments source opened after middle = .ok (later, ended) := by
  induction earlier generalizing times state with
  | nil => exact ⟨[], times, state, rfl, rfl, passed⟩
  | cons m earlier ih =>
      cases times with
      | nil => cases passed
      | cons time rest =>
          obtain ⟨first, others, started, more, same⟩ := moments_cons_ok passed
          cases same
          obtain ⟨before, after, middle, rfl, passedBefore, passedAfter⟩ := ih more
          refine ⟨time :: before, after, middle, rfl, ?_, passedAfter⟩
          simp only [Plan.moments, started, bind, Except.bind, passedBefore]
          rfl

/-- A point in time starts in the state that those before it leave. -/
theorem moments_split_ok {times : List α} {earlier later : List (Moment σ α)} {m : Moment σ α}
    (passed : plan.moments source opened times state = .ok (earlier ++ m :: later, ended))
    : ∃ before rest, times = before ++ m.time :: rest
        ∧ plan.moments source opened before state = .ok (earlier, m.start)
        ∧ plan.moment source opened m.time m.start = .ok m := by
  obtain ⟨before, after, middle, rfl, passedBefore, passedAfter⟩ := moments_append_ok passed
  cases after with
  | nil => cases passedAfter
  | cons time rest =>
      obtain ⟨first, others, started, -, same⟩ := moments_cons_ok passedAfter
      cases same
      obtain ⟨rfl, rfl, -, -⟩ := moment_ok started
      exact ⟨before, rest, rfl, passedBefore, started⟩

end Plan

end Prognosis
