import Prognosis.Proofs.Check.Removal
import Prognosis.Proofs.Run.Standing
import Prognosis.Proofs.Run.Whole
import Prognosis.Proofs.Simulation.Agreement
import Prognosis.Proofs.Simulation.BranchAgreement
import Prognosis.Proofs.Simulation.Looks
import Prognosis.Proofs.Simulation.Scope

/-! Streams that decide about branches. Nothing else draws from them, so that each of them gives at
most one number in a run, its first one.
-/

namespace Prognosis

open RunState

variable {σ α : Type} [Scalar α]

namespace RunState

variable {source : RandomSource σ α} {opened : String → σ} {plan : Plan α}
  {state ended : RunState σ α}

/-- The stream of a branch has given one number if the branch was decided, and none before. -/
def GivesOnce (source : RandomSource σ α) (opened : String → σ) (branch : String)
    (state : RunState σ α) : Prop :=
  state.streamAt opened (gateStream branch)
    = if branch ∈ state.decided then (source.unit (opened (gateStream branch))).2
      else opened (gateStream branch)

/-- The branch with its stream and nothing else. -/
def gateScope (branch : String) : Scope :=
  ⟨fun _ => False, fun other => other = branch, fun stream => stream = gateStream branch⟩

omit [Scalar α] in
/-- Where no branch has a slash in its name, it is separate from all else. -/
theorem gateScope_separate (words : plan.WordNames)
    (plain : ∀ b ∈ plan.branches, HasNoSlash b.name) {b : Branch α} (branch : b ∈ plan.branches)
    : (gateScope b.name).Separate plan := {
  apart := fun _ _ => words.apart
  streams := fun current held => by
    have word := words.of_held held
    refine iff_of_false (fun same => ?_) id
    cases held with
    | owner => exact own_ne_gate word same
    | override => exact override_ne_gate (plain b branch) same
  gates := fun other _ => ⟨branch_eq_of_gate, congrArg gateStream⟩
  overrides := fun _ _ _ _ _ => False.elim
}

omit [Scalar α] in
/-- States that agree on the branch have drawn as often from its stream. -/
theorem GivesOnce.of_agree {branch : String} (once : GivesOnce source opened branch state)
    (agree : Agree opened (gateScope branch) state ended)
    : GivesOnce source opened branch ended := by
  have stream := agree.streams (gateStream branch) rfl
  have decided := agree.decided branch rfl
  rw [GivesOnce, ← stream, once]
  exact if_congr decided rfl rfl

/-- The stream of a branch gives its number when the branch is decided. -/
theorem GivesOnce.decide (sound : plan.Sound) {b other : Branch α} {env : Env α}
    (separate : (gateScope b.name).Separate plan) (branch : other ∈ plan.branches)
    (valid : Valid plan state) (once : GivesOnce source opened b.name state)
    (done : decide source opened plan.pins env state other = .ok ended)
    : GivesOnce source opened b.name ended := by
  by_cases same : other.name = b.name
  · have gated (fresh : other.name ∉ state.decided)
        : GivesOnce source opened b.name (state.gated source opened other.name) := by
      have moved : (state.gated source opened b.name).streamAt opened
          = Function.update (state.streamAt opened) (gateStream b.name)
              (source.unit (state.streamAt opened (gateStream b.name))).2 :=
        streamAt_put state (gateStream b.name) _
      have known : b.name ∈ (state.gated source opened b.name).decided := List.mem_cons_self
      rw [GivesOnce, if_neg (same ▸ fresh)] at once
      rw [GivesOnce, same, if_pos known, ← once, moved, Function.update_self]
    cases decide_looked done with
    | known | waiting => exact once
    | refused fresh => exact gated fresh
    | taken fresh _ _ replaced =>
        have taking : GivesOnce source opened b.name
            ((state.gated source opened other.name).taking other.name) :=
          gated fresh
        exact taking.of_agree (overrideAll_outside separate sound branch
          (fun _ member => member) (fun _ _ _ => id)
          ((valid.gated source opened other.name).taking other.name) replaced)
  · exact once.of_agree (decide_outside separate sound valid branch same done)

/-- Computing a point in time draws from no stream of a branch. -/
theorem GivesOnce.computeAll (sound : plan.Sound) {branch : String}
    (separate : (gateScope branch).Separate plan) (valid : Valid plan state) {time origin : α}
    {values : Env α} (once : GivesOnce source opened branch state)
    (computed
      : state.computeAll source opened time origin plan.order state.constants
          = .ok (values, ended))
    : GivesOnce source opened branch ended := by
  have solved := computeAll_solved separate sound valid source time origin computed
  have unmoved := solved.unmoved (gateStream branch) fun cell member same =>
    (cells_own separate valid member).mp same
  obtain ⟨setting, -⟩ := computeAll_frame valid.coherent computed
  rw [GivesOnce, unmoved, setting.decided]
  exact once

/-- Nor do constants that are drawn before time runs. -/
theorem drawConstants_givesOnce (sound : plan.Sound) (words : plan.WordNames) (branch : String)
    (drawn : (start plan).drawConstants source opened plan.pins plan.constants = .ok ended)
    : GivesOnce source opened branch ended := by
  have unmoved := (drawConstants_solved sound source drawn).unmoved (gateStream branch)
    fun cell member same => by
      obtain ⟨q, constant, rfl⟩ := List.mem_map.mp member
      exact own_ne_gate (words q (List.mem_filter.mp constant).1) same
  obtain ⟨-, -, decided, -⟩ := drawConstants_frame drawn
  rw [GivesOnce, unmoved, decided]
  rfl

end RunState

namespace Plan

variable {source : RandomSource σ α} {opened : String → σ} {plan : Plan α}
  {state ended : RunState σ α}

/-- The stream of a branch gives at most one number at a point in time, and only the first one. -/
theorem moment_givesOnce (sound : plan.Sound) {b : Branch α}
    (separate : (gateScope b.name).Separate plan) {time : α} {m : Moment σ α}
    (valid : Valid plan state) (once : GivesOnce source opened b.name state)
    (passed : plan.moment source opened time state = .ok m)
    : (∀ l ∈ m.looks, GivesOnce source opened b.name l.before)
      ∧ GivesOnce source opened b.name m.left := by
  obtain ⟨-, -, computed, looked⟩ := moment_ok passed
  obtain ⟨owned, -, validNext, -, -⟩ := moment_valid sound valid passed
  obtain ⟨looks, ⟨-, last⟩⟩ := lookAll_induction
    (P := fun next => Valid plan next ∧ GivesOnce source opened b.name next)
    (fun branch ⟨valid, once⟩ done =>
      ⟨(decide_resolves valid sound source opened owned branch).holds done,
        once.decide sound separate branch valid done⟩)
    ⟨validNext, once.computeAll sound separate valid computed⟩ looked
  exact ⟨fun l member => (looks l member).1.2, last⟩

/-- So it is at all points in time, by induction along them. -/
theorem moments_givesOnce (sound : plan.Sound) {b : Branch α}
    (separate : (gateScope b.name).Separate plan) {times : List α}
    {moments : List (Moment σ α)} (valid : Valid plan state)
    (once : GivesOnce source opened b.name state)
    (passed : plan.moments source opened times state = .ok (moments, ended))
    : (∀ m ∈ moments, ∀ l ∈ m.looks, GivesOnce source opened b.name l.before)
      ∧ GivesOnce source opened b.name ended := by
  obtain ⟨passes, -, last⟩ := moments_induction
    (P := fun next => Valid plan next ∧ GivesOnce source opened b.name next)
    (fun ⟨valid, once⟩ passed => ⟨(moment_valid sound valid passed).2.2.2.2,
      (moment_givesOnce sound separate valid once passed).2⟩)
    ⟨valid, once⟩ passed
  refine ⟨fun m member => ?_, last⟩
  obtain ⟨⟨validStart, onceStart⟩, through⟩ := passes m member
  exact (moment_givesOnce sound separate validStart onceStart through).1

end Plan

end Prognosis

/-! The life of branches in runs. A branch waits for its condition, one draw decides about it, and
its declarations stand from the next point in time on.
-/

namespace Prognosis

open RunState

variable {σ α : Type} [Scalar α]

/-- The values of a point in time are computed before any branch is looked at, and each look is made
with these values.
-/
structure Plan.LooksAt (plan : Plan α) (source : RandomSource σ α) (opened : String → σ)
    (m : Moment σ α) : Prop where
  computed
    : m.start.computeAll source opened m.time plan.origin plan.order m.start.constants
        = .ok (m.values, m.computed)
  branches : m.looks.map (·.branch) = plan.branches
  looks : ∀ l ∈ m.looks, decide source opened plan.pins m.values l.before l.branch = .ok l.after

/-- What branches do shows only later. Up to a point in time, a run has the same values when the
branches that are not decided before are changed in all but their names and conditions.
-/
def Plan.ActsLater (plan : Plan α) (source : RandomSource σ α) (number : Nat)
    (moments : List (Moment σ α)) : Prop :=
  ∀ earlier m later, moments = earlier ++ m :: later →
    ∀ change : Branch α → Branch α, KeepsCondition change →
      (∀ b ∈ plan.branches, b.name ∈ m.start.decided → change b = b) →
      ∀ outcome, (plan.changing change).run source number = .ok outcome →
        (earlier ++ [m]).map (·.values) <+: outcome.steps

/-- Branches live as they should in the history of a run. Each has its life. Where names are words,
and none of a branch holds a slash, the stream that decides about a branch gives its first number
when the branch is decided, and no other number in the whole run. At each point in time the
declarations stand that the branches taken before leave.
-/
structure Scenario.BranchesLive (s : Scenario α) (plan : Plan α) (source : RandomSource σ α)
    (number : Nat) (moments : List (Moment σ α)) (ended : RunState σ α)
    : Prop where
  lives
    : ∀ b ∈ s.branches,
        b.Life source (source.stream plan.seed number) plan.pins moments ended
  gates
    : s.WordNames → (∀ b ∈ s.branches, HasNoSlash b.name) → ∀ b ∈ s.branches,
        (∀ m ∈ moments, ∀ l ∈ m.looks,
            GivesOnce source (source.stream plan.seed number) b.name l.before)
          ∧ GivesOnce source (source.stream plan.seed number) b.name ended
  looks : ∀ m ∈ moments, plan.LooksAt source (source.stream plan.seed number) m
  later : plan.ActsLater source number moments
  stands
    : ∀ earlier m later, moments = earlier ++ m :: later
        → s.StandsAfter source plan.pins (takenIn earlier) m.start

namespace Scenario

variable {s : Scenario α} {graph : CausalGraph}

/-- In a run that ends, every branch waits for its condition and is decided by one draw, and what it
does shows only later: the declarations that stand are the last ones of the branches taken last,
where those count of which the checks do not warn. Witness: a look at a branch does one of four
things, and only a look that takes the branch replaces declarations.
-/
theorem branches_live (clean : s.check.errors = []) (checked : s.check.graph = some graph)
    (source : RandomSource σ α) (times : List α) (seed : Int) (pins : Env α) (number : Nat)
    {outcome : Outcome α}
    (ran : (Plan.ofScenario s graph.order times seed pins).run source number = .ok outcome)
    : ∃ moments ended,
        (Plan.ofScenario s graph.order times seed pins).history source number
            = .ok (moments, ended)
          ∧ outcome = ⟨moments.map (·.values), ended.activated⟩
          ∧ s.BranchesLive (Plan.ofScenario s graph.order times seed pins) source number moments
            ended := by
  obtain ⟨found, same, accepted⟩ := accepted_of_clean clean
  rw [checked] at same
  cases same
  have sound : (Plan.ofScenario s graph.order times seed pins).Sound :=
    accepted.sound accepted.isOrder _ _ _
  obtain ⟨moments, ended, happened, is⟩ := Plan.exists_history ran
  obtain ⟨drawn, draws, passed⟩ := Plan.history_ok happened
  have valid := (drawConstants_resolves sound source (source.stream seed number)).holds draws
  obtain ⟨-, -, decided, activated⟩ := drawConstants_frame draws
  refine ⟨moments, ended, happened, is, ?lives, ?gates, ?looks, ?later, ?stands⟩
  case lives =>
    intro b branch
    have fresh : b.name ∉ drawn.decided := by
      rw [decided]
      exact List.not_mem_nil
    have inactive : b.name ∉ drawn.activated := by
      rw [activated]
      exact List.not_mem_nil
    exact Plan.moments_life sound accepted.branches_distinct branch valid fresh inactive passed
  case gates =>
    intro words plain b branch
    have wordNames : (Plan.ofScenario s graph.order times seed pins).WordNames :=
      accepted.wordNames words
    have once := drawConstants_givesOnce sound wordNames b.name draws
    exact Plan.moments_givesOnce sound (gateScope_separate wordNames plain branch) valid once
      passed
  case looks =>
    intro m member
    obtain ⟨passes, -⟩ := Plan.moments_induction
      (fun valid passed => (Plan.moment_valid sound valid passed).2.2.2.2) valid passed
    obtain ⟨validStart, through⟩ := passes m member
    obtain ⟨-, -, computed, looked⟩ := Plan.moment_ok through
    obtain ⟨-, -, -, looks, -⟩ := Plan.moment_valid sound validStart through
    exact ⟨computed, lookAll_branches looked, fun l among => (looks l among).2⟩
  case later =>
    rintro earlier m later rfl change keeps same other ranOther
    obtain ⟨drawnOther, endedOther, drawsOther, throughOther, -⟩ := Plan.run_ok ranOther
    have equal : drawn = drawnOther := Except.ok.inj (draws.symm.trans drawsOther)
    subst equal
    exact Plan.runThrough_changing sound keeps same valid passed throughOther
  case stands =>
    rintro earlier m later rfl
    obtain ⟨before, rest, -, passedBefore, -⟩ := Plan.moments_split_ok passed
    have stands := accepted.standsAfter_moments sound (accepted.standsAfter_start sound draws)
      valid passedBefore
    rwa [List.append_nil] at stands

end Scenario

/-- The drought of the harvest lives as it should, and it is taken. -/
theorem Scenario.harvest_branches_live
    : ∃ outcome moments ended,
        Harvest.run Harvest.harvest Harvest.graph.order [] = .ok outcome
          ∧ outcome.activated = ["drought"]
          ∧ (Plan.ofScenario Harvest.harvest Harvest.graph.order [2025, 2026] 7 []).history
              .counting 0 = .ok (moments, ended)
          ∧ outcome = ⟨moments.map (·.values), ended.activated⟩
          ∧ Harvest.harvest.BranchesLive
              (Plan.ofScenario Harvest.harvest Harvest.graph.order [2025, 2026] 7 []) .counting 0
              moments ended := by
  have ends : (Harvest.run Harvest.harvest Harvest.graph.order []).isOk = true := by
    decide +kernel
  have taken : ((Harvest.run Harvest.harvest Harvest.graph.order []).map (·.activated)).toOption
      = some ["drought"] := by
    decide +kernel
  obtain ⟨outcome, ran⟩ := Harvest.exists_outcome ends
  rw [ran] at taken
  obtain ⟨moments, ended, happened, is, live⟩ := Scenario.branches_live Harvest.harvest_clean
    Harvest.harvest_checked .counting [2025, 2026] 7 [] 0 ran
  exact ⟨outcome, moments, ended, ran, Option.some.inj taken, happened, is, live⟩

end Prognosis

/-! Branches do not act before they are taken: until then, a scenario has the samples that it has
without its branches. Those that are not taken leave no trace but a number drawn from a stream of
their own.
-/

namespace Prognosis

open RunState

variable {σ α : Type}

/-- The first point in time at which a branch is taken, counted from zero; their number if none
is.
-/
def firstTaken (moments : List (Moment σ α)) : Nat :=
  moments.findIdx fun m => m.looks.any (·.takes)

theorem not_takes_before {moments : List (Moment σ α)} {m : Moment σ α}
    (before : m ∈ moments.take (firstTaken moments)) {l : Look σ α} (look : l ∈ m.looks)
    : l.takes = false := by
  obtain ⟨place, bound, rfl⟩ := List.mem_take_iff_getElem.mp before
  have quiet := List.not_of_lt_findIdx (Nat.lt_of_lt_of_le bound (Nat.min_le_left _ _))
  simpa using List.any_eq_false.mp quiet l look

variable [Scalar α]

namespace Plan

variable {plan : Plan α}

/-- The plan without its branches. -/
def branchless (plan : Plan α) : Plan α :=
  { plan with branches := [] }

omit [Scalar α] in
theorem MayHold.of_branchless {current : InForce α} (held : plan.branchless.MayHold current)
    : plan.MayHold current := by
  cases held with
  | owner member => exact .owner member
  | override branch => cases branch

omit [Scalar α] in
/-- A sound plan stays sound without its branches: less may be in force. -/
theorem Sound.branchless (sound : plan.Sound) : plan.branchless.Sound := {
  distinct := sound.distinct
  orderDistinct := sound.orderDistinct
  order := sound.order
  calls := fun current held => sound.calls current held.of_branchless
  constants := sound.constants
  redrawn := fun current held => sound.redrawn current held.of_branchless
  anchors := fun current held => sound.anchors current held.of_branchless
  timed := fun earlier name later split current held =>
    sound.timed earlier name later split current held.of_branchless
  conditionCalls := by simp [Plan.branchless]
  conditions := by simp [Plan.branchless]
}

end Plan

namespace RunState

variable {source : RandomSource σ α} {opened : String → σ} {pins env : Env α} {plan : Plan α}
  {scope : Scope} {state ended : RunState σ α}

/-- A look that does not take its branch leaves a scope without branches as it is. -/
theorem Looked.agree {b : Branch α} (looked : Looked source opened pins env b state ended)
    (idle : (⟨b, state, ended⟩ : Look σ α).takes = false) (outside : ¬scope.branches b.name)
    (gate : ¬scope.streams (gateStream b.name)) (valid : Valid plan state)
    : Agree opened scope state ended ∧ Valid plan ended := by
  cases looked with
  | known | waiting => exact ⟨.refl _, valid⟩
  | refused =>
      exact ⟨.gated_outside source outside gate, valid.gated source opened b.name⟩
  | taken _ _ _ replaced =>
      rw [Look.takes_eq_true (overrideAll_branches replaced).2] at idle
      cases idle

/-- So do several looks, by induction along the branches. -/
theorem lookAll_agree {branches : List (Branch α)} {looks : List (Look σ α)}
    (idle : ∀ l ∈ looks, l.takes = false)
    (outside : ∀ b ∈ branches, ¬scope.branches b.name)
    (gates : ∀ b ∈ branches, ¬scope.streams (gateStream b.name)) (valid : Valid plan state)
    (looked : lookAll source opened pins env state branches = .ok (looks, ended))
    : Agree opened scope state ended ∧ Valid plan ended := by
  induction branches generalizing state looks with
  | nil =>
      cases looked
      exact ⟨.refl _, valid⟩
  | cons b rest ih =>
      obtain ⟨next, others, first, later, rfl⟩ := lookAll_cons_ok looked
      obtain ⟨idleFirst, idleLater⟩ := List.forall_mem_cons.mp idle
      obtain ⟨outsideFirst, outsideLater⟩ := List.forall_mem_cons.mp outside
      obtain ⟨gateFirst, gatesLater⟩ := List.forall_mem_cons.mp gates
      obtain ⟨agree, validNext⟩ :=
        (decide_looked first).agree idleFirst outsideFirst gateFirst valid
      obtain ⟨agreeLater, validEnd⟩ := ih idleLater outsideLater gatesLater validNext later
      exact ⟨agree.trans agreeLater, validEnd⟩

end RunState

namespace Plan

variable {source : RandomSource σ α} {opened : String → σ} {plan other : Plan α}
  {scope : Scope} {a b ended ended' : RunState σ α}

/-- Until a branch is taken, a run has the samples of a plan without branches that shares a scope
with it, also at the point in time at which the branch is. By induction along the points in time
before; their looks leave the scope as it is.
-/
theorem moments_agree_branchless (share : plan.branchless.Share scope other)
    (outside : ∀ b ∈ plan.branches, ¬scope.branches b.name)
    (gates : ∀ b ∈ plan.branches, ¬scope.streams (gateStream b.name))
    (source : RandomSource σ α) (times : List α) (valid : a.Valid plan.branchless)
    (validOther : b.Valid other) (agree : Agree opened scope a b)
    {earlier later : List (Moment σ α)} (idle : ∀ m ∈ earlier, ∀ l ∈ m.looks, l.takes = false)
    (passed : plan.moments source opened times a = .ok (earlier ++ later, ended))
    {steps : List (Env α)}
    (ran : other.runThrough source opened times b = .ok (steps, ended'))
    : List.Forall₂ (fun env env' : Env α =>
          ∀ name, scope.names name → ∃ x, env.lookup name = some x ∧ env'.lookup name = some x)
        ((earlier ++ later.take 1).map (·.values)) (steps.take (earlier.length + 1)) := by
  have none : other.branches = [] := by
    have same := share.alike.branches
    exact List.map_eq_nil_iff.mp same.symm
  induction earlier generalizing times a b steps with
  | nil =>
      cases times with
      | nil =>
          cases passed
          cases ran
          exact .nil
      | cons time rest =>
          obtain ⟨m, others, first, -, rfl⟩ := moments_cons_ok passed
          obtain ⟨values', next', -, more, computedOther, -, -, rfl⟩ := runThrough_cons_ok ran
          obtain ⟨-, -, computed, -⟩ := moment_ok first
          obtain ⟨values, -⟩ :=
            computeAll_same share valid validOther agree source time computed computedOther
          exact .cons values .nil
  | cons e earlier ih =>
      cases times with
      | nil => cases passed
      | cons time rest =>
          obtain ⟨m, others, first, following, same⟩ := moments_cons_ok passed
          cases same
          obtain ⟨values', next', left, more, computedOther, decidedOther, ranLater, rfl⟩ :=
            runThrough_cons_ok ran
          obtain ⟨-, -, computed, looked⟩ := moment_ok first
          obtain ⟨values, agreeNext⟩ :=
            computeAll_same share valid validOther agree source time computed computedOther
          obtain ⟨validNext, -⟩ := (computeAll_resolves valid share.sound source opened time
            plan.origin).holds computed
          obtain ⟨validNextOther, -⟩ := (computeAll_resolves validOther share.soundOther source
            opened time other.origin).holds computedOther
          obtain ⟨idleHere, idleLater⟩ := List.forall_mem_cons.mp idle
          obtain ⟨still, validLeft⟩ := lookAll_agree idleHere outside gates validNext looked
          rw [none] at decidedOther
          cases decidedOther
          exact .cons values
            (ih rest validLeft validNextOther (still.symm.trans agreeNext) idleLater following
              ranLater)

end Plan

-----------------------------------------------------------------------------------------
-- Scenarios
-----------------------------------------------------------------------------------------

/-- The outcome up to a point in time, that one included. -/
def Outcome.upTo (outcome : Outcome α) (place : Nat) : Outcome α :=
  { outcome with steps := outcome.steps.take (place + 1) }

namespace Scenario

variable {s : Scenario α} {graph graph' : CausalGraph}

/-- All that a scenario declares, with the streams of these names, and no branch. -/
def declaredScope (s : Scenario α) : Scope :=
  ⟨s.Declares, fun _ => False, s.Declares⟩

omit [Scalar α] in
/-- A plan without branches keeps to the streams of declared names. -/
theorem separate_declaredScope {plan : Plan α}
    (owners : plan.owners = s.quantities) (none : plan.branches = []) (words : s.WordNames)
    : s.declaredScope.Separate plan := {
  apart := fun current other held heldOther same => by
    have wordNames : plan.WordNames := fun q member => words q (owners ▸ member)
    exact wordNames.apart held heldOther same
  streams := fun current held => by
    cases held with
    | owner => exact .rfl
    | override branch =>
        rw [none] at branch
        cases branch
  gates := by simp [none]
  overrides := by simp [none]
}

/-- The plan of a scenario, less its branches, and a plan of the scenario without them share all
that is declared.
-/
theorem Accepted.share_withoutBranches (accepted : s.Accepted graph)
    (acceptedOther : s.withoutBranches.Accepted graph') (words : s.WordNames) (times : List α)
    (seed : Int) (pins : Env α)
    : (Plan.ofScenario s graph.order times seed pins).branchless.Share s.declaredScope
        (Plan.ofScenario s.withoutBranches graph'.order times seed pins) := by
  have owners : (Plan.ofScenario s graph.order times seed pins).branchless.owners = s.quantities :=
    accepted.owners_eq graph.order times seed pins
  have ownersOther
      : (Plan.ofScenario s.withoutBranches graph'.order times seed pins).owners = s.quantities := by
    rw [acceptedOther.owners_eq, withoutBranches_quantities]
  have none : (Plan.ofScenario s.withoutBranches graph'.order times seed pins).branches = [] :=
    s.withoutBranches_branches
  have sound := accepted.sound accepted.isOrder times seed pins
  exact {
    alike := {
      owners := fun q member _ => ⟨q, by rwa [ownersOther, ← owners], rfl⟩
      branches := by rw [none]; rfl
      times := rfl
      seed := rfl
      pins := fun _ _ => rfl
    }
    closed := {
      declared := fun name declared => by rwa [owners]
      reads := fun current held _ root read => accepted.declares_of_read held.of_branchless read
      conditions := by simp [Plan.branchless]
    }
    separate := separate_declaredScope owners rfl words
    separateOther := separate_declaredScope ownersOther none words
    sound := sound.branchless
    soundOther := acceptedOther.sound acceptedOther.isOrder times seed pins
  }

/-- A scenario without errors has none without its branches, and up to the point in time at which
the first of them is taken its runs have the same samples, whatever order the nodes then have. Names
are words, as in all texts. Witness: a branch that is looked at and not taken draws at most from its
own stream, which no declared value draws from.
-/
theorem samples_eq_until_taken (words : s.WordNames) (clean : s.check.errors = [])
    (checked : s.check.graph = some graph)
    : ∃ graph', s.withoutBranches.check.errors = []
        ∧ s.withoutBranches.check.graph = some graph'
        ∧ ∀ (source : RandomSource σ α) (times : List α) (seed : Int) (pins : Env α)
            (number : Nat) (outcome outcome' : Outcome α),
              (Plan.ofScenario s graph.order times seed pins).run source number = .ok outcome
              → (Plan.ofScenario s.withoutBranches graph'.order times seed pins).run source number
                = .ok outcome'
              → ∃ moments ended,
                  (Plan.ofScenario s graph.order times seed pins).history source number
                      = .ok (moments, ended)
                    ∧ outcome = ⟨moments.map (·.values), ended.activated⟩
                    ∧ (outcome.upTo (firstTaken moments)).SameSamples s.Declares
                        (outcome'.upTo (firstTaken moments)) := by
  obtain ⟨found, same, accepted⟩ := accepted_of_clean clean
  rw [checked] at same
  cases same
  have cleanOther := withoutBranches_clean clean
  obtain ⟨graph', checkedOther, acceptedOther⟩ := accepted_of_clean cleanOther
  refine ⟨graph', cleanOther, checkedOther, ?_⟩
  intro source times seed pins number outcome outcome' ran ranOther
  obtain ⟨moments, ended, happened, is⟩ := Plan.exists_history ran
  obtain ⟨drawn, draws, passed⟩ := Plan.history_ok happened
  obtain ⟨drawnOther, endedOther, drawsOther, throughOther, -⟩ := Plan.run_ok ranOther
  have share := accepted.share_withoutBranches acceptedOther words times seed pins
  have agree := drawConstants_agree share source draws drawsOther
  have valid := (drawConstants_resolves share.sound source (source.stream seed number)).holds draws
  have validOther := (drawConstants_resolves share.soundOther source
    (source.stream seed number)).holds drawsOther
  have gates (b : Branch α) : ¬s.declaredScope.streams (gateStream b.name) := by
    rintro ⟨q, member, named⟩
    exact own_ne_gate (words q member) named
  have split : moments = moments.take (firstTaken moments) ++ moments.drop (firstTaken moments) :=
    (List.take_append_drop _ _).symm
  rw [split] at passed
  have samples := Plan.moments_agree_branchless share (fun _ _ => id) (fun b _ => gates b) source
    times valid validOther agree (fun m before l look => not_takes_before before look) passed
    throughOther
  have length : (moments.take (firstTaken moments)).length = firstTaken moments :=
    List.length_take_of_le List.findIdx_le_length
  rw [← List.take_add, List.map_take, length] at samples
  exact ⟨moments, ended, happened, is, is ▸ samples⟩

end Scenario

namespace Harvest

/-- A harvest in which stocks grow with the upkeep once there is a drought. -/
def costly : Scenario Int :=
  scenario [
    .quantity (.assumption (rain 3)),
    .quantity (.parameter (parameter "price" (whole 2))),
    .quantity (.parameter (parameter "spare" (whole 9))),
    .quantity (.impact income),
    .quantity (.impact upkeep),
    .quantity (.varying (stock "crop")),
    .quantity (.varying crop),
    .branch { drought with overrides := [.varying (stock "upkeep")] }
  ]

/-- Its causal graph, in which the upkeep comes before the stock. -/
def costlyGraph : CausalGraph :=
  { graph with order := ["rain", "price", "spare", "crop", "upkeep", "stock", "income"] }

theorem costly_clean : costly.check.errors = [] := by
  cbv

theorem costly_checked : costly.check.graph = some costlyGraph := by
  cbv

theorem costly_withoutBranches : costly.withoutBranches.check.graph = some graph := by
  cbv

end Harvest

/-- Without its drought the costly harvest has another order, but the same samples until then. -/
theorem Scenario.costly_samples_eq_until_taken
    : ∃ (outcome outcome' : Outcome Int) (moments : List (Moment Nat Int))
          (ended : RunState Nat Int),
        Harvest.run Harvest.costly Harvest.costlyGraph.order [] = .ok outcome
          ∧ Harvest.run Harvest.costly.withoutBranches Harvest.graph.order [] = .ok outcome'
          ∧ outcome = ⟨moments.map (·.values), ended.activated⟩
          ∧ (outcome.upTo (firstTaken moments)).SameSamples Harvest.costly.Declares
              (outcome'.upTo (firstTaken moments)) := by
  have ends : (Harvest.run Harvest.costly Harvest.costlyGraph.order []).isOk = true := by
    decide +kernel
  have ends'
      : (Harvest.run Harvest.costly.withoutBranches Harvest.graph.order []).isOk = true := by
    decide +kernel
  obtain ⟨outcome, ran⟩ := Harvest.exists_outcome ends
  obtain ⟨outcome', ran'⟩ := Harvest.exists_outcome ends'
  have words : Harvest.costly.WordNames := Harvest.harvest_wordNames
  obtain ⟨graph, -, found, same⟩ := @Scenario.samples_eq_until_taken Nat Int _ _ _ words
    Harvest.costly_clean Harvest.costly_checked
  rw [Harvest.costly_withoutBranches] at found
  cases found
  obtain ⟨moments, ended, -, is, samples⟩ :=
    same .counting [2025, 2026] 7 [] 0 outcome outcome' ran ran'
  exact ⟨outcome, outcome', moments, ended, ran, ran', is, samples⟩

end Prognosis
