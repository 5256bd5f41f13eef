import Prognosis.Proofs.Simulation.Moments

/-! What looks at branches do. A branch is looked at until its condition holds; then one draw
decides about it for the whole run.
-/

namespace Prognosis

variable {σ α : Type}

/-- The next number of the stream that decides whether a branch is taken. -/
def RunState.gateDraw (source : RandomSource σ α) (opened : String → σ) (state : RunState σ α)
    (branch : String) : α :=
  (source.unit (state.streamAt opened (gateStream branch))).1

variable [Scalar α]

/-- A draw is below the probability of the branch: it neither reaches nor exceeds it. -/
def Branch.accepts (b : Branch α) (draw : α) : Bool :=
  !Scalar.le (b.probability.getD RunState.standardProbability) draw

/-- The condition has a value, and it counts as true or does not. -/
def Branch.Evaluates (b : Branch α) (env : Env α) (holds : Bool) : Prop :=
  ∃ x, b.condition.value env = .ok x ∧ Scalar.isTrue x = holds

namespace RunState

variable {source : RandomSource σ α} {opened : String → σ} {pins env : Env α}
  {state ended : RunState σ α}

-----------------------------------------------------------------------------------------
-- One look
-----------------------------------------------------------------------------------------

/-- The state that a look at a branch leaves. -/
inductive Looked (source : RandomSource σ α) (opened : String → σ) (pins env : Env α)
    (b : Branch α) (state : RunState σ α)
    : RunState σ α → Prop
  | known (decided : b.name ∈ state.decided) : Looked source opened pins env b state state
  | waiting (fresh : b.name ∉ state.decided) (fails : b.Evaluates env false)
    : Looked source opened pins env b state state
  | refused (fresh : b.name ∉ state.decided) (holds : b.Evaluates env true)
    (above : b.accepts (state.gateDraw source opened b.name) = false)
    : Looked source opened pins env b state (state.gated source opened b.name)
  | taken {left : RunState σ α} (fresh : b.name ∉ state.decided) (holds : b.Evaluates env true)
    (below : b.accepts (state.gateDraw source opened b.name) = true)
    (replaced
      : overrideAll source opened pins b.name
          ((state.gated source opened b.name).taking b.name) b.overrides
        = .ok left)
    : Looked source opened pins env b state left

/-- A look leaves one of these states. -/
theorem decide_looked {b : Branch α} (done : decide source opened pins env state b = .ok ended)
    : Looked source opened pins env b state ended := by
  rw [decide_eq] at done
  split at done
  case isTrue decided =>
    cases done
    exact .known decided
  case isFalse fresh =>
    cases value : b.condition.value env with
    | error halt => simp [value] at done
    | ok x =>
        simp only [value] at done
        split at done
        case isTrue fails =>
          cases done
          exact .waiting fresh ⟨x, value, fails⟩
        case isFalse holds =>
          have holds : b.Evaluates env true := ⟨x, value, by simpa using holds⟩
          split at done
          case isTrue above =>
            cases done
            exact .refused fresh holds (by simpa [Branch.accepts, gateDraw] using above)
          case isFalse below =>
            exact .taken fresh holds (by simpa [Branch.accepts, gateDraw] using below) done

/-- A branch that was decided is not considered, whatever the values are. -/
theorem decide_of_mem {b : Branch α} (decided : b.name ∈ state.decided) (env : Env α)
    : decide source opened pins env state b = .ok state := by
  rw [decide_eq, if_pos decided]

/-- A declaration of a branch changes nothing about branches. -/
theorem override_branches {branch : String} {nested : Quantity α}
    (done : override source opened pins branch state nested = .ok ended)
    : ended.decided = state.decided ∧ ended.activated = state.activated := by
  rcases override_cases source opened pins branch state nested with
    ⟨-, same⟩ | ⟨current, -, -, ⟨-, same⟩ | ⟨-, same⟩⟩
  · rw [same] at done
    cases done
    exact ⟨rfl, rfl⟩
  · rw [same] at done
    cases done
    exact ⟨rfl, rfl⟩
  · rw [same] at done
    obtain ⟨⟨x, s⟩, -, rfl⟩ := exists_of_map_eq_ok done
    exact ⟨rfl, rfl⟩

/-- So do several of them, by induction along the declarations. -/
theorem overrideAll_branches {branch : String} {nested : List (Quantity α)}
    (done : overrideAll source opened pins branch state nested = .ok ended)
    : ended.decided = state.decided ∧ ended.activated = state.activated := by
  induction nested generalizing state with
  | nil =>
      cases done
      exact ⟨rfl, rfl⟩
  | cons q rest ih =>
      obtain ⟨middle, first, later⟩ := overrideAll_cons_ok done
      obtain ⟨decided, activated⟩ := ih later
      obtain ⟨decidedFirst, activatedFirst⟩ := override_branches first
      exact ⟨decided.trans decidedFirst, activated.trans activatedFirst⟩

/-- A look adds its branch to those that were decided or taken, or nothing. -/
theorem Looked.branches {b : Branch α} (looked : Looked source opened pins env b state ended)
    : (ended.decided = state.decided ∧ ended.activated = state.activated)
      ∨ ended.decided = b.name :: state.decided
        ∧ (ended.activated = state.activated
          ∨ ended.activated = b.name :: state.activated) := by
  cases looked with
  | known | waiting => exact Or.inl ⟨rfl, rfl⟩
  | refused => exact Or.inr ⟨rfl, Or.inl rfl⟩
  | taken _ _ _ replaced =>
      obtain ⟨decided, activated⟩ := overrideAll_branches replaced
      exact Or.inr ⟨decided, Or.inr activated⟩

/-- The states know the same about a branch. -/
structure SameBranch (name : String) (a b : RunState σ α) : Prop where
  decided : name ∈ b.decided ↔ name ∈ a.decided
  activated : name ∈ b.activated ↔ name ∈ a.activated

omit [Scalar α] in
theorem SameBranch.refl (name : String) (a : RunState σ α) : SameBranch name a a :=
  ⟨.rfl, .rfl⟩

omit [Scalar α] in
theorem SameBranch.trans {name : String} {a b c : RunState σ α} (first : SameBranch name a b)
    (second : SameBranch name b c)
    : SameBranch name a c :=
  ⟨second.decided.trans first.decided, second.activated.trans first.activated⟩

/-- Looks at one branch do not show in what is known of another one. -/
theorem Looked.sameBranch {b : Branch α} {name : String}
    (looked : Looked source opened pins env b state ended) (other : b.name ≠ name)
    : SameBranch name state ended := by
  have apart : name ≠ b.name := Ne.symm other
  rcases looked.branches with ⟨decided, activated⟩ | ⟨decided, activated | activated⟩
  · exact ⟨by rw [decided], by rw [activated]⟩
  · exact ⟨by simp [decided, apart], by rw [activated]⟩
  · exact ⟨by simp [decided, apart], by simp [activated, apart]⟩

/-- A look forgets no branch that was decided. -/
theorem Looked.decided_subset {b : Branch α}
    (looked : Looked source opened pins env b state ended)
    : state.decided ⊆ ended.decided := by
  rcases looked.branches with ⟨decided, -⟩ | ⟨decided, -⟩
  · rw [decided]
    exact fun _ member => member
  · rw [decided]
    exact List.subset_cons_self _ _

-----------------------------------------------------------------------------------------
-- Looks at a point in time
-----------------------------------------------------------------------------------------

/-- What a state satisfies and every look keeps holds before and after all looks. -/
theorem lookAll_induction {P : RunState σ α → Prop} {branches : List (Branch α)}
    (keeps
      : ∀ {b state ended}, b ∈ branches → P state
          → decide source opened pins env state b = .ok ended → P ended)
    {looks : List (Look σ α)} (holds : P state)
    (looked : lookAll source opened pins env state branches = .ok (looks, ended))
    : (∀ l ∈ looks, P l.before
          ∧ decide source opened pins env l.before l.branch = .ok l.after)
      ∧ P ended := by
  induction branches generalizing state looks with
  | nil =>
      cases looked
      exact ⟨by simp, holds⟩
  | cons b rest ih =>
      obtain ⟨next, others, decided, more, rfl⟩ := lookAll_cons_ok looked
      obtain ⟨later, last⟩ := ih (fun member => keeps (List.mem_cons_of_mem _ member))
        (keeps List.mem_cons_self holds decided) more
      refine ⟨fun l member => ?_, last⟩
      rcases List.mem_cons.mp member with rfl | among
      · exact ⟨holds, decided⟩
      · exact later l among

/-- Looks at other branches change nothing about a branch. -/
theorem lookAll_sameBranch {branches : List (Branch α)} {name : String}
    (others : ∀ b ∈ branches, b.name ≠ name) {looks : List (Look σ α)}
    (looked : lookAll source opened pins env state branches = .ok (looks, ended))
    : SameBranch name state ended :=
  (lookAll_induction (P := SameBranch name state)
    (fun member same done => same.trans ((decide_looked done).sameBranch (others _ member)))
    (.refl name state) looked).2

/-- Among looks at branches of different names, one is at a given branch. Before it and after it
nothing is learned about that branch.
-/
theorem lookAll_split {branches : List (Branch α)} {looks : List (Look σ α)}
    (looked : lookAll source opened pins env state branches = .ok (looks, ended))
    (distinct : (branches.map (·.name)).Nodup) {b : Branch α} (branch : b ∈ branches)
    : ∃ front l back, looks = front ++ l :: back ∧ l.branch = b
        ∧ (∀ other ∈ front ++ back, other.branch.name ≠ b.name)
        ∧ SameBranch b.name state l.before
        ∧ decide source opened pins env l.before b = .ok l.after
        ∧ SameBranch b.name l.after ended := by
  obtain ⟨first, rest, rfl⟩ := List.append_of_mem branch
  rw [List.map_append, List.map_cons, List.nodup_append, List.nodup_cons] at distinct
  obtain ⟨-, ⟨newRest, -⟩, apart⟩ := distinct
  have others (other : Branch α) (member : other ∈ first ++ rest) : other.name ≠ b.name := by
    rcases List.mem_append.mp member with early | late
    · exact apart _ (List.mem_map_of_mem early) _ List.mem_cons_self
    · intro same
      exact newRest (same ▸ List.mem_map_of_mem late)
  obtain ⟨front, middle, more, before, later, rfl⟩ := lookAll_append_ok looked
  obtain ⟨next, back, decided, after, rfl⟩ := lookAll_cons_ok later
  refine ⟨front, ⟨b, middle, next⟩, back, rfl, rfl, fun other member => ?_, ?_, decided, ?_⟩
  · apply others
    rw [← lookAll_branches before, ← lookAll_branches after, ← List.map_append]
    exact List.mem_map_of_mem member
  · exact lookAll_sameBranch (fun other member => others other (List.mem_append_left _ member))
      before
  · exact lookAll_sameBranch (fun other member => others other (List.mem_append_right _ member))
      after

end RunState

-----------------------------------------------------------------------------------------
-- Points in time
-----------------------------------------------------------------------------------------

namespace Plan

open RunState

variable {source : RandomSource σ α} {opened : String → σ} {plan : Plan α}
  {state ended : RunState σ α}

/-- A point in time that starts in a valid state keeps it valid: when the values are computed,
of which none is missing, before and after each look, and in the end.
-/
theorem moment_valid (sound : plan.Sound) {time : α} {m : Moment σ α} (valid : Valid plan state)
    (passed : plan.moment source opened time state = .ok m)
    : (∀ q ∈ plan.owners, m.values.lookup q.name ≠ none)
      ∧ SameSetting state m.computed ∧ Valid plan m.computed
      ∧ (∀ l ∈ m.looks, Valid plan l.before
          ∧ decide source opened plan.pins m.values l.before l.branch = .ok l.after)
      ∧ Valid plan m.left := by
  obtain ⟨-, -, computed, looked⟩ := moment_ok passed
  obtain ⟨validNext, owned⟩ := (computeAll_resolves valid sound source opened time
    plan.origin).holds computed
  obtain ⟨setting, -⟩ := computeAll_frame valid.coherent computed
  obtain ⟨looks, validLeft⟩ := lookAll_induction (P := Valid plan)
    (fun branch valid done => (decide_resolves valid sound source opened owned branch).holds done)
    validNext looked
  exact ⟨owned, setting, validNext, looks, validLeft⟩

/-- Without branches only streams and remembered functions change. -/
theorem moment_branchless (sound : plan.Sound) (branchless : plan.branches = []) {time : α}
    {m : Moment σ α} (valid : Valid plan state)
    (passed : plan.moment source opened time state = .ok m)
    : SameSetting state m.left ∧ Valid plan m.left := by
  obtain ⟨-, -, -, looked⟩ := moment_ok passed
  obtain ⟨-, setting, -, -, left⟩ := moment_valid sound valid passed
  rw [branchless] at looked
  obtain ⟨-, same⟩ := Prod.mk.inj (Except.ok.inj looked)
  exact ⟨same ▸ setting, left⟩

/-- A point in time has one look at each branch. -/
theorem moment_look (sound : plan.Sound) (distinct : (plan.branches.map (·.name)).Nodup)
    {time : α} {m : Moment σ α} (valid : Valid plan state)
    (passed : plan.moment source opened time state = .ok m) {b : Branch α}
    (branch : b ∈ plan.branches)
    : ∃ front l back, m.looks = front ++ l :: back ∧ l.branch = b
        ∧ (∀ other ∈ front ++ back, other.branch.name ≠ b.name)
        ∧ SameBranch b.name state l.before
        ∧ decide source opened plan.pins m.values l.before b = .ok l.after
        ∧ SameBranch b.name l.after m.left := by
  obtain ⟨-, -, -, looked⟩ := moment_ok passed
  obtain ⟨-, setting, -⟩ := moment_valid sound valid passed
  obtain ⟨front, l, back, split, is, others, before, decided, after⟩ :=
    lookAll_split looked distinct branch
  have same : SameBranch b.name state m.computed :=
    ⟨by rw [setting.decided], by rw [setting.activated]⟩
  exact ⟨front, l, back, split, is, others, same.trans before, decided, after⟩

end Plan

-----------------------------------------------------------------------------------------
-- Lives of branches
-----------------------------------------------------------------------------------------

omit [Scalar α] in
/-- A look at a branch is the one look at it. -/
theorem Look.eq_of_mem {looks front back : List (Look σ α)} {l other : Look σ α}
    {name : String} (split : looks = front ++ l :: back)
    (others : ∀ other ∈ front ++ back, other.branch.name ≠ name) (member : other ∈ looks)
    (is : other.branch.name = name)
    : other = l := by
  rw [split, List.mem_append, List.mem_cons] at member
  rcases member with early | same | late
  · exact absurd is (others other (List.mem_append_left _ early))
  · exact same
  · exact absurd is (others other (List.mem_append_right _ late))

namespace Branch

open RunState

/-- The branch has not been decided before or at the point in time: its condition is false for
the values, and the look at the branch does nothing.
-/
structure WaitsAt (b : Branch α) (m : Moment σ α) : Prop where
  fails : b.Evaluates m.values false
  idle : ∀ l ∈ m.looks, l.branch = b → l.after = l.before

/-- The branch is not considered at the point in time: the look at it does nothing and would do
nothing for any values.
-/
def RestsAt (source : RandomSource σ α) (opened : String → σ) (pins : Env α) (b : Branch α)
    (m : Moment σ α) : Prop :=
  ∀ l ∈ m.looks, l.branch = b →
    l.after = l.before ∧ ∀ env, decide source opened pins env l.before b = .ok l.before

/-- The only look at the branch at a point in time, at which its condition holds. One number is
drawn, and if it is below the probability the declarations of the branch are put in place.
-/
structure DecidesAt (source : RandomSource σ α) (opened : String → σ) (pins : Env α)
    (b : Branch α) (m : Moment σ α) (l : Look σ α) : Prop where
  holds : b.Evaluates m.values true
  branch : l.branch = b
  once
    : ∃ front back, m.looks = front ++ l :: back
        ∧ ∀ other ∈ front ++ back, other.branch.name ≠ b.name
  fresh : b.name ∉ l.before.decided
  takes : l.takes = b.accepts (l.before.gateDraw source opened b.name)
  refused
    : b.accepts (l.before.gateDraw source opened b.name) = false
        → l.after = l.before.gated source opened b.name
  taken
    : b.accepts (l.before.gateDraw source opened b.name) = true
        → overrideAll source opened pins b.name
            ((l.before.gated source opened b.name).taking b.name) b.overrides
          = .ok l.after

/-- The life of a branch. It waits at all points in time and is not taken; or it waits at those
before one, is decided there by one draw, and rests at all later ones.
-/
inductive Life (source : RandomSource σ α) (opened : String → σ) (pins : Env α) (b : Branch α)
    (moments : List (Moment σ α)) (ended : RunState σ α)
    : Prop
  | dormant (waits : ∀ m ∈ moments, b.WaitsAt m) (recorded : b.name ∉ ended.activated)
  | decided {earlier m later l} (split : moments = earlier ++ m :: later)
    (waits : ∀ before ∈ earlier, b.WaitsAt before)
    (decides : b.DecidesAt source opened pins m l)
    (rests : ∀ after ∈ later, b.RestsAt source opened pins after)
    (recorded
      : b.name ∈ ended.activated
          ↔ b.accepts (l.before.gateDraw source opened b.name) = true)

end Branch

namespace Plan

open RunState

variable {source : RandomSource σ α} {opened : String → σ} {plan : Plan α}
  {state ended : RunState σ α}

/-- A branch that was decided rests at a point in time, and it stays taken or not taken. -/
theorem moment_rest (sound : plan.Sound) (distinct : (plan.branches.map (·.name)).Nodup)
    {b : Branch α} (branch : b ∈ plan.branches) {time : α} {m : Moment σ α}
    (valid : Valid plan state) (decided : b.name ∈ state.decided)
    (passed : plan.moment source opened time state = .ok m)
    : b.RestsAt source opened plan.pins m ∧ SameBranch b.name state m.left := by
  obtain ⟨front, l, back, split, -, others, before, done, after⟩ :=
    moment_look sound distinct valid passed branch
  have known := before.decided.mpr decided
  rw [decide_of_mem known] at done
  have same := Except.ok.inj done
  refine ⟨fun other member is => ?_, before.trans (same ▸ after)⟩
  rw [Look.eq_of_mem split others member (congrArg Branch.name is)]
  exact ⟨same.symm, decide_of_mem known⟩

/-- So it does at all points in time. -/
theorem moments_rest (sound : plan.Sound) (distinct : (plan.branches.map (·.name)).Nodup)
    {b : Branch α} (branch : b ∈ plan.branches) {times : List α} {moments : List (Moment σ α)}
    (valid : Valid plan state) (decided : b.name ∈ state.decided)
    (passed : plan.moments source opened times state = .ok (moments, ended))
    : (∀ m ∈ moments, b.RestsAt source opened plan.pins m) ∧ SameBranch b.name state ended := by
  obtain ⟨passes, -, same⟩ := moments_induction
    (P := fun next => Valid plan next ∧ SameBranch b.name state next)
    (fun ⟨valid, same⟩ passed =>
      ⟨(moment_valid sound valid passed).2.2.2.2, same.trans
        (moment_rest sound distinct branch valid (same.decided.mpr decided) passed).2⟩)
    ⟨valid, .refl _ _⟩ passed
  refine ⟨fun m member => ?_, same⟩
  obtain ⟨⟨validStart, sameStart⟩, through⟩ := passes m member
  exact (moment_rest sound distinct branch validStart (sameStart.decided.mpr decided) through).1

/-- A branch that was not decided waits at a point in time, or it is decided there. -/
theorem moment_wait (sound : plan.Sound) (distinct : (plan.branches.map (·.name)).Nodup)
    {b : Branch α} (branch : b ∈ plan.branches) {time : α} {m : Moment σ α}
    (valid : Valid plan state) (fresh : b.name ∉ state.decided)
    (passed : plan.moment source opened time state = .ok m)
    : b.WaitsAt m ∧ SameBranch b.name state m.left
      ∨ ∃ l, b.DecidesAt source opened plan.pins m l ∧ b.name ∈ m.left.decided
          ∧ (b.name ∈ m.left.activated
            ↔ b.name ∈ state.activated
              ∨ b.accepts (l.before.gateDraw source opened b.name) = true) := by
  obtain ⟨front, l, back, split, is, others, before, done, after⟩ :=
    moment_look sound distinct valid passed branch
  have once : ∃ front back, m.looks = front ++ l :: back
      ∧ ∀ other ∈ front ++ back, other.branch.name ≠ b.name :=
    ⟨front, back, split, others⟩
  generalize left : l.after = next at done after
  cases decide_looked done with
  | known decided => exact absurd (before.decided.mp decided) fresh
  | waiting _ fails =>
      refine Or.inl ⟨⟨fails, fun other member same => ?_⟩, before.trans after⟩
      rw [Look.eq_of_mem split others member (congrArg Branch.name same)]
      exact left
  | refused fresh holds above =>
      refine Or.inr ⟨l, ⟨holds, is, once, fresh, ?_, fun _ => left, fun below => ?_⟩, ?_, ?_⟩
      · rw [above]
        exact Look.takes_eq_false (by rw [left]; rfl)
      · rw [above] at below
        cases below
      · exact after.decided.mpr List.mem_cons_self
      · rw [above, after.activated]
        exact before.activated.trans (by simp)
  | taken fresh holds below replaced =>
      obtain ⟨decided, activated⟩ := overrideAll_branches replaced
      refine Or.inr
        ⟨l, ⟨holds, is, once, fresh, ?_, fun above => ?_, fun _ => left ▸ replaced⟩, ?_, ?_⟩
      · rw [below]
        exact Look.takes_eq_true (by rw [left]; exact activated)
      · rw [below] at above
        cases above
      · exact after.decided.mpr (decided ▸ List.mem_cons_self)
      · rw [below, after.activated, activated]
        simp [taking]

/-- Every branch that was not decided has its life from there on. By induction along the points
in time, until the branch is decided.
-/
theorem moments_life (sound : plan.Sound) (distinct : (plan.branches.map (·.name)).Nodup)
    {b : Branch α} (branch : b ∈ plan.branches) {times : List α} {moments : List (Moment σ α)}
    (valid : Valid plan state) (fresh : b.name ∉ state.decided)
    (inactive : b.name ∉ state.activated)
    (passed : plan.moments source opened times state = .ok (moments, ended))
    : b.Life source opened plan.pins moments ended := by
  induction times generalizing state moments with
  | nil =>
      cases passed
      exact .dormant (by simp) inactive
  | cons time rest ih =>
      obtain ⟨m, later, first, more, rfl⟩ := moments_cons_ok passed
      obtain ⟨-, -, -, -, validLeft⟩ := moment_valid sound valid first
      rcases moment_wait sound distinct branch valid fresh first with
        ⟨waits, same⟩ | ⟨l, decides, decided, activated⟩
      · have freshLeft := mt same.decided.mp fresh
        have inactiveLeft := mt same.activated.mp inactive
        cases ih validLeft freshLeft inactiveLeft more with
        | dormant waitsLater recorded =>
            exact .dormant (List.forall_mem_cons.mpr ⟨waits, waitsLater⟩) recorded
        | @decided earlier at_ others l split waitsLater decides rests recorded =>
            have whole : m :: later = (m :: earlier) ++ at_ :: others := by
              rw [split, List.cons_append]
            exact .decided whole (List.forall_mem_cons.mpr ⟨waits, waitsLater⟩) decides rests
              recorded
      · obtain ⟨rests, same⟩ := moments_rest sound distinct branch validLeft decided more
        have whole : m :: later = [] ++ m :: later := rfl
        refine .decided whole (by simp) decides rests ?_
        rw [same.activated, activated, or_iff_right inactive]

end Plan

end Prognosis

/-! What branches do shows only later. Up to a point in time, the values of a run depend on the
names and conditions of branches that are not decided before, and on nothing else of them.
-/

namespace Prognosis

open RunState

variable {σ α : Type} [Scalar α]

namespace RunState

variable {source : RandomSource σ α} {opened : String → σ} {pins env : Env α}
  {state ended : RunState σ α}

/-- Looks forget no branch that was decided, by induction along the branches. -/
theorem decideAll_decided {branches : List (Branch α)}
    (done : decideAll source opened pins env state branches = .ok ended)
    : state.decided ⊆ ended.decided := by
  induction branches generalizing state with
  | nil =>
      cases done
      exact List.Subset.refl _
  | cons b rest ih =>
      obtain ⟨next, first, later⟩ := decideAll_cons_ok done
      exact List.Subset.trans (decide_looked first).decided_subset (ih later)

/-- The change of a branch keeps its name and its condition. -/
def KeepsCondition (change : Branch α → Branch α) : Prop :=
  ∀ b, (change b).name = b.name ∧ (change b).condition = b.condition

/-- A look at a branch that is not decided by it does not show what the branch would do. -/
theorem decide_of_change {change : Branch α → Branch α} (keeps : KeepsCondition change)
    {b : Branch α} (same : b.name ∈ ended.decided → change b = b)
    (done : decide source opened pins env state b = .ok ended)
    : decide source opened pins env state (change b) = .ok ended := by
  obtain ⟨named, condition⟩ := keeps b
  cases decide_looked done with
  | known decided => exact decide_of_mem (named ▸ decided) env
  | waiting fresh fails =>
      obtain ⟨x, value, untrue⟩ := fails
      rw [decide_eq, named, if_neg fresh, condition, value]
      simp [untrue]
  | refused => rwa [same List.mem_cons_self]
  | taken _ _ _ replaced =>
      obtain ⟨decided, -⟩ := overrideAll_branches replaced
      rwa [same (decided ▸ List.mem_cons_self)]

/-- So it is for looks at several branches, by induction along them. -/
theorem decideAll_of_change {change : Branch α → Branch α} (keeps : KeepsCondition change)
    {branches : List (Branch α)}
    (same : ∀ b ∈ branches, b.name ∈ ended.decided → change b = b)
    (done : decideAll source opened pins env state branches = .ok ended)
    : decideAll source opened pins env state (branches.map change) = .ok ended := by
  induction branches generalizing state with
  | nil => exact done
  | cons b rest ih =>
      obtain ⟨next, first, later⟩ := decideAll_cons_ok done
      have grown := decideAll_decided later
      have changed := decide_of_change keeps
        (fun decided => same b List.mem_cons_self (grown decided)) first
      simp only [List.map_cons, decideAll, changed]
      exact ih (fun other member => same other (List.mem_cons_of_mem _ member)) later

end RunState

namespace Plan

variable {source : RandomSource σ α} {opened : String → σ} {plan : Plan α}
  {state ended : RunState σ α}

/-- The plan with its branches changed. -/
def changing (plan : Plan α) (change : Branch α → Branch α) : Plan α :=
  { plan with branches := plan.branches.map change }

/-- A point in time forgets no branch that was decided. -/
theorem moment_decided (sound : plan.Sound) {time : α} {m : Moment σ α}
    (valid : Valid plan state) (passed : plan.moment source opened time state = .ok m)
    : state.decided ⊆ m.left.decided := by
  obtain ⟨-, -, -, looked⟩ := moment_ok passed
  obtain ⟨-, setting, -⟩ := moment_valid sound valid passed
  rw [← setting.decided]
  exact decideAll_decided (decideAll_of_lookAll looked)

/-- Nor do several of them. -/
theorem moments_decided (sound : plan.Sound) {times : List α} {moments : List (Moment σ α)}
    (valid : Valid plan state)
    (passed : plan.moments source opened times state = .ok (moments, ended))
    : ∀ m ∈ moments, state.decided ⊆ m.start.decided := by
  obtain ⟨passes, -⟩ := moments_induction
    (P := fun next => Valid plan next ∧ state.decided ⊆ next.decided)
    (fun ⟨valid, grown⟩ passed => ⟨(moment_valid sound valid passed).2.2.2.2,
      List.Subset.trans grown (moment_decided sound valid passed)⟩)
    ⟨valid, List.Subset.refl _⟩ passed
  exact fun m member => (passes m member).1.2

/-- Up to a point in time a run has the same values when branches that are not decided before are
changed. By induction along the points in time before; each of them leaves the same state.
-/
theorem runThrough_changing (sound : plan.Sound) {change : Branch α → Branch α}
    (keeps : KeepsCondition change) {earlier later : List (Moment σ α)} {m : Moment σ α}
    (same : ∀ b ∈ plan.branches, b.name ∈ m.start.decided → change b = b) {times : List α}
    (valid : Valid plan state)
    (passed : plan.moments source opened times state = .ok (earlier ++ m :: later, ended))
    {steps : List (Env α)} {ended' : RunState σ α}
    (ran : (plan.changing change).runThrough source opened times state = .ok (steps, ended'))
    : (earlier ++ [m]).map (·.values) <+: steps := by
  induction earlier generalizing times state steps with
  | nil =>
      cases times with
      | nil => cases passed
      | cons time rest =>
          obtain ⟨first, others, started, -, here⟩ := moments_cons_ok passed
          cases here
          obtain ⟨env, next, -, more, computed, -, -, rfl⟩ := runThrough_cons_ok ran
          obtain ⟨-, -, computedHere, -⟩ := moment_ok started
          have equal : (m.values, m.computed) = (env, next) :=
            Except.ok.inj (computedHere.symm.trans computed)
          cases equal
          exact List.prefix_append [m.values] more
  | cons e earlier ih =>
      cases times with
      | nil => cases passed
      | cons time rest =>
          obtain ⟨first, others, started, following, here⟩ := moments_cons_ok passed
          cases here
          obtain ⟨env, next, left, more, computed, decided, ranLater, rfl⟩ :=
            runThrough_cons_ok ran
          obtain ⟨-, -, computedHere, looked⟩ := moment_ok started
          obtain ⟨-, -, -, -, validLeft⟩ := moment_valid sound valid started
          have equal : (e.values, e.computed) = (env, next) :=
            Except.ok.inj (computedHere.symm.trans computed)
          cases equal
          have grown : e.left.decided ⊆ m.start.decided :=
            moments_decided sound validLeft following m (by simp)
          have changed := decideAll_of_change keeps
            (fun b branch known => same b branch (grown known)) (decideAll_of_lookAll looked)
          have equalLeft : e.left = left := Except.ok.inj (changed.symm.trans decided)
          cases equalLeft
          exact (List.prefix_cons_inj _).mpr (ih validLeft following ranLater)

end Plan

end Prognosis
