import Prognosis.Proofs.Check.Reports
import Prognosis.Proofs.Check.Soundness
import Prognosis.Proofs.Grammar.Scenario
import Prognosis.Proofs.Simulation.Agreement
import Prognosis.Proofs.Simulation.Replacement
import Prognosis.Proofs.Simulation.Scope

/-! Scopes of scenarios without errors, and what stands in them. What a declaration reads is
declared, so that all that a scenario declares is a closed scope, and so is every part that is
closed under reading. After branches were taken some of their declarations stand in it. The checks
warn of those that replace nothing, and these are the ones that a run ignores.
-/

namespace Prognosis

open RunState

-----------------------------------------------------------------------------------------
-- Closed scopes
-----------------------------------------------------------------------------------------

section Scopes

variable {α : Type} [Scalar α]

namespace Scenario

/-- The name is that of a declared value. -/
def Declares (s : Scenario α) (name : String) : Prop :=
  ∃ q ∈ s.quantities, q.name = name

/-- With a declared name the part holds all that its declaration reads. It also holds what any
declaration inside a branch reads that takes the place of that one, and what the condition of
the branch reads.
-/
structure ClosedUnderReading (s : Scenario α) (names : String → Prop) : Prop where
  declared : ∀ name, names name → s.Declares name
  declarations : ∀ q ∈ s.quantities, names q.name → ∀ root ∈ q.reads, names root
  overrides
    : ∀ b ∈ s.branches, ∀ q ∈ b.overrides, (Symbols.ofScenario s).isOverride q = true
        → names q.name
        → (∀ root ∈ q.reads, names root) ∧ ∀ root ∈ b.condition.roots, names root

/-- The listed names are closed under reading, as a computation. -/
def closesUnderReading (s : Scenario α) (names : List String) : Bool :=
  names.all (fun name => s.quantities.any (·.name == name))
    && s.quantities.all (fun q => !names.contains q.name || q.reads.all names.contains)
    && s.branches.all fun b =>
      b.overrides.all fun q =>
        !((Symbols.ofScenario s).isOverride q && names.contains q.name)
          || q.reads.all names.contains && b.condition.roots.all names.contains

omit [Scalar α] in
theorem closesUnderReading_iff {s : Scenario α} {names : List String}
    : s.closesUnderReading names = true ↔ s.ClosedUnderReading (· ∈ names) := by
  simp only [closesUnderReading, Bool.and_eq_true, List.all_eq_true, List.any_eq_true,
    beq_iff_eq, Bool.or_eq_true, Bool.not_eq_true', List.contains_iff_mem,
    ← Bool.not_eq_true, ← imp_iff_not_or, and_imp]
  exact ⟨fun ⟨⟨declared, declarations⟩, overrides⟩ => ⟨declared, declarations, overrides⟩,
    fun closed => ⟨⟨closed.declared, closed.declarations⟩, closed.overrides⟩⟩

omit [Scalar α] in
instance (s : Scenario α) (names : List String)
    : Decidable (s.ClosedUnderReading (· ∈ names)) :=
  decidable_of_iff _ closesUnderReading_iff

/-- A branch puts a declaration in the place of one of the names. -/
def Touches (s : Scenario α) (names : String → Prop) (branch : String) : Prop :=
  ∃ b ∈ s.branches, b.name = branch
    ∧ ∃ q ∈ b.overrides, (Symbols.ofScenario s).isOverride q = true ∧ names q.name

namespace Accepted

variable {s : Scenario α} {graph : CausalGraph} {order : List String} {times : List α}
  {seed : Int} {pins : Env α}

theorem wordNames (accepted : s.Accepted graph) (words : s.WordNames)
    : (Plan.ofScenario s order times seed pins).WordNames := by
  intro q member
  rw [accepted.owners_eq] at member
  exact words q member

/-- Branches have different names. -/
theorem branch_unique (accepted : s.Accepted graph) {b other : Branch α}
    (branch : b ∈ s.branches) (branchOther : other ∈ s.branches) (same : b.name = other.name)
    : b = other := by
  have owns {b : Branch α} (branch : b ∈ s.branches)
      : ∃ index, (Symbols.ofScenario s).find? b.name = some ⟨b.name, index, .branch b⟩ := by
    obtain ⟨d, declared, is⟩ := List.mem_filterMap.mp branch
    obtain ⟨index, placed⟩ := List.mem_iff_getElem?.mp declared
    cases d with
    | branch =>
        cases is
        exact ⟨index, accepted.mem_symbols.mpr ⟨placed, rfl, rfl⟩⟩
    | quantity _ | simulate _ | watch _ | calibrate _ | imported _ => cases is
  obtain ⟨_, found⟩ := owns branch
  obtain ⟨_, found'⟩ := owns branchOther
  rw [← same, found] at found'
  cases found'
  rfl

/-- A declaration of a branch that is not ignored takes the place of an owner. -/
theorem replaces_of_isOverride (accepted : s.Accepted graph) {q : Quantity α}
    (overrides : (Symbols.ofScenario s).isOverride q = true)
    : (Plan.ofScenario s order times seed pins).Replaces q := by
  unfold Symbols.isOverride at overrides
  split at overrides
  case h_2 => cases overrides
  case h_1 outer found =>
    obtain ⟨symbol, owns, is⟩ := Option.bind_eq_some_iff.mp found
    obtain ⟨placed, named, same⟩ := accepted.mem_symbols.mp owns
    cases declaration : symbol.declaration with
    | quantity owner =>
        rw [declaration] at is placed named
        cases is
        refine ⟨outer, ?_, (Option.some.inj named).trans same, by simpa using overrides⟩
        rw [accepted.owners_eq]
        exact List.mem_filterMap.mpr ⟨_, List.mem_of_getElem? placed, rfl⟩
    | branch _ | simulate _ | watch _ | calibrate _ | imported _ =>
        rw [declaration] at is
        cases is

/-- All that may be in force reads declared names. -/
theorem declares_of_read (accepted : s.Accepted graph) {current : InForce α}
    (held : (Plan.ofScenario s order times seed pins).MayHold current) {root : String}
    (read : root ∈ current.declaration.reads)
    : s.Declares root := by
  obtain ⟨-, -, index, -, -, -, reads, -⟩ := accepted.reads_of_held held
  rcases List.mem_append.mp read with before | timed
  · rcases List.mem_append.mp before with constant | anchor
    · obtain ⟨q, member, named, -⟩ := accepted.quantity_of_admits (reads.constantRoots constant)
      exact ⟨q, member, named⟩
    · obtain ⟨q, member, named, -⟩ := accepted.quantity_of_admits (reads.anchorRoots anchor)
      exact ⟨q, member, named⟩
  · obtain ⟨q, member, named, -⟩ := accepted.quantity_of_admits (reads.timedRoots timed)
    exact ⟨q, member, named⟩

/-- All that a scenario declares is a closed scope, whatever its streams are. -/
theorem closed_of_declares (accepted : s.Accepted graph)
    (ordered : s.dependencies.IsOrder order) (branches streams : String → Prop)
    : (⟨s.Declares, branches, streams⟩ : Scope).Closed
        (Plan.ofScenario s order times seed pins) := by
  have owners := accepted.owners_eq order times seed pins
  refine ⟨?_, ?_, ?_⟩
  · rw [owners]
    exact fun name declared => declared
  · exact fun current held _ root read => accepted.declares_of_read held read
  · intro b branch _ root read
    have sound := accepted.sound ordered times seed pins
    obtain ⟨q, member, named⟩ := sound.conditions b branch root read
    exact ⟨q, owners ▸ member, named⟩

/-- A part that is closed under reading is a closed scope, with the branches that touch it. -/
theorem closed_of_reading (accepted : s.Accepted graph) {names : String → Prop}
    (closed : s.ClosedUnderReading names)
    : (Scope.of names (s.Touches names)).Closed
        (Plan.ofScenario s order times seed pins) := by
  have owners := accepted.owners_eq order times seed pins
  refine ⟨?_, ?_, ?_⟩
  · rw [owners]
    exact closed.declared
  · intro current held inside root read
    cases held with
    | owner member => exact closed.declarations _ (owners ▸ member) inside root read
    | override branch member replaces =>
        obtain ⟨-, -, -, -, overrides⟩ := accepted.isOverride_of_replaces replaces
        exact (closed.overrides _ branch _ member overrides inside).1 root read
  · rintro b branch ⟨other, branchOther, same, q, member, overrides, inside⟩ root read
    obtain rfl := accepted.branch_unique branchOther branch same
    exact (closed.overrides _ branch q member overrides inside).2 root read

/-- All declared names but one that nothing reads are closed under reading. -/
theorem closed_of_unread (accepted : s.Accepted graph) {unread : String}
    (declarations : ∀ q ∈ s.quantities, unread ∉ q.reads)
    (overrides : ∀ b ∈ s.branches, ∀ q ∈ b.overrides, unread ∉ q.reads)
    (conditions : ∀ b ∈ s.branches, unread ∉ b.condition.roots)
    : s.ClosedUnderReading fun name => s.Declares name ∧ name ≠ unread := by
  have owners := accepted.owners_eq graph.order [] 0 []
  have declares {current : InForce α}
      (held : (Plan.ofScenario s graph.order [] 0 []).MayHold current) {root : String}
      (read : root ∈ current.declaration.reads)
      : s.Declares root :=
    accepted.declares_of_read held read
  have sound := accepted.sound accepted.isOrder [] 0 []
  refine ⟨fun name inside => inside.1, ?_, ?_⟩
  · intro q member _ root read
    refine ⟨declares (.owner (owners ▸ member)) read, ?_⟩
    rintro rfl
    exact declarations q member read
  · intro b branch q member isOverride _
    have replaces : (Plan.ofScenario s graph.order [] 0 []).Replaces q :=
      accepted.replaces_of_isOverride isOverride
    refine ⟨fun root read => ⟨declares (.override branch member replaces) read, ?_⟩,
      fun root read => ⟨?_, ?_⟩⟩
    · rintro rfl
      exact overrides b branch q member read
    · obtain ⟨owner, owns, named⟩ := sound.conditions b branch root read
      exact ⟨owner, owners ▸ owns, named⟩
    · rintro rfl
      exact conditions b branch read

/-- It is separate from the rest where no branch has a slash in its name. -/
theorem separate_of_reading (accepted : s.Accepted graph) (words : s.WordNames)
    (plain : ∀ b ∈ s.branches, HasNoSlash b.name) {names : String → Prop}
    (closed : s.ClosedUnderReading names)
    : (Scope.of names (s.Touches names)).Separate
        (Plan.ofScenario s order times seed pins) := by
  refine Plan.separate_of (accepted.wordNames words) ?_ ?_ plain ?_
  · intro name inside
    obtain ⟨q, member, rfl⟩ := closed.declared name inside
    exact words q member
  · rintro branch ⟨b, member, rfl, -⟩
    exact plain b member
  · intro b branch q member replaces inside
    obtain ⟨-, -, -, -, overrides⟩ := accepted.isOverride_of_replaces replaces
    exact ⟨b, branch, rfl, q, member, overrides, inside⟩

end Accepted

end Scenario

end Scopes

-----------------------------------------------------------------------------------------
-- Declarations that stand
-----------------------------------------------------------------------------------------

variable {σ α : Type}

/-- The finding is about a declaration of a branch that is ignored. -/
def Finding.isIgnored (branch : String) (q : Quantity α) : Finding α → Bool
  | .ignoredOverride kind name (.branch b) => kind == q.kind && name == q.name && b == branch
  | _ => false

/-- Branches that were taken at points in time, the last one first. -/
def takenIn (moments : List (Moment σ α)) : List (Branch α) :=
  (((moments.flatMap (·.looks)).filter (·.takes)).map (·.branch)).reverse

variable [Scalar α]

namespace Scenario

/-- The checks warn that a declaration of a branch is ignored. -/
def warnsOf (s : Scenario α) (branch : String) (q : Quantity α) : Bool :=
  s.check.findings.any fun l =>
    l.finding.code == .warning 5 && l.span == some q.span && l.finding.isIgnored branch q

/-- The declarations of a branch for a name of which there is no warning. -/
def replacements (s : Scenario α) (b : Branch α) (name : String) : List (Quantity α) :=
  b.overrides.filter fun q => q.name == name && !s.warnsOf b.name q

/-- What is in force for a declared value once branches were taken, the last of them first: the
last replacement in the last of these branches that has any, else the declaration itself.
-/
def standing (s : Scenario α) (owner : Quantity α) : List (Branch α) → InForce α
  | [] => ⟨owner, owner.name⟩
  | b :: before =>
      match (s.replacements b owner.name).getLast? with
      | some q => ⟨q, overrideStream b.name owner.name⟩
      | none => s.standing owner before

/-- Once branches were taken, the last of them first, the declarations in force are those that
stand, and every constant has a value that the one in force for it has drawn.
-/
structure StandsAfter (s : Scenario α) (source : RandomSource σ α) (pins : Env α)
    (taken : List (Branch α)) (state : RunState σ α)
    : Prop where
  inForce : ∀ q ∈ s.quantities, state.inForce.lookup q.name = some (s.standing q taken)
  drawn : state.Drawn source pins

namespace Accepted

variable {s : Scenario α} {graph : CausalGraph} {order : List String} {times : List α}
  {seed : Int} {pins : Env α} {source : RandomSource σ α} {opened : String → σ}
  {state ended : RunState σ α}

/-- The checks warn of a declaration of a branch exactly when it replaces none. -/
theorem warnsOf_eq (accepted : s.Accepted graph) {b : Branch α} (branch : b ∈ s.branches)
    {q : Quantity α} (member : q ∈ b.overrides)
    : s.warnsOf b.name q = !(Symbols.ofScenario s).isOverride q := by
  have findings : s.check.findings = s.findings := by
    rw [check_of_order accepted.graph]
  rw [Bool.eq_iff_iff]
  simp only [warnsOf, findings, List.any_eq_true, Bool.and_eq_true, beq_iff_eq,
    Bool.not_eq_eq_eq_not, Bool.not_true]
  constructor
  · rintro ⟨l, found, ⟨coded, -⟩, about⟩
    obtain ⟨other, -, nested, -, ignored, rfl⟩ := (ignored_of_findings found).2 coded
    simp only [Check.report, Finding.isIgnored, Bool.and_eq_true, beq_iff_eq] at about
    obtain ⟨⟨kind, name⟩, -⟩ := about
    simpa only [Symbols.isOverride, kind, name] using ignored
  · intro ignored
    refine ⟨_, ignored_mem_findings branch member ignored, ⟨rfl, rfl⟩, ?_⟩
    simp [Check.report, Finding.isIgnored]

/-- Replacements of a declared value are the declarations of its name and kind. -/
theorem replacements_eq (accepted : s.Accepted graph) {b : Branch α} (branch : b ∈ s.branches)
    {owner : Quantity α} (member : owner ∈ s.quantities)
    : s.replacements b owner.name
      = b.overrides.filter fun q => q.name == owner.name && q.kind == owner.kind := by
  apply List.filter_congr
  intro q nested
  rw [accepted.warnsOf_eq branch nested, Bool.not_not]
  by_cases named : q.name = owner.name
  · simp [Symbols.isOverride, named, accepted.quantity?_eq member, Bool.beq_comm]
  · have apart : (q.name == owner.name) = false := by simpa using named
    rw [apart, Bool.false_and, Bool.false_and]

/-- A look at a branch changes what stands exactly when the branch is taken. -/
theorem standsAfter_look (accepted : s.Accepted graph) {taken : List (Branch α)}
    (stands : s.StandsAfter source pins taken state) {b : Branch α} (branch : b ∈ s.branches)
    {env : Env α} (sound : (Plan.ofScenario s order times seed pins).Sound)
    (valid : Valid (Plan.ofScenario s order times seed pins) state)
    (done : decide source opened pins env state b = .ok ended)
    : s.StandsAfter source pins
        (if (⟨b, state, ended⟩ : Look σ α).takes then b :: taken else taken) ended := by
  refine ⟨fun q member => ?_, stands.drawn.decide done⟩
  have owns : q ∈ (Plan.ofScenario s order times seed pins).owners :=
    accepted.owners_eq order times seed pins ▸ member
  cases decide_looked done with
  | known | waiting =>
      rw [Look.takes_eq_false rfl]
      exact stands.inForce q member
  | refused =>
      rw [Look.takes_eq_false rfl]
      exact stands.inForce q member
  | taken _ _ _ replaced =>
      obtain ⟨-, activated⟩ := overrideAll_branches replaced
      have validTaken := (valid.gated source opened b.name).taking b.name
      rw [Look.takes_eq_true activated, if_pos rfl, standing,
        overrideAll_lookup sound branch (fun _ among => among) validTaken replaced owns,
        accepted.replacements_eq branch member]
      cases (b.overrides.filter fun r => r.name == q.name && r.kind == q.kind).getLast? with
      | some nested => rfl
      | none => exact stands.inForce q member

/-- Looks at branches change what stands by the branches that are taken, by induction along
them.
-/
theorem standsAfter_lookAll (accepted : s.Accepted graph)
    (sound : (Plan.ofScenario s order times seed pins).Sound) {env : Env α}
    (owned : ∀ q ∈ s.quantities, env.lookup q.name ≠ none) {branches : List (Branch α)}
    (included : ∀ b ∈ branches, b ∈ s.branches) {looks : List (Look σ α)}
    {taken : List (Branch α)} (stands : s.StandsAfter source pins taken state)
    (valid : Valid (Plan.ofScenario s order times seed pins) state)
    (looked : lookAll source opened pins env state branches = .ok (looks, ended))
    : s.StandsAfter source pins (((looks.filter (·.takes)).map (·.branch)).reverse ++ taken)
        ended := by
  induction branches generalizing state looks taken with
  | nil =>
      cases looked
      exact stands
  | cons b rest ih =>
      obtain ⟨next, others, first, later, rfl⟩ := lookAll_cons_ok looked
      have branch := included b List.mem_cons_self
      have standsNext := accepted.standsAfter_look stands branch sound valid first
      have owners := accepted.owners_eq order times seed pins
      have validNext := (decide_resolves valid sound source opened
        (fun q member => owned q (owners ▸ member)) branch).holds first
      have standsLater := ih (fun other member => included other (List.mem_cons_of_mem _ member))
        standsNext validNext later
      rw [List.filter_cons]
      split at standsLater
      case isTrue takes =>
        rw [if_pos takes]
        simpa using standsLater
      case isFalse takes =>
        rw [if_neg takes]
        exact standsLater

/-- After points in time those declarations stand that the branches taken leave, by induction
along the points in time.
-/
theorem standsAfter_moments (accepted : s.Accepted graph)
    (sound : (Plan.ofScenario s order times seed pins).Sound) {times' : List α}
    {moments : List (Moment σ α)} {taken : List (Branch α)}
    (stands : s.StandsAfter source pins taken state)
    (valid : Valid (Plan.ofScenario s order times seed pins) state)
    (passed
      : (Plan.ofScenario s order times seed pins).moments source opened times' state
          = .ok (moments, ended))
    : s.StandsAfter source pins (takenIn moments ++ taken) ended := by
  induction times' generalizing state moments taken with
  | nil =>
      cases passed
      exact stands
  | cons time rest ih =>
      obtain ⟨m, later, first, more, rfl⟩ := Plan.moments_cons_ok passed
      obtain ⟨owned, setting, validNext, -, validLeft⟩ := Plan.moment_valid sound valid first
      obtain ⟨-, -, -, looked⟩ := Plan.moment_ok first
      have owners := accepted.owners_eq order times seed pins
      have standsNext : s.StandsAfter source pins taken m.computed :=
        ⟨fun q member => by rw [setting.inForce]; exact stands.inForce q member,
          stands.drawn.of_sameSetting setting⟩
      have standsLeft := accepted.standsAfter_lookAll sound
        (fun q member => owned q (owners ▸ member)) (fun _ member => member) standsNext validNext
        looked
      have standsEnd := ih standsLeft validLeft more
      rw [← List.append_assoc] at standsEnd
      simpa [takenIn] using standsEnd

/-- Before time runs all declarations of the scenario stand. -/
theorem standsAfter_start (accepted : s.Accepted graph)
    (sound : (Plan.ofScenario s order times seed pins).Sound)
    (drawn
      : (start (Plan.ofScenario s order times seed pins)).drawConstants source opened pins
          (Plan.ofScenario s order times seed pins).constants = .ok ended)
    : s.StandsAfter source pins [] ended := by
  refine ⟨fun q member => ?_, drawConstants_drawn sound drawn⟩
  obtain ⟨inForce, -⟩ := drawConstants_frame drawn
  have owns : q ∈ (Plan.ofScenario s order times seed pins).owners :=
    accepted.owners_eq order times seed pins ▸ member
  rw [inForce]
  exact lookup_start_owner sound owns

end Accepted

end Scenario

end Prognosis
