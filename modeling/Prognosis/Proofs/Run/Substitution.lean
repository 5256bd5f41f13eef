import Prognosis.Proofs.Check.Outline
import Prognosis.Proofs.Check.Removal
import Prognosis.Proofs.Run.Whole
import Prognosis.Proofs.Simulation.Settled

/-! A branch that is taken acts as if its declarations had stood from the start, where nothing is
random and the branch leaves no constant behind that reads one it draws. Such a constant keeps the
value that it had. With the declarations of a branch in the places of those that they replace, and
no branch left, a scenario stays free of errors.
-/

namespace Prognosis

section Standing

open Relation

variable {α : Type}

-----------------------------------------------------------------------------------------
-- Declarations of a branch in place
-----------------------------------------------------------------------------------------

/-- The declaration that stands once the branch is taken. -/
def Declaration.standing (b : Branch α) : Declaration α → Declaration α
  | .quantity q => .quantity (b.standing q)
  | d => d

theorem Declaration.alike_standing (b : Branch α) (d : Declaration α) : d.Alike (d.standing b) := by
  cases d with
  | quantity q => exact .quantity (b.standing_name q) (b.standing_kind q)
  | branch _ | simulate _ | watch _ | calibrate _ | imported _ => exact .refl _

namespace Scenario

/-- The scenario with the declarations of the branch in place. -/
def withStanding (s : Scenario α) (b : Branch α) : Scenario α :=
  s.withDeclarations (s.declarations.map (·.standing b))

/-- The scenario with the declarations of the branch in place, and without branches. -/
def substituted (s : Scenario α) (b : Branch α) : Scenario α :=
  (s.withStanding b).withoutBranches

variable {s : Scenario α} {b : Branch α}

theorem outlined_standing (s : Scenario α) (b : Branch α)
    : s.Outlined (s.declarations.map (·.standing b)) :=
  List.forall₂_map_right_iff.mpr (List.forall₂_same.mpr fun d _ => d.alike_standing b)

theorem substituted_quantities (s : Scenario α) (b : Branch α)
    : (s.substituted b).quantities = s.quantities.map b.standing := by
  rw [substituted, withoutBranches_quantities]
  simp only [quantities, withStanding, withDeclarations, List.filterMap_map, List.map_filterMap]
  refine List.filterMap_congr fun d _ => ?_
  cases d <;> rfl

-----------------------------------------------------------------------------------------
-- Checks
-----------------------------------------------------------------------------------------

theorem owner?_name {name : String} {q : Quantity α} (owns : s.owner? name = some q)
    : q.name = name := by
  obtain ⟨d, found, is⟩ := Option.bind_eq_some_iff.mp owns
  cases d with
  | quantity _ =>
      cases is
      simpa [Declaration.name?] using List.find?_some found
  | branch _ | simulate _ | watch _ | calibrate _ | imported _ => cases is

/-- The owner of a name in the new scenario stands for the one in the old scenario. -/
theorem owner?_withStanding {name : String} {q' : Quantity α}
    (owns : (s.withStanding b).owner? name = some q')
    : ∃ q, s.owner? name = some q ∧ q' = b.standing q := by
  obtain ⟨place, q, old, placed, placed', -⟩ := (outlined_standing s b).owner?_cases owns
  rw [List.getElem?_map, placed] at placed'
  cases placed'
  exact ⟨q, old, rfl⟩

/-- What may be in force for a name in the new scenario may be in force for it in the old one. -/
theorem standsFor_of_withStanding (branch : b ∈ s.branches) {name : String} {q : Quantity α}
    (stands : (s.withStanding b).StandsFor name q)
    : s.StandsFor name q := by
  cases stands with
  | owner owns =>
      obtain ⟨owner, old, rfl⟩ := owner?_withStanding owns
      rcases b.standing_cases owner with same | ⟨member, replaces⟩
      · exact same.symm ▸ .owner old
      · obtain ⟨named, kind⟩ := Quantity.replaces_iff.mp replaces
        exact .override old branch member (named.trans (owner?_name old)) kind
  | override owns other member named kind =>
      obtain ⟨owner, old, rfl⟩ := owner?_withStanding owns
      rw [withStanding, (outlined_standing s b).branches] at other
      exact .override old other member named (kind.trans (b.standing_kind owner))

/-- What comes before a name is mentioned by what may be in force for the name. -/
theorem Precedes.mentioned {root name : String} (precedes : s.Precedes root name)
    : ∃ q, s.StandsFor name q ∧ root ∈ q.mentions := by
  obtain ⟨-, ⟨q, owns, listed⟩ | ⟨-, mentioned⟩⟩ := precedes
  · exact ⟨q, .owner owns, List.mem_append_left _ listed⟩
  · exact mentioned

/-- In the new scenario an edge that follows on another one is an edge of the old scenario. -/
theorem precedes_of_withStanding (branch : b ∈ s.branches) {before root name : String}
    (enters : (s.withStanding b).Precedes before root)
    (precedes : (s.withStanding b).Precedes root name)
    : s.Precedes root name := by
  -- Constants mention nothing, so what follows on another node is a variable or an impact.
  obtain ⟨entered, stands, mentioned⟩ := enters.mentioned
  obtain ⟨q, standsName, among⟩ := precedes.mentioned
  have varies : entered.isConstant = false := by
    cases constant : entered.isConstant with
    | false => rfl
    | true =>
        rw [Quantity.mentions_of_isConstant constant] at mentioned
        cases mentioned
  have varying : ∃ r, s.owner? root = some r ∧ r.isConstant = false := by
    cases standsFor_of_withStanding branch stands with
    | owner owns => exact ⟨entered, owns, varies⟩
    | @override owner _ _ owns _ _ _ kind =>
        refine ⟨owner, owns, ?_⟩
        rwa [Quantity.isConstant, kind] at varies
  exact ⟨(outlined_standing s b).isNode_iff.mp precedes.1,
    Or.inr ⟨varying, q, standsFor_of_withStanding branch standsName, among⟩⟩

-----------------------------------------------------------------------------------------
-- Errors
-----------------------------------------------------------------------------------------

variable [Scalar α]

omit [Scalar α] in
theorem clean_reportIf {reason : Bool} {span : Span} {finding : Finding α}
    (warns : (Check.report span finding).isError = false)
    : Clean (Check.reportIf reason span finding) := by
  cases reason with
  | false => exact fun l member => by cases member
  | true => exact fun l member => by rwa [List.mem_singleton.mp member]

/-- A declaration without errors in a branch has none outside: what may be missing there is worth a
warning only.
-/
theorem clean_of_nested {symbols : Symbols α} {index : Nat} {q : Quantity α}
    (clean : Clean (Check.checkQuantity symbols index true q))
    : Clean (Check.checkQuantity symbols index false q) := by
  cases q with
  | assumption a =>
      simp only [Check.checkQuantity, Check.checkAssumption, Clean.append_iff] at clean ⊢
      obtain ⟨⟨⟨⟨⟨-, confidence⟩, value⟩, uncertainty⟩, binding⟩, watch⟩ := clean
      exact ⟨⟨⟨⟨⟨clean_reportIf rfl, confidence⟩, value⟩, uncertainty⟩, binding⟩, watch⟩
  | varying v =>
      simp only [Check.checkQuantity, Check.checkVariable, Clean.append_iff] at clean ⊢
      obtain ⟨before, uncertainty⟩ := clean
      refine ⟨before, ?_⟩
      cases spread : v.uncertainty with
      | none => exact clean_reportIf rfl
      | some d => simpa only [spread] using uncertainty
  | parameter _ | impact _ => exact clean

/-- What stands once the branch is taken is free of errors. -/
theorem Accepted.clean_standing {graph : CausalGraph} (accepted : s.Accepted graph)
    (branch : b ∈ s.branches) {place : Nat} {d : Declaration α}
    (placed : s.declarations[place]? = some d)
    : Clean (Check.checkDeclaration (Symbols.ofScenario s) place (d.standing b)) := by
  cases d with
  | quantity q =>
      rcases b.standing_cases q with same | ⟨member, replaces⟩
      · rw [Declaration.standing, same]
        exact accepted.clean_of_mem placed
      · obtain ⟨named, kind⟩ := Quantity.replaces_iff.mp replaces
        have found : (Symbols.ofScenario s).find? (b.standing q).name
            = some ⟨q.name, place, .quantity q⟩ :=
          accepted.mem_symbols.mpr ⟨placed, rfl, named.symm⟩
        have overrides : (Symbols.ofScenario s).isOverride (b.standing q) = true := by
          simp [Symbols.isOverride, Symbols.quantity?, found, Declaration.quantity?, kind]
        have nested := Clean.flatMap_iff.mp
          (Clean.append_iff.mp (accepted.clean_of_branch branch)).2 _ member
        rw [Check.checkOverride, if_pos overrides, found] at nested
        exact clean_of_nested nested
  | branch _ | simulate _ | watch _ | calibrate _ | imported _ => exact accepted.clean_of_mem placed

/-- A scenario without errors has none once a branch of it is taken for good. -/
theorem substituted_clean (clean : s.check.errors = []) (branch : b ∈ s.branches)
    : (s.substituted b).check.errors = [] := by
  obtain ⟨graph, -, accepted⟩ := accepted_of_clean clean
  have acyclic (name : String) : ¬TransGen (s.withStanding b).Precedes name name :=
    acyclic_of_edges (acyclic_of_isOrder accepted.isOrder)
      (fun _ _ _ => precedes_of_withStanding branch) name
  have each (place : Nat) (d : Declaration α)
      (placed : (s.declarations.map (·.standing b))[place]? = some d) (l : Located (Finding α))
      (member : l ∈ Check.checkDeclaration (Symbols.ofScenario s) place d)
      (error : l.isError = true)
      : False := by
    rw [List.getElem?_map] at placed
    obtain ⟨declared, there, rfl⟩ := Option.map_eq_some_iff.mp placed
    rw [accepted.clean_standing branch there l member] at error
    cases error
  obtain ⟨-, errors⟩ := (outlined_standing s b).check_errors clean acyclic each
  exact withoutBranches_clean (List.eq_nil_iff_forall_not_mem.mpr errors)

end Scenario

end Standing

open RunState

variable {σ α : Type} [Scalar α]

/-- The plans differ in one branch only: in the other plan its declarations own the names. Nothing
random enters these, and neither do they leave a constant behind nor does one of them read itself.
-/
structure Plan.Substitutes (plan : Plan α) (b : Branch α) (other : Plan α) : Prop where
  sound : plan.Sound
  soundOther : other.Sound
  only : plan.branches = [b]
  branchless : other.branches = []
  owners : other.owners = plan.owners.map b.standing
  times : other.times = plan.times
  pins : other.pins = plan.pins
  certain : ∀ q ∈ other.owners, q.IsCertain
  refreshes : b.Refreshes plan.owners
  own : ∀ q ∈ b.overrides, plan.owners.any q.replaces = true → q.name ∉ q.constantRoots

omit [Scalar α] in
/-- Both give each owner the same value. -/
def Plan.SameValues (plan : Plan α) (values values' : Env α) : Prop :=
  ∀ q ∈ plan.owners, ∃ x, values.lookup q.name = some x ∧ values'.lookup q.name = some x

/-- The owners are upheld until the branch is decided, and then those of the other plan are. -/
structure RunState.Turns (source : RandomSource σ α) (plan : Plan α) (b : Branch α)
    (other : Plan α) (state : RunState σ α) : Prop where
  valid : Valid plan state
  before : b.name ∉ state.decided → state.Upholds source plan.pins plan.owners
  after : b.name ∈ state.decided → state.Upholds source other.pins other.owners

namespace Plan.Substitutes

variable {source : RandomSource σ α} {opened opened' : String → σ} {plan other : Plan α}
  {b : Branch α} {state state' ended ended' : RunState σ α} {env : Env α} {time : α}
  {m m' : Moment σ α}

omit [Scalar α] in
/-- Names have the same kinds in both plans. -/
theorem isConstant_iff (substitutes : plan.Substitutes b other) {name : String} {constant : Bool}
    : (∃ q ∈ other.owners, q.name = name ∧ q.isConstant = constant)
      ↔ ∃ q ∈ plan.owners, q.name = name ∧ q.isConstant = constant := by
  simp only [substitutes.owners, List.mem_map, exists_exists_and_eq_and, Branch.standing_name,
    Quantity.isConstant, Branch.standing_kind]

/-- A look at the branch turns the state if the condition holds, and else it changes nothing. -/
theorem decide (substitutes : plan.Substitutes b other)
    (accepts : ∀ s, b.accepts (source.unit s).1 = true) (turns : state.Turns source plan b other)
    (owned : ∀ q ∈ plan.owners, env.lookup q.name ≠ none)
    (done : RunState.decide source opened plan.pins env state b = .ok ended)
    : ended.Turns source plan b other
      ∧ (b.name ∈ state.decided ∨ b.Evaluates env true → b.name ∈ ended.decided) := by
  have branch : b ∈ plan.branches := substitutes.only ▸ List.mem_singleton_self b
  have valid :=
    (decide_resolves turns.valid substitutes.sound source opened owned branch).holds done
  cases decide_looked done with
  | known decided => exact ⟨turns, fun _ => decided⟩
  | waiting fresh fails =>
      refine ⟨turns, fun either => either.elim id fun ⟨x, value, holds⟩ => ?_⟩
      obtain ⟨y, value', fails⟩ := fails
      rw [value] at value'
      cases value'
      rw [holds] at fails
      cases fails
  | refused _ _ above =>
      rw [gateDraw, accepts] at above
      cases above
  | taken fresh holds _ replaced =>
      obtain ⟨decided, -⟩ := overrideAll_branches replaced
      have now : b.name ∈ ended.decided := decided ▸ List.mem_cons_self
      have stands : ((state.gated source opened b.name).taking b.name).Upholds source plan.pins
          plan.owners :=
        ⟨(turns.before fresh).inForce, (turns.before fresh).settled⟩
      have left := stands.overrideAll substitutes.sound branch substitutes.refreshes
        substitutes.own ((turns.valid.gated source opened b.name).taking b.name) replaced
      rw [← substitutes.owners, ← substitutes.pins] at left
      exact ⟨⟨valid, fun out => absurd now out, fun _ => left⟩, fun _ => now⟩

/-- So does a point in time. -/
theorem moment (substitutes : plan.Substitutes b other)
    (accepts : ∀ s, b.accepts (source.unit s).1 = true) (turns : state.Turns source plan b other)
    (passed : plan.moment source opened time state = .ok m)
    : m.left.Turns source plan b other
      ∧ (b.name ∈ state.decided ∨ b.Evaluates m.values true → b.name ∈ m.left.decided) := by
  obtain ⟨-, -, -, looked⟩ := moment_ok passed
  obtain ⟨owned, setting, validNext, -⟩ := moment_valid substitutes.sound turns.valid passed
  have turnsNext : m.computed.Turns source plan b other := {
    valid := validNext
    before := fun fresh => (turns.before (setting.decided ▸ fresh)).of_sameSetting setting
    after := fun decided => (turns.after (setting.decided ▸ decided)).of_sameSetting setting
  }
  rw [substitutes.only] at looked
  obtain ⟨next, others, decides, rest, -⟩ := lookAll_cons_ok looked
  cases rest
  rw [← setting.decided]
  exact substitutes.decide accepts turnsNext owned decides

/-- In the other plan no branch is left to change anything. -/
theorem moment_other (substitutes : plan.Substitutes b other) (valid : Valid other state)
    (passed : other.moment source opened time state = .ok m)
    : SameSetting state m.left ∧ Valid other m.left :=
  moment_branchless substitutes.soundOther substitutes.branchless valid passed

-----------------------------------------------------------------------------------------
-- Values after the branch is taken
-----------------------------------------------------------------------------------------

/-- A point in time has the same values once the branch is taken. -/
theorem moment_values (substitutes : plan.Substitutes b other)
    (turns : state.Turns source plan b other) (decided : b.name ∈ state.decided)
    (valid : Valid other state') (holds : state'.Upholds source other.pins other.owners)
    (passed : plan.moment source opened time state = .ok m)
    (passed' : other.moment source opened' time state' = .ok m')
    : plan.SameValues m.values m'.values := by
  intro q owns
  obtain ⟨owned, -⟩ := moment_valid substitutes.sound turns.valid passed
  obtain ⟨x, has⟩ := Option.ne_none_iff_exists'.mp (owned q owns)
  obtain ⟨-, -, computed, -⟩ := moment_ok passed
  obtain ⟨-, -, computed', -⟩ := moment_ok passed'
  have origin : other.origin = plan.origin := by simp only [Plan.origin, substitutes.times]
  rw [origin] at computed'
  have stands : b.standing q ∈ other.owners :=
    substitutes.owners ▸ List.mem_map_of_mem owns
  have ordered (name : String) (among : name ∈ other.order) : name ∈ plan.order :=
    (substitutes.sound.order name).mpr
      (substitutes.isConstant_iff.mp ((substitutes.soundOther.order name).mp among))
  have constants (name : String) (among : name ∈ other.constantNames)
      : name ∈ plan.constantNames :=
    mem_constantNames.mpr (substitutes.isConstant_iff.mp (mem_constantNames.mp among))
  have same := (turns.after decided).values_eq substitutes.sound turns.valid
    substitutes.soundOther valid substitutes.certain holds ordered constants computed computed'
    stands
  rw [b.standing_name] at same
  exact ⟨x, has, same ▸ has⟩

/-- So do all points in time from there on, by induction along them. -/
theorem moments_values (substitutes : plan.Substitutes b other)
    (accepts : ∀ s, b.accepts (source.unit s).1 = true) {times : List α}
    {moments moments' : List (Moment σ α)} (turns : state.Turns source plan b other)
    (decided : b.name ∈ state.decided) (valid : Valid other state')
    (holds : state'.Upholds source other.pins other.owners)
    (passed : plan.moments source opened times state = .ok (moments, ended))
    (passed' : other.moments source opened' times state' = .ok (moments', ended'))
    : List.Forall₂ plan.SameValues (moments.map (·.values)) (moments'.map (·.values)) := by
  induction times generalizing state state' moments moments' with
  | nil =>
      cases passed
      cases passed'
      exact .nil
  | cons time rest ih =>
      obtain ⟨m, later, first, more, rfl⟩ := moments_cons_ok passed
      obtain ⟨m', later', first', more', rfl⟩ := moments_cons_ok passed'
      obtain ⟨turnsLeft, still⟩ := substitutes.moment accepts turns first
      obtain ⟨setting, validLeft⟩ := substitutes.moment_other valid first'
      exact .cons (substitutes.moment_values turns decided valid holds first first')
        (ih turnsLeft (still (Or.inl decided)) validLeft (holds.of_sameSetting setting) more more')

/-- After a point in time at which the condition holds all values are the same. By induction along
the points in time up to this one.
-/
theorem later_values (substitutes : plan.Substitutes b other)
    (accepts : ∀ s, b.accepts (source.unit s).1 = true) {times : List α}
    {moments moments' : List (Moment σ α)} (turns : state.Turns source plan b other)
    (valid : Valid other state') (holds : state'.Upholds source other.pins other.owners)
    (passed : plan.moments source opened times state = .ok (moments, ended))
    (passed' : other.moments source opened' times state' = .ok (moments', ended'))
    {place : Nat} (placed : moments[place]? = some m) (fires : b.Evaluates m.values true)
    : List.Forall₂ plan.SameValues ((moments.map (·.values)).drop (place + 1))
        ((moments'.map (·.values)).drop (place + 1)) := by
  induction times generalizing state state' moments moments' place with
  | nil =>
      cases passed
      cases placed
  | cons time rest ih =>
      obtain ⟨first, later, passes, more, rfl⟩ := moments_cons_ok passed
      obtain ⟨first', later', passes', more', rfl⟩ := moments_cons_ok passed'
      obtain ⟨turnsLeft, turned⟩ := substitutes.moment accepts turns passes
      obtain ⟨setting, validLeft⟩ := substitutes.moment_other valid passes'
      have holdsLeft := holds.of_sameSetting setting
      cases place with
      | zero =>
          cases placed
          exact substitutes.moments_values accepts turnsLeft (turned (Or.inr fires)) validLeft
            holdsLeft more more'
      | succ place => exact ih turnsLeft validLeft holdsLeft more more' placed

end Plan.Substitutes

-----------------------------------------------------------------------------------------
-- Scenarios
-----------------------------------------------------------------------------------------

/-- The outcome after a point in time. -/
def Outcome.after (outcome : Outcome α) (place : Nat) : Outcome α :=
  { outcome with steps := outcome.steps.drop (place + 1) }

namespace Scenario

variable {s : Scenario α} {graph graph' : CausalGraph} {b : Branch α}

/-- Nothing random enters what is declared, neither outside of branches nor in them. -/
def IsCertain (s : Scenario α) : Prop :=
  (∀ q ∈ s.quantities, q.IsCertain) ∧ ∀ b ∈ s.branches, ∀ q ∈ b.overrides, q.IsCertain

/-- What may be in force for a name does not read the name when it is drawn. -/
theorem Accepted.not_reads_itself (accepted : s.Accepted graph) {order : List String}
    {times : List α} {seed : Int} {pins : Env α} {current : InForce α}
    (held : (Plan.ofScenario s order times seed pins).MayHold current)
    : current.declaration.name ∉ current.declaration.constantRoots := by
  intro read
  obtain ⟨owner, -, index, named, -, placed, reads, -⟩ := accepted.reads_of_held held
  obtain ⟨other, -, same, place, placedOther, -, before⟩ :=
    accepted.quantity_of_admits (reads.constantRoots read)
  have found : (Symbols.ofScenario s).find? current.declaration.name
      = some ⟨owner.name, index, .quantity owner⟩ :=
    accepted.mem_symbols.mpr ⟨placed, rfl, named⟩
  have foundOther : (Symbols.ofScenario s).find? current.declaration.name
      = some ⟨other.name, place, .quantity other⟩ :=
    accepted.mem_symbols.mpr ⟨placedOther, rfl, same⟩
  have there : index = place :=
    congrArg Symbol.index (Option.some.inj (found.symm.trans foundOther))
  exact Nat.lt_irrefl _ (there ▸ before)

/-- The plan of a scenario and a plan of the one in which its branch is taken from the start. -/
theorem Accepted.substitutes (accepted : s.Accepted graph)
    (acceptedOther : (s.substituted b).Accepted graph') (certain : s.IsCertain)
    (only : s.branches = [b]) (refreshes : b.Refreshes s.quantities) (times : List α)
    (seed seed' : Int) (pins : Env α)
    : (Plan.ofScenario s graph.order times seed pins).Substitutes b
        (Plan.ofScenario (s.substituted b) graph'.order times seed' pins) := by
  have owners := accepted.owners_eq graph.order times seed pins
  have ownersOther : (Plan.ofScenario (s.substituted b) graph'.order times seed' pins).owners
      = s.quantities.map b.standing := by
    rw [acceptedOther.owners_eq, substituted_quantities]
  have branch : b ∈ s.branches := only ▸ List.mem_singleton_self b
  exact {
    sound := accepted.sound accepted.isOrder times seed pins
    soundOther := acceptedOther.sound acceptedOther.isOrder times seed' pins
    only := only
    branchless := (s.withStanding b).withoutBranches_branches
    owners := by rw [owners, ownersOther]
    times := rfl
    pins := rfl
    certain := fun q member => by
      obtain ⟨owner, owns, rfl⟩ := List.mem_map.mp (ownersOther ▸ member)
      rcases b.standing_cases owner with same | ⟨nested, -⟩
      · exact same.symm ▸ certain.1 owner owns
      · exact certain.2 b branch _ nested
    refreshes := owners ▸ refreshes
    own := fun q member replaced => by
      obtain ⟨owner, owns, replaces⟩ := List.any_eq_true.mp replaced
      obtain ⟨named, kind⟩ := Quantity.replaces_iff.mp replaces
      exact accepted.not_reads_itself (.override branch member ⟨owner, owns, named.symm, kind.symm⟩)
  }

/-- Once the only branch of a scenario is taken, whose probability no draw reaches, its runs have
the samples of the scenario in which the declarations of the branch replace those of their names and
kinds, and that one is free of errors too. Nothing random enters the values, and the branch leaves
no constant behind. Witness: the constants of both runs solve the same equations, and so do their
values at each later point in time.
-/
theorem samples_eq_substituted (clean : s.check.errors = []) (checked : s.check.graph = some graph)
    (certain : s.IsCertain) (only : s.branches = [b]) (refreshes : b.Refreshes s.quantities)
    : ∃ graph', (s.substituted b).check.errors = []
        ∧ (s.substituted b).check.graph = some graph'
        ∧ ∀ (source : RandomSource σ α) (times : List α) (seed seed' : Int) (pins : Env α)
            (number number' : Nat) (outcome outcome' : Outcome α),
              (∀ stream, b.accepts (source.unit stream).1 = true)
              → (Plan.ofScenario s graph.order times seed pins).run source number = .ok outcome
              → (Plan.ofScenario (s.substituted b) graph'.order times seed' pins).run source number'
                = .ok outcome'
              → ∀ (place : Nat) (values : Env α),
                  outcome.steps[place]? = some values → b.Evaluates values true
                  → (outcome.after place).SameSamples s.Declares (outcome'.after place) := by
  obtain ⟨found, same, accepted⟩ := accepted_of_clean clean
  rw [checked] at same
  cases same
  have cleanOther : (s.substituted b).check.errors = [] :=
    substituted_clean clean (only ▸ List.mem_singleton_self b)
  obtain ⟨graph', checkedOther, acceptedOther⟩ := accepted_of_clean cleanOther
  refine ⟨graph', cleanOther, checkedOther, ?_⟩
  intro source times seed seed' pins number number' outcome outcome' accepts ran ranOther place
    values placed fires
  have substitutes :=
    accepted.substitutes acceptedOther certain only refreshes times seed seed' pins
  obtain ⟨moments, ended, happened, rfl⟩ := Plan.exists_history ran
  obtain ⟨drawn, draws, passed⟩ := Plan.history_ok happened
  obtain ⟨moments', ended', happened', rfl⟩ := Plan.exists_history ranOther
  obtain ⟨drawn', draws', passed'⟩ := Plan.history_ok happened'
  have undecided : b.name ∉ drawn.decided := by
    rw [(drawConstants_frame draws).2.2.1]
    exact List.not_mem_nil
  have turns : drawn.Turns source (Plan.ofScenario s graph.order times seed pins) b
      (Plan.ofScenario (s.substituted b) graph'.order times seed' pins) := {
    valid := (drawConstants_resolves substitutes.sound source _).holds draws
    before := fun _ => drawConstants_upholds substitutes.sound draws
    after := fun decided => absurd decided undecided
  }
  have valid := (drawConstants_resolves substitutes.soundOther source _).holds draws'
  simp only [List.getElem?_map, Option.map_eq_some_iff] at placed
  obtain ⟨m, reached, rfl⟩ := placed
  have later := substitutes.later_values accepts turns valid
    (drawConstants_upholds substitutes.soundOther draws') passed passed' reached fires
  refine later.imp fun env env' same name ⟨q, member, named⟩ => ?_
  have owns : q ∈ (Plan.ofScenario s graph.order times seed pins).owners := by
    rwa [accepted.owners_eq]
  exact named ▸ same q owns

end Scenario

-----------------------------------------------------------------------------------------
-- A river
-----------------------------------------------------------------------------------------

namespace River

open Harvest

/-- An assumption in which nothing is random. -/
def assumed (name : String) (value : Expr Int) : Assumption Int :=
  { rain 0 with name := name, value := some value, uncertainty := none }

/-- What runs off, twice the rain. -/
def runoff : Assumption Int :=
  assumed "runoff" (.binary .mul (read "rain") (whole 2) none)

/-- The river holds what runs off. -/
def river : Variable Int :=
  { varying "river" [⟨.ofYear 2025, read "runoff"⟩] [] none with uncertainty := none }

/-- A drought that comes for sure once there is water in the river: it rains less. -/
def drought : Branch Int := {
  Harvest.drought with
  condition := .binary .gt (read "river") (whole 4) none
  overrides := [.assumption (assumed "rain" (whole 1))]
}

/-- The same drought, in which the runoff is assumed again. -/
def droughtAgain : Branch Int :=
  { drought with overrides := drought.overrides ++ [.assumption runoff] }

/-- A scenario with a river and a branch. -/
def scenario (b : Branch Int) : Scenario Int :=
  Harvest.scenario [
    .quantity (.assumption (assumed "rain" (whole 3))),
    .quantity (.assumption runoff),
    .quantity (.varying river),
    .branch b
  ]

/-- The order of the river, with either drought. -/
def order : List String :=
  ["rain", "runoff", "river"]

theorem scenario_isCertain {b : Branch Int} (certain : ∀ q ∈ b.overrides, q.IsCertain)
    : (scenario b).IsCertain := by
  have quantities : (scenario b).quantities
      = [.assumption (assumed "rain" (whole 3)), .assumption runoff, .varying river] := rfl
  have branches : (scenario b).branches = [b] := rfl
  refine ⟨?_, by simpa [branches] using certain⟩
  simp [quantities, Quantity.IsCertain, assumed, runoff, river]

/-- The steps of a run that ends. -/
theorem exists_steps {s : Scenario Int} {steps : List (Env Int)}
    (ends : ((run s order []).map (·.steps)).toOption = some steps)
    : ∃ outcome, run s order [] = .ok outcome ∧ outcome.steps = steps := by
  cases ran : run s order [] with
  | error halt =>
      rw [ran] at ends
      cases ends
  | ok outcome =>
      rw [ran] at ends
      exact ⟨outcome, rfl, Option.some.inj ends⟩

theorem again_clean : (scenario droughtAgain).check.errors = [] := by
  cbv

theorem again_checked : (scenario droughtAgain).check.graph = some ⟨order, [], order⟩ := by
  cbv

theorem again_substituted
    : ((scenario droughtAgain).substituted droughtAgain).check.graph = some ⟨order, [], order⟩ := by
  cbv

end River

/-- When the drought assumes the runoff again, the river falls as if it had always been dry. -/
theorem Scenario.river_samples_eq_substituted
    : ∃ outcome outcome',
        Harvest.run (River.scenario River.droughtAgain) River.order [] = .ok outcome
          ∧ Harvest.run ((River.scenario River.droughtAgain).substituted River.droughtAgain)
              River.order [] = .ok outcome'
          ∧ (outcome.after 0).SameSamples (River.scenario River.droughtAgain).Declares
              (outcome'.after 0) := by
  have steps : ((Harvest.run (River.scenario River.droughtAgain) River.order []).map
        (·.steps)).toOption = some [
      [("river", 6), ("runoff", 6), ("rain", 3)],
      [("river", 2), ("runoff", 2), ("rain", 1), ("runoff", 6), ("rain", 3)]
    ] := by
    decide +kernel
  have ends' : (Harvest.run ((River.scenario River.droughtAgain).substituted River.droughtAgain)
      River.order []).isOk = true := by
    decide +kernel
  obtain ⟨outcome, ran, steps⟩ := River.exists_steps steps
  obtain ⟨outcome', ran'⟩ := Harvest.exists_outcome ends'
  have certain : (River.scenario River.droughtAgain).IsCertain :=
    River.scenario_isCertain (by
      simp [River.droughtAgain, River.drought, River.assumed, River.runoff, Quantity.IsCertain])
  obtain ⟨graph, -, found, same⟩ := @Scenario.samples_eq_substituted Nat Int _ _ _
    River.droughtAgain River.again_clean River.again_checked certain rfl (by decide +kernel)
  rw [River.again_substituted] at found
  cases found
  exact ⟨outcome, outcome', ran, ran', same .counting [2025, 2026] 7 7 [] 0 0 outcome outcome'
    (fun _ => rfl) ran ran' 0 _ (by rw [steps]; rfl) ⟨1, rfl, rfl⟩⟩

/-- The drought alone leaves the runoff behind, which reads the rain: once it is taken, the river
holds what it held, although half of it would be left had it always been dry.
-/
theorem Scenario.river_stays_behind
    : (River.scenario River.drought).check.errors = []
        ∧ (River.scenario River.drought).IsCertain
        ∧ (River.scenario River.drought).branches = [River.drought]
        ∧ River.drought.probability = some 1
        ∧ ∃ (outcome outcome' : Outcome Int) (values : Env Int),
            Harvest.run (River.scenario River.drought) River.order [] = .ok outcome
              ∧ Harvest.run ((River.scenario River.drought).substituted River.drought)
                  River.order [] = .ok outcome'
              ∧ outcome.steps[0]? = some values ∧ River.drought.Evaluates values true
              ∧ (outcome.after 0).steps.map (·.lookup "river") = [some 6]
              ∧ (outcome'.after 0).steps.map (·.lookup "river") = [some 2] := by
  have steps : ((Harvest.run (River.scenario River.drought) River.order []).map
        (·.steps)).toOption = some [
      [("river", 6), ("runoff", 6), ("rain", 3)],
      [("river", 6), ("rain", 1), ("runoff", 6), ("rain", 3)]
    ] := by
    decide +kernel
  have steps' : ((Harvest.run ((River.scenario River.drought).substituted River.drought)
        River.order []).map (·.steps)).toOption = some [
      [("river", 2), ("runoff", 2), ("rain", 1)],
      [("river", 2), ("runoff", 2), ("rain", 1)]
    ] := by
    decide +kernel
  obtain ⟨outcome, ran, steps⟩ := River.exists_steps steps
  obtain ⟨outcome', ran', steps'⟩ := River.exists_steps steps'
  have certain : (River.scenario River.drought).IsCertain :=
    River.scenario_isCertain (by simp [River.drought, River.assumed, Quantity.IsCertain])
  refine ⟨by cbv, certain, rfl, rfl, outcome, outcome', _, ran, ran', by rw [steps]; rfl,
    ⟨1, rfl, rfl⟩, ?_, ?_⟩
  · rw [Outcome.after, steps]
    rfl
  · rw [Outcome.after, steps']
    rfl

end Prognosis
