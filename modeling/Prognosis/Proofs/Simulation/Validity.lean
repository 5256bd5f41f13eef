import Mathlib.Data.List.Nodup
import Prognosis.Proofs.Entries
import Prognosis.Proofs.Simulation.Computation

/-! States that runs of a sound plan pass through. Each step leads from one of them to another
and misses nothing, whatever the streams give.
-/

namespace Prognosis

variable {σ α : Type} [Scalar α]

-----------------------------------------------------------------------------------------
-- Sound plans
-----------------------------------------------------------------------------------------

namespace Plan

/-- The declaration takes the place of an owner, one of its name and kind. -/
def Replaces (plan : Plan α) (q : Quantity α) : Prop :=
  ∃ owner ∈ plan.owners, owner.name = q.name ∧ owner.kind = q.kind

/-- What may be in force in a run: owners with streams of their names, and declarations of
branches that take the place of owners.
-/
inductive MayHold (plan : Plan α) : InForce α → Prop
  | owner {q} (member : q ∈ plan.owners) : plan.MayHold ⟨q, q.name⟩
  | override {b q} (branch : b ∈ plan.branches) (member : q ∈ b.overrides)
    (replaces : plan.Replaces q)
    : plan.MayHold ⟨q, RunState.overrideStream b.name q.name⟩

/-- Names of assumptions and parameters. -/
def constantNames (plan : Plan α) : List String :=
  plan.constants.map (·.name)

/-- Every name has one owner, and what may be in force reads only what is there by then:
constants read constants before them, anchors read constants, variables and impacts read
constants and names before them in order, and conditions read owners.
-/
structure Sound (plan : Plan α) : Prop where
  distinct : (plan.owners.map (·.name)).Nodup
  orderDistinct : plan.order.Nodup
  order : ∀ name, name ∈ plan.order ↔ ∃ q ∈ plan.owners, q.name = name ∧ q.isConstant = false
  calls : ∀ current, plan.MayHold current → current.declaration.CallsKnown
  constants
    : ∀ earlier q later, plan.constants = earlier ++ q :: later
        → ∀ root ∈ q.constantRoots, root ∈ earlier.map (·.name)
  redrawn
    : ∀ current, plan.MayHold current
        → ∀ root ∈ current.declaration.constantRoots, root ∈ plan.constantNames
  anchors
    : ∀ current, plan.MayHold current
        → ∀ root ∈ current.declaration.anchorRoots, root ∈ plan.constantNames
  timed
    : ∀ earlier name later, plan.order = earlier ++ name :: later
        → ∀ current, plan.MayHold current → current.declaration.name = name
          → ∀ root ∈ current.declaration.timedRoots,
              root ∈ plan.constantNames ∨ root ∈ earlier
  conditionCalls : ∀ b ∈ plan.branches, b.condition.CallsKnown
  conditions
    : ∀ b ∈ plan.branches, ∀ root ∈ b.condition.roots, ∃ q ∈ plan.owners, q.name = root

variable {plan : Plan α}

omit [Scalar α] in
theorem MayHold.replaces {current : InForce α} (held : plan.MayHold current)
    : plan.Replaces current.declaration := by
  cases held with
  | owner member => exact ⟨_, member, rfl, rfl⟩
  | override branch member replaces => exact replaces

omit [Scalar α] in
theorem mem_constantNames {name : String}
    : name ∈ plan.constantNames
      ↔ ∃ q ∈ plan.owners, q.name = name ∧ q.isConstant = true := by
  simp only [constantNames, constants, List.mem_map, List.mem_filter]
  constructor
  · rintro ⟨q, ⟨member, constant⟩, rfl⟩
    exact ⟨q, member, rfl, constant⟩
  · rintro ⟨q, member, rfl, constant⟩
    exact ⟨q, ⟨member, constant⟩, rfl⟩

omit [Scalar α] in
/-- A name has one owner. -/
theorem Sound.owner_unique (sound : plan.Sound) {q other : Quantity α}
    (member : q ∈ plan.owners) (found : other ∈ plan.owners) (same : q.name = other.name)
    : q = other :=
  List.inj_on_of_nodup_map sound.distinct member found same

omit [Scalar α] in
/-- Constants are not computed in order. -/
theorem Sound.not_constant_of_mem_order (sound : plan.Sound) {name : String}
    (ordered : name ∈ plan.order)
    : name ∉ plan.constantNames := by
  intro constant
  obtain ⟨q, member, rfl, varying⟩ := (sound.order name).mp ordered
  obtain ⟨other, found, same, fixed⟩ := mem_constantNames.mp constant
  rw [sound.owner_unique found member same, varying] at fixed
  cases fixed

omit [Scalar α] in
/-- Every owner is a constant or has its place in the order. -/
theorem Sound.constant_or_ordered (sound : plan.Sound) {q : Quantity α}
    (member : q ∈ plan.owners)
    : q.name ∈ plan.constantNames ∨ q.name ∈ plan.order := by
  cases kind : q.isConstant with
  | true => exact Or.inl (mem_constantNames.mpr ⟨q, member, rfl, kind⟩)
  | false => exact Or.inr ((sound.order q.name).mpr ⟨q, member, rfl, kind⟩)

end Plan

-----------------------------------------------------------------------------------------
-- Valid states
-----------------------------------------------------------------------------------------

namespace RunState

variable {plan : Plan α} {state : RunState σ α}

/-- Every owner's name has a declaration in force, one that may be, and constants have values. -/
structure Valid (plan : Plan α) (state : RunState σ α) : Prop where
  coherent : state.Coherent
  held : ∀ name current, state.inForce.lookup name = some current → plan.MayHold current
  present : ∀ q ∈ plan.owners, state.inForce.lookup q.name ≠ none
  constants : ∀ name ∈ plan.constantNames, state.constants.lookup name ≠ none

/-- A valid state stays valid when only streams and remembered functions change. -/
theorem Valid.of_sameSetting (valid : Valid plan state) {ended : RunState σ α}
    (setting : SameSetting state ended) (coherent : ended.Coherent)
    : Valid plan ended := by
  refine ⟨coherent, ?_, ?_, ?_⟩
  · rw [setting.inForce]
    exact valid.held
  · rw [setting.inForce]
    exact valid.present
  · rw [setting.constants]
    exact valid.constants

/-- The kind of a name never changes. -/
theorem Valid.kind_eq (valid : Valid plan state) (sound : plan.Sound) {q : Quantity α}
    (member : q ∈ plan.owners) {current : InForce α}
    (found : state.inForce.lookup q.name = some current)
    : current.declaration.kind = q.kind := by
  obtain ⟨owner, owns, sameName, sameKind⟩ := (valid.held _ _ found).replaces
  rw [valid.coherent.named _ _ found] at sameName
  rw [← sameKind, sound.owner_unique owns member sameName]

-----------------------------------------------------------------------------------------
-- The state before time runs
-----------------------------------------------------------------------------------------

omit [Scalar α] in
/-- At the start every owner is in force. -/
theorem lookup_start {name : String} {current : InForce α}
    (found : (start plan : RunState σ α).inForce.lookup name = some current)
    : ∃ q ∈ plan.owners, q.name = name ∧ current = ⟨q, q.name⟩ := by
  have member := Entries.mem_of_lookup found
  simp only [start, List.mem_map, Prod.mk.injEq] at member
  obtain ⟨q, owns, rfl, rfl⟩ := member
  exact ⟨q, owns, rfl, rfl⟩

/-- A state in which constants have been drawn from the start is valid. -/
theorem Valid.of_start {ended : RunState σ α}
    (inForce : ended.inForce = (start plan : RunState σ α).inForce)
    (interpolants : ended.interpolants = [])
    (constants : ∀ name ∈ plan.constantNames, ended.constants.lookup name ≠ none)
    : Valid plan ended := by
  refine ⟨⟨?_, ?_⟩, ?_, ?_, constants⟩
  · intro name current found
    obtain ⟨q, -, named, rfl⟩ := lookup_start (inForce ▸ found)
    exact named
  · intro name f known
    simp [interpolants] at known
  · intro name current found
    obtain ⟨q, member, -, rfl⟩ := lookup_start (inForce ▸ found)
    exact .owner member
  · intro q member
    rw [inForce]
    exact Entries.lookup_ne_none_of_mem (List.mem_map.mpr ⟨q, member, rfl⟩)

/-- The cells of constants are ready in the order of the declarations. -/
theorem constantCells_ready (sound : plan.Sound) (source : RandomSource σ α)
    : Cell.Ready (fun _ => False) (plan.constants.map (constantCell source plan.pins)) := by
  have names : (plan.constants.map (constantCell source plan.pins)).map (·.name)
      = plan.constants.map (·.name) := by
    simp [constantCell]
  refine Cell.Ready.of_split ?_ (fun _ _ => id) ?_
  · rw [names]
    exact sound.distinct.sublist (List.filter_sublist.map _)
  · intro earlier cell later split root read
    obtain ⟨before, others, divided, rfl, rest⟩ := List.map_eq_append_iff.mp split
    obtain ⟨q, after, divided', rfl, rfl⟩ := List.map_eq_cons_iff.mp rest
    have earlierRoot := sound.constants before q after (by rw [divided, divided']) root read
    exact Or.inr (by simpa [constantCell] using earlierRoot)

/-- Drawing the constants of a sound plan misses nothing and leads to a valid state. -/
theorem drawConstants_resolves (sound : plan.Sound) (source : RandomSource σ α)
    (opened : String → σ)
    : Resolves
        ((start plan).drawConstants source opened plan.pins plan.constants)
        (Valid plan) := by
  have started : ∀ name, False → (start plan : RunState σ α).constants.lookup name ≠ none :=
    fun _ => False.elim
  have swept := sweep_resolves (constantCells_ready sound source)
    (fun cell member env known s => by
      obtain ⟨q, constant, rfl⟩ := List.mem_map.mp member
      have held := Plan.MayHold.owner (List.mem_filter.mp constant).1
      exact q.drawConstant_resolves source plan.pins (sound.calls _ held) known s)
    started ((start plan).streamAt opened)
  rw [← drawConstants_sweep] at swept
  cases drawn : (start plan).drawConstants source opened plan.pins plan.constants with
  | error halt =>
      rw [drawn] at swept
      exact swept
  | ok ended =>
      rw [drawn] at swept
      obtain ⟨inForce, interpolants, -, -⟩ := drawConstants_frame drawn
      refine Valid.of_start inForce interpolants fun name member => swept name (Or.inr ?_)
      simpa [constantCell, Plan.constantNames] using member

-----------------------------------------------------------------------------------------
-- Points in time
-----------------------------------------------------------------------------------------

/-- A name with a declaration in force has its cell. -/
theorem mem_cells {source : RandomSource σ α} {time origin : α} {order : List String}
    {cell : Cell σ α}
    : cell ∈ state.cells source time origin order
      ↔ ∃ name ∈ order, ∃ current, state.inForce.lookup name = some current
          ∧ timedCell source state.constants time origin name current = cell := by
  simp only [cells, List.mem_filterMap, Option.map_eq_some_iff]

/-- In a valid state each name of the order has a cell. -/
theorem cells_names (valid : Valid plan state) (sound : plan.Sound)
    (source : RandomSource σ α) (time origin : α)
    : (state.cells source time origin plan.order).map (·.name) = plan.order := by
  have along (part : List String) (included : ∀ name ∈ part, name ∈ plan.order)
      : (state.cells source time origin part).map (·.name) = part := by
    induction part with
    | nil => rfl
    | cons name rest ih =>
        obtain ⟨q, member, rfl, -⟩ := (sound.order name).mp (included name (by simp))
        obtain ⟨current, found⟩ := Option.ne_none_iff_exists'.mp (valid.present q member)
        have others := ih fun other later => included other (List.mem_cons_of_mem _ later)
        simp only [cells] at others
        simp only [cells, List.filterMap_cons, found, Option.map_some, List.map_cons, others]
        rfl
  exact along plan.order fun _ member => member

/-- The cells of a point in time are ready in the order of the plan. -/
theorem cells_ready (valid : Valid plan state) (sound : plan.Sound)
    (source : RandomSource σ α) (time origin : α)
    : Cell.Ready (· ∈ plan.constantNames) (state.cells source time origin plan.order) := by
  have names := cells_names valid sound source time origin
  refine Cell.Ready.of_split (by rw [names]; exact sound.orderDistinct) ?_ ?_
  · intro cell member
    have ordered : cell.name ∈ plan.order := names ▸ List.mem_map_of_mem member
    exact sound.not_constant_of_mem_order ordered
  · intro earlier cell later split root read
    have ordered : plan.order
        = earlier.map (·.name) ++ cell.name :: later.map (·.name) := by
      rw [← names, split, List.map_append, List.map_cons]
    have member : cell ∈ state.cells source time origin plan.order := by simp [split]
    obtain ⟨name, -, current, found, rfl⟩ := mem_cells.mp member
    exact sound.timed _ _ _ ordered current (valid.held name current found)
      (valid.coherent.named name current found) root read

/-- A point in time is computed without anything missing, for every owner's name. The state
stays valid.
-/
theorem computeAll_resolves (valid : Valid plan state) (sound : plan.Sound)
    (source : RandomSource σ α) (opened : String → σ) (time origin : α)
    : Resolves (state.computeAll source opened time origin plan.order state.constants)
        fun (values, ended) =>
          Valid plan ended ∧ ∀ q ∈ plan.owners, values.lookup q.name ≠ none := by
  have swept := sweep_resolves (cells_ready valid sound source time origin)
    (fun cell member env known s => by
      obtain ⟨name, -, current, found, rfl⟩ := mem_cells.mp member
      have held := valid.held name current found
      exact Quantity.valueAt_resolves source (sound.calls current held) time origin
        (fun root read => valid.constants root (sound.anchors current held root read)) known s)
    valid.constants (state.streamAt opened)
  rw [← computeAll_sweep source opened valid.coherent] at swept
  cases computed : state.computeAll source opened time origin plan.order state.constants with
  | error halt =>
      rw [computed] at swept
      exact swept
  | ok result =>
      obtain ⟨values, ended⟩ := result
      rw [computed] at swept
      obtain ⟨setting, coherent⟩ := computeAll_frame valid.coherent computed
      refine ⟨valid.of_sameSetting setting coherent, fun q member => swept q.name ?_⟩
      rw [cells_names valid sound]
      exact sound.constant_or_ordered member

-----------------------------------------------------------------------------------------
-- Branches
-----------------------------------------------------------------------------------------

/-- The state with a declaration of a branch put in the place of the one of its name. -/
def replacing (branch : String) (state : RunState σ α) (nested : Quantity α)
    (interpolants : Entries (Interpolant α)) : RunState σ α :=
  {
    state with
    inForce := state.inForce.put nested.name ⟨nested, overrideStream branch nested.name⟩
    interpolants := interpolants
  }

/-- What a declaration of a branch does: it is ignored where none of its name and kind is in
force, a variable or impact takes its place, and a constant is drawn anew from its own stream.
-/
theorem override_cases (source : RandomSource σ α) (opened : String → σ) (pins : Env α)
    (branch : String) (state : RunState σ α) (nested : Quantity α)
    : (∀ current, state.inForce.lookup nested.name = some current
          → current.declaration.kind ≠ nested.kind)
        ∧ override source opened pins branch state nested = .ok state
      ∨ ∃ current, state.inForce.lookup nested.name = some current
          ∧ current.declaration.kind = nested.kind
          ∧ (nested.isConstant = false
                ∧ override source opened pins branch state nested
                  = .ok (state.replacing branch nested (state.interpolants.without nested.name))
              ∨ nested.isConstant = true
                ∧ override source opened pins branch state nested
                  = (nested.drawConstant source pins state.constants
                        (state.streamAt opened (overrideStream branch nested.name))).map
                      fun (x, s) => {
                        state.replacing branch nested [] with
                        streams := state.streams.put (overrideStream branch nested.name) s
                        constants := (nested.name, x) :: state.constants
                      }) := by
  simp only [override]
  cases found : state.inForce.lookup nested.name with
  | none => exact Or.inl ⟨by simp, rfl⟩
  | some current =>
      by_cases kind : current.declaration.kind = nested.kind
      · refine Or.inr ⟨current, rfl, kind, ?_⟩
        cases constant : nested.isConstant with
        | false => exact Or.inl ⟨rfl, by simp [kind, replacing]⟩
        | true =>
            refine Or.inr ⟨rfl, ?_⟩
            have streams (inForce : Entries (InForce α))
                : streamAt opened { state with inForce := inForce } = state.streamAt opened :=
              rfl
            simp only [kind, beq_self_eq_true, if_true, drawConstant_eq, streams]
            cases nested.drawConstant source pins state.constants
                (state.streamAt opened (overrideStream branch nested.name)) with
            | error halt => rfl
            | ok result => rfl
      · refine Or.inl ⟨?_, by simp [kind]⟩
        rintro other same
        cases same
        exact kind

/-- With another declaration in the place of one of its name, what is remembered of other names
stays right.
-/
theorem Coherent.replacing (coherent : state.Coherent) (branch : String) (nested : Quantity α)
    {interpolants : Entries (Interpolant α)}
    (remembered
      : ∀ name f, interpolants.lookup name = some f
          → name ≠ nested.name ∧ state.interpolants.lookup name = some f)
    : (state.replacing branch nested interpolants).Coherent := by
  constructor
  · intro name current found
    by_cases same : name = nested.name
    · subst same
      rw [RunState.replacing, Entries.lookup_put_self] at found
      rw [← Option.some.inj found]
    · rw [RunState.replacing, Entries.lookup_put_of_ne _ _ same] at found
      exact coherent.named name current found
  · intro name f known v stream found
    obtain ⟨different, old⟩ := remembered name f known
    rw [RunState.replacing, Entries.lookup_put_of_ne _ _ different] at found
    exact coherent.remembered name f old v stream found

/-- A declaration of a branch may take the place of one of its name and kind; the functions
that stay remembered are those of other names.
-/
theorem Valid.replacing (valid : Valid plan state) {b : Branch α} (branch : b ∈ plan.branches)
    {nested : Quantity α} (member : nested ∈ b.overrides) (replaces : plan.Replaces nested)
    {interpolants : Entries (Interpolant α)}
    (remembered
      : ∀ name f, interpolants.lookup name = some f
          → name ≠ nested.name ∧ state.interpolants.lookup name = some f)
    : Valid plan (state.replacing b.name nested interpolants) := by
  have cases (name : String) (current : InForce α)
      (found
        : (state.replacing b.name nested interpolants).inForce.lookup name = some current)
      : name = nested.name ∧ current = ⟨nested, overrideStream b.name nested.name⟩
        ∨ name ≠ nested.name ∧ state.inForce.lookup name = some current := by
    by_cases same : name = nested.name
    · subst same
      rw [RunState.replacing, Entries.lookup_put_self] at found
      exact Or.inl ⟨rfl, (Option.some.inj found).symm⟩
    · rw [RunState.replacing, Entries.lookup_put_of_ne _ _ same] at found
      exact Or.inr ⟨same, found⟩
  refine ⟨valid.coherent.replacing b.name nested remembered, ?_, ?_, valid.constants⟩
  · intro name current found
    rcases cases name current found with ⟨rfl, rfl⟩ | ⟨-, old⟩
    · exact .override branch member replaces
    · exact valid.held name current old
  · intro q owns
    by_cases same : q.name = nested.name
    · simp [RunState.replacing, same, Entries.lookup_put_self]
    · simp only [RunState.replacing, Entries.lookup_put_of_ne _ _ same]
      exact valid.present q owns

/-- What is in force under a name may be replaced by declarations of its kind. -/
theorem Valid.replaces (valid : Valid plan state) {nested : Quantity α} {current : InForce α}
    (found : state.inForce.lookup nested.name = some current)
    (kind : current.declaration.kind = nested.kind)
    : plan.Replaces nested := by
  obtain ⟨owner, owns, sameName, sameKind⟩ := (valid.held nested.name current found).replaces
  rw [valid.coherent.named nested.name current found] at sameName
  exact ⟨owner, owns, sameName, sameKind.trans kind⟩

/-- Another value of a constant leaves a state valid in which no function is remembered. -/
theorem Valid.redraw (valid : Valid plan state) (forgotten : state.interpolants = [])
    (streams : Entries σ) (name : String) (x : α)
    : Valid plan { state with streams := streams, constants := (name, x) :: state.constants } := by
  refine ⟨⟨valid.coherent.named, ?_⟩, valid.held, valid.present, ?_⟩
  · intro other f known
    simp [forgotten] at known
  · intro other constant
    by_cases same : other = name
    · simp [same]
    · rw [Entries.lookup_cons_of_ne same]
      exact valid.constants other constant

/-- A declaration of a branch is put in place without anything missing. -/
theorem override_resolves (valid : Valid plan state) (sound : plan.Sound)
    (source : RandomSource σ α) (opened : String → σ) {b : Branch α}
    (branch : b ∈ plan.branches) {nested : Quantity α} (member : nested ∈ b.overrides)
    : Resolves (override source opened plan.pins b.name state nested) (Valid plan) := by
  rcases override_cases source opened plan.pins b.name state nested with
    ⟨-, same⟩ | ⟨current, found, kind, ⟨-, same⟩ | ⟨-, same⟩⟩
  · rw [same]
    exact valid
  · rw [same]
    exact valid.replacing branch member (valid.replaces found kind) fun _ _ =>
      Entries.lookup_without
  · have replaces := valid.replaces found kind
    have held := Plan.MayHold.override branch member replaces
    have drawn := nested.drawConstant_resolves source plan.pins (sound.calls _ held)
      (fun root read => valid.constants root (sound.redrawn _ held root read))
      (state.streamAt opened (overrideStream b.name nested.name))
    rw [same]
    refine Resolves.map (drawn.mono fun result _ => ?_)
    exact (valid.replacing branch member replaces (by simp)).redraw rfl _ _ _

/-- So are several of them, by induction along the declarations. -/
theorem overrideAll_resolves (sound : plan.Sound) (source : RandomSource σ α)
    (opened : String → σ) {b : Branch α} (branch : b ∈ plan.branches)
    {nested : List (Quantity α)} (included : ∀ q ∈ nested, q ∈ b.overrides)
    {state : RunState σ α} (valid : Valid plan state)
    : Resolves (overrideAll source opened plan.pins b.name state nested) (Valid plan) := by
  induction nested generalizing state with
  | nil => exact valid
  | cons q rest ih =>
      have first := override_resolves valid sound source opened branch (included q (by simp))
      simp only [overrideAll]
      cases done : override source opened plan.pins b.name state q with
      | error halt => exact first.reason done
      | ok next =>
          rw [done] at first
          exact ih (fun other member => included other (List.mem_cons_of_mem _ member)) first

/-- The state after the draw that decides whether a branch is taken. -/
def gated (source : RandomSource σ α) (opened : String → σ) (state : RunState σ α)
    (branch : String) : RunState σ α :=
  {
    state with
    streams := state.streams.put (gateStream branch)
      (source.unit (state.streamAt opened (gateStream branch))).2
    decided := branch :: state.decided
  }

/-- The state with a branch taken. -/
def taking (state : RunState σ α) (branch : String) : RunState σ α :=
  { state with activated := branch :: state.activated }

/-- What happens to a branch that is looked at. -/
theorem decide_eq (source : RandomSource σ α) (opened : String → σ) (pins env : Env α)
    (state : RunState σ α) (b : Branch α)
    : decide source opened pins env state b
      = if b.name ∈ state.decided then .ok state
        else
          match b.condition.value env with
          | .error halt => .error halt
          | .ok holds =>
              if Scalar.isTrue holds = false then .ok state
              else if Scalar.le (b.probability.getD standardProbability)
                  (source.unit (state.streamAt opened (gateStream b.name))).1 = true then
                .ok (state.gated source opened b.name)
              else
                overrideAll source opened pins b.name
                  ((state.gated source opened b.name).taking b.name) b.overrides := by
  simp only [decide, List.contains_iff_mem]
  split
  · rfl
  · cases b.condition.value env with
    | error halt => rfl
    | ok holds =>
        simp only [Bool.not_eq_true', drawFrom_eq, Except.map]
        split
        · rfl
        · rfl

/-- Looking at a branch keeps a state valid until declarations are replaced. -/
theorem Valid.gated (valid : Valid plan state) (source : RandomSource σ α)
    (opened : String → σ) (branch : String)
    : Valid plan (state.gated source opened branch) :=
  ⟨⟨valid.coherent.named, valid.coherent.remembered⟩, valid.held, valid.present,
    valid.constants⟩

theorem Valid.taking (valid : Valid plan state) (branch : String)
    : Valid plan (state.taking branch) :=
  ⟨⟨valid.coherent.named, valid.coherent.remembered⟩, valid.held, valid.present,
    valid.constants⟩

/-- A branch is looked at without anything missing. -/
theorem decide_resolves (valid : Valid plan state) (sound : plan.Sound)
    (source : RandomSource σ α) (opened : String → σ) {env : Env α}
    (values : ∀ q ∈ plan.owners, env.lookup q.name ≠ none) {b : Branch α}
    (branch : b ∈ plan.branches)
    : Resolves (decide source opened plan.pins env state b) (Valid plan) := by
  have condition := Expr.value_resolves b.condition ⟨sound.conditionCalls b branch,
    fun root read => by
      obtain ⟨q, member, rfl⟩ := sound.conditions b branch root read
      exact values q member⟩
  rw [decide_eq]
  split
  · exact valid
  · cases held : b.condition.value env with
    | error halt => exact condition.reason held
    | ok holds =>
        have gated := valid.gated source opened b.name
        simp only
        split
        · exact valid
        · split
          · exact gated
          · exact overrideAll_resolves sound source opened branch (fun _ member => member)
              (gated.taking b.name)

/-- So are several branches, by induction along them. -/
theorem decideAll_resolves (sound : plan.Sound) (source : RandomSource σ α)
    (opened : String → σ) {env : Env α}
    (values : ∀ q ∈ plan.owners, env.lookup q.name ≠ none) {branches : List (Branch α)}
    (included : ∀ b ∈ branches, b ∈ plan.branches) {state : RunState σ α}
    (valid : Valid plan state)
    : Resolves (decideAll source opened plan.pins env state branches) (Valid plan) := by
  induction branches generalizing state with
  | nil => exact valid
  | cons b rest ih =>
      have first := decide_resolves valid sound source opened values (included b (by simp))
      simp only [decideAll]
      cases done : decide source opened plan.pins env state b with
      | error halt => exact first.reason done
      | ok next =>
          rw [done] at first
          exact ih (fun other member => included other (List.mem_cons_of_mem _ member)) first

end RunState

-----------------------------------------------------------------------------------------
-- Runs
-----------------------------------------------------------------------------------------

namespace Plan

variable {plan : Plan α}

/-- All points in time are computed without anything missing, by induction along them. -/
theorem runThrough_resolves (sound : plan.Sound) (source : RandomSource σ α)
    (opened : String → σ) (times : List α) {state : RunState σ α}
    (valid : state.Valid plan)
    : Resolves (plan.runThrough source opened times state) fun _ => True := by
  induction times generalizing state with
  | nil => trivial
  | cons time rest ih =>
      have computation := RunState.computeAll_resolves valid sound source opened time plan.origin
      simp only [runThrough]
      cases computed
        : state.computeAll source opened time plan.origin plan.order state.constants with
      | error halt => exact computation.reason computed
      | ok result =>
          obtain ⟨env, next⟩ := result
          rw [computed] at computation
          obtain ⟨validNext, values⟩ := computation
          have decision := RunState.decideAll_resolves sound source opened values
            (fun _ member => member) validNext
          simp only
          cases decided : next.decideAll source opened plan.pins env plan.branches with
          | error halt => exact decision.reason decided
          | ok later =>
              rw [decided] at decision
              have others := ih decision
              simp only
              cases ran : plan.runThrough source opened rest later with
              | error halt => exact others.reason ran
              | ok outcome => trivial

/-- A run of a sound plan misses nothing, whatever the streams give. -/
theorem Sound.run_resolves (sound : plan.Sound) (source : RandomSource σ α) (number : Nat)
    : Resolves (plan.run source number) fun _ => True := by
  have draws := RunState.drawConstants_resolves sound source (source.stream plan.seed number)
  simp only [run]
  cases drawn : (RunState.start plan).drawConstants source (source.stream plan.seed number)
      plan.pins plan.constants with
  | error halt => exact draws.reason drawn
  | ok state =>
      rw [drawn] at draws
      have through := runThrough_resolves sound source (source.stream plan.seed number)
        plan.times draws
      simp only
      cases ran : plan.runThrough source (source.stream plan.seed number) plan.times state with
      | error halt => exact through.reason ran
      | ok outcome => trivial

end Plan

end Prognosis
