import Prognosis.Proofs.Simulation.Computation
import Prognosis.Proofs.Simulation.Replacement

/-! Values that nothing random enters. The equations of cells without randomness have at most one
solution, whatever streams the values were drawn from.
-/

namespace Prognosis

variable {σ α : Type} [Scalar α]

-----------------------------------------------------------------------------------------
-- Certain declarations
-----------------------------------------------------------------------------------------

/-- Nothing random enters the value: it has no uncertainty, and as a parameter it has a declared
value.
-/
def Quantity.IsCertain : Quantity α → Prop
  | .assumption a => a.uncertainty = none
  | .parameter p => p.uncertainty = none ∧ p.value ≠ none
  | .varying v => v.uncertainty = none
  | .impact _ => True

/-- What a draw gives does not depend on the stream that it draws from. -/
def IgnoresStream (draw : σ → Except Halt (α × σ)) : Prop :=
  ∀ s s', (draw s).map Prod.fst = (draw s').map Prod.fst

namespace IgnoresStream

omit [Scalar α] in
theorem eq {draw : σ → Except Halt (α × σ)} (ignores : IgnoresStream draw) {s s' t t' : σ}
    {x y : α} (drawn : draw s = .ok (x, t)) (drawn' : draw s' = .ok (y, t'))
    : x = y := by
  have same := ignores s s'
  rw [drawn, drawn'] at same
  exact Except.ok.inj same

/-- A value without uncertainty is its base. -/
theorem of_base (source : RandomSource σ α) (base : Except Halt α) (env : Env α)
    : IgnoresStream fun s => base >>= fun x => drawAround source none x env s := by
  intro s s'
  cases base <;> rfl

end IgnoresStream

namespace Quantity

variable {q : Quantity α}

/-- A constant into which nothing random enters is drawn from any stream alike. -/
theorem IsCertain.drawConstant (certain : q.IsCertain) (source : RandomSource σ α)
    (pins env : Env α)
    : IgnoresStream (q.drawConstant source pins env) := by
  intro s s'
  cases q with
  | assumption a =>
      have fixed : a.uncertainty = none := certain
      simp only [Quantity.drawConstant, Assumption.draw, fixed]
      exact IgnoresStream.of_base source _ env s s'
  | parameter p =>
      obtain ⟨fixed, declared⟩ := certain
      obtain ⟨value, has⟩ := Option.ne_none_iff_exists'.mp declared
      simp only [Quantity.drawConstant, Parameter.draw, has, fixed]
      cases pins.lookup p.name with
      | some x => rfl
      | none => exact IgnoresStream.of_base source _ env s s'
  | varying v => rfl
  | impact i => rfl

/-- So it is at any point in time. -/
theorem IsCertain.valueAt (certain : q.IsCertain) (source : RandomSource σ α)
    (constants : Env α) (time origin : α) (env : Env α)
    : IgnoresStream (q.valueAt source constants time origin env) := by
  intro s s'
  cases q with
  | assumption a => rfl
  | parameter p => rfl
  | varying v =>
      have fixed : v.uncertainty = none := certain
      simp only [Quantity.valueAt, fixed]
      cases v.baseAt constants env time origin <;> rfl
  | impact i =>
      simp only [Quantity.valueAt]
      cases i.value env <;> rfl

end Quantity

-----------------------------------------------------------------------------------------
-- Equations with one solution
-----------------------------------------------------------------------------------------

namespace Cell

omit [Scalar α]

/-- Drawn with the values as they are, from its stream or another one, the cell gives the value of
its name.
-/
def Gives (cell : Cell σ α) (env : Env α) : Prop :=
  ∃ s x s', cell.draw env s = .ok (x, s') ∧ env.lookup cell.name = some x

/-- Values that agree on what a cell reads are both given by it only if they agree on its name. -/
theorem Gives.lookup_eq {cell : Cell σ α} {env env' : Env α} (gives : cell.Gives env)
    (gives' : cell.Gives env') (ignores : ∀ env, IgnoresStream (cell.draw env))
    (agree : AgreeOn cell.reads env env')
    : env.lookup cell.name = env'.lookup cell.name := by
  obtain ⟨s, x, t, drawn, has⟩ := gives
  obtain ⟨s', y, t', drawn', has'⟩ := gives'
  rw [cell.draw_congr agree] at drawn
  rw [has, has', (ignores env').eq drawn drawn']

/-- Values that agree where they are given and that ready cells give agree on all names of the
cells. By induction along the cells.
-/
theorem Ready.lookup_eq {given : String → Prop} {cells : List (Cell σ α)}
    (ready : Ready given cells) (ignores : ∀ cell ∈ cells, ∀ env, IgnoresStream (cell.draw env))
    {env env' : Env α} (gives : ∀ cell ∈ cells, cell.Gives env)
    (gives' : ∀ cell ∈ cells, cell.Gives env')
    (start : ∀ name, given name → env.lookup name = env'.lookup name)
    : ∀ cell ∈ cells, env.lookup cell.name = env'.lookup cell.name := by
  induction ready with
  | nil => simp
  | @cons given cell rest reads new others ih =>
      simp only [List.forall_mem_cons] at ignores gives gives' ⊢
      have first := gives.1.lookup_eq gives'.1 ignores.1 fun root read =>
        start root (reads root read)
      refine ⟨first, ih ignores.2 gives.2 gives'.2 ?_⟩
      rintro name (old | rfl)
      · exact start name old
      · exact first

end Cell

omit [Scalar α] in
/-- Ready cells give the values that a sweep over them leaves, also where streams are shared, and
all other values stay. By induction along the cells: no later cell draws what a cell reads.
-/
theorem sweep_gives {given : String → Prop} {cells : List (Cell σ α)}
    (ready : Cell.Ready given cells) {before after : Env α} {streams ended : String → σ}
    (swept : sweep cells before streams = .ok (after, ended))
    : (∀ cell ∈ cells, cell.Gives after)
      ∧ ∀ name, given name → after.lookup name = before.lookup name := by
  induction ready generalizing before streams with
  | nil =>
      cases swept
      exact ⟨by simp, fun _ _ => rfl⟩
  | @cons given cell rest reads new others ih =>
      simp only [sweep] at swept
      cases first : cell.draw before (streams cell.stream) with
      | error halt => simp [first] at swept
      | ok result =>
          obtain ⟨x, s⟩ := result
          simp only [first] at swept
          obtain ⟨gives, kept⟩ := ih swept
          have old {name : String} (known : given name)
              : after.lookup name = before.lookup name := by
            have different : name ≠ cell.name := fun same => new (same ▸ known)
            rw [kept name (Or.inl known), Entries.lookup_cons_of_ne different]
          refine ⟨List.forall_mem_cons.mpr ⟨⟨streams cell.stream, x, s, ?_, ?_⟩, gives⟩,
            fun _ => old⟩
          · rw [cell.draw_congr fun root read => old (reads root read), first]
          · rw [kept cell.name (Or.inr rfl), List.lookup_cons_self]

end Prognosis

/-! Constants that fit together: each is what its declaration in force gives for the values of the
others as they are. A branch draws only the constants that it declares, once and in their order, so
it keeps this where no constant is left behind that reads one drawn after it.
-/

namespace Prognosis

variable {σ α : Type}

-----------------------------------------------------------------------------------------
-- Declarations that stand
-----------------------------------------------------------------------------------------

/-- The declaration takes the place of an owner: it has the same name and kind. -/
def Quantity.replaces (q owner : Quantity α) : Bool :=
  q.name == owner.name && q.kind == owner.kind

theorem Quantity.replaces_iff {q owner : Quantity α}
    : q.replaces owner = true ↔ q.name = owner.name ∧ q.kind = owner.kind := by
  simp [replaces]

namespace Branch

/-- What stands for an owner once the branch is taken: the last declaration that takes its place, or
else the owner itself.
-/
def standing (b : Branch α) (owner : Quantity α) : Quantity α :=
  (b.overrides.filter (·.replaces owner)).getLast?.getD owner

theorem standing_cases (b : Branch α) (owner : Quantity α)
    : b.standing owner = owner
      ∨ b.standing owner ∈ b.overrides ∧ (b.standing owner).replaces owner = true := by
  rw [standing]
  cases last : (b.overrides.filter (·.replaces owner)).getLast? with
  | none => exact Or.inl rfl
  | some q => exact Or.inr (List.mem_filter.mp (List.mem_of_getLast? last))

theorem standing_name (b : Branch α) (owner : Quantity α)
    : (b.standing owner).name = owner.name := by
  rcases b.standing_cases owner with same | ⟨-, replaces⟩
  · rw [same]
  · exact (Quantity.replaces_iff.mp replaces).1

theorem standing_kind (b : Branch α) (owner : Quantity α)
    : (b.standing owner).kind = owner.kind := by
  rcases b.standing_cases owner with same | ⟨-, replaces⟩
  · rw [same]
  · exact (Quantity.replaces_iff.mp replaces).2

/-- Taken, the branch leaves no constant behind. Neither an owner that it does not replace nor a
constant that it draws reads one that it draws later.
-/
structure Refreshes (b : Branch α) (owners : List (Quantity α)) : Prop where
  kept
    : ∀ q ∈ owners, b.overrides.all (!·.replaces q) = true →
        ∀ later ∈ b.overrides, owners.any later.replaces = true → later.name ∉ q.constantRoots
  ordered
    : b.overrides.Pairwise fun q later =>
        owners.any later.replaces = true → later.name ∉ q.constantRoots

instance (b : Branch α) (owners : List (Quantity α)) : Decidable (b.Refreshes owners) :=
  decidable_of_iff
    ((∀ q ∈ owners, b.overrides.all (!·.replaces q) = true →
        ∀ later ∈ b.overrides, owners.any later.replaces = true → later.name ∉ q.constantRoots)
      ∧ b.overrides.Pairwise fun q later =>
        owners.any later.replaces = true → later.name ∉ q.constantRoots)
    ⟨fun ⟨kept, ordered⟩ => ⟨kept, ordered⟩, fun ⟨kept, ordered⟩ => ⟨kept, ordered⟩⟩

end Branch

-----------------------------------------------------------------------------------------
-- Settled constants
-----------------------------------------------------------------------------------------

variable [Scalar α]

namespace RunState

variable {source : RandomSource σ α} {opened : String → σ} {pins : Env α} {plan : Plan α}
  {state ended : RunState σ α}

/-- If a name has a constant in force, its value is the one that this constant gives for the values
of the constants as they are.
-/
def SettledAt (source : RandomSource σ α) (pins : Env α) (state : RunState σ α) (name : String)
    : Prop :=
  ∀ current, state.inForce.lookup name = some current → current.declaration.isConstant = true →
    (constantCell source pins current.declaration).Gives state.constants

/-- Before time runs all constants are settled. -/
theorem drawConstants_settled (sound : plan.Sound)
    (drawn : (start plan).drawConstants source opened plan.pins plan.constants = .ok ended)
    (name : String)
    : ended.SettledAt source plan.pins name := by
  intro current found constant
  obtain ⟨inForce, -⟩ := drawConstants_frame drawn
  obtain ⟨q, owns, rfl, rfl⟩ := lookup_start (inForce ▸ found)
  have swept := drawConstants_sweep source opened plan.pins (start plan) plan.constants
  rw [drawn] at swept
  exact (sweep_gives (constantCells_ready sound source) swept.symm).1 _
    (List.mem_map_of_mem (List.mem_filter.mpr ⟨owns, constant⟩))

/-- A name stays settled when neither its declaration nor what that reads changes. -/
theorem SettledAt.of_agree {name : String} (settled : state.SettledAt source pins name)
    (named
      : ∀ current, state.inForce.lookup name = some current → current.declaration.name = name)
    (inForce : ended.inForce.lookup name = state.inForce.lookup name)
    (value : ended.constants.lookup name = state.constants.lookup name)
    (agree
      : ∀ current, state.inForce.lookup name = some current
          → AgreeOn current.declaration.constantRoots state.constants ended.constants)
    : ended.SettledAt source pins name := by
  intro current found constant
  rw [inForce] at found
  obtain ⟨s, x, s', drawn, has⟩ := settled current found constant
  refine ⟨s, x, s', ?_, ?_⟩
  · rw [← (constantCell source pins current.declaration).draw_congr (agree current found)]
    exact drawn
  · have same : (constantCell source pins current.declaration).name = name := named current found
    rw [same] at has ⊢
    rw [value, has]

theorem SettledAt.of_sameSetting {name : String} (settled : state.SettledAt source pins name)
    (setting : SameSetting state ended)
    : ended.SettledAt source pins name := by
  rw [SettledAt, setting.inForce, setting.constants]
  exact settled

-----------------------------------------------------------------------------------------
-- Declarations of branches
-----------------------------------------------------------------------------------------

/-- A declaration of a branch draws the constant of its name, if it is a constant and takes the
place of one. Otherwise the constants stay as they are.
-/
theorem override_constants {branch : String} {q : Quantity α}
    (done : override source opened pins branch state q = .ok ended)
    : ended.constants = state.constants
          ∧ (q.isConstant = true
              → ∀ current, state.inForce.lookup q.name = some current
                → current.declaration.kind ≠ q.kind)
        ∨ (∃ current, state.inForce.lookup q.name = some current
              ∧ current.declaration.kind = q.kind)
          ∧ ∃ s x s', q.drawConstant source pins state.constants s = .ok (x, s')
              ∧ ended.constants = (q.name, x) :: state.constants := by
  rcases override_cases source opened pins branch state q with
    ⟨ignored, same⟩ | ⟨current, found, kind, ⟨varying, same⟩ | ⟨-, same⟩⟩
  · rw [same] at done
    cases done
    exact Or.inl ⟨rfl, fun _ => ignored⟩
  · rw [same] at done
    cases done
    exact Or.inl ⟨rfl, by simp [varying]⟩
  · rw [same] at done
    obtain ⟨⟨x, s⟩, drawn, rfl⟩ := exists_of_map_eq_ok done
    exact Or.inr ⟨⟨current, found, kind⟩, _, x, s, drawn, rfl⟩

/-- An owner is settled unless one of the declarations to come takes its place, and what is in force
for it reads no constant that they draw.
-/
structure SettledBut (plan : Plan α) (source : RandomSource σ α) (coming : List (Quantity α))
    (state : RunState σ α) : Prop where
  settled
    : ∀ owner ∈ plan.owners, coming.all (!·.replaces owner) = true
        → state.SettledAt source plan.pins owner.name
  reads
    : ∀ owner ∈ plan.owners, coming.all (!·.replaces owner) = true
        → ∀ current, state.inForce.lookup owner.name = some current
          → ∀ q ∈ coming, plan.owners.any q.replaces = true
            → q.name ∉ current.declaration.constantRoots

/-- Before the branch is taken all owners are settled, and those that it does not replace read no
constant that it draws.
-/
theorem SettledBut.of_refreshes {b : Branch α} (refreshes : b.Refreshes plan.owners)
    (inForce
      : ∀ owner ∈ plan.owners, ∀ current,
          state.inForce.lookup owner.name = some current → current.declaration = owner)
    (settled : ∀ owner ∈ plan.owners, state.SettledAt source plan.pins owner.name)
    : SettledBut plan source b.overrides state := {
  settled := fun owner owns _ => settled owner owns
  reads := fun owner owns free current found q among replaced => by
    rw [inForce owner owns current found]
    exact refreshes.kept owner owns free q among replaced
}

omit [Scalar α] in
/-- A new value shows only to those that read its name. -/
theorem agreeOn_cons {constants : Env α} {name : String} {x : α} {roots : List String}
    (unread : name ∉ roots)
    : AgreeOn roots constants ((name, x) :: constants) := by
  intro root read
  have different : root ≠ name := fun same => unread (same ▸ read)
  exact (Entries.lookup_cons_of_ne different x constants).symm

/-- What a declaration of a branch puts in force. -/
theorem override_inForce {b : Branch α} {q : Quantity α} (valid : Valid plan state)
    (sound : plan.Sound) (done : override source opened plan.pins b.name state q = .ok ended)
    {owner : Quantity α} (owns : owner ∈ plan.owners)
    : ended.inForce.lookup owner.name
      = if q.replaces owner then some ⟨q, overrideStream b.name owner.name⟩
        else state.inForce.lookup owner.name :=
  override_lookup valid sound done owns

/-- The declaration of a branch that comes next settles the owner whose place it takes. -/
theorem override_settled {b : Branch α} {q : Quantity α} (valid : Valid plan state)
    (sound : plan.Sound) (unread : q.name ∉ q.constantRoots)
    (done : override source opened plan.pins b.name state q = .ok ended) {owner : Quantity α}
    (owns : owner ∈ plan.owners) (replaces : q.replaces owner = true)
    : ended.SettledAt source plan.pins owner.name := by
  obtain ⟨named, kind⟩ := Quantity.replaces_iff.mp replaces
  intro current found constant
  rw [override_inForce valid sound done owns, if_pos replaces] at found
  cases found
  rcases override_constants done with ⟨-, ignored⟩ | ⟨-, s, x, s', drawn, grown⟩
  · obtain ⟨old, found⟩ := Option.ne_none_iff_exists'.mp (valid.present owner owns)
    exact absurd ((valid.kind_eq sound owns found).trans kind.symm)
      (ignored constant old (named ▸ found))
  · refine ⟨s, x, s', ?_, ?_⟩
    · rw [grown, ← (constantCell source plan.pins q).draw_congr (agreeOn_cons unread)]
      exact drawn
    · rw [grown]
      exact List.lookup_cons_self

/-- It keeps any other owner settled that does not read it. -/
theorem SettledAt.override {b : Branch α} {q owner : Quantity α}
    (settled : state.SettledAt source plan.pins owner.name) (valid : Valid plan state)
    (sound : plan.Sound) (done : override source opened plan.pins b.name state q = .ok ended)
    (owns : owner ∈ plan.owners) (other : q.replaces owner = false)
    (unread
      : plan.owners.any q.replaces = true
          → ∀ current, state.inForce.lookup owner.name = some current
            → q.name ∉ current.declaration.constantRoots)
    : ended.SettledAt source plan.pins owner.name := by
  have inForce := override_inForce valid sound done owns
  rw [if_neg (by simp [other])] at inForce
  rcases override_constants done with ⟨same, -⟩ | ⟨⟨old, present, kind⟩, s, x, s', -, grown⟩
  · refine settled.of_agree (valid.coherent.named _) inForce (by rw [same]) fun _ _ => ?_
    rw [same]
    exact fun _ _ => rfl
  · have different : owner.name ≠ q.name := by
      intro same
      have sameKind := kind.symm.trans (valid.kind_eq sound owns (same ▸ present))
      rw [Quantity.replaces_iff.mpr ⟨same.symm, sameKind⟩] at other
      cases other
    have replaced : plan.owners.any q.replaces = true := by
      obtain ⟨place, holds, name, kind⟩ := valid.replaces present kind
      exact List.any_eq_true.mpr ⟨place, holds, Quantity.replaces_iff.mpr ⟨name.symm, kind.symm⟩⟩
    refine settled.of_agree (valid.coherent.named _) inForce ?_ fun current found => ?_
    · rw [grown, Entries.lookup_cons_of_ne different]
    · rw [grown]
      exact agreeOn_cons (unread replaced current found)

/-- A declaration of a branch that comes next settles the constant of its name. -/
theorem SettledBut.override {b : Branch α} {q : Quantity α} {coming : List (Quantity α)}
    (but : SettledBut plan source (q :: coming) state) (valid : Valid plan state)
    (sound : plan.Sound) (own : plan.owners.any q.replaces = true → q.name ∉ q.constantRoots)
    (later
      : ∀ next ∈ coming, plan.owners.any next.replaces = true → next.name ∉ q.constantRoots)
    (done : override source opened plan.pins b.name state q = .ok ended)
    : SettledBut plan source coming ended := by
  constructor
  case settled =>
    intro owner owns free
    cases replaces : q.replaces owner with
    | true =>
        exact override_settled valid sound (own (List.any_eq_true.mpr ⟨owner, owns, replaces⟩)) done
          owns replaces
    | false =>
        have alone : (q :: coming).all (!·.replaces owner) = true := by simp [replaces, free]
        exact (but.settled owner owns alone).override valid sound done owns replaces
          fun replaced current found =>
            but.reads owner owns alone current found q List.mem_cons_self replaced
  case reads =>
    intro owner owns free current found next among replaced
    rw [override_inForce valid sound done owns] at found
    cases replaces : q.replaces owner with
    | true =>
        rw [if_pos replaces] at found
        cases found
        exact later next among replaced
    | false =>
        have alone : (q :: coming).all (!·.replaces owner) = true := by simp [replaces, free]
        rw [if_neg (by simp [replaces])] at found
        exact but.reads owner owns alone current found next (List.mem_cons_of_mem _ among) replaced

/-- After the declarations to come all owners are settled, by induction along these. -/
theorem SettledBut.overrideAll {b : Branch α} (sound : plan.Sound) (branch : b ∈ plan.branches)
    {coming : List (Quantity α)} (included : ∀ q ∈ coming, q ∈ b.overrides)
    (own : ∀ q ∈ coming, plan.owners.any q.replaces = true → q.name ∉ q.constantRoots)
    (ordered
      : coming.Pairwise fun q later =>
          plan.owners.any later.replaces = true → later.name ∉ q.constantRoots)
    (but : SettledBut plan source coming state) (valid : Valid plan state)
    (done : overrideAll source opened plan.pins b.name state coming = .ok ended)
    : ∀ owner ∈ plan.owners, ended.SettledAt source plan.pins owner.name := by
  induction coming generalizing state with
  | nil =>
      cases done
      exact fun owner owns => but.settled owner owns rfl
  | cons q coming ih =>
      obtain ⟨middle, first, later⟩ := overrideAll_cons_ok done
      obtain ⟨next, orderedRest⟩ := List.pairwise_cons.mp ordered
      have validNext := (override_resolves valid sound source opened branch
        (included q List.mem_cons_self)).holds first
      exact ih (fun other among => included other (List.mem_cons_of_mem _ among))
        (fun other among => own other (List.mem_cons_of_mem _ among)) orderedRest
        (but.override valid sound (own q List.mem_cons_self) next first) validNext later

-----------------------------------------------------------------------------------------
-- Declarations that are upheld
-----------------------------------------------------------------------------------------

/-- The declarations are in force, and those of constants are settled. -/
structure Upholds (source : RandomSource σ α) (pins : Env α) (declared : List (Quantity α))
    (state : RunState σ α) : Prop where
  inForce
    : ∀ q ∈ declared, ∃ stream, state.inForce.lookup q.name = some ⟨q, stream⟩
  settled : ∀ q ∈ declared, state.SettledAt source pins q.name

/-- Streams and remembered functions do not matter. -/
theorem Upholds.of_sameSetting {declared : List (Quantity α)}
    (holds : state.Upholds source pins declared) (setting : SameSetting state ended)
    : ended.Upholds source pins declared := {
  inForce := fun q member => by
    rw [setting.inForce]
    exact holds.inForce q member
  settled := fun q member => (holds.settled q member).of_sameSetting setting
}

/-- Before time runs the owners are upheld. -/
theorem drawConstants_upholds (sound : plan.Sound)
    (drawn : (start plan).drawConstants source opened plan.pins plan.constants = .ok ended)
    : ended.Upholds source plan.pins plan.owners := {
  inForce := fun q owns => by
    obtain ⟨inForce, -⟩ := drawConstants_frame drawn
    exact ⟨q.name, inForce ▸ lookup_start_owner sound owns⟩
  settled := fun q _ => drawConstants_settled sound drawn q.name
}

/-- Once a branch is taken that leaves no constant behind, what then stands is upheld. -/
theorem Upholds.overrideAll {b : Branch α} (sound : plan.Sound) (branch : b ∈ plan.branches)
    (refreshes : b.Refreshes plan.owners)
    (own : ∀ q ∈ b.overrides, plan.owners.any q.replaces = true → q.name ∉ q.constantRoots)
    (holds : state.Upholds source plan.pins plan.owners) (valid : Valid plan state)
    (done : overrideAll source opened plan.pins b.name state b.overrides = .ok ended)
    : ended.Upholds source plan.pins (plan.owners.map b.standing) := by
  have but : SettledBut plan source b.overrides state := by
    refine .of_refreshes refreshes (fun owner owns current found => ?_) holds.settled
    obtain ⟨stream, holds⟩ := holds.inForce owner owns
    rw [holds] at found
    cases found
    rfl
  have settled :=
    but.overrideAll sound branch (fun _ among => among) own refreshes.ordered valid done
  constructor
  case inForce =>
    intro q among
    obtain ⟨owner, owns, rfl⟩ := List.mem_map.mp among
    rw [b.standing_name, overrideAll_lookup sound branch (fun _ among => among) valid done owns]
    simp only [Branch.standing, Quantity.replaces]
    cases (b.overrides.filter fun q => q.name == owner.name && q.kind == owner.kind).getLast? with
    | some q => exact ⟨_, rfl⟩
    | none => exact holds.inForce owner owns
  case settled =>
    intro q among
    obtain ⟨owner, owns, rfl⟩ := List.mem_map.mp among
    rw [b.standing_name]
    exact settled owner owns

end RunState

end Prognosis

/-! What declarations without randomness determine. States in which the same declarations are in
force, with settled constants, have the same constants and compute the same values, however each of
them came about.
-/

namespace Prognosis

open RunState

variable {σ α : Type} [Scalar α]

namespace RunState

variable {source : RandomSource σ α} {opened opened' : String → σ} {plan other : Plan α}
  {a b ended ended' : RunState σ α}

/-- Where the owners are upheld and nothing random enters them, the constants are determined. -/
theorem Upholds.constants_eq (sound : plan.Sound) (certain : ∀ q ∈ plan.owners, q.IsCertain)
    (holds : a.Upholds source plan.pins plan.owners)
    (holds' : b.Upholds source plan.pins plan.owners)
    {name : String} (constant : name ∈ plan.constantNames)
    : a.constants.lookup name = b.constants.lookup name := by
  have gives {state : RunState σ α} (holds : state.Upholds source plan.pins plan.owners)
      : ∀ cell ∈ plan.constants.map (constantCell source plan.pins),
          cell.Gives state.constants := by
    intro cell member
    obtain ⟨q, among, rfl⟩ := List.mem_map.mp member
    obtain ⟨owns, fixed⟩ := List.mem_filter.mp among
    obtain ⟨stream, found⟩ := holds.inForce q owns
    exact holds.settled q owns _ found fixed
  obtain ⟨q, among, rfl⟩ := List.mem_map.mp constant
  refine (constantCells_ready sound source).lookup_eq ?_ (gives holds) (gives holds')
    (fun _ => False.elim) _ (List.mem_map_of_mem among)
  intro cell member env
  obtain ⟨r, chosen, rfl⟩ := List.mem_map.mp member
  exact (certain r (List.mem_filter.mp chosen).1).drawConstant source plan.pins env

/-- Cells of a point in time are those of the owners. -/
theorem Upholds.exists_of_mem_cells {pins : Env α} (sound : plan.Sound)
    (holds : a.Upholds source pins plan.owners) {time origin : α} {cell : Cell σ α}
    (member : cell ∈ a.cells source time origin plan.order)
    : ∃ q ∈ plan.owners, ∃ stream, q.name ∈ plan.order
        ∧ a.inForce.lookup q.name = some ⟨q, stream⟩
        ∧ cell = timedCell source a.constants time origin q.name ⟨q, stream⟩ := by
  obtain ⟨name, among, current, found, rfl⟩ := mem_cells.mp member
  obtain ⟨q, owns, rfl, -⟩ := (sound.order name).mp among
  obtain ⟨stream, there⟩ := holds.inForce q owns
  rw [there] at found
  cases found
  exact ⟨q, owns, stream, among, there, rfl⟩

/-- The values at a point in time are then determined as well, also when one of the states is that
of a run of another plan.
-/
theorem Upholds.values_eq (sound : plan.Sound) (valid : Valid plan a) (soundOther : other.Sound)
    (validOther : Valid other b) (certain : ∀ q ∈ other.owners, q.IsCertain)
    (holds : a.Upholds source other.pins other.owners)
    (holds' : b.Upholds source other.pins other.owners)
    (ordered : ∀ name ∈ other.order, name ∈ plan.order)
    (constants : ∀ name ∈ other.constantNames, name ∈ plan.constantNames)
    {time origin : α} {values values' : Env α}
    (computed : a.computeAll source opened time origin plan.order a.constants = .ok (values, ended))
    (computed'
      : b.computeAll source opened' time origin other.order b.constants = .ok (values', ended'))
    {q : Quantity α} (owns : q ∈ other.owners)
    : values.lookup q.name = values'.lookup q.name := by
  have swept := computeAll_sweep source opened valid.coherent time origin plan.order a.constants
  rw [computed] at swept
  obtain ⟨gives, kept⟩ := sweep_gives (cells_ready valid sound source time origin) swept.symm
  have swept' := computeAll_sweep source opened' validOther.coherent time origin other.order
    b.constants
  rw [computed'] at swept'
  have ready := cells_ready validOther soundOther source time origin
  obtain ⟨gives', kept'⟩ := sweep_gives ready swept'.symm
  have fixed (name : String) (constant : name ∈ other.constantNames)
      : values.lookup name = values'.lookup name := by
    rw [kept name (constants name constant), kept' name constant]
    exact holds.constants_eq soundOther certain holds' constant
  rcases soundOther.constant_or_ordered owns with constant | inOrder
  · exact fixed q.name constant
  -- Anchors read constants, so a cell of the other state draws with the constants of either state.
  have givesOther (cell : Cell σ α) (member : cell ∈ b.cells source time origin other.order)
      : cell.Gives values := by
    obtain ⟨r, owned, _, among, there, rfl⟩ := holds'.exists_of_mem_cells soundOther member
    obtain ⟨stream, here⟩ := holds.inForce r owned
    obtain ⟨s, x, s', drawn, has⟩ := gives _
      (mem_cells.mpr ⟨r.name, ordered r.name among, ⟨r, stream⟩, here, rfl⟩)
    refine ⟨s, x, s', ?_, has⟩
    have anchors : AgreeOn r.anchorRoots a.constants b.constants := fun root read =>
      holds.constants_eq soundOther certain holds'
        (soundOther.anchors _ (validOther.held _ _ there) root read)
    exact (congrFun (r.valueAt_congr source time origin anchors fun _ _ => rfl) s).symm.trans drawn
  have ignores (cell : Cell σ α) (member : cell ∈ b.cells source time origin other.order)
      (env : Env α)
      : IgnoresStream (cell.draw env) := by
    obtain ⟨r, owned, _, -, -, rfl⟩ := holds'.exists_of_mem_cells soundOther member
    exact (certain r owned).valueAt source b.constants time origin env
  obtain ⟨stream, there⟩ := holds'.inForce q owns
  exact ready.lookup_eq ignores givesOther gives' fixed _
    (mem_cells.mpr ⟨q.name, inOrder, ⟨q, stream⟩, there, rfl⟩)

end RunState

end Prognosis
